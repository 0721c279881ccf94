import TableQuery.Sorting
import Mathlib.Data.List.Chain
import Mathlib.Data.List.Forall2

namespace TableQuery.Sorting

variable {α β : Type}

/-- Two runs merged. The head of the right run is taken only where it is less. -/
def mergeRuns (cmp : α → α → Ordering) (left right : List α) : List α :=
  List.merge left right fun a b ↦ cmp b a != .lt

section

variable (cmp : α → α → Ordering)

@[simp] theorem mergeRuns_nil_left (right : List α) : mergeRuns cmp [] right = right :=
  List.nil_merge right

@[simp] theorem mergeRuns_nil_right (left : List α) : mergeRuns cmp left [] = left :=
  List.merge_right left

theorem mergeRuns_cons_of_lt {a b : α} (h : cmp b a = .lt) (left right : List α) :
    mergeRuns cmp (a :: left) (b :: right) = b :: mergeRuns cmp (a :: left) right := by
  simp [mergeRuns, h]

theorem mergeRuns_cons_of_ne_lt {a b : α} (h : cmp b a ≠ .lt) (left right : List α) :
    mergeRuns cmp (a :: left) (b :: right) = a :: mergeRuns cmp left (b :: right) := by
  simp [mergeRuns, h]

theorem mergeRuns_perm (left right : List α) : (mergeRuns cmp left right).Perm (left ++ right) :=
  List.merge_perm_append _

theorem mergeSort_of_length_le_one {l : List α} (h : l.length ≤ 1) : mergeSort cmp l = l := by
  rw [mergeSort, if_pos h]

theorem mergeSort_halves {l : List α} (h : ¬l.length ≤ 1) :
    mergeSort cmp l = mergeRuns cmp (mergeSort cmp (l.take (l.length / 2)))
      (mergeSort cmp (l.drop (l.length / 2))) := by
  rw [mergeSort, if_neg h]
  rfl

end

variable {cmp : α → α → Ordering}

theorem mergeSort_perm (l : List α) : (mergeSort cmp l).Perm l := by
  induction l using mergeSort.induct with
  | case1 l h => rw [mergeSort_of_length_le_one cmp h]
  | case2 l h ihl ihr =>
    rw [mergeSort_halves cmp h]
    refine (mergeRuns_perm cmp _ _).trans ((ihl.append ihr).trans ?_)
    rw [List.take_append_drop]

theorem head?_mergeRuns {left right : List α} {x : α}
    (h : x ∈ (mergeRuns cmp left right).head?) : x ∈ left.head? ∨ x ∈ right.head? := by
  cases left with
  | nil => exact .inr (by simpa using h)
  | cons a left =>
    cases right with
    | nil => exact .inl (by simpa using h)
    | cons b right =>
      by_cases hlt : cmp b a = .lt
      · rw [mergeRuns_cons_of_lt cmp hlt] at h
        exact .inr h
      · rw [mergeRuns_cons_of_ne_lt cmp hlt] at h
        exact .inl h

section

variable [Std.OrientedCmp cmp]

theorem isChain_mergeRuns {left right : List α} (hl : left.IsChain fun a b ↦ (cmp a b).isLE)
    (hr : right.IsChain fun a b ↦ (cmp a b).isLE) :
    (mergeRuns cmp left right).IsChain fun a b ↦ (cmp a b).isLE := by
  induction left generalizing right with
  | nil => simpa using hr
  | cons a left ihl =>
    induction right with
    | nil => simpa using hl
    | cons b right ihr =>
      obtain ⟨hla, hl'⟩ := List.isChain_cons.mp hl
      obtain ⟨hrb, hr'⟩ := List.isChain_cons.mp hr
      by_cases hlt : cmp b a = .lt
      · rw [mergeRuns_cons_of_lt cmp hlt]
        refine List.isChain_cons.mpr ⟨?_, ihr hr'⟩
        intro x hx
        rcases head?_mergeRuns hx with hx | hx
        · obtain rfl : a = x := by simpa using hx
          rw [hlt]
          rfl
        · exact hrb x hx
      · rw [mergeRuns_cons_of_ne_lt cmp hlt]
        refine List.isChain_cons.mpr ⟨?_, ihl hl' hr⟩
        intro x hx
        rcases head?_mergeRuns hx with hx | hx
        · exact hla x hx
        · obtain rfl : b = x := by simpa using hx
          by_contra hnot
          exact hlt (Std.OrientedCmp.lt_of_not_isLE hnot)

theorem isChain_mergeSort (l : List α) :
    (mergeSort cmp l).IsChain fun a b ↦ (cmp a b).isLE := by
  induction l using mergeSort.induct with
  | case1 l h =>
    rw [mergeSort_of_length_le_one cmp h]
    cases l with
    | nil => exact .nil
    | cons a l =>
      obtain rfl : l = [] := by simpa using h
      exact .singleton a
  | case2 l h ihl ihr =>
    rw [mergeSort_halves cmp h]
    exact isChain_mergeRuns ihl ihr

end

theorem forall₂_mergeRuns {cmp' : β → β → Ordering} {R : α → β → Prop}
    (hcmp : ∀ a b a' b', R a a' → R b b' → cmp a b = cmp' a' b') {left right : List α}
    {left' right' : List β} (hl : List.Forall₂ R left left') (hr : List.Forall₂ R right right') :
    List.Forall₂ R (mergeRuns cmp left right) (mergeRuns cmp' left' right') := by
  induction hl generalizing right right' with
  | nil => simpa using hr
  | @cons a a' left left' ha hl ihl =>
    induction hr with
    | nil => simpa using List.Forall₂.cons ha hl
    | @cons b b' right right' hb hr ihr =>
      by_cases h : cmp b a = .lt
      · rw [mergeRuns_cons_of_lt cmp h, mergeRuns_cons_of_lt cmp' (hcmp b a b' a' hb ha ▸ h)]
        exact .cons hb ihr
      · rw [mergeRuns_cons_of_ne_lt cmp h,
          mergeRuns_cons_of_ne_lt cmp' (hcmp b a b' a' hb ha ▸ h)]
        exact .cons ha (ihl (.cons hb hr))

theorem forall₂_mergeSort {cmp' : β → β → Ordering} {R : α → β → Prop}
    (hcmp : ∀ a b a' b', R a a' → R b b' → cmp a b = cmp' a' b') {l : List α} {l' : List β}
    (h : List.Forall₂ R l l') : List.Forall₂ R (mergeSort cmp l) (mergeSort cmp' l') := by
  induction l using mergeSort.induct generalizing l' with
  | case1 l hl =>
    have hl' : l'.length ≤ 1 := h.length_eq ▸ hl
    rwa [mergeSort_of_length_le_one cmp hl, mergeSort_of_length_le_one cmp' hl']
  | case2 l hl ihl ihr =>
    have hl' : ¬l'.length ≤ 1 := h.length_eq ▸ hl
    rw [mergeSort_halves cmp hl, mergeSort_halves cmp' hl']
    refine forall₂_mergeRuns hcmp ?_ ?_
    · rw [← h.length_eq]
      exact ihl (List.forall₂_take _ h)
    · rw [← h.length_eq]
      exact ihr (List.forall₂_drop _ h)

theorem rowOrder_congr {keys : List SortKey} {a b a' b' : Row}
    (ha : ∀ key ∈ keys, a.get key.column = a'.get key.column)
    (hb : ∀ key ∈ keys, b.get key.column = b'.get key.column) :
    rowOrder keys a b = rowOrder keys a' b' := by
  induction keys with
  | nil => rfl
  | cons key keys ih =>
    obtain ⟨ha₀, ha⟩ := List.forall_mem_cons.mp ha
    obtain ⟨hb₀, hb⟩ := List.forall_mem_cons.mp hb
    simp only [rowOrder, SortKey.order, ha₀, hb₀, ih ha hb]

theorem sortRows_perm (keys : List SortKey) (rows : List Row) :
    (sortRows keys rows).Perm rows := by
  unfold sortRows
  split
  · exact .refl rows
  · exact mergeSort_perm rows

theorem forall₂_sortRows {keys : List SortKey} {R : Row → Row → Prop}
    (hget : ∀ a a', R a a' → ∀ key ∈ keys, a.get key.column = a'.get key.column)
    {rows rows' : List Row} (h : List.Forall₂ R rows rows') :
    List.Forall₂ R (sortRows keys rows) (sortRows keys rows') := by
  unfold sortRows
  split
  · exact h
  · exact forall₂_mergeSort (fun a b a' b' ha hb ↦ rowOrder_congr (hget a a' ha) (hget b b' hb)) h

end TableQuery.Sorting
