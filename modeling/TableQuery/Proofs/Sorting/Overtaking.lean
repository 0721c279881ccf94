import TableQuery.Proofs.Sorting.MergeSort
import Mathlib.Data.List.Infix
import Mathlib.Data.List.Pairwise

namespace TableQuery.Sorting

variable {α β : Type}

/-- Each member of the right list is less than some member of the left list, in order. -/
inductive Overtakes (cmp : α → α → Ordering) : List α → List α → Prop
  | nil (left : List α) : Overtakes cmp [] left
  | take {a b : α} {left right : List α} (h : cmp b a = .lt)
      (ho : Overtakes cmp right (a :: left)) : Overtakes cmp (b :: right) (a :: left)
  | wait (a : α) {left right : List α} (ho : Overtakes cmp right left) :
      Overtakes cmp right (a :: left)

/-- Members of two runs are related in the order in which a merge takes them. -/
def InMergeOrder (cmp : α → α → Ordering) (P : α → α → Prop) (left right : List α) : Prop :=
  ∀ l x r y, l ++ [x] <+: left → r ++ [y] <+: right →
    (Overtakes cmp (r ++ [y]) (l ++ [x]) → P y x) ∧ (¬Overtakes cmp (r ++ [y]) (l ++ [x]) → P x y)

/-- A merge takes a member of the right run before a member of the left run that ties with it. -/
def BreaksTie (cmp : α → α → Ordering) (tie : α → α → Prop) (left right : List α) : Prop :=
  ∃ l x r y, l ++ [x] <+: left ∧ r ++ [y] <+: right ∧ tie x y ∧
    Overtakes cmp (r ++ [y]) (l ++ [x])

inductive SortBreaksTie (cmp : α → α → Ordering) (tie : α → α → Prop) : List α → Prop
  | merge {l : List α} (hl : ¬l.length ≤ 1)
      (h : BreaksTie cmp tie (mergeSort cmp (l.take (l.length / 2)))
        (mergeSort cmp (l.drop (l.length / 2)))) : SortBreaksTie cmp tie l
  | left {l : List α} (hl : ¬l.length ≤ 1) (h : SortBreaksTie cmp tie (l.take (l.length / 2))) :
      SortBreaksTie cmp tie l
  | right {l : List α} (hl : ¬l.length ≤ 1) (h : SortBreaksTie cmp tie (l.drop (l.length / 2))) :
      SortBreaksTie cmp tie l

theorem concat_prefix_cons {l left : List α} {x a : α} : l ++ [x] <+: a :: left ↔
    l = [] ∧ x = a ∨ ∃ l', l = a :: l' ∧ l' ++ [x] <+: left := by
  cases l with
  | nil => simp
  | cons b l => simp [List.cons_prefix_cons]

theorem exists_prefix_concat {x : α} {l : List α} (h : x ∈ l) : ∃ p, p ++ [x] <+: l := by
  obtain ⟨p, q, rfl⟩ := List.append_of_mem h
  exact ⟨p, q, by simp⟩

theorem mem_of_prefix_concat {x : α} {p l : List α} (h : p ++ [x] <+: l) : x ∈ l :=
  h.subset (by simp)

variable {cmp : α → α → Ordering} {P tie : α → α → Prop}

namespace Overtakes

theorem tail {b : α} {left right : List α} (h : Overtakes cmp (b :: right) left) :
    Overtakes cmp right left := by
  generalize hr : b :: right = right' at h
  induction h with
  | nil => cases hr
  | take h ho ih =>
    cases hr
    exact ho
  | wait a ho ih => exact .wait a (ih hr)

theorem cons_iff_of_lt {a b : α} {left right : List α} (h : cmp b a = .lt) :
    Overtakes cmp (b :: right) (a :: left) ↔ Overtakes cmp right (a :: left) :=
  ⟨tail, take h⟩

theorem cons_iff_of_ne_lt {a b : α} {left right : List α} (h : cmp b a ≠ .lt) :
    Overtakes cmp (b :: right) (a :: left) ↔ Overtakes cmp (b :: right) left := by
  refine ⟨fun ho ↦ ?_, wait a⟩
  cases ho with
  | take hlt ho => exact absurd hlt h
  | wait a ho => exact ho

theorem not_cons_nil {b : α} {right : List α} : ¬Overtakes cmp (b :: right) [] := nofun

end Overtakes

theorem inMergeOrder_nil_left (right : List α) : InMergeOrder cmp P [] right := by
  intro l x r y hl
  exact absurd (List.prefix_nil.mp hl) (by simp)

theorem inMergeOrder_nil_right (left : List α) : InMergeOrder cmp P left [] := by
  intro l x r y _ hr
  exact absurd (List.prefix_nil.mp hr) (by simp)

theorem inMergeOrder_cons_of_lt {a b : α} (h : cmp b a = .lt) {left right : List α} :
    InMergeOrder cmp P (a :: left) (b :: right) ↔
      (∀ x ∈ a :: left, P b x) ∧ InMergeOrder cmp P (a :: left) right := by
  have hstep (l : List α) (x : α) (r : List α) (hl : l ++ [x] <+: a :: left) :
      Overtakes cmp (b :: r) (l ++ [x]) ↔ Overtakes cmp r (l ++ [x]) := by
    rcases concat_prefix_cons.mp hl with ⟨rfl, rfl⟩ | ⟨l, rfl, -⟩
    · exact Overtakes.cons_iff_of_lt h
    · exact Overtakes.cons_iff_of_lt h
  constructor
  · intro ho
    refine ⟨fun x hx ↦ ?_, fun l x r y hl hr ↦ ?_⟩
    · obtain ⟨l, hl⟩ := exists_prefix_concat hx
      refine (ho l x [] b hl (concat_prefix_cons.mpr (.inl ⟨rfl, rfl⟩))).1 ?_
      exact (hstep l x [] hl).mpr (.nil _)
    · have hxy := ho l x (b :: r) y hl (concat_prefix_cons.mpr (.inr ⟨r, rfl, hr⟩))
      rwa [List.cons_append, hstep l x _ hl] at hxy
  · rintro ⟨hb, ho⟩ l x r y hl hr
    rcases concat_prefix_cons.mp hr with ⟨rfl, rfl⟩ | ⟨r, rfl, hr'⟩
    · have hover : Overtakes cmp ([] ++ [y]) (l ++ [x]) := (hstep l x [] hl).mpr (.nil _)
      exact ⟨fun _ ↦ hb x (mem_of_prefix_concat hl), fun hnot ↦ absurd hover hnot⟩
    · rw [List.cons_append, hstep l x _ hl]
      exact ho l x r y hl hr'

theorem inMergeOrder_cons_of_ne_lt {a b : α} (h : cmp b a ≠ .lt) {left right : List α} :
    InMergeOrder cmp P (a :: left) (b :: right) ↔
      (∀ y ∈ b :: right, P a y) ∧ InMergeOrder cmp P left (b :: right) := by
  have hstep (l r : List α) (y : α) (hr : r ++ [y] <+: b :: right) :
      Overtakes cmp (r ++ [y]) (a :: l) ↔ Overtakes cmp (r ++ [y]) l := by
    rcases concat_prefix_cons.mp hr with ⟨rfl, rfl⟩ | ⟨r, rfl, -⟩
    · exact Overtakes.cons_iff_of_ne_lt h
    · exact Overtakes.cons_iff_of_ne_lt h
  have hnot (r : List α) (y : α) (hr : r ++ [y] <+: b :: right) :
      ¬Overtakes cmp (r ++ [y]) ([] ++ [a]) := by
    rw [List.nil_append, hstep [] r y hr]
    cases r <;> exact Overtakes.not_cons_nil
  constructor
  · intro ho
    refine ⟨fun y hy ↦ ?_, fun l x r y hl hr ↦ ?_⟩
    · obtain ⟨r, hr⟩ := exists_prefix_concat hy
      exact (ho [] a r y (concat_prefix_cons.mpr (.inl ⟨rfl, rfl⟩)) hr).2 (hnot r y hr)
    · have hxy := ho (a :: l) x r y (concat_prefix_cons.mpr (.inr ⟨l, rfl, hl⟩)) hr
      rwa [List.cons_append, hstep _ r y hr] at hxy
  · rintro ⟨ha, ho⟩ l x r y hl hr
    rcases concat_prefix_cons.mp hl with ⟨rfl, rfl⟩ | ⟨l, rfl, hl'⟩
    · exact ⟨fun hover ↦ absurd hover (hnot r y hr), fun _ ↦ ha y (mem_of_prefix_concat hr)⟩
    · rw [List.cons_append, hstep _ r y hr]
      exact ho l x r y hl' hr

theorem forall_mem_mergeRuns {p : α → Prop} {left right : List α} :
    (∀ x ∈ mergeRuns cmp left right, p x) ↔ (∀ x ∈ left, p x) ∧ ∀ x ∈ right, p x := by
  simp only [(mergeRuns_perm cmp left right).mem_iff, List.forall_mem_append]

theorem pairwise_mergeRuns {left right : List α} : (mergeRuns cmp left right).Pairwise P ↔
    left.Pairwise P ∧ right.Pairwise P ∧ InMergeOrder cmp P left right := by
  induction left generalizing right with
  | nil => simp [inMergeOrder_nil_left]
  | cons a left ihl =>
    induction right with
    | nil => simp [inMergeOrder_nil_right]
    | cons b right ihr =>
      by_cases h : cmp b a = .lt
      · rw [mergeRuns_cons_of_lt cmp h, List.pairwise_cons, forall_mem_mergeRuns, ihr,
          inMergeOrder_cons_of_lt h, List.pairwise_cons (l := right)]
        tauto
      · rw [mergeRuns_cons_of_ne_lt cmp h, List.pairwise_cons, forall_mem_mergeRuns, ihl,
          inMergeOrder_cons_of_ne_lt h, List.pairwise_cons (l := left)]
        tauto

theorem sortBreaksTie_iff {l : List α} (hl : ¬l.length ≤ 1) : SortBreaksTie cmp tie l ↔
    BreaksTie cmp tie (mergeSort cmp (l.take (l.length / 2)))
        (mergeSort cmp (l.drop (l.length / 2))) ∨
      SortBreaksTie cmp tie (l.take (l.length / 2)) ∨
        SortBreaksTie cmp tie (l.drop (l.length / 2)) := by
  constructor
  · intro h
    cases h with
    | merge _ h => exact .inl h
    | left _ h => exact .inr (.inl h)
    | right _ h => exact .inr (.inr h)
  · rintro (h | h | h)
    · exact .merge hl h
    · exact .left hl h
    · exact .right hl h

theorem not_sortBreaksTie_of_length_le_one {l : List α} (hl : l.length ≤ 1) :
    ¬SortBreaksTie cmp tie l := by
  intro h
  cases h <;> contradiction

section

variable {before : α → α → Prop}

theorem inMergeOrder_iff_not_breaksTie (hasymm : ∀ a b, before a b → ¬before b a)
    (hsymm : ∀ a b, tie a b → tie b a) {left right : List α}
    (h : ∀ x ∈ left, ∀ y ∈ right, before x y) :
    InMergeOrder cmp (fun a b ↦ tie a b → before a b) left right ↔
      ¬BreaksTie cmp tie left right := by
  constructor
  · rintro ho ⟨l, x, r, y, hl, hr, htie, hover⟩
    have hxy := h x (mem_of_prefix_concat hl) y (mem_of_prefix_concat hr)
    exact hasymm x y hxy ((ho l x r y hl hr).1 hover (hsymm x y htie))
  · intro hnot l x r y hl hr
    refine ⟨fun hover htie ↦ ?_, fun _ _ ↦ ?_⟩
    · exact absurd ⟨l, x, r, y, hl, hr, hsymm y x htie, hover⟩ hnot
    · exact h x (mem_of_prefix_concat hl) y (mem_of_prefix_concat hr)

/-- The sort leaves ties in their order if and only if none of its merges breaks one. -/
theorem pairwise_mergeSort_iff (hasymm : ∀ a b, before a b → ¬before b a)
    (hsymm : ∀ a b, tie a b → tie b a) {l : List α} (h : l.Pairwise before) :
    (mergeSort cmp l).Pairwise (fun a b ↦ tie a b → before a b) ↔ ¬SortBreaksTie cmp tie l := by
  induction l using mergeSort.induct with
  | case1 l hl =>
    rw [mergeSort_of_length_le_one cmp hl]
    refine iff_of_true (h.imp ?_) (not_sortBreaksTie_of_length_le_one hl)
    intro a b hab _
    exact hab
  | case2 l hl ihl ihr =>
    have hsplit : (l.take (l.length / 2) ++ l.drop (l.length / 2)).Pairwise before := by
      rwa [List.take_append_drop]
    obtain ⟨hleft, hright, hcross⟩ := List.pairwise_append.mp hsplit
    -- The left half stands before the right half, so a tie across them is broken by a merge only.
    have hmerge : ∀ x ∈ mergeSort cmp (l.take (l.length / 2)),
        ∀ y ∈ mergeSort cmp (l.drop (l.length / 2)), before x y := fun x hx y hy ↦
      hcross x ((mergeSort_perm _).mem_iff.mp hx) y ((mergeSort_perm _).mem_iff.mp hy)
    rw [mergeSort_halves cmp hl, pairwise_mergeRuns, ihl hleft, ihr hright,
      inMergeOrder_iff_not_breaksTie hasymm hsymm hmerge, sortBreaksTie_iff hl]
    tauto

end

section

variable (f : β → α)

theorem mergeSort_map (l : List β) :
    mergeSort cmp (l.map f) = (mergeSort (fun a b ↦ cmp (f a) (f b)) l).map f := by
  have h : List.Forall₂ (fun b a ↦ f b = a) l (l.map f) :=
    List.forall₂_map_right_iff.mpr (List.forall₂_same.mpr fun _ _ ↦ rfl)
  have hsort : List.Forall₂ (fun b a ↦ f b = a) (mergeSort (fun a b ↦ cmp (f a) (f b)) l)
      (mergeSort cmp (l.map f)) := forall₂_mergeSort (fun a b a' b' ha hb ↦ by rw [ha, hb]) h
  rw [← List.forall₂_map_left_iff (R := Eq), List.forall₂_eq_eq_eq] at hsort
  exact hsort.symm

theorem overtakes_map {left right : List β} : Overtakes cmp (right.map f) (left.map f) ↔
    Overtakes (fun a b ↦ cmp (f a) (f b)) right left := by
  induction left generalizing right with
  | nil =>
    cases right with
    | nil => exact iff_of_true (.nil _) (.nil _)
    | cons b right => exact iff_of_false Overtakes.not_cons_nil Overtakes.not_cons_nil
  | cons a left ihl =>
    induction right with
    | nil => exact iff_of_true (.nil _) (.nil _)
    | cons b right ihr =>
      by_cases h : cmp (f b) (f a) = .lt
      · refine (Overtakes.cons_iff_of_lt h).trans (ihr.trans (Iff.symm ?_))
        exact Overtakes.cons_iff_of_lt h
      · have ih : Overtakes cmp ((b :: right).map f) (left.map f) ↔ _ := ihl
        refine (Overtakes.cons_iff_of_ne_lt h).trans (ih.trans (Iff.symm ?_))
        exact Overtakes.cons_iff_of_ne_lt h

theorem breaksTie_map {left right : List β} : BreaksTie cmp tie (left.map f) (right.map f) ↔
    BreaksTie (fun a b ↦ cmp (f a) (f b)) (fun a b ↦ tie (f a) (f b)) left right := by
  constructor
  · rintro ⟨l, x, r, y, hl, hr, htie, hover⟩
    obtain ⟨l', hl', hl⟩ := List.prefix_map_iff.mp hl
    obtain ⟨r', hr', hr⟩ := List.prefix_map_iff.mp hr
    obtain ⟨l, x', rfl, rfl, hx⟩ := List.map_eq_append_iff.mp hl.symm
    obtain ⟨r, y', rfl, rfl, hy⟩ := List.map_eq_append_iff.mp hr.symm
    obtain ⟨x, rfl, rfl⟩ := List.map_eq_singleton_iff.mp hx
    obtain ⟨y, rfl, rfl⟩ := List.map_eq_singleton_iff.mp hy
    refine ⟨l, x, r, y, hl', hr', htie, (overtakes_map f).mp ?_⟩
    simpa using hover
  · rintro ⟨l, x, r, y, hl, hr, htie, hover⟩
    refine ⟨l.map f, f x, r.map f, f y, ?_, ?_, htie, ?_⟩
    · simpa using hl.map f
    · simpa using hr.map f
    · simpa using (overtakes_map f).mpr hover

theorem sortBreaksTie_map {l : List β} : SortBreaksTie cmp tie (l.map f) ↔
    SortBreaksTie (fun a b ↦ cmp (f a) (f b)) (fun a b ↦ tie (f a) (f b)) l := by
  induction l using mergeSort.induct with
  | case1 l hl =>
    exact iff_of_false (not_sortBreaksTie_of_length_le_one (by rwa [List.length_map]))
      (not_sortBreaksTie_of_length_le_one hl)
  | case2 l hl ihl ihr =>
    rw [sortBreaksTie_iff (by rwa [List.length_map]), sortBreaksTie_iff hl, List.length_map,
      ← List.map_take, ← List.map_drop, mergeSort_map, mergeSort_map, breaksTie_map, ihl, ihr]

end

end TableQuery.Sorting
