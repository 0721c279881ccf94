import TableQuery.Proofs.Sorting.Stability
import Mathlib.Data.List.Sort

namespace TableQuery.Sorting

section

variable {α : Type} {cmp : α → α → Ordering} {before : α → α → Prop} {K : α → Prop}

/-- The first is not greater, and it was before the second if they compare equal. -/
def StablyOrdered (cmp : α → α → Ordering) (before : α → α → Prop) (a b : α) : Prop :=
  (cmp a b).isLE ∧ (cmp a b = .eq → before a b)

theorem pairwise_stablyOrdered_iff {l : List α} : l.Pairwise (StablyOrdered cmp before) ↔
    (l.Pairwise fun a b ↦ (cmp a b).isLE) ∧ l.Pairwise fun a b ↦ cmp a b = .eq → before a b :=
  List.pairwise_and_iff

variable [Std.OrientedCmp cmp]

theorem StablyOrdered.asymm (hasymm : ∀ a b, before a b → ¬before b a) {a b : α}
    (hab : StablyOrdered cmp before a b) : ¬StablyOrdered cmp before b a := by
  intro hba
  have heq : cmp a b = .eq := by
    cases hcmp : cmp a b with
    | lt => exact absurd hcmp (Std.OrientedCmp.not_lt_of_isLE hba.1)
    | eq => rfl
    | gt => exact absurd hab.1 (by rw [hcmp]; decide)
  exact hasymm a b (hab.2 heq) (hba.2 (Std.OrientedCmp.eq_symm heq))

theorem eq_of_stablyOrdered (hasymm : ∀ a b, before a b → ¬before b a) {l l' : List α}
    (hperm : l.Perm l') (h : l.Pairwise (StablyOrdered cmp before))
    (h' : l'.Pairwise (StablyOrdered cmp before)) : l = l' :=
  hperm.eq_of_pairwise (fun _ _ _ _ hab hba ↦ absurd hba (hab.asymm hasymm)) h h'

theorem stablyOrdered_mergeSort (ht : TransitiveOn K cmp)
    (hasymm : ∀ a b, before a b → ¬before b a) {l : List α} (hl : ∀ a ∈ l, K a)
    (h : l.Pairwise before) : (mergeSort cmp l).Pairwise (StablyOrdered cmp before) := by
  have hsymm : ∀ a b, cmp a b = .eq → cmp b a = .eq := fun _ _ ↦ Std.OrientedCmp.eq_symm
  have hle : ∀ a b, cmp a b = .eq → (cmp a b).isLE := fun a b heq ↦ by rw [heq]; rfl
  refine pairwise_stablyOrdered_iff.mpr ⟨sorted_mergeSort ht hl, ?_⟩
  exact (pairwise_mergeSort_iff hasymm hsymm h).mpr (not_sortBreaksTie_of_transitive ht hle hl)

theorem stablyOrdered_orderedInsert (ht : TransitiveOn K cmp) {a : α} {l : List α} (ha : K a)
    (hl : ∀ b ∈ l, K b) (hbefore : ∀ b ∈ l, before a b)
    (h : l.Pairwise (StablyOrdered cmp before)) :
    (l.orderedInsert (fun a b ↦ (cmp a b).isLE) a).Pairwise (StablyOrdered cmp before) := by
  induction l with
  | nil => exact List.pairwise_singleton _ a
  | cons b l ih =>
    obtain ⟨hb, hl⟩ := List.forall_mem_cons.mp hl
    obtain ⟨hhead, htail⟩ := List.pairwise_cons.mp h
    by_cases hab : (cmp a b).isLE
    · rw [List.orderedInsert_cons_of_le _ l hab]
      refine List.pairwise_cons.mpr ⟨?_, h⟩
      intro x hx
      refine ⟨?_, fun _ ↦ hbefore x hx⟩
      rcases List.mem_cons.mp hx with rfl | hx
      · exact hab
      · exact ht a b x ha hb (hl x hx) hab (hhead x hx).1
    · rw [List.orderedInsert_of_not_le _ l hab]
      refine List.pairwise_cons.mpr ⟨?_, ih hl (List.forall_mem_cons.mp hbefore).2 htail⟩
      intro x hx
      rcases (List.mem_orderedInsert _).mp hx with rfl | hx
      · have hlt : cmp b x = .lt := Std.OrientedCmp.lt_of_not_isLE hab
        exact ⟨by rw [hlt]; rfl, fun heq ↦ by rw [hlt] at heq; cases heq⟩
      · exact hhead x hx

theorem stablyOrdered_insertionSort (ht : TransitiveOn K cmp) {l : List α} (hl : ∀ a ∈ l, K a)
    (h : l.Pairwise before) :
    (l.insertionSort fun a b ↦ (cmp a b).isLE).Pairwise (StablyOrdered cmp before) := by
  induction l with
  | nil => exact .nil
  | cons a l ih =>
    obtain ⟨ha, hl⟩ := List.forall_mem_cons.mp hl
    obtain ⟨hbefore, h⟩ := List.pairwise_cons.mp h
    rw [List.insertionSort_cons]
    refine stablyOrdered_orderedInsert ht ha ?_ ?_ (ih hl h)
    · exact fun b hb ↦ hl b ((List.mem_insertionSort _).mp hb)
    · exact fun b hb ↦ hbefore b ((List.mem_insertionSort _).mp hb)

theorem mergeSort_eq_insertionSort (ht : TransitiveOn K cmp)
    (hasymm : ∀ a b, before a b → ¬before b a) {l : List α} (hl : ∀ a ∈ l, K a)
    (h : l.Pairwise before) : mergeSort cmp l = l.insertionSort fun a b ↦ (cmp a b).isLE := by
  have hperm : (mergeSort cmp l).Perm (l.insertionSort fun a b ↦ (cmp a b).isLE) :=
    (mergeSort_perm l).trans (List.perm_insertionSort _ l).symm
  exact eq_of_stablyOrdered hasymm hperm (stablyOrdered_mergeSort ht hasymm hl h)
    (stablyOrdered_insertionSort ht hl h)

end

/-- All rows with their places in the input, every one before the greater ones, and those that
compare equal in the order of their places. -/
structure IsStableArrangement (keys : List SortKey) (rows : List Row) (out : List (Row × Nat)) :
    Prop where
  perm : out.Perm rows.zipIdx
  sorted : out.Pairwise fun a b ↦ (rowOrder keys a.1 b.1).isLE
  stable : out.Pairwise fun a b ↦ rowOrder keys a.1 b.1 = .eq → a.2 < b.2

variable {keys : List SortKey} {rows : List Row}

theorem stablyOrdered_sortMarked (ht : TransitiveOn (· ∈ rows) (rowOrder keys)) :
    (sortMarked keys rows).Pairwise
      (StablyOrdered (fun a b ↦ rowOrder keys a.1 b.1) fun a b ↦ a.2 < b.2) :=
  stablyOrdered_mergeSort (K := fun a : Row × Nat ↦ a.1 ∈ rows) (fun a b c ↦ ht a.1 b.1 c.1)
    (fun _ _ ↦ Nat.lt_asymm) (fun _ ha ↦ List.fst_mem_of_mem_zipIdx ha) (pairwise_zipIdx rows)

theorem sortRows_eq_insertionSort (ht : TransitiveOn (· ∈ rows) (rowOrder keys)) :
    sortRows keys rows = rows.insertionSort fun a b ↦ (rowOrder keys a b).isLE := by
  have hmarked : sortMarked keys rows =
      rows.zipIdx.insertionSort fun a b ↦ (rowOrder keys a.1 b.1).isLE :=
    mergeSort_eq_insertionSort (K := fun a : Row × Nat ↦ a.1 ∈ rows)
      (fun a b c ↦ ht a.1 b.1 c.1) (fun _ _ ↦ Nat.lt_asymm)
      (fun _ ha ↦ List.fst_mem_of_mem_zipIdx ha) (pairwise_zipIdx rows)
  calc sortRows keys rows
    _ = (rows.zipIdx.insertionSort fun a b ↦ (rowOrder keys a.1 b.1).isLE).map Prod.fst := by
      rw [← map_fst_sortMarked, hmarked]
    _ = (rows.zipIdx.map Prod.fst).insertionSort fun a b ↦ (rowOrder keys a b).isLE :=
      List.map_insertionSort _ _ _ _ fun _ _ _ _ ↦ Iff.rfl
    _ = rows.insertionSort fun a b ↦ (rowOrder keys a b).isLE := by rw [List.zipIdx_map_fst]

/-- Where the order by the keys is transitive on the rows, the sort gives their only stable
arrangement, which is that of insertion. -/
theorem sortRows_of_transitive (ht : TransitiveOn (· ∈ rows) (rowOrder keys)) :
    (sortMarked keys rows).map Prod.fst = sortRows keys rows ∧
      IsStableArrangement keys rows (sortMarked keys rows) ∧
      (∀ out, IsStableArrangement keys rows out → out = sortMarked keys rows) ∧
      sortRows keys rows = rows.insertionSort fun a b ↦ (rowOrder keys a b).isLE := by
  have hstable := stablyOrdered_sortMarked ht
  refine ⟨map_fst_sortMarked keys rows, ?_, ?_, sortRows_eq_insertionSort ht⟩
  · obtain ⟨hsorted, hkept⟩ := pairwise_stablyOrdered_iff.mp hstable
    exact ⟨mergeSort_perm _, hsorted, hkept⟩
  · intro out hout
    have hperm : out.Perm (sortMarked keys rows) := hout.perm.trans (mergeSort_perm _).symm
    have hordered := pairwise_stablyOrdered_iff.mpr ⟨hout.sorted, hout.stable⟩
    exact eq_of_stablyOrdered (fun _ _ ↦ Nat.lt_asymm) hperm hordered hstable

def ages : List Row :=
  [.ofList [("id", .integer 0), ("age", .integer 40)], .ofList [("id", .integer 1)],
    .ofList [("id", .integer 2), ("age", .integer 40)],
    .ofList [("id", .integer 3), ("age", .null)],
    .ofList [("id", .integer 4), ("age", .integer 50)]]

theorem sortRows_of_transitive_ages : TransitiveOn (· ∈ ages) (rowOrder [⟨"age", .desc⟩]) ∧
    (sortMarked [⟨"age", .desc⟩] ages).map Prod.snd = [4, 0, 2, 1, 3] ∧
    sortRows [⟨"age", .desc⟩] ages =
      ages.insertionSort fun a b ↦ (rowOrder [⟨"age", .desc⟩] a b).isLE := by
  have hall : ∀ a ∈ ages, ∀ b ∈ ages, ∀ c ∈ ages, (rowOrder [⟨"age", .desc⟩] a b).isLE →
      (rowOrder [⟨"age", .desc⟩] b c).isLE → (rowOrder [⟨"age", .desc⟩] a c).isLE := by
    decide +kernel
  have ht : TransitiveOn (· ∈ ages) (rowOrder [⟨"age", .desc⟩]) :=
    fun a b c ha hb hc ↦ hall a ha b hb c hc
  obtain ⟨-, -, hunique, hinsert⟩ := sortRows_of_transitive ht
  let out : List (Row × Nat) := [4, 0, 2, 1, 3].filterMap fun i ↦ ages.zipIdx[i]?
  have hout : IsStableArrangement [⟨"age", .desc⟩] ages out :=
    ⟨by decide +kernel, by decide +kernel, by decide +kernel⟩
  refine ⟨ht, ?_, hinsert⟩
  rw [← hunique out hout]
  rfl

end TableQuery.Sorting
