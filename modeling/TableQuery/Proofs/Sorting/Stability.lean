import Mathlib
import TableQuery.Proofs.Sorting.Overtaking
import TableQuery.Proofs.Value.Order

namespace TableQuery

theorem SortKey.order_swap (key : SortKey) (a b : Row) :
    key.order a b = (key.order b a).swap := by
  unfold SortKey.order
  cases key.direction with
  | asc => exact Value.order_swap _ _
  | desc => exact congrArg Ordering.swap (Value.order_swap _ _)

instance (key : SortKey) : Std.OrientedCmp key.order := ⟨key.order_swap _ _⟩

namespace Sorting

def TransitiveOn {α : Type} (K : α → Prop) (cmp : α → α → Ordering) : Prop :=
  ∀ a b c, K a → K b → K c → (cmp a b).isLE → (cmp b c).isLE → (cmp a c).isLE

/-- Rows that hold the same value, or none, in every sort column. -/
def Tied (keys : List SortKey) (a b : Row) : Prop :=
  ∀ key ∈ keys, a.get? key.column = b.get? key.column

/-- The sort of rows that carry their places in the input. -/
def sortMarked (keys : List SortKey) (rows : List Row) : List (Row × Nat) :=
  mergeSort (fun a b ↦ rowOrder keys a.1 b.1) rows.zipIdx

/-- Of any two tied rows, the sort puts the one first that is first in the input. -/
def KeepsTies (keys : List SortKey) (rows : List Row) : Prop :=
  (sortMarked keys rows).Pairwise fun a b ↦ Tied keys a.1 b.1 → a.2 < b.2

section

variable {α : Type} {cmp : α → α → Ordering} {K : α → Prop} {tie : α → α → Prop}

theorem Overtakes.exists_lt {left right : List α} (h : Overtakes cmp right left) {b : α}
    (hb : b ∈ right) : ∃ a ∈ left, cmp b a = .lt := by
  induction h with
  | nil left => cases hb
  | @take a _ left right h ho ih =>
    rcases List.mem_cons.mp hb with rfl | hb
    · exact ⟨a, List.mem_cons_self, h⟩
    · exact ih hb
  | wait a ho ih =>
    obtain ⟨a', ha, h⟩ := ih hb
    exact ⟨a', List.mem_cons_of_mem _ ha, h⟩

theorem mergeSort_of_never_lt (h : ∀ a b, cmp a b ≠ .lt) (l : List α) : mergeSort cmp l = l := by
  have hmerge (left right : List α) : mergeRuns cmp left right = left ++ right := by
    induction left with
    | nil => simp
    | cons a left ih =>
      cases right with
      | nil => simp
      | cons b right => rw [mergeRuns_cons_of_ne_lt cmp (h b a), ih, List.cons_append]
  induction l using mergeSort.induct with
  | case1 l hl => exact mergeSort_of_length_le_one cmp hl
  | case2 l hl ihl ihr => rw [mergeSort_halves cmp hl, hmerge, ihl, ihr, List.take_append_drop]

theorem pairwise_of_isChain (ht : TransitiveOn K cmp) {l : List α} (hl : ∀ a ∈ l, K a)
    (h : l.IsChain fun a b ↦ (cmp a b).isLE) : l.Pairwise fun a b ↦ (cmp a b).isLE := by
  induction l with
  | nil => exact .nil
  | cons a l ih =>
    obtain ⟨ha, hl⟩ := List.forall_mem_cons.mp hl
    obtain ⟨hhead, htail⟩ := List.isChain_cons.mp h
    have hpairs := ih hl htail
    refine List.pairwise_cons.mpr ⟨?_, hpairs⟩
    cases l with
    | nil => exact List.forall_mem_nil _
    | cons b l =>
      have hab : (cmp a b).isLE := hhead b rfl
      refine List.forall_mem_cons.mpr ⟨hab, ?_⟩
      intro x hx
      have hbx := (List.pairwise_cons.mp hpairs).1 x hx
      exact ht a b x ha (hl b List.mem_cons_self) (hl x (List.mem_cons_of_mem b hx)) hab hbx

section

variable [Std.OrientedCmp cmp]

theorem sorted_mergeSort (ht : TransitiveOn K cmp) {l : List α} (hl : ∀ a ∈ l, K a) :
    (mergeSort cmp l).Pairwise fun a b ↦ (cmp a b).isLE := by
  have hmem : ∀ a ∈ mergeSort cmp l, K a := fun a ha ↦ hl a ((mergeSort_perm l).mem_iff.mp ha)
  exact pairwise_of_isChain ht hmem (isChain_mergeSort l)

theorem not_breaksTie_of_transitive (ht : TransitiveOn K cmp)
    (htie : ∀ a b, tie a b → (cmp a b).isLE) {left right : List α} (hl : ∀ a ∈ left, K a)
    (hr : ∀ b ∈ right, K b) (sl : left.Pairwise fun a b ↦ (cmp a b).isLE) :
    ¬BreaksTie cmp tie left right := by
  rintro ⟨l, x, r, y, hx, hy, hxy, hover⟩
  obtain ⟨a, ha, hlt⟩ := hover.exists_lt (b := y) (by simp)
  have hax : (cmp a x).isLE := by
    rcases List.mem_append.mp ha with ha | ha
    · exact (List.pairwise_append.mp (sl.sublist hx.sublist)).2.2 a ha x (by simp)
    · rw [List.mem_singleton.mp ha]
      exact Std.ReflCmp.isLE_rfl
  have hay : (cmp a y).isLE :=
    ht a x y (hl a (hx.subset ha)) (hl x (mem_of_prefix_concat hx))
      (hr y (mem_of_prefix_concat hy)) hax (htie x y hxy)
  exact Std.OrientedCmp.not_lt_of_isLE hay hlt

theorem not_sortBreaksTie_of_transitive (ht : TransitiveOn K cmp)
    (htie : ∀ a b, tie a b → (cmp a b).isLE) {l : List α} (hl : ∀ a ∈ l, K a) :
    ¬SortBreaksTie cmp tie l := by
  intro h
  induction h with
  | @merge l _ h =>
    have htake : ∀ a ∈ l.take (l.length / 2), K a := fun a ha ↦ hl a (List.mem_of_mem_take ha)
    refine not_breaksTie_of_transitive ht htie ?_ ?_ (sorted_mergeSort ht htake) h
    · exact fun a ha ↦ htake a ((mergeSort_perm _).mem_iff.mp ha)
    · exact fun a ha ↦ hl a (List.mem_of_mem_drop ((mergeSort_perm _).mem_iff.mp ha))
  | left _ _ ih => exact ih fun a ha ↦ hl a (List.mem_of_mem_take ha)
  | right _ _ ih => exact ih fun a ha ↦ hl a (List.mem_of_mem_drop ha)

end

theorem mergeSort_pair {a b : α} (h : cmp b a ≠ .lt) : mergeSort cmp [a, b] = [a, b] := by
  rw [mergeSort_halves cmp (by simp)]
  simp [mergeSort_of_length_le_one, mergeRuns_cons_of_ne_lt cmp h]

theorem mergeSort_triple {a b c : α} (hba : cmp b a ≠ .lt) (hcb : cmp c b ≠ .lt) :
    mergeSort cmp [a, b, c] = [a, b, c] := by
  rw [mergeSort_halves cmp (by simp)]
  simp [mergeSort_of_length_le_one, mergeSort_pair hcb, mergeRuns_cons_of_ne_lt cmp hba]

variable [Std.OrientedCmp cmp]

theorem sortBreaksTie_of_not_transitive {a b c : α} (hab : (cmp a b).isLE) (hbc : (cmp b c).isLE)
    (hac : ¬(cmp a c).isLE) (htie : tie c c) : SortBreaksTie cmp tie [a, b, c, c, c, c] := by
  have hlt : cmp c a = .lt := Std.OrientedCmp.lt_of_not_isLE hac
  have hcc : cmp c c ≠ .lt := Std.OrientedCmp.not_lt_of_isLE Std.ReflCmp.isLE_rfl
  have hleft : mergeSort cmp [a, b, c] = [a, b, c] :=
    mergeSort_triple (Std.OrientedCmp.not_lt_of_isLE hab) (Std.OrientedCmp.not_lt_of_isLE hbc)
  have hbreak : BreaksTie cmp tie [a, b, c] [c, c, c] := by
    refine ⟨[a, b], c, [], c, by simp, ⟨[c, c], rfl⟩, htie, ?_⟩
    exact .take hlt (.nil _)
  refine .merge (by simp) ?_
  simpa [hleft, mergeSort_triple hcc hcc] using hbreak

end

variable {keys : List SortKey} {K : Row → Prop}

theorem rowOrder_swap (keys : List SortKey) (a b : Row) :
    rowOrder keys a b = (rowOrder keys b a).swap := by
  induction keys with
  | nil => rfl
  | cons key keys ih => rw [rowOrder, rowOrder, key.order_swap, ih, Ordering.swap_then]

instance (keys : List SortKey) : Std.OrientedCmp (rowOrder keys) := ⟨rowOrder_swap keys _ _⟩

instance (keys : List SortKey) : Std.OrientedCmp fun a b : Row × Nat ↦ rowOrder keys a.1 b.1 :=
  ⟨rowOrder_swap keys _ _⟩

theorem Tied.symm {a b : Row} (h : Tied keys a b) : Tied keys b a := fun key hk ↦ (h key hk).symm

theorem Tied.rowOrder_eq {a b : Row} (h : Tied keys a b) : rowOrder keys a b = .eq := by
  have hget : ∀ key ∈ keys, a.get key.column = b.get key.column :=
    fun key hk ↦ by rw [Row.get, Row.get, h key hk]
  rw [rowOrder_congr hget fun _ _ ↦ rfl]
  exact Std.ReflCmp.cmp_eq_of_eq rfl

theorem sortRows_eq_mergeSort (keys : List SortKey) (rows : List Row) :
    sortRows keys rows = mergeSort (rowOrder keys) rows := by
  cases keys with
  | nil => exact (mergeSort_of_never_lt (fun a b ↦ by simp [rowOrder]) rows).symm
  | cons key keys => rfl

theorem map_fst_sortMarked (keys : List SortKey) (rows : List Row) :
    (sortMarked keys rows).map Prod.fst = sortRows keys rows := by
  rw [sortMarked, ← mergeSort_map, List.zipIdx_map_fst, sortRows_eq_mergeSort]

theorem pairwise_zipIdx {α : Type} (l : List α) : l.zipIdx.Pairwise fun a b ↦ a.2 < b.2 := by
  rw [← List.pairwise_map (f := Prod.snd), List.zipIdx_map_snd]
  exact List.pairwise_lt_range'

theorem keepsTies_iff_not_sortBreaksTie (rows : List Row) :
    KeepsTies keys rows ↔ ¬SortBreaksTie (rowOrder keys) (Tied keys) rows := by
  have h : KeepsTies keys rows ↔ ¬SortBreaksTie (fun a b ↦ rowOrder keys a.1 b.1)
      (fun a b ↦ Tied keys a.1 b.1) rows.zipIdx :=
    pairwise_mergeSort_iff (fun _ _ ↦ Nat.lt_asymm) (fun _ _ ↦ Tied.symm) (pairwise_zipIdx rows)
  rwa [← sortBreaksTie_map Prod.fst, List.zipIdx_map_fst] at h

/-- The sort keeps the order of tied rows exactly as long as none of its merges breaks a tie. It
does so for all lists of rows of a class if and only if the order by keys is transitive on it. -/
theorem keepsTies_iff (keys : List SortKey) :
    (∀ rows, (sortMarked keys rows).map Prod.fst = sortRows keys rows ∧
      (KeepsTies keys rows ↔ ¬SortBreaksTie (rowOrder keys) (Tied keys) rows)) ∧
    ∀ K : Row → Prop, (∀ rows, (∀ row ∈ rows, K row) → KeepsTies keys rows) ↔
      TransitiveOn K (rowOrder keys) := by
  refine ⟨fun rows ↦ ⟨map_fst_sortMarked keys rows, keepsTies_iff_not_sortBreaksTie rows⟩,
    fun K ↦ ⟨fun h a b c ha hb hc hab hbc ↦ ?_, fun h rows hrows ↦ ?_⟩⟩
  · by_contra hac
    have hall : ∀ row ∈ [a, b, c, c, c, c], K row := by simp [ha, hb, hc]
    refine (keepsTies_iff_not_sortBreaksTie _).mp (h _ hall) ?_
    exact sortBreaksTie_of_not_transitive hab hbc hac fun _ _ ↦ rfl
  · refine (keepsTies_iff_not_sortBreaksTie rows).mpr ?_
    refine not_sortBreaksTie_of_transitive h (fun a b hab ↦ ?_) hrows
    rw [hab.rowOrder_eq]
    rfl

/-- Here `9` is less than `10` as a number and `10` is less than `1a` as text, but `1a` is less
than `9`. Row 4 overtakes row 3, which holds the same text. -/
theorem not_keepsTies_mixed : ¬KeepsTies [⟨"v", .asc⟩]
    [.ofList [("v", .integer 9), ("id", .integer 1)],
      .ofList [("v", .integer 10), ("id", .integer 2)],
      .ofList [("v", .text "1a"), ("id", .integer 3)],
      .ofList [("v", .text "1a"), ("id", .integer 4)],
      .ofList [("v", .text "b"), ("id", .integer 5)],
      .ofList [("v", .text "c"), ("id", .integer 6)]] := by
  rw [KeepsTies]
  cbv
  intro h
  obtain ⟨hfirst, -⟩ := List.pairwise_cons.mp h
  have hlt := hfirst ⟨.ofList [("v", .text "1a"), ("id", .integer 3)], 2⟩ (by decide) fun _ hk ↦ by
    rw [List.mem_singleton.mp hk]
    rfl
  exact absurd hlt (by decide)

end Sorting

end TableQuery
