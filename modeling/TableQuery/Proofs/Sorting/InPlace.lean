import TableQuery.Proofs.Sorting.Stability
import Mathlib.Data.List.FinRange
import Mathlib.Logic.Function.Basic

namespace TableQuery.Sorting

def positions (keys : List SortKey) (rows : List Row) : List (Fin rows.length) :=
  mergeSort (fun i j ↦ rowOrder keys rows[i] rows[j]) (List.finRange rows.length)

/-- Fills places with the rows that are taken out of slots in some order. A slot is empty once its
row is taken, and then it gives the row without columns. -/
def refill {n : Nat} : List Row → List (Fin n) → (Fin n → Option Row) → List Row
  | _ :: places, i :: order, slots =>
    (slots i).getD .empty :: refill places order (Function.update slots i none)
  | places, _, _ => places

/-- The sort that moves rows. It empties every place and fills the places again in their order. -/
def sortInPlace (keys : List SortKey) (rows : List Row) : List Row :=
  if keys.isEmpty then rows
  else refill (rows.map fun _ ↦ .empty) (positions keys rows) fun i ↦ some rows[i]

variable {keys : List SortKey} {rows : List Row}

theorem positions_perm : (positions keys rows).Perm (List.finRange rows.length) := mergeSort_perm _

theorem map_positions :
    (positions keys rows).map (fun i ↦ rows[i]) = mergeSort (rowOrder keys) rows := by
  have hrows : (List.finRange rows.length).map (fun i ↦ rows[i]) = rows :=
    List.map_getElem_finRange rows
  have hsort : mergeSort (rowOrder keys) ((List.finRange rows.length).map fun i ↦ rows[i]) =
      (positions keys rows).map fun i ↦ rows[i] := mergeSort_map _ _
  rw [← hsort, hrows]

theorem refill_eq_map {n : Nat} {places : List Row} {order : List (Fin n)}
    {slots : Fin n → Option Row} (f : Fin n → Row) (hlen : places.length = order.length)
    (hnodup : order.Nodup) (hslots : ∀ i ∈ order, slots i = some (f i)) :
    refill places order slots = order.map f := by
  induction order generalizing places slots with
  | nil =>
    obtain rfl : places = [] := List.length_eq_zero_iff.mp hlen
    rfl
  | cons i order ih =>
    obtain ⟨place, places, rfl⟩ := List.exists_cons_of_length_eq_add_one hlen
    obtain ⟨hi, hnodup⟩ := List.nodup_cons.mp hnodup
    obtain ⟨hslot, hslots⟩ := List.forall_mem_cons.mp hslots
    -- the slot that is emptied now is not asked for again
    have hrest : ∀ j ∈ order, Function.update slots i none j = some (f j) := by
      intro j hj
      have hne : j ≠ i := fun heq ↦ hi (heq ▸ hj)
      rw [Function.update_of_ne hne, hslots j hj]
    rw [refill, hslot, ih (by simpa using hlen) hnodup hrest]
    rfl

theorem sortInPlace_eq (keys : List SortKey) (rows : List Row) :
    sortInPlace keys rows = sortRows keys rows := by
  have hperm : (positions keys rows).Perm (List.finRange rows.length) := positions_perm
  rw [sortInPlace]
  split
  · rename_i hkeys
    rw [sortRows, if_pos hkeys]
  · rw [refill_eq_map (fun i ↦ rows[i]), map_positions, sortRows_eq_mergeSort]
    · simp [hperm.length_eq]
    · exact hperm.nodup_iff.mpr (List.nodup_finRange _)
    · exact fun _ _ ↦ rfl

/-- Whatever the columns hold, the sort keeps every row exactly once, no row is greater than the
next one, and moving the rows through slots comes to the same. -/
theorem sortRows_total (keys : List SortKey) (rows : List Row) :
    (sortRows keys rows).Perm rows ∧
      ((sortRows keys rows).IsChain fun a b ↦ (rowOrder keys a b).isLE) ∧
        sortInPlace keys rows = sortRows keys rows := by
  refine ⟨sortRows_perm keys rows, ?_, sortInPlace_eq keys rows⟩
  rw [sortRows_eq_mergeSort]
  exact isChain_mergeSort rows

end TableQuery.Sorting
