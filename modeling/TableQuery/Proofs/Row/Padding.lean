import TableQuery.Proofs.Row.Agreement
import Mathlib.Data.List.Forall2

namespace TableQuery

open Text

namespace Entries

variable {α : Type} {name : String} {entries added : List (String × α)}

theorem find?_append (h : ∀ entry ∈ entries, ∀ new ∈ added, sameName entry.1 new.1 = false) :
    find? name (entries ++ added) = (find? name entries).or (find? name added) := by
  have hapart : (entries.find? (sameName ·.1 name)).isSome →
      added.find? (·.1 == name) = none := by
    intro hold
    obtain ⟨entry, hfind⟩ := Option.isSome_iff_exists.mp hold
    have hsame := List.find?_some hfind
    refine List.find?_eq_none.mpr fun new hnew hexact ↦ ?_
    have hnot := h entry (List.mem_of_find?_eq_some hfind) new hnew
    rw [eq_of_beq hexact, hsame] at hnot
    cases hnot
  simp only [find?, List.find?_append]
  cases entries.find? (·.1 == name) with
  | some entry => rfl
  | none =>
    cases hfind : entries.find? (sameName ·.1 name) with
    | none => rfl
    | some entry =>
      rw [hapart (by rw [hfind]; rfl)]
      rfl

end Entries

namespace Row

/-- A row with NULL columns added at the end, under names that it has in no casing. -/
def PaddedTo (row padded : Row) : Prop :=
  ∃ added : List String, padded.columns = row.columns ++ added.map (·, .null) ∧
    ∀ name ∈ row.names, ∀ new ∈ added, sameName name new = false

namespace PaddedTo

variable {row padded : Row}

theorem refl (row : Row) : PaddedTo row row := ⟨[], by simp, by simp⟩

theorem find?_eq (h : PaddedTo row padded) (name : String) :
    padded.find? name = row.find? name ∨
      row.find? name = none ∧ ∃ new, padded.find? name = some (new, .null) := by
  obtain ⟨added, hcolumns, hnew⟩ := h
  have happend : padded.find? name =
      (row.find? name).or (Entries.find? name (added.map (·, .null))) := by
    rw [find?, hcolumns]
    refine Entries.find?_append fun column hc pad hpad ↦ ?_
    obtain ⟨new, hn, rfl⟩ := List.mem_map.mp hpad
    exact hnew column.1 (List.mem_map_of_mem hc) new hn
  rw [happend]
  cases row.find? name with
  | some column => exact .inl rfl
  | none =>
    cases hadded : Entries.find? name (added.map (·, Value.null)) with
    | none => exact .inl rfl
    | some column =>
      have hmem : column ∈ added.map (·, Value.null) := by
        rcases Option.or_eq_some_iff.mp hadded with hexact | ⟨-, hcasing⟩
        · exact List.mem_of_find?_eq_some hexact
        · exact List.mem_of_find?_eq_some hcasing
      obtain ⟨new, -, rfl⟩ := List.mem_map.mp hmem
      exact .inr ⟨rfl, new, rfl⟩

theorem get_eq (h : PaddedTo row padded) (name : String) : row.get name = padded.get name := by
  unfold get get?
  rcases h.find?_eq name with heq | ⟨hnone, new, hnull⟩
  · rw [heq]
  · rw [hnone, hnull]
    rfl

theorem contains_of_contains (h : PaddedTo row padded) {name : String}
    (hc : row.contains name = true) : padded.contains name = true := by
  unfold contains at hc ⊢
  rcases h.find?_eq name with heq | ⟨hnone, -⟩
  · rw [heq, hc]
  · rw [hnone] at hc
    cases hc

theorem readAlike (h : PaddedTo row padded) : ReadAlike (fun _ ↦ True) row padded :=
  fun name _ ↦ h.get_eq name

end PaddedTo

end Row

theorem Row.PaddedTo.any_contains {rows padded : List Row} (h : List.Forall₂ PaddedTo rows padded)
    {column : String} (hc : rows.any (·.contains column) = true) :
    padded.any (·.contains column) = true := by
  induction h with
  | nil => exact hc
  | cons hr _ ih =>
    rw [List.any_cons, Bool.or_eq_true] at hc ⊢
    exact hc.imp hr.contains_of_contains ih

end TableQuery
