import TableQuery.Proofs.Row.Insertion
import Mathlib.Data.List.Nodup
import Mathlib.Data.List.Pairwise

namespace TableQuery

open Text

theorem Text.sameName_of_length_ne {a b : String} (h : a.toList.length ≠ b.toList.length) :
    sameName a b = false := by
  rw [← Bool.not_eq_true, sameName_iff]
  intro heq
  have hlen := congrArg List.length heq
  rw [lower, lower, List.length_map, List.length_map] at hlen
  exact h hlen

theorem Text.eq_of_sameName {names : List String}
    (h : names.Pairwise fun a b ↦ sameName a b = false) {a b : String} (ha : a ∈ names)
    (hb : b ∈ names) (hs : sameName a b = true) : a = b := by
  have hlower : (names.map lower).Nodup := by
    refine List.pairwise_map.mpr (h.imp fun hab heq ↦ ?_)
    rw [sameName_iff.mpr heq] at hab
    cases hab
  exact List.inj_on_of_nodup_map hlower ha hb (sameName_iff.mp hs)

namespace Entries

variable {α : Type} {entries : List (String × α)} {entry : String × α} {name : String}

/-- The names of two entries differ in more than casing. -/
def Apart (a b : String × α) : Prop := sameName a.1 b.1 = false

theorem apart_iff {a b : String × α} : Apart a b ↔ lower a.1 ≠ lower b.1 := by
  rw [Apart, ← Bool.not_eq_true, sameName_iff]

instance : DecidableRel (Apart (α := α)) := fun a b ↦
  inferInstanceAs (Decidable (sameName a.1 b.1 = false))

instance : Std.Symm (Apart (α := α)) := ⟨fun _ _ h ↦ apart_iff.mpr (apart_iff.mp h).symm⟩

theorem mem_of_find? (h : find? name entries = some entry) :
    entry ∈ entries ∧ sameName entry.1 name = true := by
  rcases Option.or_eq_some_iff.mp h with hexact | ⟨-, hcasing⟩
  · have hname := List.find?_some hexact
    exact ⟨List.mem_of_find?_eq_some hexact, beq_iff_eq.mp hname ▸ sameName_self entry.1⟩
  · have hname := List.find?_some hcasing
    exact ⟨List.mem_of_find?_eq_some hcasing, hname⟩

theorem find?_eq_some_iff (h : entries.Pairwise Apart) :
    find? name entries = some entry ↔ entry ∈ entries ∧ sameName entry.1 name = true := by
  refine ⟨mem_of_find?, fun ⟨hm, hs⟩ ↦ ?_⟩
  cases hfind : find? name entries with
  | none =>
    have hnone := find?_eq_none_iff.mp hfind entry hm
    rw [hs] at hnone
    cases hnone
  | some found =>
    obtain ⟨hm', hs'⟩ := mem_of_find? hfind
    by_contra hne
    have hapart := h.forall hm' hm fun heq ↦ hne (congrArg some heq)
    exact apart_iff.mp hapart ((sameName_iff.mp hs').trans (sameName_iff.mp hs).symm)

theorem find?_eq_of_sameName (h : entries.Pairwise Apart) {other : String}
    (hs : sameName name other = true) : find? name entries = find? other entries := by
  refine Option.ext fun entry ↦ ?_
  rw [find?_eq_some_iff h, find?_eq_some_iff h, sameName_congr_right hs]

end Entries

theorem Row.get?_eq_of_sameName {row : Row} (h : row.columns.Pairwise Entries.Apart)
    {name other : String} (hs : sameName name other = true) : row.get? name = row.get? other := by
  rw [get?, get?, find?, find?, Entries.find?_eq_of_sameName h hs]

end TableQuery
