import TableQuery.Proofs.Row.Casing
import TableQuery.Table.Registry
import Mathlib.Data.List.Induction

namespace TableQuery

open Text

namespace Registry

variable {α : Type} {r : Registry α} {name : String} {table : α}

structure WellFormed (r : Registry α) : Prop where
  not_blank : ∀ entry ∈ r.tables, isBlank entry.1 = false
  apart : r.tables.Pairwise Entries.Apart

/-- The registry after registrations one after another, any of which may be refused. -/
def after (calls : List (String × α)) : Registry α :=
  calls.foldl (fun r call ↦ (r.add call.1 call.2).2) empty

/-- The call at a place of a history is for this name and table, and it is not refused. -/
structure Registers (calls : List (String × α)) (i : ℕ) (name : String) (table : α) : Prop where
  call : calls[i]? = some (name, table)
  accepted : ((after (calls.take i)).add name table).1 = .ok ()

theorem add_eq_ok_iff : (r.add name table).1 = .ok () ↔
    isBlank name = false ∧ ∀ entry ∈ r.tables, sameName entry.1 name = false := by
  have hcontains : r.contains name = false ↔ ∀ entry ∈ r.tables, sameName entry.1 name = false := by
    rw [← Entries.find?_eq_none_iff]
    simp [contains, lookup?]
  rw [← hcontains, add]
  cases isBlank name <;> cases r.contains name <;> simp

theorem tables_add (h : (r.add name table).1 = .ok ()) :
    (r.add name table).2.tables = r.tables ++ [(name, table)] := by
  unfold add at h ⊢
  split
  · simp_all
  · split <;> simp_all

theorem add_of_refused (h : (r.add name table).1 ≠ .ok ()) : (r.add name table).2 = r := by
  unfold add at h ⊢
  split
  · rfl
  · split <;> simp_all

theorem WellFormed.add (h : r.WellFormed) (name : String) (table : α) :
    (r.add name table).2.WellFormed := by
  by_cases hok : (r.add name table).1 = .ok ()
  · obtain ⟨hblank, hapart⟩ := add_eq_ok_iff.mp hok
    refine ⟨?_, ?_⟩ <;> rw [tables_add hok]
    · intro entry hm
      rcases List.mem_append.mp hm with hm | hm
      · exact h.not_blank entry hm
      · rw [List.mem_singleton.mp hm]
        exact hblank
    · refine List.pairwise_append.mpr ⟨h.apart, List.pairwise_singleton _ _, ?_⟩
      intro entry hm new hnew
      rw [List.mem_singleton.mp hnew]
      exact hapart entry hm
  · rw [add_of_refused hok]
    exact h

theorem WellFormed.lookup?_eq_some_iff (h : r.WellFormed) : r.lookup? name = some table ↔
    ∃ stored, (stored, table) ∈ r.tables ∧ sameName stored name = true := by
  rw [lookup?, Option.map_eq_some_iff]
  constructor
  · rintro ⟨⟨stored, _⟩, hfind, rfl⟩
    exact ⟨stored, (Entries.find?_eq_some_iff h.apart).mp hfind⟩
  · rintro ⟨stored, hentry⟩
    exact ⟨(stored, table), (Entries.find?_eq_some_iff h.apart).mpr hentry, rfl⟩

theorem lookup?_eq_none_iff : r.lookup? name = none ↔
    ∀ entry ∈ r.tables, sameName entry.1 name = false := by
  rw [lookup?, Option.map_eq_none_iff, Entries.find?_eq_none_iff]

theorem WellFormed.perm (h : r.WellFormed) {order : List (String × α)}
    (hp : order.Perm r.tables) : WellFormed ⟨order⟩ := by
  refine ⟨fun entry hm ↦ h.not_blank entry (hp.mem_iff.mp hm), ?_⟩
  exact (hp.pairwise_iff fun hab ↦ Std.Symm.symm _ _ hab).mpr h.apart

theorem WellFormed.lookup?_perm (h : r.WellFormed) {order : List (String × α)}
    (hp : order.Perm r.tables) (name : String) :
    lookup? ⟨order⟩ name = r.lookup? name := by
  refine Option.ext fun table ↦ ?_
  rw [(h.perm hp).lookup?_eq_some_iff, h.lookup?_eq_some_iff]
  simp only [hp.mem_iff]

section

variable {calls : List (String × α)} {i j : ℕ}

theorem after_concat (calls : List (String × α)) (name : String) (table : α) :
    after (calls ++ [(name, table)]) = ((after calls).add name table).2 := by
  simp only [after, List.foldl_append, List.foldl_cons, List.foldl_nil]

theorem wellFormed_after (calls : List (String × α)) : (after calls).WellFormed := by
  induction calls using List.reverseRecOn with
  | nil => exact ⟨nofun, .nil⟩
  | append_singleton calls call ih =>
    rw [after_concat]
    exact ih.add call.1 call.2

theorem Registers.lt_length (h : Registers calls i name table) : i < calls.length :=
  (List.getElem?_eq_some_iff.mp h.call).1

theorem registers_take_iff (hi : i < j) :
    Registers (calls.take j) i name table ↔ Registers calls i name table := by
  have hcall : (calls.take j)[i]? = calls[i]? := List.getElem?_take_of_lt hi
  have htake : (calls.take j).take i = calls.take i := by rw [List.take_take, min_eq_left hi.le]
  constructor
  · rintro ⟨hc, ha⟩
    exact ⟨hcall ▸ hc, htake ▸ ha⟩
  · rintro ⟨hc, ha⟩
    exact ⟨hcall.trans hc, htake.symm ▸ ha⟩

theorem registers_concat_iff {call : String × α} : Registers (calls ++ [call]) i name table ↔
    Registers calls i name table ∨
      i = calls.length ∧ call = (name, table) ∧ ((after calls).add name table).1 = .ok () := by
  have htake : (calls ++ [call]).take calls.length = calls := List.take_left
  constructor
  · intro h
    have hlt := h.lt_length
    rw [List.length_append, List.length_singleton] at hlt
    by_cases hi : i < calls.length
    · exact .inl (htake ▸ (registers_take_iff hi).mpr h)
    · obtain rfl : i = calls.length := by omega
      obtain ⟨hc, ha⟩ := h
      rw [List.getElem?_concat_length] at hc
      exact .inr ⟨rfl, Option.some.inj hc, htake ▸ ha⟩
  · rintro (h | ⟨rfl, rfl, ha⟩)
    · exact (registers_take_iff h.lt_length).mp (htake.symm ▸ h)
    · exact ⟨List.getElem?_concat_length, htake.symm ▸ ha⟩

theorem mem_tables_after :
    (name, table) ∈ (after calls).tables ↔ ∃ i, Registers calls i name table := by
  induction calls using List.reverseRecOn with
  | nil =>
    constructor
    · intro h
      cases h
    · rintro ⟨i, ⟨hc, -⟩⟩
      cases hc
  | append_singleton calls call ih =>
    have hnew : (∃ i, Registers (calls ++ [call]) i name table) ↔
        (name, table) ∈ (after calls).tables ∨
          call = (name, table) ∧ ((after calls).add name table).1 = .ok () := by
      simp only [registers_concat_iff, exists_or, ih, exists_eq_left]
    obtain ⟨name', table'⟩ := call
    rw [hnew, after_concat]
    by_cases hok : ((after calls).add name' table').1 = .ok ()
    · rw [tables_add hok, List.mem_append, List.mem_singleton]
      refine or_congr_right ⟨fun heq ↦ ?_, fun h ↦ h.1.symm⟩
      cases heq
      exact ⟨rfl, hok⟩
    · rw [add_of_refused hok, or_iff_left]
      rintro ⟨heq, ha⟩
      cases heq
      exact hok ha

theorem Registers.not_lt {stored stored' : String} {table' : α}
    (h : Registers calls i stored table) (h' : Registers calls j stored' table')
    (hs : sameName stored stored' = true) : ¬i < j := by
  intro hlt
  have hmem : (stored, table) ∈ (after (calls.take j)).tables :=
    mem_tables_after.mpr ⟨i, (registers_take_iff hlt).mpr h⟩
  have hapart := (add_eq_ok_iff.mp h'.accepted).2 _ hmem
  rw [hs] at hapart
  cases hapart

theorem Registers.unique {stored stored' : String} {table' : α}
    (h : Registers calls i stored table) (h' : Registers calls j stored' table')
    (hs : sameName stored stored' = true) : i = j := by
  have hs' : sameName stored' stored = true := sameName_iff.mpr (sameName_iff.mp hs).symm
  have hle := h.not_lt h' hs
  have hge := h'.not_lt h hs'
  omega

end

/-- What a registry keeps of a history of registrations. -/
structure Keeps (calls : List (String × α)) (r : Registry α) : Prop where
  wellFormed : r.WellFormed
  /-- A further call is accepted exactly if its name is not blank and no accepted call had it in any
  casing. -/
  add_ok_iff : ∀ name table, (r.add name table).1 = .ok () ↔ isBlank name = false ∧
    ∀ i stored other, Registers calls i stored other → sameName stored name = false
  unchanged : ∀ name table, (r.add name table).1 ≠ .ok () → (r.add name table).2 = r
  /-- A look-up finds the table of the accepted call with the name in some casing, and there is no
  other such call. -/
  found : ∀ name i stored table, Registers calls i stored table → sameName stored name = true →
    r.lookup? name = some table ∧ ∀ j stored' table', Registers calls j stored' table' →
      sameName stored' name = true → j = i
  not_found : ∀ name, (∀ i stored table, Registers calls i stored table →
    sameName stored name = false) → r.lookup? name = none
  any_order : ∀ order : List (String × α), order.Perm r.tables → ∀ name,
    lookup? ⟨order⟩ name = r.lookup? name

/-- After any registrations, accepted and refused in any order, a registry has the tables of the
accepted ones under names that differ in more than casing. -/
theorem keeps_after (calls : List (String × α)) : (after calls).Keeps calls := by
  have hwell := wellFormed_after calls
  have htables {name : String} : (∀ entry ∈ (after calls).tables, sameName entry.1 name = false) ↔
      ∀ i stored table, Registers calls i stored table → sameName stored name = false := by
    constructor
    · intro h i stored table hi
      exact h (stored, table) (mem_tables_after.mpr ⟨i, hi⟩)
    · rintro h ⟨stored, table⟩ hm
      obtain ⟨i, hi⟩ := mem_tables_after.mp hm
      exact h i stored table hi
  refine ⟨hwell, fun name table ↦ ?_, fun name table ↦ add_of_refused, ?_, fun name h ↦ ?_,
    fun order hp name ↦ hwell.lookup?_perm hp name⟩
  · rw [add_eq_ok_iff, htables]
  · intro name i stored table hi hs
    have hmem := mem_tables_after.mpr ⟨i, hi⟩
    refine ⟨hwell.lookup?_eq_some_iff.mpr ⟨stored, hmem, hs⟩, fun j stored' table' hj hs' ↦ ?_⟩
    exact hj.unique hi (sameName_iff.mpr ((sameName_iff.mp hs').trans (sameName_iff.mp hs).symm))
  · exact lookup?_eq_none_iff.mpr (htables.mpr h)

end Registry

end TableQuery
