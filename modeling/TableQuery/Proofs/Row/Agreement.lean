import TableQuery.Hints
import TableQuery.Row
import Mathlib.Data.List.Find

namespace TableQuery

namespace Text

theorem sameName_iff {a b : String} : sameName a b = true ↔ lower a = lower b := by
  simp [sameName]

theorem sameName_self (a : String) : sameName a a = true := sameName_iff.mpr rfl

theorem sameName_congr_right {a b : String} (h : sameName a b = true) (c : String) :
    sameName c a = sameName c b := by
  simp only [sameName, sameName_iff.mp h]

end Text

open Text

namespace Entries

variable {α : Type}

theorem find?_filter_of_imp {p q : α → Bool} {l : List α}
    (h : ∀ a ∈ l, q a = true → p a = true) : (l.filter p).find? q = l.find? q := by
  rw [List.find?_filter]
  refine List.find?_congr fun a ha ↦ ?_
  cases hq : q a with
  | false => simp
  | true => simp [h a ha hq]

theorem find?_filter {name : String} {entries : List (String × α)} {p : String × α → Bool}
    (h : ∀ entry ∈ entries, sameName entry.1 name = true → p entry = true) :
    find? name (entries.filter p) = find? name entries := by
  have hexact : ∀ entry ∈ entries, (entry.1 == name) = true → p entry = true := by
    intro entry hm he
    exact h entry hm (eq_of_beq he ▸ sameName_self name)
  rw [find?, find?_filter_of_imp hexact, find?_filter_of_imp h, find?]

end Entries

namespace Row

/-- Two rows have the same value, or no column, under each of the names. -/
def Agree (names : String → Prop) (a b : Row) : Prop :=
  ∀ name, names name → a.get? name = b.get? name

/-- Two rows read alike under each of the names; a missing column reads as NULL. -/
def ReadAlike (names : String → Prop) (a b : Row) : Prop :=
  ∀ name, names name → a.get name = b.get name

/-- A row without some of the columns that are not used. -/
def PrunedTo (used : String → Bool) (row pruned : Row) : Prop :=
  ∃ dropped : List String, (∀ name ∈ dropped, used name = false) ∧
    pruned = row.keep fun name ↦ !dropped.contains name

theorem isSome_get? (row : Row) (name : String) : (row.get? name).isSome = row.contains name := by
  simp [get?, contains]

theorem filter_get? (row : Row) (name : String) :
    (row.get? name).filter (!·.isNull) = (some (row.get name)).filter (!·.isNull) := by
  unfold get
  cases row.get? name <;> rfl

namespace Agree

variable {names : String → Prop} {a b : Row}

theorem readAlike (h : Agree names a b) : ReadAlike names a b := by
  intro name hn
  rw [get, get, h name hn]

theorem contains (h : Agree names a b) {name : String} (hn : names name) :
    a.contains name = b.contains name := by
  rw [← isSome_get?, ← isSome_get?, h name hn]

end Agree

theorem PrunedTo.agree {used : String → Bool} {row pruned : Row}
    (hcasing : ∀ a b, sameName a b = true → used a = used b) (h : PrunedTo used row pruned) :
    Agree (used · = true) row pruned := by
  obtain ⟨dropped, hd, rfl⟩ := h
  intro name hn
  have hkeep : ∀ column ∈ row.columns, sameName column.1 name = true →
      (!dropped.contains column.1) = true := by
    intro column _ hc
    rw [Bool.not_eq_true', ← Bool.not_eq_true, List.contains_iff_mem]
    intro hm
    have hu := hd _ hm
    rw [hcasing _ _ hc, hn] at hu
    exact Bool.noConfusion hu
  exact congrArg (Option.map Prod.snd) (Entries.find?_filter hkeep).symm

theorem PrunedTo.eq_of_all {used : String → Bool} {row pruned : Row} (hu : ∀ name, used name = true)
    (h : PrunedTo used row pruned) : row = pruned := by
  obtain ⟨dropped, hd, rfl⟩ := h
  have hnil : dropped = [] := by
    refine List.eq_nil_iff_forall_not_mem.mpr fun name hm ↦ ?_
    have h := hd name hm
    rw [hu name] at h
    exact Bool.noConfusion h
  subst hnil
  have hall : row.columns.filter (fun _ ↦ true) = row.columns :=
    List.filter_eq_self.mpr fun _ _ ↦ rfl
  simp [keep, hall]

end Row

end TableQuery
