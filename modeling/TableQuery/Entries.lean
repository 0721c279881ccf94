import TableQuery.Text.Casing

namespace TableQuery.Entries

open Text

variable {α β : Type}

/-- The entry under a name: the one with exactly this name, else the first with the name in another
casing. -/
def find? (name : String) (entries : List (String × α)) : Option (String × α) :=
  (entries.find? (·.1 == name)).or (entries.find? (sameName ·.1 name))

def names (entries : List (String × α)) : List String := entries.map (·.1)

/-- Sets the value under exactly this name, where the entry stands or at the end. -/
def insert (name : String) (value : α) : List (String × α) → List (String × α)
  | [] => [(name, value)]
  | entry :: entries =>
    if entry.1 = name then (name, value) :: entries else entry :: insert name value entries

theorem names_insert (name : String) (value : α) (entries : List (String × α)) :
    names (insert name value entries) =
      if name ∈ names entries then names entries else names entries ++ [name] := by
  induction entries with
  | nil => simp [names, insert]
  | cons entry entries ih =>
    unfold names at ih
    by_cases h : entry.1 = name
    · simp [names, insert, h]
    · by_cases hm : name ∈ entries.map (·.1)
      · simp_all [names, insert]
      · simp_all [names, insert, Ne.symm h]

theorem nodup_insert (name : String) (value : α) {entries : List (String × α)}
    (h : (names entries).Nodup) : (names (insert name value entries)).Nodup := by
  rw [names_insert]
  split
  · exact h
  · rename_i hm
    refine List.nodup_append.2 ⟨h, by simp, fun a ha b hb hab ↦ hm ?_⟩
    rw [List.mem_singleton] at hb
    exact hb ▸ hab ▸ ha

def ofList (entries : List (String × α)) : List (String × α) :=
  entries.foldl (fun acc entry ↦ insert entry.1 entry.2 acc) []

theorem nodup_foldl_insert (entries : List (String × α)) {acc : List (String × α)}
    (h : (names acc).Nodup) :
    (names (entries.foldl (fun acc entry ↦ insert entry.1 entry.2 acc) acc)).Nodup := by
  induction entries generalizing acc with
  | nil => exact h
  | cons entry entries ih => exact ih (nodup_insert _ _ h)

theorem nodup_ofList (entries : List (String × α)) : (names (ofList entries)).Nodup :=
  nodup_foldl_insert entries List.nodup_nil

end TableQuery.Entries
