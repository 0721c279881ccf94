import TableQuery.Proofs.Row.Agreement

namespace TableQuery

open Text

namespace Entries

variable {α : Type} {name other : String} {value : α} {entries : List (String × α)}

theorem find?_eq_none_iff : find? name entries = none ↔
    ∀ entry ∈ entries, sameName entry.1 name = false := by
  rw [find?, Option.or_eq_none_iff, List.find?_eq_none, List.find?_eq_none]
  simp only [Bool.not_eq_true]
  refine and_iff_right_of_imp fun h entry hm ↦ beq_eq_false_iff_ne.mpr fun heq ↦ ?_
  have hself := h entry hm
  rw [heq, sameName_self] at hself
  cases hself

theorem find?_insert_of_false {p : String → Bool} (hp : p name = false) :
    (insert name value entries).find? (p ·.1) = entries.find? (p ·.1) := by
  induction entries with
  | nil => simp [insert, hp]
  | cons entry entries ih =>
    rw [insert]
    split
    · rename_i heq
      simp [hp, heq]
    · rw [List.find?_cons, List.find?_cons, ih]

theorem find?_insert_of_not_sameName (h : sameName name other = false) :
    find? other (insert name value entries) = find? other entries := by
  have hexact : (name == other) = false := by
    refine beq_eq_false_iff_ne.mpr fun heq ↦ ?_
    rw [heq, sameName_self] at h
    cases h
  rw [find?, find?, find?_insert_of_false (p := (· == other)) hexact,
    find?_insert_of_false (p := (sameName · other)) h]

theorem insert_of_not_mem (h : name ∉ names entries) :
    insert name value entries = entries ++ [(name, value)] := by
  induction entries with
  | nil => rfl
  | cons entry entries ih =>
    obtain ⟨hne, h⟩ := not_or.mp (mt List.mem_cons.mpr h)
    rw [insert, if_neg (Ne.symm hne), ih h, List.cons_append]

theorem foldl_insert_of_nodup {acc : List (String × α)} (h : (names (acc ++ entries)).Nodup) :
    entries.foldl (fun acc entry ↦ insert entry.1 entry.2 acc) acc = acc ++ entries := by
  induction entries generalizing acc with
  | nil => simp
  | cons entry entries ih =>
    have hnew : entry.1 ∉ names acc := by
      intro hm
      rw [names, List.map_append, List.nodup_append] at h
      exact h.2.2 entry.1 hm entry.1 (by simp) rfl
    rw [List.foldl_cons, insert_of_not_mem hnew, ih (by simpa using h), List.append_assoc]
    rfl

theorem ofList_of_nodup (h : (names entries).Nodup) : ofList entries = entries :=
  foldl_insert_of_nodup h

theorem names_map_value {β : Type} (f : α → β) (entries : List (String × α)) :
    names (entries.map fun (name, value) ↦ (name, f value)) = names entries := by
  simp [names, Function.comp_def]

end Entries

namespace Row

variable {row : Row} {name other : String} {value : Value}

theorem get?_insert_of_not_sameName (h : sameName name other = false) :
    (row.insert name value).get? other = row.get? other :=
  congrArg (Option.map Prod.snd) (Entries.find?_insert_of_not_sameName h)

theorem columns_foldl_insert (columns : List (String × Value)) (row : Row) :
    (columns.foldl (fun row column ↦ row.insert column.1 column.2) row).columns =
      columns.foldl (fun acc column ↦ Entries.insert column.1 column.2 acc) row.columns := by
  induction columns generalizing row with
  | nil => rfl
  | cons column columns ih => exact ih (row.insert column.1 column.2)

theorem ofList_columns (row : Row) : ofList row.columns = row := by
  have hcolumns : (ofList row.columns).columns = row.columns :=
    (columns_foldl_insert row.columns empty).trans (Entries.ofList_of_nodup row.nodup)
  cases hrow : ofList row.columns
  cases row
  rw [hrow] at hcolumns
  cases hcolumns
  rfl

end Row

end TableQuery
