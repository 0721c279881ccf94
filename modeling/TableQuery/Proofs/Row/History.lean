import TableQuery.Proofs.FirstOccurrences
import TableQuery.Proofs.Row.Casing

namespace TableQuery

open Text

namespace Entries

variable {α : Type} {name other : String} {value v : α} {entries : List (String × α)}

theorem mem_insert (h : (names entries).Nodup) :
    (other, v) ∈ insert name value entries ↔
      if other = name then v = value else (other, v) ∈ entries := by
  induction entries with
  | nil => split <;> simp_all [insert]
  | cons entry entries ih =>
    obtain ⟨hnew, h⟩ := List.nodup_cons.mp h
    rw [insert]
    by_cases heq : entry.1 = name
    · subst heq
      have hnot (w : α) : (entry.1, w) ∉ entries := fun hw ↦ hnew (List.mem_map.mpr ⟨_, hw, rfl⟩)
      by_cases ho : other = entry.1
      · simp [ho, hnot]
      · simp [ho, Prod.ext_iff]
    · rw [if_neg heq, List.mem_cons, ih h]
      by_cases ho : other = name
      · simp [ho, Prod.ext_iff, Ne.symm heq]
      · simp [ho, List.mem_cons]

theorem ofList_concat (entries : List (String × α)) (entry : String × α) :
    ofList (entries ++ [entry]) = insert entry.1 entry.2 (ofList entries) := by
  simp only [ofList, List.foldl_append, List.foldl_cons, List.foldl_nil]

theorem map_insert {β : Type} (f : α → β) (name : String) (value : α)
    (entries : List (String × α)) :
    (insert name value entries).map (fun (name, v) ↦ (name, f v)) =
      insert name (f value) (entries.map fun (name, v) ↦ (name, f v)) := by
  induction entries with
  | nil => rfl
  | cons entry entries ih =>
    rw [insert, List.map_cons, insert]
    split
    · rfl
    · rw [List.map_cons, ih]

theorem map_ofList {β : Type} (f : α → β) (entries : List (String × α)) :
    (ofList entries).map (fun (name, v) ↦ (name, f v)) =
      ofList (entries.map fun (name, v) ↦ (name, f v)) := by
  induction entries using List.reverseRecOn with
  | nil => rfl
  | append_singleton entries entry ih =>
    rw [ofList_concat, map_insert, ih, List.map_append, List.map_singleton, ofList_concat]

theorem names_ofList (entries : List (String × α)) :
    names (ofList entries) = (names entries).eraseDups := by
  induction entries using List.reverseRecOn with
  | nil => rfl
  | append_singleton entries entry ih =>
    have hconcat : names (entries ++ [entry]) = names entries ++ [entry.1] := List.map_append
    rw [ofList_concat, names_insert, ih, hconcat, eraseDups_concat]
    simp only [List.mem_eraseDups]

theorem mem_ofList : (name, v) ∈ ofList entries ↔ entries.reverse.lookup name = some v := by
  induction entries using List.reverseRecOn with
  | nil => simp [ofList]
  | append_singleton entries entry ih =>
    rw [ofList_concat, mem_insert (nodup_ofList entries), ih, List.reverse_append,
      List.reverse_singleton, List.singleton_append, List.lookup_cons]
    by_cases h : name = entry.1
    · simp [h, eq_comm]
    · simp [h, beq_eq_false_iff_ne.mpr h]

theorem lookup_reverse_of_nodup (h : (names entries).Nodup) :
    entries.reverse.lookup name = some v ↔ (name, v) ∈ entries := by
  rw [← mem_ofList, ofList_of_nodup h]

theorem lookup_reverse_eq_none_iff : entries.reverse.lookup name = none ↔ name ∉ names entries := by
  rw [List.lookup_eq_none_iff, names, List.mem_map]
  constructor
  · rintro h ⟨entry, he, rfl⟩
    simpa using h entry (List.mem_reverse.mpr he)
  · intro h entry he
    exact bne_iff_ne.mpr fun heq ↦ h ⟨entry, List.mem_reverse.mp he, heq.symm⟩

theorem lookup_reverse_eq_some_iff : entries.reverse.lookup name = some v ↔
    ∃ before after, entries = before ++ (name, v) :: after ∧ name ∉ names after := by
  constructor
  · intro h
    obtain ⟨later, earlier, heq, hlater⟩ := List.lookup_eq_some_iff.mp h
    refine ⟨earlier.reverse, later.reverse, ?_, fun hm ↦ ?_⟩
    · rw [← List.reverse_inj, heq]
      simp
    · obtain ⟨entry, he, rfl⟩ := List.mem_map.mp hm
      simpa using hlater entry (List.mem_reverse.mp he)
  · rintro ⟨before, after, rfl, hafter⟩
    rw [List.reverse_append, List.reverse_cons, List.append_assoc, List.lookup_append,
      lookup_reverse_eq_none_iff.mpr hafter, Option.none_or, List.singleton_append,
      List.lookup_cons_self]

theorem mem_of_lookup_reverse (h : entries.reverse.lookup name = some v) : (name, v) ∈ entries := by
  obtain ⟨before, after, rfl, -⟩ := lookup_reverse_eq_some_iff.mp h
  exact List.mem_append_right _ List.mem_cons_self

theorem exists_lookup_reverse (h : name ∈ names entries) :
    ∃ v, entries.reverse.lookup name = some v :=
  Option.ne_none_iff_exists'.mp (mt lookup_reverse_eq_none_iff.mp (not_not_intro h))

theorem insert_of_mem (h : (names entries).Nodup) (hm : (name, v) ∈ entries) :
    insert name v entries = entries := by
  induction entries with
  | nil => cases hm
  | cons entry entries ih =>
    obtain ⟨hnew, h⟩ := List.nodup_cons.mp h
    rw [insert]
    rcases List.mem_cons.mp hm with rfl | hm
    · rw [if_pos rfl]
    · have hne : entry.1 ≠ name := by
        rintro rfl
        exact hnew (List.mem_map.mpr ⟨_, hm, rfl⟩)
      rw [if_neg hne, ih h hm]

theorem find?_of_mem (hn : (names entries).Nodup) (h : (name, v) ∈ entries) :
    find? name entries = some (name, v) := by
  rw [find?, Option.or_eq_some_iff]
  left
  cases hfind : entries.find? (·.1 == name) with
  | none =>
    have hnone := List.find?_eq_none.mp hfind _ h
    simp at hnone
  | some entry =>
    have hname := List.find?_some hfind
    exact congrArg some
      (List.inj_on_of_nodup_map hn (List.mem_of_find?_eq_some hfind) h (eq_of_beq hname))

/-- The spelling that a look-up finds a name in: its own if it is there, else that of the first name
in another casing. -/
def spelling? (entries : List (String × α)) (name : String) : Option String :=
  if name ∈ names entries then some name else (names entries).find? (sameName · name)

theorem find?_names (p : String → Bool) (entries : List (String × α)) :
    (names entries).find? p = (entries.find? (p ·.1)).map Prod.fst := List.find?_map

theorem find?_beq_names (name : String) (entries : List (String × α)) :
    (names entries).find? (· == name) = if name ∈ names entries then some name else none := by
  split
  · rename_i hm
    cases hfind : (names entries).find? (· == name) with
    | none => exact absurd (beq_self_eq_true name) (List.find?_eq_none.mp hfind name hm)
    | some found =>
      have hname := List.find?_some hfind
      exact congrArg some (eq_of_beq hname)
  · rename_i hm
    exact List.find?_eq_none.mpr fun other ho heq ↦ hm (eq_of_beq heq ▸ ho)

theorem map_fst_find? (name : String) (entries : List (String × α)) :
    (find? name entries).map Prod.fst = spelling? entries name := by
  rw [find?, Option.map_or, ← find?_names (· == name), ← find?_names (sameName · name),
    find?_beq_names, spelling?]
  split <;> rfl

theorem spelling?_ofList (entries : List (String × α)) (name : String) :
    spelling? (ofList entries) name = spelling? entries name := by
  simp only [spelling?, names_ofList, List.mem_eraseDups, find?_eraseDups]

theorem find?_ofList : find? name (ofList entries) = some (other, v) ↔
    spelling? entries name = some other ∧ entries.reverse.lookup other = some v := by
  rw [← spelling?_ofList, ← map_fst_find?, ← mem_ofList]
  constructor
  · intro h
    exact ⟨congrArg (Option.map Prod.fst) h, (mem_of_find? h).1⟩
  · rintro ⟨hname, hm⟩
    obtain ⟨found, hfound, rfl⟩ := Option.map_eq_some_iff.mp hname
    have hfirst := find?_of_mem (nodup_ofList entries) (mem_of_find? hfound).1
    rw [find?_of_mem (nodup_ofList entries) hm] at hfirst
    rw [hfound, hfirst]

end Entries

namespace Row

variable {row : Row} {name : String} {v : Value} {columns : List (String × Value)}

theorem columns_ofList (columns : List (String × Value)) :
    (ofList columns).columns = Entries.ofList columns := columns_foldl_insert columns empty

theorem mem_of_mem_ofList (h : (name, v) ∈ (ofList columns).columns) : (name, v) ∈ columns := by
  rw [columns_ofList, Entries.mem_ofList] at h
  exact Entries.mem_of_lookup_reverse h

theorem foldl_insert_columns (row : Row) :
    row.columns.foldl (fun row column ↦ row.insert column.1 column.2) row = row := by
  refine List.foldlRecOn (motive := (· = row)) row.columns _ rfl ?_
  intro _ hsame column hc
  have hcolumns := Entries.insert_of_mem row.nodup hc
  simp only [hsame, insert, hcolumns]

theorem get?_of_mem (h : (name, v) ∈ row.columns) : row.get? name = some v := by
  rw [get?, find?, Entries.find?_of_mem row.nodup h]
  rfl

theorem contains_of_mem_names (h : name ∈ row.names) : row.contains name = true := by
  obtain ⟨column, hc, rfl⟩ := List.mem_map.mp h
  rw [← isSome_get?, get?_of_mem hc]
  rfl

theorem get?_ofList (h : name ∈ Entries.names columns) :
    (ofList columns).get? name = columns.reverse.lookup name := by
  obtain ⟨v, hv⟩ := Entries.exists_lookup_reverse h
  rw [hv]
  refine get?_of_mem ?_
  rw [columns_ofList]
  exact Entries.mem_ofList.mpr hv

theorem forall_get?_ofList_iff :
    (∀ name v, (name, v) ∈ columns → (ofList columns).get? name = some v) ↔
    ∀ name v w, (name, v) ∈ columns → (name, w) ∈ columns → v = w := by
  constructor
  · intro h name v w hv hw
    exact Option.some.inj ((h name v hv).symm.trans (h name w hw))
  · intro h name v hv
    have hname : name ∈ Entries.names columns := List.mem_map.mpr ⟨_, hv, rfl⟩
    obtain ⟨w, hw⟩ := Entries.exists_lookup_reverse hname
    rw [get?_ofList hname, hw, h name v w hv (Entries.mem_of_lookup_reverse hw)]

theorem resolve?_ofList (columns : List (String × Value)) (name : String) :
    (ofList columns).resolve? name = Entries.spelling? columns name := by
  rw [resolve?, find?, columns_ofList, Entries.map_fst_find?, Entries.spelling?_ofList]

theorem get?_ofList_eq_some_iff : (ofList columns).get? name = some v ↔ ∃ spelling before after,
    Entries.spelling? columns name = some spelling ∧
      columns = before ++ (spelling, v) :: after ∧ spelling ∉ Entries.names after := by
  rw [get?, find?, columns_ofList, Option.map_eq_some_iff]
  constructor
  · rintro ⟨⟨spelling, _⟩, hfind, rfl⟩
    obtain ⟨hspelling, hlast⟩ := Entries.find?_ofList.mp hfind
    obtain ⟨before, after, h⟩ := Entries.lookup_reverse_eq_some_iff.mp hlast
    exact ⟨spelling, before, after, hspelling, h⟩
  · rintro ⟨spelling, before, after, hspelling, h⟩
    have hlast := Entries.lookup_reverse_eq_some_iff.mpr ⟨before, after, h⟩
    exact ⟨(spelling, v), Entries.find?_ofList.mpr ⟨hspelling, hlast⟩, rfl⟩

structure Remembers (history : List (String × Value)) (row : Row) : Prop where
  mem : ∀ name, name ∈ row.names ↔ name ∈ Entries.names history
  once : row.names.Nodup
  ordered : row.names.Pairwise fun a b ↦
    (Entries.names history).idxOf a < (Entries.names history).idxOf b
  /-- A name that was ever inserted is found as it is, any other one in the casing that was inserted
  first. -/
  spelling : ∀ name, row.resolve? name = Entries.spelling? history name
  /-- Under a name is found what was inserted last under exactly the spelling that is found. -/
  value : ∀ name v, row.get? name = some v ↔ ∃ spelling before after,
    Entries.spelling? history name = some spelling ∧
      history = before ++ (spelling, v) :: after ∧ spelling ∉ Entries.names after
  found : ∀ name, row.contains name = (row.get? name).isSome ∧
    row.contains name = (row.resolve? name).isSome
  /-- A further insertion is not seen under a name that differs in more than casing. -/
  others : ∀ name value other, sameName name other = false →
    (row.insert name value).get? other = row.get? other

theorem remembers_ofList (history : List (String × Value)) :
    Remembers history (ofList history) := by
  have hnames : (ofList history).names = (Entries.names history).eraseDups := by
    rw [names, columns_ofList, Entries.names_ofList]
  refine ⟨fun name ↦ ?_, nodup _, ?_, resolve?_ofList history, fun _ _ ↦ get?_ofList_eq_some_iff,
    fun name ↦ ⟨(isSome_get? _ name).symm, Option.isSome_map.symm⟩,
    fun _ _ _ ↦ get?_insert_of_not_sameName⟩
  · rw [hnames, List.mem_eraseDups]
  · rw [hnames]
    exact pairwise_idxOf_eraseDups _

/-- The history of the insertions into an empty row determines all look-ups in the row, whatever
casings stand side by side. A row that is read from an object is one into which the members were
inserted in order. -/
theorem remembers_insertions :
    (∀ history : List (String × Value), Remembers history
      (history.foldl (fun row column ↦ row.insert column.1 column.2) empty)) ∧
    ∀ members : List (String × Json), ∃ row, ofJson? (.object members) = some row ∧
      Remembers (members.map fun (name, j) ↦ (name, Value.ofJson j)) row :=
  ⟨remembers_ofList, fun _ ↦ ⟨_, rfl, remembers_ofList _⟩⟩

/-- The second casing was inserted last, but the first one is found; its own value was replaced. -/
example :
    let row := ofList [("kg", .integer 1), ("Hue", .text "red"), ("HUE", .text "blue"),
      ("Hue", .text "green")]
    row.names = ["kg", "Hue", "HUE"] ∧ row.get? "hue" = some (.text "green") ∧
      row.get? "HUE" = some (.text "blue") ∧ row.resolve? "hue" = some "Hue" := by decide

end Row

end TableQuery
