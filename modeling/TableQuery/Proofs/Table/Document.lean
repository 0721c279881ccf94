import TableQuery.Proofs.Json.RoundTrip
import TableQuery.Table.Generator

namespace TableQuery

namespace Value

/-- The values that JSON text keeps. -/
def isExact : Value → Bool
  | .null | .integer _ | .text _ | .boolean _ => true
  | .float _ => false

variable {v : Value}

theorem exact_toJson (h : v.isExact = true) {n : Nat} : Json.Exact n v.toJson := by
  cases v with
  | null => exact .null
  | integer k =>
    have hhigh : k.toInt < 2 ^ 64 := k.toInt_lt.trans (by decide)
    exact .integer k.le_toInt hhigh
  | float x => cases h
  | text s => exact .text s
  | boolean b => exact .bool b

theorem ofJson_toJson (h : v.isExact = true) : ofJson v.toJson = v := by
  cases v with
  | null => rfl
  | integer k => simp [toJson, ofJson, ofNumber]
  | float x => cases h
  | text s => rfl
  | boolean b => rfl

end Value

namespace Row

variable {row : Row}

theorem exact_toJson (h : ∀ column ∈ row.columns, column.2.isExact = true) {n : Nat} :
    Json.Exact (n + 1) row.toJson := by
  refine .object ?_ ?_
  · rw [Entries.names_map_value]
    exact row.nodup
  · intro member hm
    obtain ⟨column, hc, rfl⟩ := List.mem_map.mp hm
    exact Value.exact_toJson (h column hc)

theorem ofJson?_toJson (h : ∀ column ∈ row.columns, column.2.isExact = true) :
    ofJson? row.toJson = some row := by
  have hkeep : ∀ column ∈ row.columns, (column.1, Value.ofJson column.2.toJson) = column :=
    fun column hc ↦ Prod.ext rfl (Value.ofJson_toJson (h column hc))
  have hcolumns : row.columns.map (fun column ↦ (column.1, Value.ofJson column.2.toJson)) =
      row.columns := (List.map_congr_left hkeep).trans (List.map_id' _)
  calc ofJson? row.toJson
    _ = some (ofList (row.columns.map fun column ↦ (column.1, Value.ofJson column.2.toJson))) := by
      rw [toJson, ofJson?, List.map_map]
      rfl
    _ = some row := by rw [hcolumns, ofList_columns]

end Row

namespace FixedTable

variable {rows : List Row}

theorem exact_toJson (h : ∀ row ∈ rows, ∀ column ∈ row.columns, column.2.isExact = true)
    {n : Nat} : Json.Exact (n + 2) (mk rows).toJson := by
  refine .array ?_
  intro item hitem
  obtain ⟨row, hrow, rfl⟩ := List.mem_map.mp hitem
  exact Row.exact_toJson (h row hrow)

theorem rowsOfJson_map_toJson
    (h : ∀ row ∈ rows, ∀ column ∈ row.columns, column.2.isExact = true) (index : Nat) :
    rowsOfJson index (rows.map Row.toJson) = .ok rows := by
  induction rows generalizing index with
  | nil => rfl
  | cons row rows ih =>
    obtain ⟨hrow, hrows⟩ := List.forall_mem_cons.mp h
    rw [List.map_cons, rowsOfJson, Row.ofJson?_toJson hrow, ih hrows]
    rfl

/-- Rows of NULL, integers, texts and booleans come back from the text of their document: the table
read from it produces exactly these rows. -/
theorem generate_of_document
    (h : ∀ row ∈ rows, ∀ column ∈ row.columns, column.2.isExact = true) :
    ∃ j t, Json.parse? (mk rows).toJson.compact = some j ∧ ofJson j = .ok t ∧
      ∀ hints, t.generate hints = .ok rows := by
  refine ⟨(mk rows).toJson, mk rows, Json.parse?_compact (exact_toJson h), ?_, fun _ ↦ rfl⟩
  rw [toJson, ofJson, rowsOfJson_map_toJson h]
  rfl

def hostile : List Row :=
  [.ofList [("a\"b\\", .text "\x7b\"a\":[1]\x7d\n\x01"), ("id", .integer Int64.minValue),
      ("ID", .text "-0.50")],
    .empty, .ofList [("\t", .null), ("id", .boolean false), ("\u00e9", .text "")]]

theorem generate_of_document_hostile :
    ∃ j t, Json.parse? (mk hostile).toJson.compact = some j ∧ ofJson j = .ok t ∧
      ∀ hints, t.generate hints = .ok hostile :=
  generate_of_document (by decide)

end FixedTable

end TableQuery
