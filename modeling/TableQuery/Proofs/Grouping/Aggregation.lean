import TableQuery.Proofs.Grouping.Groups
import TableQuery.Proofs.Outcome
import TableQuery.Proofs.Row.Agreement

namespace TableQuery

open Row

namespace Aggregate

variable {names : String → Prop} {rows rows' : List Row}

theorem present_eq (column : String) (rows : List Row) :
    (rows.filterMap (·.get? column)).filter (!·.isNull) =
      (rows.map (·.get column)).filter (!·.isNull) := by
  induction rows with
  | nil => rfl
  | cons row rows ih =>
    rw [List.filterMap_cons, List.map_cons, List.filter_cons, ← ih, Row.get]
    cases row.get? column with
    | none => rfl
    | some v => rw [List.filter_cons]; rfl

theorem map_get_congr (h : List.Forall₂ (ReadAlike names) rows rows') {column : String}
    (hc : names column) : rows.map (·.get column) = rows'.map (·.get column) := by
  induction h with
  | nil => rfl
  | cons hr _ ih => rw [List.map_cons, List.map_cons, ih, hr column hc]

theorem compute_congr (h : List.Forall₂ (ReadAlike names) rows rows') {a : Aggregate}
    (ha : a.countsRows = false → names a.column) : a.compute rows = a.compute rows' := by
  unfold compute
  cases hc : a.countsRows with
  | true => simp only [if_true, h.length_eq]
  | false =>
    have hv : a.values rows = a.values rows' := by
      simp only [values, present_eq, map_get_congr h (ha hc)]
    simp only [hv, h.length_eq]

end Aggregate

namespace Grouping

/-- The columns that aggregation reads. -/
def Reads (columns : List String) (aggregates : List Aggregate) (name : String) : Prop :=
  name ∈ columns ∨ ∃ a ∈ aggregates, a.countsRows = false ∧ a.column = name

variable {names : String → Prop} {columns : List String} {aggregates : List Aggregate}
  {rows rows' : List Row}

theorem cellKey_congr {row row' : Row} (h : ReadAlike names row row') {column : String}
    (hc : names column) : cellKey row column = cellKey row' column := by
  rw [cellKey, cellKey, filter_get?, filter_get?, h column hc]

theorem key_congr {row row' : Row} (h : ReadAlike names row row')
    (hc : ∀ column ∈ columns, names column) : key columns row = key columns row' :=
  List.map_congr_left fun column hm ↦ cellKey_congr h (hc column hm)

theorem keyRow_congr (h : List.Forall₂ (ReadAlike names) rows rows')
    (hc : ∀ column ∈ columns, names column) : keyRow columns rows = keyRow columns rows' := by
  cases h with
  | nil => rfl
  | cons hr _ =>
    unfold keyRow
    refine List.foldl_ext _ _ _ fun row column hm ↦ ?_
    rw [hr column (hc column hm)]

theorem foldlM_addAggregate_congr (h : ∀ a ∈ aggregates, a.compute rows = a.compute rows')
    (row : Row) :
    aggregates.foldlM (addAggregate rows) row = aggregates.foldlM (addAggregate rows') row := by
  induction aggregates generalizing row with
  | nil => rfl
  | cons a aggregates ih =>
    obtain ⟨ha, h⟩ := List.forall_mem_cons.mp h
    simp only [List.foldlM_cons, addAggregate, ha, ih h]

theorem groupRow_congr (h : List.Forall₂ (ReadAlike names) rows rows')
    (hn : ∀ name, Reads columns aggregates name → names name) :
    groupRow columns aggregates rows = groupRow columns aggregates rows' := by
  unfold groupRow
  rw [keyRow_congr h fun column hm ↦ hn column (.inl hm)]
  exact foldlM_addAggregate_congr (fun a ha ↦
    Aggregate.compute_congr h fun hc ↦ hn _ (.inr ⟨a, ha, hc, rfl⟩)) _

theorem mapM_congr {α β : Type} {f g : α → Except Fault β} {l : List α}
    (h : ∀ a ∈ l, f a = g a) : l.mapM f = l.mapM g := by
  induction l with
  | nil => rfl
  | cons a l ih =>
    obtain ⟨ha, h⟩ := List.forall_mem_cons.mp h
    rw [List.mapM_cons, List.mapM_cons, ha, ih h]

theorem mapM_groupRow_congr (h : List.Forall₂ (ReadAlike names) rows rows')
    (hn : ∀ name, Reads columns aggregates name → names name) :
    ((groups columns rows).mapM fun group ↦ groupRow columns aggregates group.2) =
      (groups columns rows').mapM fun group ↦ groupRow columns aggregates group.2 := by
  have hkey : ∀ row row', ReadAlike names row row' → key columns row = key columns row' :=
    fun row row' hr ↦ key_congr hr fun column hm ↦ hn column (.inl hm)
  have hkeys : rows.map (key columns) = rows'.map (key columns) := by
    clear hn
    induction h with
    | nil => rfl
    | cons hr _ ih => rw [List.map_cons, List.map_cons, ih, hkey _ _ hr]
  rw [groups_eq, groups_eq, hkeys, List.mapM_map, List.mapM_map]
  refine mapM_congr fun k _ ↦ groupRow_congr ?_ hn
  exact List.rel_filter (fun row row' hr ↦ by simp only [hkey row row' hr]) h

theorem aggregate_congr (h : List.Forall₂ (ReadAlike names) rows rows')
    (hc : ∀ column ∈ columns, rows.any (·.contains column) = rows'.any (·.contains column))
    (hn : ∀ name, Reads columns aggregates name → names name) :
    aggregate columns aggregates rows = aggregate columns aggregates rows' := by
  have hempty : rows.isEmpty = rows'.isEmpty := by
    cases h <;> rfl
  have hmissing : (columns.find? fun column ↦ !rows.any (·.contains column)) =
      columns.find? fun column ↦ !rows'.any (·.contains column) :=
    List.find?_congr fun column hm ↦ by rw [hc column hm]
  simp only [aggregate, hempty, hmissing, mapM_groupRow_congr h hn]

end Grouping

end TableQuery
