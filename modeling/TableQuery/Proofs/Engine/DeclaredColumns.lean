import TableQuery.Proofs.Engine.Requirements
import TableQuery.Proofs.Grouping.Partition
import TableQuery.Proofs.Projection.Names

namespace TableQuery

theorem ResultSet.names_eq_firstNames {rows : List Row} {names : List String}
    (h : ∀ row ∈ rows, row.names = names) : ∀ row ∈ rows, row.names = firstNames rows := by
  intro row hr
  cases rows with
  | nil => cases hr
  | cons first rest => rw [h row hr, firstNames, h first List.mem_cons_self]

theorem Window.mem_of_mem_apply {α : Type} {w : Window} {l : List α} {a : α}
    (h : a ∈ w.apply l) : a ∈ l := by
  unfold Window.apply at h
  split at h
  · exact List.mem_of_mem_drop h
  · exact List.mem_of_mem_drop (List.mem_of_mem_take h)

namespace Grouping

variable {columns : List String} {aggregates : List Aggregate} {rows grouped : List Row}

theorem names_of_shows {group : List Row} {row : Row} (h : Shows columns aggregates group row) :
    row.names = (columns ++ aggregates.map Aggregate.key).foldl Projection.addName [] := by
  obtain ⟨first, values, -, hv, rfl⟩ := h
  have hlen : (aggregates.map Aggregate.key).length ≤ values.length := by
    rw [List.length_map, hv.length_eq]
  have hcolumns : (columns.map fun column ↦ (column, first.get column)).map Prod.fst = columns := by
    rw [List.map_map]
    exact List.map_id columns
  rw [Row.ofList, Projection.names_foldl_insert, List.map_append, hcolumns, List.map_fst_zip hlen]
  rfl

theorem exists_names_of_aggregate (h : aggregate columns aggregates rows = .ok grouped) :
    ∃ names, ∀ row ∈ grouped, row.names = names := by
  by_cases hrows : rows = []
  · subst hrows
    rw [aggregate_of_nil] at h
    obtain ⟨row, -, rfl⟩ := map_eq_ok.mp h
    exact ⟨row.names, fun row' hr ↦ by rw [List.mem_singleton.mp hr]⟩
  · refine ⟨(columns ++ aggregates.map Aggregate.key).foldl Projection.addName [], fun row hr ↦ ?_⟩
    obtain ⟨group, -, hs⟩ := exists_mem_of_forall₂ (forall₂_shows hrows h) hr
    exact names_of_shows hs

end Grouping

namespace Plan

variable {table : String} {s : Statement} {p : Plan} {matching grouped : List Row}

theorem names_of_group (ha : p.aggregates ≠ []) (hg : p.group matching = .ok grouped) :
    ∀ row ∈ p.window.apply (p.sort grouped),
      row.names = ResultSet.firstNames (p.window.apply (p.sort grouped)) := by
  rw [group_of_ne_nil ha] at hg
  obtain ⟨names, hnames⟩ := Grouping.exists_names_of_aggregate hg
  have hshown : ∀ row ∈ p.window.apply (p.sort grouped), row.names = names := fun row hr ↦
    hnames row ((Sorting.sortRows_perm _ _).mem_iff.mp (Window.mem_of_mem_apply hr))
  exact ResultSet.names_eq_firstNames hshown

theorem mem_columns_of_report (hp : p.Prepares table s) (hg : p.group matching = .ok grouped)
    (h : s.hasCall = true ∨ s.select ≠ [] ∧ s.hasStar = false) {generated : ℕ} {row : Row}
    (hr : row ∈ (p.report generated matching.length grouped).result.rows) {name : String}
    (hn : name ∈ row.names) :
    name ∈ (p.report generated matching.length grouped).result.columns := by
  refine Projection.mem_columns_of_mem_names ?_ hr hn
  by_cases ha : p.aggregates = []
  · rw [(aggregates_eq_nil_iff hp).mp ha] at h
    obtain hcall | ⟨hne, hstar⟩ := h
    · cases hcall
    · left
      rw [Ne, Projection.outputs_eq_nil_iff hp.projection,
        Projection.all_mem_outputs_iff hp.aggregates hp.projection, ← Statement.hasStar, hstar]
      exact ⟨hne, Bool.false_ne_true⟩
  · exact .inr (names_of_group ha hg)

end Plan

/-- A result declares the columns of its first row and the names of the entries of the SELECT list,
and no others. With an aggregate, or with entries none of which is a star, all its rows have only
columns that it declares. -/
theorem execute_columns [Like.Compiler] {registry : Registry Generator} {config : Config}
    {table : String} {s : Statement} {e : Execution} (h : execute registry config table s = .ok e) :
    (∀ name, name ∈ e.result.columns ↔
      name ∈ ResultSet.firstNames e.result.rows ∨ name ∈ s.shownNames) ∧
    (s.hasCall = true ∨ s.select ≠ [] ∧ s.hasStar = false →
      ∀ row ∈ e.result.rows, ∀ name ∈ row.names, name ∈ e.result.columns) := by
  obtain ⟨g, rows, -, -, p, hp, hf⟩ := Plan.exists_finish_of_execute h
  obtain ⟨matching, grouped, -, hg, rfl, -⟩ := Plan.finish_eq_ok_iff.mp hf
  refine ⟨fun name ↦ ?_, fun hs row hr name hn ↦ Plan.mem_columns_of_report hp hg hs hr hn⟩
  rw [Statement.shownNames, ← Projection.shownNames_eq hp.aggregates hp.projection]
  exact Projection.mem_columns_apply

private def ragged : Registry Generator :=
  ⟨[("fruit", FixedTable.generate ⟨[.ofList [("kg", .integer 3)],
    .ofList [("kg", .integer 2), ("hue", .text "red")]]⟩)]⟩

private def weights : Statement :=
  -- SELECT hue, kg AS weight FROM fruit
  { Statement.ofTable "fruit" with
    select := [.entry (.column "hue") none, .entry (.column "kg") (some "weight")] }

section

attribute [local instance] Like.Compiler.unlimited

theorem execute_columns_weights : ∃ e, execute ragged .default "fruit" weights = .ok e ∧
    e.result.columns = ["hue", "weight"] ∧
      ∀ row ∈ e.result.rows, ∀ name ∈ row.names, name ∈ e.result.columns := by
  have hrun : execute ragged .default "fruit" weights = .ok ⟨"fruit", ⟨["hue", "weight"],
      [.ofList [("weight", .integer 3)], .ofList [("hue", .text "red"), ("weight", .integer 2)]]⟩,
        2, 2, false⟩ := rfl
  exact ⟨_, hrun, rfl, (execute_columns hrun).2 (.inr ⟨List.cons_ne_nil _ _, rfl⟩)⟩

/-- In the result of `SELECT * FROM fruit` the second row has a column that is not declared. -/
theorem exists_column_not_declared : ¬∀ (registry : Registry Generator) (config : Config)
    (table : String) (s : Statement) (e : Execution), execute registry config table s = .ok e →
      ∀ row ∈ e.result.rows, ∀ name ∈ row.names, name ∈ e.result.columns := by
  intro h
  have hrun : execute ragged .default "fruit" (.ofTable "fruit") = .ok ⟨"fruit", ⟨["kg"],
      [.ofList [("kg", .integer 3)], .ofList [("kg", .integer 2), ("hue", .text "red")]]⟩,
        2, 2, false⟩ := rfl
  have hdeclared := h _ _ _ _ _ hrun (.ofList [("kg", .integer 2), ("hue", .text "red")])
    (by decide) "hue" (by decide)
  exact absurd hdeclared (by decide)

end

end TableQuery
