import TableQuery.Proofs.Engine.Requirements
import TableQuery.Proofs.Row.Padding
import TableQuery.Proofs.Sorting.Overtaking

namespace TableQuery

open Row

def rowsAt (rows : List Row) (positions : List ℕ) : List Row :=
  positions.map fun i ↦ rows.getD i .empty

theorem rowsAt_range (rows : List Row) : rowsAt rows (List.range rows.length) = rows := by
  refine List.ext_getElem (by simp [rowsAt]) fun i _ h ↦ ?_
  simp [rowsAt, h]

section

variable {names : String → Prop} {rows rows' : List Row}

theorem readAlike_getD (h : List.Forall₂ (ReadAlike names) rows rows') (i : ℕ) :
    ReadAlike names (rows.getD i .empty) (rows'.getD i .empty) := by
  induction h generalizing i with
  | nil => exact fun _ _ ↦ rfl
  | cons hr _ ih =>
    cases i with
    | zero => exact hr
    | succ i => exact ih i

theorem RowFilter.apply_positions [Like.Compiler] {σ : Type} {condition : Option (Expr σ)}
    (hc : ∀ e, condition = some e → ∀ name ∈ e.columns, names name)
    (h : List.Forall₂ (ReadAlike names) rows rows') :
    Alike (fun kept kept' ↦ ∃ positions, positions.Sublist (List.range rows.length) ∧
      kept = rowsAt rows positions ∧ kept' = rowsAt rows' positions)
      (apply condition rows) (apply condition rows') := by
  let test (i : ℕ) : Except Fault Bool := passes condition (rows.getD i .empty)
  have htest : (fun i ↦ passes condition (rows'.getD i .empty)) = test :=
    funext fun i ↦ (Plan.passes_congr hc (readAlike_getD h i)).symm
  have hselect : select (passes condition) rows =
      (select test (List.range rows.length)).map (rowsAt rows) := by
    conv_lhs => rw [← rowsAt_range rows]
    exact select_map _ _
  have hselect' : select (passes condition) rows' =
      (select test (List.range rows.length)).map (rowsAt rows') := by
    conv_lhs => rw [← rowsAt_range rows', ← h.length_eq]
    rw [← htest]
    exact select_map _ _
  rw [apply_eq_select, apply_eq_select, hselect, hselect']
  cases hpositions : select test (List.range rows.length) with
  | error fault => exact .error fault
  | ok positions => exact .ok ⟨positions, sublist_of_select hpositions, rfl, rfl⟩

theorem Sorting.exists_positions_sortRows {keys : List SortKey}
    (hk : ∀ key ∈ keys, names key.column) (h : List.Forall₂ (ReadAlike names) rows rows') :
    ∃ positions, positions.Perm (List.range rows.length) ∧
      sortRows keys rows = rowsAt rows positions ∧
        sortRows keys rows' = rowsAt rows' positions := by
  unfold sortRows
  split
  · refine ⟨List.range rows.length, .refl _, (rowsAt_range rows).symm, ?_⟩
    rw [h.length_eq, rowsAt_range]
  · let cmp (i j : ℕ) : Ordering := rowOrder keys (rows.getD i .empty) (rows.getD j .empty)
    have hcmp : (fun i j ↦ rowOrder keys (rows'.getD i .empty) (rows'.getD j .empty)) = cmp := by
      funext i j
      have hi := readAlike_getD h i
      have hj := readAlike_getD h j
      exact rowOrder_congr (fun key hm ↦ (hi _ (hk key hm)).symm)
        fun key hm ↦ (hj _ (hk key hm)).symm
    refine ⟨mergeSort cmp (List.range rows.length), mergeSort_perm _, ?_, ?_⟩
    · conv_lhs => rw [← rowsAt_range rows]
      exact mergeSort_map _ _
    · conv_lhs => rw [← rowsAt_range rows', ← h.length_eq]
      rw [← hcmp]
      exact mergeSort_map _ _

end

namespace Grouping

variable {columns : List String} {aggregates : List Aggregate} {rows padded : List Row}

theorem any_contains_of_not_missing (hne : rows ≠ [])
    (hmissing : ∀ column, aggregate columns aggregates rows ≠ .error (.missingGroupColumn column))
    {column : String} (hc : column ∈ columns) : rows.any (·.contains column) = true := by
  by_contra hnone
  have hfind : (columns.find? fun column ↦ !rows.any (·.contains column)).isSome = true :=
    List.find?_isSome.mpr ⟨column, hc, by rw [Bool.not_eq_true] at hnone; rw [hnone]; rfl⟩
  obtain ⟨missing, hfirst⟩ := Option.isSome_iff_exists.mp hfind
  refine hmissing missing ?_
  rw [aggregate_of_ne_nil hne, checkColumns, hfirst]
  rfl

theorem aggregate_of_padded (h : List.Forall₂ PaddedTo rows padded)
    (hmissing : ∀ column,
      aggregate columns aggregates rows ≠ .error (.missingGroupColumn column)) :
    aggregate columns aggregates rows = aggregate columns aggregates padded := by
  refine aggregate_congr (h.imp fun _ _ hr ↦ hr.readAlike) (fun column hc ↦ ?_) fun _ _ ↦ trivial
  by_cases hne : rows = []
  · subst hne
    cases h
    rfl
  · have hany := any_contains_of_not_missing hne hmissing hc
    rw [hany, PaddedTo.any_contains h hany]

end Grouping

namespace Plan

variable {table : String} {s : Statement} {p : Plan} {maxRows : Option Nat}
  {rows padded : List Row}

theorem finish_of_padded [Like.Compiler] (ha : p.aggregates ≠ [])
    (h : List.Forall₂ PaddedTo rows padded)
    (hmissing : ∀ column, p.finish maxRows rows ≠ .error (.missingGroupColumn column)) :
    p.finish maxRows rows = p.finish maxRows padded := by
  have hsel : Alike (List.Forall₂ PaddedTo) (RowFilter.apply p.condition rows)
      (RowFilter.apply p.condition padded) := by
    rw [RowFilter.apply_eq_select, RowFilter.apply_eq_select]
    exact alike_select (fun _ _ hr ↦ passes_congr (fun _ _ _ _ ↦ trivial) hr.readAlike) h
  unfold finish at hmissing ⊢
  generalize RowFilter.apply p.condition rows = selected at hsel hmissing
  generalize RowFilter.apply p.condition padded = selected' at hsel
  cases hsel with
  | error fault => rfl
  | @ok matching matching' hm =>
    have hgroup : p.group matching = p.group matching' := by
      rw [group_of_ne_nil ha, group_of_ne_nil ha]
      refine Grouping.aggregate_of_padded hm fun column hcolumn ↦ hmissing column ?_
      simp only [bind, Except.bind, group_of_ne_nil ha, hcolumn]
    simp only [bind, Except.bind, hgroup, h.length_eq, hm.length_eq]

end Plan

section

variable [Like.Compiler]

theorem execute_eq_of_padded {registry registry' : Registry Generator} {config : Config}
    {table : String} {s : Statement} {rows padded : List Row}
    (h : List.Forall₂ PaddedTo rows padded) (hcall : s.hasCall = true)
    (hrows : Generates registry table s rows) (hpadded : Generates registry' table s padded)
    (hmissing : ∀ err, execute registry config table s = .error err →
      err.fault.code ≠ "LQ_MISSING_GROUP_COLUMN") :
    execute registry config table s = execute registry' config table s := by
  obtain ⟨g, hg, hr⟩ := hrows
  obtain ⟨g', hg', hr'⟩ := hpadded
  rw [Plan.execute_of_generated hg hr] at hmissing ⊢
  rw [Plan.execute_of_generated hg' hr']
  refine congrArg (Except.mapError (Fault.on table)) (Plan.outcome_congr fun p hp ↦ ?_)
  have ha : p.aggregates ≠ [] := by
    rw [Ne, Plan.aggregates_eq_nil_iff hp, hcall]
    exact Bool.noConfusion
  refine Plan.finish_of_padded ha h fun column hfails ↦ ?_
  rw [Plan.outcome_of_prepares hp, hfails] at hmissing
  exact hmissing _ rfl rfl

/-- Missing columns and NULL columns are interchangeable. If rows are padded with NULL columns that
they did not have, WHERE fails with the same fault or keeps the same positions, ORDER BY puts the
positions in the same order, and a query with an aggregate has the same outcome, unless it fails
without the padding because a GROUP BY column is in no row. -/
theorem padding_invisible {rows padded : List Row} (h : List.Forall₂ PaddedTo rows padded) :
    (∀ condition : Option (Expr Statement),
      Alike (fun kept kept' ↦ ∃ positions, positions.Sublist (List.range rows.length) ∧
        kept = rowsAt rows positions ∧ kept' = rowsAt padded positions)
        (RowFilter.apply condition rows) (RowFilter.apply condition padded)) ∧
    (∀ keys, ∃ positions, positions.Perm (List.range rows.length) ∧
      Sorting.sortRows keys rows = rowsAt rows positions ∧
        Sorting.sortRows keys padded = rowsAt padded positions) ∧
    ∀ (registry registry' : Registry Generator) (config : Config) (table : String) (s : Statement),
      s.hasCall = true → Generates registry table s rows → Generates registry' table s padded →
        (∀ err, execute registry config table s = .error err →
          err.fault.code ≠ "LQ_MISSING_GROUP_COLUMN") →
          execute registry config table s = execute registry' config table s := by
  have halike : List.Forall₂ (ReadAlike fun _ ↦ True) rows padded :=
    h.imp fun _ _ hr ↦ hr.readAlike
  refine ⟨fun condition ↦ ?_, fun keys ↦ ?_, fun registry registry' config table s ↦ ?_⟩
  · exact RowFilter.apply_positions (fun _ _ _ _ ↦ trivial) halike
  · exact Sorting.exists_positions_sortRows (fun _ _ ↦ trivial) halike
  · exact execute_eq_of_padded h

end

private def hueCounts : Statement where
  -- SELECT hue, COUNT(hue), MAX(kg) FROM fruit WHERE NOT hue = 'green' GROUP BY hue
  table := "fruit"
  select := [.entry (.column "hue") none, .entry (.call "count" false [.column "hue"]) none,
    .entry (.call "max" false [.column "kg"]) none]
  condition := some (.not (.compare .eq (.column "hue") (.literal (.text "green"))))
  groupBy := ["hue"]
  orderBy := []
  limit := none
  offset := none

section

attribute [local instance] Like.Compiler.unlimited

theorem padding_invisible_hueCounts :
    execute ⟨[("fruit", FixedTable.generate ⟨[.ofList [("hue", .text "red"), ("kg", .integer 2)],
        .ofList [("kg", .integer 3), ("HUE", .null), ("Hue", .null)],
        .ofList [("hue", .text "red"), ("KG", .null)]]⟩)]⟩ .default "fruit" hueCounts =
      .ok ⟨"fruit", ⟨["hue", "COUNT(hue)", "MAX(kg)"],
        [.ofList [("hue", .text "red"), ("COUNT(hue)", .integer 2), ("MAX(kg)", .integer 2)],
          .ofList [("hue", .null), ("COUNT(hue)", .integer 0), ("MAX(kg)", .integer 3)]]⟩,
        3, 3, false⟩ := by
  have hpadded : List.Forall₂ PaddedTo
      [.ofList [("hue", .text "red"), ("kg", .integer 2)], .ofList [("kg", .integer 3)],
        .ofList [("hue", .text "red")]]
      [.ofList [("hue", .text "red"), ("kg", .integer 2)],
        .ofList [("kg", .integer 3), ("HUE", .null), ("Hue", .null)],
        .ofList [("hue", .text "red"), ("KG", .null)]] :=
    .cons (.refl _) (.cons ⟨["HUE", "Hue"], rfl, by decide⟩
      (.cons ⟨["KG"], rfl, by decide⟩ .nil))
  have htable (rows : List Row) : Generates ⟨[("fruit", FixedTable.generate ⟨rows⟩)]⟩ "fruit"
      hueCounts rows := ⟨_, rfl, rfl⟩
  refine ((padding_invisible hpadded).2.2 _ _ .default "fruit" hueCounts rfl (htable _) (htable _)
    fun err herr ↦ ?_).symm.trans rfl
  cases herr

end

end TableQuery
