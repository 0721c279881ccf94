import TableQuery.Proofs.Engine.Stages
import TableQuery.Proofs.Projection.SortColumn

namespace TableQuery

theorem mem_insertName {a name : String} {names : List String} :
    a ∈ insertName name names ↔ a = name ∨ a ∈ names := by
  induction names with
  | nil => simp [insertName]
  | cons n names ih =>
    rw [insertName]
    cases h : compare name n with
    | lt => simp
    | eq =>
      obtain rfl := Std.LawfulEqOrd.eq_of_compare h
      simp
    | gt =>
      simp only [List.mem_cons, ih]
      tauto

theorem mem_sortNames {a : String} {names : List String} : a ∈ sortNames names ↔ a ∈ names := by
  induction names with
  | nil => simp [sortNames]
  | cons n names ih =>
    rw [show sortNames (n :: names) = insertName n (sortNames names) from rfl, mem_insertName, ih,
      List.mem_cons]

namespace Aggregate

variable {σ : Type}

theorem column_mem_of_ofCall {name : String} {distinct : Bool} {args : List (Expr σ)}
    {label : Option String} {a : Aggregate} (h : ofCall name distinct args label = .ok a)
    (hc : a.countsRows = false) : a.column ∈ Expr.columnsOf args := by
  unfold ofCall at h
  split at h
  · cases h
  · split at h
    · cases h
    · rename_i kind _ _ column hcol
      cases h
      unfold column? at hcol
      split at hcol
      · cases hcol
        exact absurd hc (by simp [countsRows])
      · cases hcol
        exact absurd hc (by simp [countsRows])
      · cases hcol
        simp [Expr.columnsOf, Expr.columns]
      · cases hcol

theorem column_mem_of_ofSelect {items : List (SelectItem σ)} {aggregates : List Aggregate}
    (h : ofSelect items = .ok aggregates) {a : Aggregate} (ha : a ∈ aggregates)
    (hc : a.countsRows = false) : a.column ∈ items.flatMap SelectItem.columns := by
  obtain ⟨name, distinct, args, label, hm, ho⟩ := (mem_ofSelect h).mp ha
  refine List.mem_flatMap.mpr ⟨_, hm, ?_⟩
  simpa only [SelectItem.columns, Expr.columns] using column_mem_of_ofCall ho hc

end Aggregate

namespace Projection

variable {σ : Type} {names : String → Prop}

theorem within_of_outputsOf {items : List (SelectItem σ)} {outputs : List Output}
    (h : outputsOf items [] = .ok outputs) (hstar : items.any SelectItem.isStar = false)
    (hn : ∀ name ∈ items.flatMap SelectItem.columns, names name) :
    ∀ output ∈ outputs, output.Within names := by
  intro output hm
  obtain ⟨item, hi, hp⟩ := exists_produces h hm
  cases hp with
  | star => exact absurd rfl (List.any_eq_false.mp hstar _ hi)
  | column source label =>
    exact hn _ (List.mem_flatMap.mpr ⟨_, hi, by simp [SelectItem.columns, Expr.columns]⟩)
  | call name distinct args label ha => cases ha

theorem sortColumn_within {p : Projection} (hp : ∀ output ∈ p.outputs, output.Within names)
    {name : String} (hn : names name) : names (p.sortColumn name) := by
  rcases p.sortColumn_cases name with hfirst | ⟨hname, -⟩
  · obtain ⟨shown, hm, -⟩ := hfirst.exists_mem
    exact hp _ hm
  · rwa [hname]

end Projection

namespace Hints

variable {table : String} {s : Statement}

theorem mem_columns {name : String} : name ∈ columns s ↔
    name ∈ s.select.flatMap SelectItem.columns ∨
      (∃ e, s.condition = some e ∧ name ∈ e.columns) ∨ name ∈ s.groupBy ∨
        ∃ key ∈ s.orderBy, key.column = name := by
  cases hc : s.condition <;> simp [columns, hc]

theorem uses_congr (h : Hints) {a b : String} (hab : Text.sameName a b = true) :
    h.uses a = h.uses b := by
  simp only [uses, Text.sameName_congr_right hab]

theorem uses_of_mem_columns {name : String} (hm : name ∈ columns s) :
    (ofStatement table s).uses name = true := by
  unfold uses ofStatement
  cases s.hasStar with
  | true => rfl
  | false =>
    refine Bool.or_eq_true_iff.mpr (.inr (List.any_eq_true.mpr ⟨name, ?_, Text.sameName_self name⟩))
    exact mem_sortNames.mpr hm

theorem uses_of_hasStar (h : s.hasStar = true) (name : String) :
    (ofStatement table s).uses name = true := by
  simp [uses, ofStatement, h]

end Hints

theorem Plan.finish_of_pruned [Like.Compiler] {table : String} {s : Statement} {p : Plan}
    (hp : p.Prepares table s) (hne : s.select ≠ []) (hstar : s.hasStar = false)
    {maxRows : Option Nat} {rows pruned : List Row}
    (h : List.Forall₂ (Row.Agree ((Hints.ofStatement table s).uses · = true)) rows pruned) :
    p.finish maxRows rows = p.finish maxRows pruned := by
  have hselect : ∀ name ∈ s.select.flatMap SelectItem.columns,
      (Hints.ofStatement table s).uses name = true :=
    fun name hm ↦ Hints.uses_of_mem_columns (Hints.mem_columns.mpr (.inl hm))
  refine finish_congr (fun e he name hm ↦ ?_) (fun _ name hr ↦ ?_) (fun ha ↦ ?_) h
  · rw [hp.condition] at he
    exact Hints.uses_of_mem_columns (Hints.mem_columns.mpr (.inr (.inl ⟨e, he, hm⟩)))
  · rcases hr with hr | ⟨a, ha, hc, rfl⟩
    · rw [hp.groupBy] at hr
      exact Hints.uses_of_mem_columns (Hints.mem_columns.mpr (.inr (.inr (.inl hr))))
    · exact hselect _ (Aggregate.column_mem_of_ofSelect hp.aggregates ha hc)
  · obtain ⟨outputs, ho, hproj⟩ := map_eq_ok.mp hp.projection
    rw [ha] at ho
    have hwithin := Projection.within_of_outputsOf ho hstar hselect
    rw [Plan.sortKeys, ← hproj, hp.orderBy]
    refine ⟨fun key hk ↦ ?_, fun hnil ↦ ?_, hwithin⟩
    · obtain ⟨key', hk', rfl⟩ := List.mem_map.mp hk
      refine Projection.sortColumn_within hwithin (Hints.uses_of_mem_columns ?_)
      exact Hints.mem_columns.mpr (.inr (.inr (.inr ⟨key', hk', rfl⟩)))
    · have hlen := Projection.length_outputsOf ho
      rw [show outputs = [] from hnil] at hlen
      exact hne (List.length_eq_zero_iff.mp hlen.symm)

/-- Column pruning is invisible. A table may leave out of every row any columns that the hints do
not call needed: the query has the same result, the same counts or the same error. -/
theorem execute_of_pruned [Like.Compiler] {registry registry' : Registry Generator}
    {config : Config} {table : String} {s : Statement} {g g' : Generator} {rows pruned : List Row}
    (hselect : s.select ≠ []) (hg : registry.lookup? table = some g)
    (hg' : registry'.lookup? table = some g') (hrows : g (.ofStatement table s) = .ok rows)
    (hpruned : g' (.ofStatement table s) = .ok pruned)
    (h : List.Forall₂ (Row.PrunedTo (Hints.ofStatement table s).uses) rows pruned) :
    execute registry config table s = execute registry' config table s := by
  rw [Plan.execute_of_generated hg hrows, Plan.execute_of_generated hg' hpruned]
  refine congrArg (Except.mapError (Fault.on table)) (Plan.outcome_congr fun p hp ↦ ?_)
  cases hstar : s.hasStar with
  | true =>
    have heq : rows = pruned := by
      refine List.forall₂_eq_eq_eq ▸ h.imp fun row row' hr ↦ ?_
      exact hr.eq_of_all (Hints.uses_of_hasStar hstar)
    rw [heq]
  | false =>
    refine p.finish_of_pruned hp hselect hstar (h.imp fun row row' hr ↦ ?_)
    exact hr.agree fun a b hab ↦ Hints.uses_congr _ hab

private def heavyNames : Statement where
  -- SELECT name AS n FROM fruit WHERE KG > 1 ORDER BY n
  table := "fruit"
  select := [.entry (.column "name") (some "n")]
  condition := some (.compare .gt (.column "KG") (.literal (.integer 1)))
  groupBy := []
  orderBy := [⟨"n", .asc⟩]
  limit := none
  offset := none

section

attribute [local instance] Like.Compiler.unlimited

theorem execute_of_pruned_heavyNames :
    execute ⟨[("fruit", FixedTable.generate ⟨[
        .ofList [("Name", .text "nut"), ("kg", .integer 3), ("sold", .null)],
        .ofList [("hue", .text "red"), ("Name", .text "fig"), ("kg", .integer 2)]]⟩)]⟩
      .default "fruit" heavyNames =
    execute ⟨[("fruit", FixedTable.generate ⟨[
        .ofList [("Name", .text "nut"), ("kg", .integer 3)],
        .ofList [("Name", .text "fig"), ("kg", .integer 2)]]⟩)]⟩
      .default "fruit" heavyNames := by
  refine execute_of_pruned (List.cons_ne_nil _ _) rfl rfl rfl rfl ?_
  exact .cons ⟨["sold"], by decide, by decide⟩ (.cons ⟨["hue"], by decide, by decide⟩ .nil)

end

end TableQuery
