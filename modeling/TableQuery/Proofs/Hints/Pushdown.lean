import TableQuery.Proofs.Engine.Stages

namespace TableQuery

def Constraint.toExpr {σ : Type} (c : Constraint) : Expr σ :=
  .compare c.op (.column c.column) (.literal c.value)

/-- The comparison of a constraint evaluates to true on a row. -/
def Constraint.Holds [Like.Compiler] (c : Constraint) (row : Row) : Prop :=
  (c.toExpr : Expr Statement).matches row = .ok true

/-- A list without some of the members that meet a condition. -/
inductive Omits {α : Type} (P : α → Prop) : List α → List α → Prop
  | nil : Omits P [] []
  | keep (a : α) {l l' : List α} (h : Omits P l l') : Omits P (a :: l) (a :: l')
  | drop {a : α} {l l' : List α} (ha : P a) (h : Omits P l l') : Omits P (a :: l) l'

section

variable [Like.Compiler]

namespace Constraint

theorem holds_iff {c : Constraint} {row : Row} :
    c.Holds row ↔ c.op.holds Like.test (row.get c.column) c.value = .ok true := by
  simp only [Holds, toExpr, Expr.matches_compare, Expr.value]
  rfl

theorem matches_iff_of_ofCompare? {op : Comparison} {left right : Expr Statement} {c : Constraint}
    (hc : ofCompare? op left right = some c) {row : Row} :
    (Expr.compare op left right).matches row = .ok true ↔ c.Holds row := by
  rw [holds_iff, Expr.matches_compare, ← Expr.value_bare .operand left,
    ← Expr.value_bare .operand right]
  unfold ofCompare? at hc
  split at hc
  · rename_i column value hl hr
    cases hc
    rw [hl, hr]
    rfl
  · rename_i value column hl hr
    obtain ⟨op', hop, rfl⟩ := Option.map_eq_some_iff.mp hc
    rw [hl, hr, ← Comparison.holds_swapped hop]
    rfl
  · cases hc

end Constraint

theorem Expr.constraints_hold {e : Expr Statement} {row : Row} (h : e.matches row = .ok true) :
    ∀ c ∈ e.constraints, c.Holds row := by
  induction e using Expr.constraints.induct with
  | case1 left right ihl ihr =>
    obtain ⟨hl, hr⟩ := matches_and_eq_true.mp h
    intro c hc
    rcases List.mem_append.mp hc with hc | hc
    · exact ihl hl c hc
    · exact ihr hr c hc
  | case2 inner ih =>
    rw [matches_paren] at h
    exact ih h
  | case3 op left right =>
    intro c hc
    exact (Constraint.matches_iff_of_ofCompare? (Option.mem_toList.mp hc)).mp h
  | case4 e hand hparen hcompare =>
    intro c hc
    rw [constraints] at hc
    · cases hc
    · exact hand
    · exact hparen
    · exact hcompare

end

namespace Hints

variable {table : String} {s : Statement}

theorem constraints_ofStatement {e : Expr Statement} (he : s.condition = some e) :
    (ofStatement table s).constraints = e.constraints := by
  simp only [ofStatement, he, Option.map_some, Option.getD_some]

theorem constraints_hold [Like.Compiler] {row : Row} (h : passes s.condition row = .ok true) :
    ∀ c ∈ (ofStatement table s).constraints, c.Holds row := by
  cases he : s.condition with
  | none => simp [ofStatement, he]
  | some e =>
    rw [constraints_ofStatement he]
    rw [he] at h
    exact Expr.constraints_hold h

end Hints

theorem select_of_omits {α : Type} {test : α → Except Fault Bool} {P : α → Prop}
    (hP : ∀ a, P a → test a ≠ .ok true) {l l' kept : List α} (h : Omits P l l')
    (hs : select test l = .ok kept) : select test l' = .ok kept := by
  induction h generalizing kept with
  | nil => exact hs
  | keep a h ih =>
    obtain ⟨holds, ht, hs⟩ := bind_eq_ok.mp hs
    obtain ⟨rest, hr, hs⟩ := bind_eq_ok.mp hs
    rw [select_cons_ok ht, ih hr]
    exact hs
  | @drop a l l' ha h ih =>
    obtain ⟨holds, ht, hs⟩ := bind_eq_ok.mp hs
    obtain ⟨rest, hr, hs⟩ := bind_eq_ok.mp hs
    cases holds with
    | true => exact absurd ht (hP a ha)
    | false =>
      cases hs
      exact ih hr

namespace Plan

variable [Like.Compiler] {table : String} {s : Statement} {p : Plan} {maxRows : Option Nat}
  {rows rows' : List Row} {e : Execution}

theorem finish_of_apply {matching : List Row} (h : RowFilter.apply p.condition rows = .ok matching)
    (h' : RowFilter.apply p.condition rows' = .ok matching)
    (he : p.finish maxRows rows = .ok e) :
    p.finish maxRows rows' = .ok { e with generated := rows'.length } := by
  obtain ⟨m, grouped, hm, hg, rfl, hsize⟩ := finish_eq_ok_iff.mp he
  obtain rfl : matching = m := Except.ok.inj (h.symm.trans hm)
  exact finish_eq_ok_iff.mpr ⟨matching, grouped, h', hg, rfl, hsize⟩

theorem finish_of_omits (hp : p.Prepares table s)
    (h : Omits (fun row ↦ ∃ c ∈ (Hints.ofStatement table s).constraints, ¬c.Holds row) rows rows')
    (he : p.finish maxRows rows = .ok e) :
    p.finish maxRows rows' = .ok { e with generated := rows'.length } := by
  obtain ⟨matching, hm, -⟩ := bind_eq_ok.mp he
  refine finish_of_apply hm ?_ he
  rw [RowFilter.apply_eq_select] at hm ⊢
  refine select_of_omits (fun row hrow htrue ↦ ?_) h hm
  obtain ⟨c, hc, hnot⟩ := hrow
  rw [hp.condition] at htrue
  exact hnot (Hints.constraints_hold htrue c hc)

end Plan

/-- Pushed-down constraints never change a successful result. If a table leaves out rows that miss a
constraint of the hints, a query that succeeds still does, and only the number of rows that the
table produced differs. -/
theorem execute_of_omitted [Like.Compiler] {registry registry' : Registry Generator}
    {config : Config} {table : String} {s : Statement} {g g' : Generator}
    {rows rows' : List Row} {e : Execution}
    (hg : registry.lookup? table = some g) (hg' : registry'.lookup? table = some g')
    (hrows : g (.ofStatement table s) = .ok rows) (hrows' : g' (.ofStatement table s) = .ok rows')
    (h : Omits (fun row ↦ ∃ c ∈ (Hints.ofStatement table s).constraints, ¬c.Holds row) rows rows')
    (he : execute registry config table s = .ok e) :
    execute registry' config table s = .ok { e with generated := rows'.length } := by
  obtain ⟨p, hp, hf⟩ := (Plan.execute_eq_ok_iff hg hrows).mp he
  exact (Plan.execute_eq_ok_iff hg' hrows').mpr ⟨p, hp, Plan.finish_of_omits hp h hf⟩

private def heavyFruit : Statement :=
  -- SELECT * FROM fruit WHERE 1 < KG
  { Statement.ofTable "fruit" with
    condition := some (.compare .lt (.literal (.integer 1)) (.column "KG")) }

section

attribute [local instance] Like.Compiler.unlimited

theorem execute_of_omitted_heavyFruit :
    execute ⟨[("fruit", FixedTable.generate ⟨[.ofList [("kg", .integer 3)]]⟩)]⟩ .default "fruit"
        heavyFruit =
      .ok ⟨"fruit", ⟨["kg"], [.ofList [("kg", .integer 3)]]⟩, 1, 1, false⟩ := by
  have hlight : ¬Constraint.Holds ⟨"KG", .gt, .integer 1⟩ (.ofList [("kg", .integer 1)]) := by
    rw [Constraint.holds_iff]
    exact fun h ↦ Bool.noConfusion (Except.ok.inj h)
  have htable (rows : List Row) : Registry.lookup? ⟨[("fruit", FixedTable.generate ⟨rows⟩)]⟩
      "fruit" = some (FixedTable.generate ⟨rows⟩) := rfl
  exact execute_of_omitted (htable [.ofList [("kg", .integer 3)], .ofList [("kg", .integer 1)]])
    (htable _) rfl rfl (.keep _ (.drop ⟨_, List.mem_singleton.mpr rfl, hlight⟩ .nil))
    (e := ⟨"fruit", ⟨["kg"], [.ofList [("kg", .integer 3)]]⟩, 2, 1, false⟩) rfl

end

end TableQuery
