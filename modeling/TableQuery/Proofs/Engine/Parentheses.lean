import TableQuery.Proofs.Engine.Stages

namespace TableQuery

namespace Expr

variable {σ : Type}

mutual

/-- An expression without its parentheses. Statements inside are left out, as no condition can be
decided by one. -/
def skeleton : Expr σ → Expr Unit
  | .column name => .column name
  | .literal v => .literal v
  | .star => .star
  | .compare op left right => .compare op left.skeleton right.skeleton
  | .and left right => .and left.skeleton right.skeleton
  | .or left right => .or left.skeleton right.skeleton
  | .not inner => .not inner.skeleton
  | .paren inner => inner.skeleton
  | .between negated operand low high =>
    .between negated operand.skeleton low.skeleton high.skeleton
  | .among negated operand items => .among negated operand.skeleton (skeletons items)
  | .is negated operand test => .is negated operand.skeleton test
  | .call name distinct args => .call name distinct (skeletons args)
  | .subquery _ => .subquery ()
  | .exists _ => .exists ()

def skeletons : List (Expr σ) → List (Expr Unit)
  | [] => []
  | e :: es => e.skeleton :: skeletons es

end

section

variable {m : Type → Type} [Monad m] [MonadExcept Fault m] {like : Value → Value → m Bool}
  {row : Row}

mutual

theorem value_skeleton (role : Role) (e : Expr σ) :
    e.skeleton.value like row role = e.value like row role := by
  cases e with
  | compare op left right =>
    have hl := value_skeleton .operand left
    have hr := value_skeleton .operand right
    simp only [skeleton, value, hl, hr]
  | and left right =>
    have hl := value_skeleton .condition left
    have hr := value_skeleton .condition right
    simp only [skeleton, value, hl, hr]
  | or left right =>
    have hl := value_skeleton .condition left
    have hr := value_skeleton .condition right
    simp only [skeleton, value, hl, hr]
  | not inner =>
    have h := value_skeleton .condition inner
    simp only [skeleton, value, h]
  | paren inner =>
    -- the parentheses keep the role, so the expression inside is evaluated as the one outside
    have h := value_skeleton role inner
    simp only [skeleton, value, h]
  | between negated operand low high =>
    have ho := value_skeleton .operand operand
    have hl := value_skeleton .operand low
    have hh := value_skeleton .operand high
    simp only [skeleton, value, ho, hl, hh]
  | among negated operand items =>
    have ho := value_skeleton .operand operand
    have hi (v : Value) := anyEqual_skeletons v items
    simp only [skeleton, value, ho, hi]
  | is negated operand test =>
    have ho := value_skeleton .operand operand
    simp only [skeleton, value, ho]
  | call name distinct args => cases role <;> simp only [skeleton, value]
  | star => cases role <;> simp only [skeleton, value]
  | column _ | literal _ | subquery _ | «exists» _ => simp only [skeleton, value]

theorem anyEqual_skeletons (v : Value) (items : List (Expr σ)) :
    anyEqual like row v (skeletons items) = anyEqual like row v items := by
  cases items with
  | nil => simp only [skeletons, anyEqual]
  | cons item items =>
    have hi := value_skeleton .operand item
    have hs := anyEqual_skeletons v items
    simp only [skeletons, anyEqual, hi, hs]

end

theorem holds_skeleton (e : Expr σ) : e.skeleton.holds like row = e.holds like row := by
  rw [holds, holds, value_skeleton]

end

mutual

theorem columns_skeleton (e : Expr σ) : e.skeleton.columns = e.columns := by
  cases e with
  | compare _ left right | and left right | or left right =>
    simp only [skeleton, columns, columns_skeleton left, columns_skeleton right]
  | not inner | paren inner => simp only [skeleton, columns, columns_skeleton inner]
  | between _ operand low high =>
    simp only [skeleton, columns, columns_skeleton operand, columns_skeleton low,
      columns_skeleton high]
  | among _ operand items =>
    simp only [skeleton, columns, columns_skeleton operand, columnsOf_skeletons items]
  | is _ operand _ => simp only [skeleton, columns, columns_skeleton operand]
  | call _ _ args => simp only [skeleton, columns, columnsOf_skeletons args]
  | column _ | literal _ | star | subquery _ | «exists» _ => simp only [skeleton, columns]

theorem columnsOf_skeletons (es : List (Expr σ)) : columnsOf (skeletons es) = columnsOf es := by
  cases es with
  | nil => simp only [skeletons, columnsOf]
  | cons e es =>
    simp only [skeletons, columnsOf, columns_skeleton e, columnsOf_skeletons es]

end

theorem bare_skeleton (e : Expr σ) : e.skeleton.bare = e.bare.skeleton := by
  induction e using bare.induct with
  | case1 inner ih => simpa only [bare, skeleton] using ih
  | case2 e he =>
    cases e with
    | paren inner => exact absurd rfl (he inner)
    | _ => simp only [skeleton, bare]

theorem bare_ne_paren (e inner : Expr σ) : e.bare ≠ paren inner := by
  induction e using bare.induct with
  | case1 e ih => simpa only [bare] using ih
  | case2 e he =>
    rw [bare.eq_def]
    split <;> simp_all

theorem ofCompare?_skeleton (op : Comparison) (left right : Expr σ) :
    Constraint.ofCompare? op left.skeleton right.skeleton =
      Constraint.ofCompare? op left right := by
  have hl := bare_ne_paren left
  have hr := bare_ne_paren right
  unfold Constraint.ofCompare?
  rw [bare_skeleton, bare_skeleton]
  generalize left.bare = l at hl
  generalize right.bare = r at hr
  cases l with
  | column _ | literal _ => cases r <;> simp_all [skeleton]
  | paren inner => exact absurd rfl (hl inner)
  | _ => simp only [skeleton]

theorem constraints_skeleton (e : Expr σ) : e.skeleton.constraints = e.constraints := by
  induction e using constraints.induct with
  | case1 left right ihl ihr => simp only [skeleton, constraints, ihl, ihr]
  | case2 inner ih => simpa only [skeleton, constraints] using ih
  | case3 op left right => simp only [skeleton, constraints, ofCompare?_skeleton]
  | case4 e hand hparen hcompare =>
    cases e with
    | and left right => exact absurd rfl (hand left right)
    | paren inner => exact absurd rfl (hparen inner)
    | compare op left right => exact absurd rfl (hcompare op left right)
    | _ => simp only [skeleton, constraints]

end Expr

/-- Two statements that differ only in the parentheses of WHERE, or in statements inside WHERE. -/
structure Statement.SameUpToParens (s s' : Statement) : Prop where
  condition : s.condition.map Expr.skeleton = s'.condition.map Expr.skeleton
  others : { s with condition := s'.condition } = s'

namespace Plan

variable {registry : Registry Generator} {config : Config} {table : String} {s : Statement}
  {p : Plan} {maxRows : Option Nat} {condition : Option (Expr Statement)}

theorem check_withCondition {g : Generator}
    (hhints : Hints.ofStatement table { s with condition := condition } =
      Hints.ofStatement table s) :
    check table { s with condition := condition } g =
      (check table s g).map fun p ↦ { p with condition := condition } :=
  check_eq_map rfl rfl rfl fun _ _ _ ↦ by rw [hhints]

theorem ofStatement_withCondition
    (hhints : Hints.ofStatement table { s with condition := condition } =
      Hints.ofStatement table s) :
    ofStatement registry table { s with condition := condition } =
      (ofStatement registry table s).map fun p ↦ { p with condition := condition } := by
  cases hg : registry.lookup? table with
  | none =>
    rw [ofStatement, ofStatement, hg]
    rfl
  | some g =>
    rw [ofStatement_of_lookup hg, ofStatement_of_lookup hg]
    exact check_withCondition hhints

variable [Like.Compiler]

theorem run_withCondition
    (hfilter : ∀ rows, RowFilter.apply condition rows = RowFilter.apply p.condition rows) :
    ({ p with condition := condition } : Plan).run maxRows = p.run maxRows := by
  have hfinish (rows : List Row) :
      ({ p with condition := condition } : Plan).finish maxRows rows = p.finish maxRows rows := by
    unfold finish
    rw [hfilter rows]
    rfl
  exact bind_congr hfinish

theorem execute_withCondition
    (hhints : Hints.ofStatement table { s with condition := condition } =
      Hints.ofStatement table s)
    (hfilter : ∀ rows, RowFilter.apply condition rows = RowFilter.apply s.condition rows) :
    execute registry config table { s with condition := condition } =
      execute registry config table s := by
  rw [execute_eq_mapError, execute_eq_mapError, ofStatement_withCondition hhints]
  refine congrArg (Except.mapError (Fault.on table)) ?_
  cases hp : ofStatement registry table s with
  | error fault => rfl
  | ok p =>
    have hcondition := (ofStatement_eq_ok_iff.mp hp).2.condition
    exact run_withCondition fun rows ↦ by rw [hfilter, hcondition]

end Plan

theorem RowFilter.evaluate_skeleton [Like.Compiler] {σ : Type} (row : Row) (e : Expr σ) :
    evaluate row e.skeleton = evaluate row e := Expr.holds_skeleton e

theorem Expr.matches_skeleton [Like.Compiler] {σ : Type} (row : Row) (e : Expr σ) :
    e.skeleton.matches row = e.matches row := Expr.holds_skeleton e

namespace Statement.SameUpToParens

variable {s s' : Statement}

theorem map_condition (h : s.SameUpToParens s') {α : Type} {f : Expr Statement → α}
    {g : Expr Unit → α} (hfg : ∀ e, g e.skeleton = f e) :
    s.condition.map f = s'.condition.map f := by
  have hmap (c : Option (Expr Statement)) : (c.map Expr.skeleton).map g = c.map f := by
    rw [Option.map_map]
    exact congrArg (Option.map · c) (funext hfg)
  rw [← hmap, h.condition, hmap]

theorem hints_eq (h : s.SameUpToParens s') (table : String) :
    Hints.ofStatement table s = Hints.ofStatement table s' := by
  have hcolumns := h.map_condition Expr.columns_skeleton
  have hconstraints := h.map_condition Expr.constraints_skeleton
  rw [← h.others]
  unfold Hints.ofStatement Hints.columns
  rw [hcolumns, hconstraints]
  rfl

variable [Like.Compiler]

theorem evaluate_eq (h : s.SameUpToParens s') {e e' : Expr Statement} (he : s.condition = some e)
    (he' : s'.condition = some e') (row : Row) :
    RowFilter.evaluate row e = RowFilter.evaluate row e' := by
  have hmap := h.map_condition (RowFilter.evaluate_skeleton row)
  rw [he, he'] at hmap
  exact Option.some.inj hmap

theorem passes_eq (h : s.SameUpToParens s') (row : Row) :
    passes s.condition row = passes s'.condition row := by
  have hpasses (c : Option (Expr Statement)) :
      passes c row = (c.map (Expr.matches row)).getD (.ok true) := by cases c <;> rfl
  rw [hpasses, hpasses, h.map_condition (Expr.matches_skeleton row)]

theorem apply_eq (h : s.SameUpToParens s') (rows : List Row) :
    RowFilter.apply s.condition rows = RowFilter.apply s'.condition rows := by
  rw [RowFilter.apply_eq_select, RowFilter.apply_eq_select, funext h.passes_eq]

end Statement.SameUpToParens

/-- Parentheses in WHERE never matter. The table gets the same hints, on every row and with any
patterns kept so far WHERE has the same outcome and keeps the same patterns, and the query has the
same outcome on every table. -/
theorem execute_of_sameUpToParens [Like.Compiler] {s s' : Statement} (h : s.SameUpToParens s') :
    (∀ table, Hints.ofStatement table s = Hints.ofStatement table s') ∧
    (∀ row, passes s.condition row = passes s'.condition row ∧
      ∀ e e', s.condition = some e → s'.condition = some e' →
        RowFilter.evaluate row e = RowFilter.evaluate row e') ∧
    ∀ (registry : Registry Generator) (config : Config) (table : String),
      execute registry config table s = execute registry config table s' := by
  refine ⟨h.hints_eq, fun row ↦ ⟨h.passes_eq row, fun e e' he he' ↦ h.evaluate_eq he he' row⟩, ?_⟩
  intro registry config table
  have hhints := h.hints_eq table
  rw [← h.others] at hhints ⊢
  exact (Plan.execute_withCondition hhints.symm fun rows ↦ (h.apply_eq rows).symm).symm

private def plainFruit : Statement :=
  -- SELECT * FROM fruit WHERE 1 < kg AND name LIKE 'f%' OR NOT hue IN ('red', hue)
  { Statement.ofTable "fruit" with
    condition := some (.or (.and (.compare .lt (.literal (.integer 1)) (.column "kg"))
        (.compare .like (.column "name") (.literal (.text "f%"))))
      (.not (.among false (.column "hue") [.literal (.text "red"), .column "hue"]))) }

private def nestedFruit : Statement :=
  -- WHERE (((1) < (kg) AND name LIKE ('f%'))) OR NOT ((hue) IN ('red', ((hue))))
  { Statement.ofTable "fruit" with
    condition := some (.or (.paren (.paren (.and
        (.compare .lt (.paren (.literal (.integer 1))) (.paren (.column "kg")))
        (.compare .like (.column "name") (.paren (.literal (.text "f%")))))))
      (.not (.paren (.among false (.paren (.column "hue"))
        [.literal (.text "red"), .paren (.paren (.column "hue"))])))) }

section

attribute [local instance] Like.Compiler.unlimited

theorem execute_of_sameUpToParens_fruit :
    execute ⟨[("fruit", FixedTable.generate ⟨[.ofList [("name", .text "Fig"), ("kg", .integer 2)],
        .ofList [("name", .text "nut"), ("hue", .text "red")]]⟩)]⟩ .default "fruit" nestedFruit =
      .ok ⟨"fruit", ⟨["name", "kg"], [.ofList [("name", .text "Fig"), ("kg", .integer 2)]]⟩, 2, 1,
        false⟩ := by
  have hsame : plainFruit.SameUpToParens nestedFruit := ⟨rfl, rfl⟩
  refine ((execute_of_sameUpToParens hsame).2.2 _ _ _).symm.trans ?_
  rfl

end

end TableQuery
