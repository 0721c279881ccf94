import TableQuery.RowFilter
import TableQuery.Proofs.Row.Casing
import TableQuery.Proofs.Hints.Pruning

namespace TableQuery

namespace Text

def small (s : String) : String := String.ofList (lower s)

theorem toLower_toLower (c : Char) : c.toLower.toLower = c.toLower := by
  by_cases hcapital : c.val ≥ 'A'.val ∧ c.val ≤ 'Z'.val
  · have hval : c.toLower.val = c.val + ('a'.val - 'A'.val) :=
      congrArg Char.val (dif_pos hcapital)
    refine dif_neg fun hcapital' ↦ ?_
    rw [hval] at hcapital'
    grind
  · have hsame : c.toLower = c := dif_neg hcapital
    rw [hsame, hsame]

theorem lower_small (s : String) : lower (small s) = lower s := by
  simp only [small, lower, String.toList_ofList, List.map_map]
  exact List.map_congr_left fun c _ ↦ toLower_toLower c

theorem sameName_small (s name : String) : sameName (small s) name = sameName s name := by
  rw [sameName, sameName, lower_small]

end Text

def Constraint.rename (f : String → String) (c : Constraint) : Constraint :=
  { c with column := f c.column }

namespace Expr

variable {σ : Type} (f : String → String)

mutual

/-- An expression with its columns renamed. Statements inside are left out, as no condition can be
decided by one. -/
def rename : Expr σ → Expr Unit
  | .column name => .column (f name)
  | .literal v => .literal v
  | .star => .star
  | .compare op left right => .compare op left.rename right.rename
  | .and left right => .and left.rename right.rename
  | .or left right => .or left.rename right.rename
  | .not inner => .not inner.rename
  | .paren inner => .paren inner.rename
  | .between negated operand low high => .between negated operand.rename low.rename high.rename
  | .among negated operand items => .among negated operand.rename (renameAll items)
  | .is negated operand test => .is negated operand.rename test
  | .call name distinct args => .call name distinct (renameAll args)
  | .subquery _ => .subquery ()
  | .exists _ => .exists ()

def renameAll : List (Expr σ) → List (Expr Unit)
  | [] => []
  | e :: es => e.rename :: renameAll es

end

section

variable {m : Type → Type} [Monad m] [MonadExcept Fault m] {like : Value → Value → m Bool}
  {row : Row} {f}

mutual

theorem value_rename (hf : ∀ name, row.get (f name) = row.get name) (role : Role) (e : Expr σ) :
    (e.rename f).value like row role = e.value like row role := by
  cases e with
  | column name => simp only [rename, value, hf]
  | compare op left right =>
    have hl := value_rename hf .operand left
    have hr := value_rename hf .operand right
    simp only [rename, value, hl, hr]
  | and left right | or left right =>
    have hl := value_rename hf .condition left
    have hr := value_rename hf .condition right
    simp only [rename, value, hl, hr]
  | not inner =>
    have h := value_rename hf .condition inner
    simp only [rename, value, h]
  | paren inner =>
    have h := value_rename hf role inner
    simp only [rename, value, h]
  | between negated operand low high =>
    have ho := value_rename hf .operand operand
    have hl := value_rename hf .operand low
    have hh := value_rename hf .operand high
    simp only [rename, value, ho, hl, hh]
  | among negated operand items =>
    have ho := value_rename hf .operand operand
    have hi (v : Value) := anyEqual_renameAll hf v items
    simp only [rename, value, ho, hi]
  | is negated operand test =>
    have ho := value_rename hf .operand operand
    simp only [rename, value, ho]
  | call name distinct args => cases role <;> simp only [rename, value]
  | star => cases role <;> simp only [rename, value]
  | literal _ | subquery _ | «exists» _ => simp only [rename, value]

theorem anyEqual_renameAll (hf : ∀ name, row.get (f name) = row.get name) (v : Value)
    (items : List (Expr σ)) :
    anyEqual like row v (renameAll f items) = anyEqual like row v items := by
  cases items with
  | nil => simp only [renameAll, anyEqual]
  | cons item items =>
    have hi := value_rename hf .operand item
    have hs := anyEqual_renameAll hf v items
    simp only [renameAll, anyEqual, hi, hs]

end

theorem holds_rename (hf : ∀ name, row.get (f name) = row.get name) (e : Expr σ) :
    (e.rename f).holds like row = e.holds like row := by
  rw [holds, holds, value_rename hf]

end

mutual

theorem columns_rename (e : Expr σ) : (e.rename f).columns = e.columns.map f := by
  cases e with
  | compare _ left right | and left right | or left right =>
    simp only [rename, columns, columns_rename left, columns_rename right, List.map_append]
  | not inner | paren inner => simp only [rename, columns, columns_rename inner]
  | between _ operand low high =>
    simp only [rename, columns, columns_rename operand, columns_rename low, columns_rename high,
      List.map_append]
  | among _ operand items =>
    simp only [rename, columns, columns_rename operand, columnsOf_renameAll items, List.map_append]
  | is _ operand _ => simp only [rename, columns, columns_rename operand]
  | call _ _ args => simp only [rename, columns, columnsOf_renameAll args]
  | column _ => simp only [rename, columns, List.map_cons, List.map_nil]
  | literal _ | star | subquery _ | «exists» _ => simp only [rename, columns, List.map_nil]

theorem columnsOf_renameAll (es : List (Expr σ)) :
    columnsOf (renameAll f es) = (columnsOf es).map f := by
  cases es with
  | nil => simp only [renameAll, columnsOf, List.map_nil]
  | cons e es =>
    simp only [renameAll, columnsOf, columns_rename e, columnsOf_renameAll es, List.map_append]

end

theorem bare_rename (e : Expr σ) : (e.rename f).bare = e.bare.rename f := by
  induction e using bare.induct with
  | case1 inner ih => simpa only [bare, rename] using ih
  | case2 e he =>
    cases e with
    | paren inner => exact absurd rfl (he inner)
    | _ => simp only [rename, bare]

theorem ofCompare?_rename (op : Comparison) (left right : Expr σ) :
    Constraint.ofCompare? op (left.rename f) (right.rename f) =
      (Constraint.ofCompare? op left right).map (Constraint.rename f) := by
  unfold Constraint.ofCompare?
  rw [bare_rename, bare_rename]
  cases left.bare with
  | column name => cases right.bare <;> rfl
  | literal v =>
    cases right.bare with
    | column name =>
      simp only [rename, Option.map_map]
      rfl
    | _ => rfl
  | _ => rfl

theorem constraints_rename (e : Expr σ) :
    (e.rename f).constraints = e.constraints.map (Constraint.rename f) := by
  induction e using constraints.induct with
  | case1 left right ihl ihr => simp only [rename, constraints, ihl, ihr, List.map_append]
  | case2 inner ih => simpa only [rename, constraints] using ih
  | case3 op left right =>
    simp only [rename, constraints, ofCompare?_rename]
    cases Constraint.ofCompare? op left right <;> rfl
  | case4 e hand hparen hcompare =>
    cases e with
    | and left right => exact absurd rfl (hand left right)
    | paren inner => exact absurd rfl (hparen inner)
    | compare op left right => exact absurd rfl (hcompare op left right)
    | _ => simp only [rename, constraints, List.map_nil]

/-- Two expressions that differ only in the casing of their column names, or in statements inside
them. -/
def Recased (e e' : Expr σ) : Prop := e.rename Text.small = e'.rename Text.small

end Expr

theorem Row.get_small {row : Row} (h : row.columns.Pairwise Entries.Apart) (name : String) :
    row.get (Text.small name) = row.get name := by
  have hs : Text.sameName (Text.small name) name = true := by
    rw [Text.sameName_small, Text.sameName_self]
  rw [get, get, get?_eq_of_sameName h hs]

namespace Expr.Recased

variable {σ : Type} {e e' : Expr σ}

theorem holds_eq {m : Type → Type} [Monad m] [MonadExcept Fault m] {like : Value → Value → m Bool}
    {row : Row} (h : e.Recased e') (hrow : row.columns.Pairwise Entries.Apart) :
    e.holds like row = e'.holds like row := by
  rw [← holds_rename (Row.get_small hrow) e, h, holds_rename (Row.get_small hrow)]

theorem map_small_columns (h : e.Recased e') :
    e.columns.map Text.small = e'.columns.map Text.small := by
  rw [← columns_rename, h, columns_rename]

theorem map_rename_constraints (h : e.Recased e') :
    e.constraints.map (Constraint.rename Text.small) =
      e'.constraints.map (Constraint.rename Text.small) := by
  rw [← constraints_rename, h, constraints_rename]

end Expr.Recased

theorem map_getD_of_rel {α β γ : Type} {R : α → α → Prop} {o o' : Option α}
    (h : Option.Rel R o o') {f : α → List β} {g : β → γ}
    (hfg : ∀ a b, R a b → (f a).map g = (f b).map g) :
    ((o.map f).getD []).map g = ((o'.map f).getD []).map g := by
  cases h with
  | some h => exact hfg _ _ h
  | none => rfl

/-- Two statements that differ only in the casing of column names in WHERE, or in statements inside
WHERE. -/
structure Statement.Recased (s s' : Statement) : Prop where
  condition : Option.Rel Expr.Recased s.condition s'.condition
  others : { s with condition := s'.condition } = s'

namespace Hints

variable {s s' : Statement}

theorem uses_ofStatement (table : String) (s : Statement) (name : String) :
    (ofStatement table s).uses name =
      (s.hasStar || (columns s).isEmpty || (columns s).any (Text.sameName · name)) := by
  unfold uses ofStatement
  cases s.hasStar with
  | true => rfl
  | false =>
    have hempty : (sortNames (columns s)).isEmpty = (columns s).isEmpty := by
      rw [Bool.eq_iff_iff]
      simp only [List.isEmpty_iff, List.eq_nil_iff_forall_not_mem, mem_sortNames]
    have hany : (sortNames (columns s)).any (Text.sameName · name) =
        (columns s).any (Text.sameName · name) := by
      rw [Bool.eq_iff_iff]
      simp only [List.any_eq_true, mem_sortNames]
    simp only [Bool.false_eq_true, if_false, Bool.false_or, hempty, hany]

theorem uses_congr_small (hstar : s.hasStar = s'.hasStar)
    (hcolumns : (columns s).map Text.small = (columns s').map Text.small) (table name : String) :
    (ofStatement table s).uses name = (ofStatement table s').uses name := by
  have hempty (s : Statement) : (columns s).isEmpty = ((columns s).map Text.small).isEmpty :=
    List.isEmpty_map.symm
  have hany (s : Statement) : (columns s).any (Text.sameName · name) =
      ((columns s).map Text.small).any (Text.sameName · name) := by
    simp only [List.any_map, Function.comp_def, Text.sameName_small]
  rw [uses_ofStatement, uses_ofStatement, hstar, hempty s, hempty s', hany s, hany s', hcolumns]

theorem map_constraintsOn (h : Hints) (name : String) :
    (h.constraintsOn name).map (fun c ↦ (c.op, c.value)) =
      ((h.constraints.map (Constraint.rename Text.small)).filter
        (Text.sameName ·.column name)).map fun c ↦ (c.op, c.value) := by
  rw [List.filter_map, List.map_map]
  simp only [constraintsOn, Constraint.rename, Function.comp_def, Text.sameName_small]

end Hints

namespace Statement.Recased

variable {s s' : Statement}

theorem map_small_columns (h : s.Recased s') :
    (Hints.columns s).map Text.small = (Hints.columns s').map Text.small := by
  have hcondition := map_getD_of_rel h.condition fun _ _ he ↦ he.map_small_columns
  rw [← h.others]
  simp only [Hints.columns, List.map_append, hcondition]

theorem uses_eq (h : s.Recased s') (table name : String) :
    (Hints.ofStatement table s).uses name = (Hints.ofStatement table s').uses name := by
  refine Hints.uses_congr_small ?_ h.map_small_columns table name
  rw [← h.others]
  rfl

theorem map_constraintsOn_eq (h : s.Recased s') (table name : String) :
    ((Hints.ofStatement table s).constraintsOn name).map (fun c ↦ (c.op, c.value)) =
      ((Hints.ofStatement table s').constraintsOn name).map fun c ↦ (c.op, c.value) := by
  have hconstraints : (Hints.ofStatement table s).constraints.map (Constraint.rename Text.small) =
      (Hints.ofStatement table s').constraints.map (Constraint.rename Text.small) :=
    map_getD_of_rel h.condition fun _ _ he ↦ he.map_rename_constraints
  rw [Hints.map_constraintsOn, Hints.map_constraintsOn, hconstraints]

end Statement.Recased

/-- The casing of column names in WHERE is irrelevant. On a row whose names differ in more than
casing, a condition has the same outcome in every casing, by itself and with any patterns kept so
far; and for the same statement in another casing, a table is told the same of every name, if it
asks whether the column is used or which operators and values constrain it. -/
theorem casing_irrelevant [Like.Compiler] :
    (∀ (σ : Type) (e e' : Expr σ), e.Recased e' → ∀ row : Row,
      row.columns.Pairwise Entries.Apart →
        e.matches row = e'.matches row ∧
          RowFilter.evaluate row e = RowFilter.evaluate row e') ∧
    ∀ s s' : Statement, s.Recased s' → ∀ table name,
      (Hints.ofStatement table s).uses name = (Hints.ofStatement table s').uses name ∧
      ((Hints.ofStatement table s).constraintsOn name).map (fun c ↦ (c.op, c.value)) =
        ((Hints.ofStatement table s').constraintsOn name).map fun c ↦ (c.op, c.value) :=
  ⟨fun _ _ _ h _ hrow ↦ ⟨h.holds_eq hrow, h.holds_eq hrow⟩,
    fun _ _ h table name ↦ ⟨h.uses_eq table name, h.map_constraintsOn_eq table name⟩⟩

private def inKilograms (a b c : String) : Statement where
  -- SELECT name FROM fruit WHERE 1 < a AND b LIKE '2%' AND c < 9
  table := "fruit"
  select := [.entry (.column "name") none]
  condition := some (.and (.compare .lt (.literal (.integer 1)) (.column a))
    (.and (.compare .like (.column b) (.literal (.text "2%")))
      (.compare .lt (.column c) (.literal (.integer 9)))))
  groupBy := []
  orderBy := []
  limit := none
  offset := none

section

attribute [local instance] Like.Compiler.unlimited

theorem casing_irrelevant_inKilograms :
    (Hints.ofStatement "fruit" (inKilograms "kg" "Kg" "KG")).required =
      ["KG", "Kg", "kg", "name"] ∧
    (Hints.ofStatement "fruit" (inKilograms "KG" "kg" "kg")).required = ["KG", "kg", "name"] ∧
    (Hints.ofStatement "fruit" (inKilograms "KG" "kg" "kg")).uses "kG" = true ∧
    ((Hints.ofStatement "fruit" (inKilograms "KG" "kg" "kg")).constraintsOn "kG").map
        (fun c ↦ (c.op, c.value)) =
      [(.gt, .integer 1), (.like, .text "2%"), (.lt, .integer 9)] ∧
    ∀ e ∈ (inKilograms "KG" "kg" "kg").condition,
      e.matches (.ofList [("name", .text "fig"), ("Kg", .integer 2)]) = .ok true := by
  have hcondition : ∀ e e', (inKilograms "kg" "Kg" "KG").condition = some e →
      (inKilograms "KG" "kg" "kg").condition = some e' → e.Recased e' := by
    rintro _ _ ⟨⟩ ⟨⟩
    rfl
  have hsame : (inKilograms "kg" "Kg" "KG").Recased (inKilograms "KG" "kg" "kg") :=
    ⟨.some (hcondition _ _ rfl rfl), rfl⟩
  obtain ⟨huses, hconstraints⟩ := casing_irrelevant.2 _ _ hsame "fruit" "kG"
  refine ⟨by decide +kernel, by decide +kernel, huses.symm.trans (by decide +kernel),
    hconstraints.symm.trans (by decide +kernel), ?_⟩
  rintro e ⟨⟩
  have hmatches := casing_irrelevant.1 Statement _ _ (hcondition _ _ rfl rfl)
    (.ofList [("name", .text "fig"), ("Kg", .integer 2)]) (by decide +kernel)
  exact hmatches.1.symm.trans (by decide +kernel)

end

end TableQuery
