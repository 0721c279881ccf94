import TableQuery.Proofs.Hints.Pushdown
import TableQuery.Proofs.Row.Casing

namespace TableQuery

/-- Built from AND, parentheses and comparisons of a column with a literal, each of which may stand
in parentheses. LIKE and NOT LIKE have the column on the left. -/
inductive Expr.Conjunctive {σ : Type} : Expr σ → Prop
  | and {left right : Expr σ} (hl : Conjunctive left) (hr : Conjunctive right) :
      Conjunctive (.and left right)
  | paren {inner : Expr σ} (h : Conjunctive inner) : Conjunctive (.paren inner)
  | columnFirst (op : Comparison) {left right : Expr σ} {name : String} {v : Value}
      (hl : left.bare = .column name) (hr : right.bare = .literal v) :
      Conjunctive (.compare op left right)
  | literalFirst {op : Comparison} {left right : Expr σ} {name : String} {v : Value}
      (hlike : op ≠ .like) (hnotLike : op ≠ .notLike)
      (hl : left.bare = .literal v) (hr : right.bare = .column name) :
      Conjunctive (.compare op left right)

theorem Comparison.exists_swapped? {op : Comparison} (hlike : op ≠ .like)
    (hnotLike : op ≠ .notLike) : ∃ op', op.swapped? = some op' := by
  cases op with
  | like => exact absurd rfl hlike
  | notLike => exact absurd rfl hnotLike
  | _ => exact ⟨_, rfl⟩

theorem Constraint.matches_iff_forall_constraints [Like.Compiler] {op : Comparison}
    {left right : Expr Statement} {row : Row} (h : ∃ c, ofCompare? op left right = some c) :
    (Expr.compare op left right).matches row = .ok true ↔
      ∀ c ∈ (Expr.compare op left right).constraints, c.Holds row := by
  obtain ⟨c, hc⟩ := h
  rw [matches_iff_of_ofCompare? hc, Expr.constraints, hc]
  simp

theorem Expr.Conjunctive.matches_iff [Like.Compiler] {e : Expr Statement} (he : e.Conjunctive)
    {row : Row} :
    e.matches row = .ok true ↔ ∀ c ∈ e.constraints, c.Holds row := by
  induction he with
  | and hl hr ihl ihr => rw [matches_and_eq_true, constraints, List.forall_mem_append, ihl, ihr]
  | paren h ih => rw [matches_paren, constraints, ih]
  | columnFirst op hl hr =>
    refine Constraint.matches_iff_forall_constraints ?_
    rw [Constraint.ofCompare?, hl, hr]
    exact ⟨_, rfl⟩
  | literalFirst hlike hnotLike hl hr =>
    obtain ⟨op', hop⟩ := Comparison.exists_swapped? hlike hnotLike
    refine Constraint.matches_iff_forall_constraints ?_
    rw [Constraint.ofCompare?, hl, hr, hop]
    exact ⟨_, rfl⟩

theorem mem_of_mem_insertConstant {column : String} {v : Value} {entry : String × Value}
    {entries : List (String × Value)} (h : entry ∈ insertConstant column v entries) :
    entry = (column, v) ∨ entry ∈ entries := by
  induction entries with
  | nil => exact .inl (List.mem_singleton.mp h)
  | cons first entries ih =>
    unfold insertConstant at h
    split at h
    · exact List.mem_cons.mp h
    · exact (List.mem_cons.mp h).imp_right (List.mem_cons_of_mem _)
    · rcases List.mem_cons.mp h with rfl | h
      · exact .inr List.mem_cons_self
      · exact (ih h).imp_right (List.mem_cons_of_mem _)

namespace Hints

variable {h : Hints} {name : String} {v : Value}

theorem mem_of_mem_foldl_insertConstant {cs : List Constraint} {acc : List (String × Value)}
    {entry : String × Value}
    (hm : entry ∈ cs.foldl (fun acc c ↦ insertConstant c.column c.value acc) acc) :
    entry ∈ acc ∨ ∃ c ∈ cs, entry = (c.column, c.value) := by
  induction cs generalizing acc with
  | nil => exact .inl hm
  | cons c cs ih =>
    rcases ih hm with hm | ⟨c', hc', heq⟩
    · rcases mem_of_mem_insertConstant hm with heq | hm
      · exact .inr ⟨c, List.mem_cons_self, heq⟩
      · exact .inl hm
    · exact .inr ⟨c', List.mem_cons_of_mem _ hc', heq⟩

theorem constraint_of_mem_constants (hm : (name, v) ∈ h.constants) :
    ⟨name, .eq, v⟩ ∈ h.constraints := by
  rcases mem_of_mem_foldl_insertConstant hm with hm | ⟨⟨column, op, value⟩, hc, heq⟩
  · cases hm
  · cases heq
    obtain ⟨hc, hop⟩ := List.mem_filter.mp hc
    obtain rfl : op = .eq := eq_of_beq hop
    exact hc

theorem exists_constraint_of_constant? (hc : h.constant? name = some v) :
    ∃ column, Text.sameName column name = true ∧ ⟨column, .eq, v⟩ ∈ h.constraints := by
  obtain ⟨⟨column, _⟩, hfind, rfl⟩ := Option.map_eq_some_iff.mp hc
  obtain ⟨hm, hs⟩ := Entries.mem_of_find? hfind
  exact ⟨column, hs, constraint_of_mem_constants hm⟩

/-- Where WHERE is a conjunction of comparisons with literals, a row passes exactly if it meets
every constraint. In every row that passes and whose names differ in more than casing, the column
of a constant is equal to it, and neither is NULL. -/
theorem trustworthy [Like.Compiler] (table : String) (s : Statement) (row : Row) :
    (∀ e, s.condition = some e → e.Conjunctive →
      (e.matches row = .ok true ↔ ∀ c ∈ (ofStatement table s).constraints, c.Holds row)) ∧
    ∀ name v, (ofStatement table s).constant? name = some v →
      row.columns.Pairwise Entries.Apart → passes s.condition row = .ok true →
        ∃ w, row.get? name = some w ∧ w.isNull = false ∧ v.isNull = false ∧ w.order v = .eq := by
  constructor
  · intro e he hconj
    rw [constraints_ofStatement he]
    exact hconj.matches_iff
  · intro name v hc hapart hrow
    obtain ⟨column, hs, hm⟩ := exists_constraint_of_constant? hc
    have hholds : Constraint.Holds ⟨column, .eq, v⟩ row := constraints_hold hrow _ hm
    rw [Constraint.holds_iff, Comparison.holds_eq_iff, Row.get,
      Row.get?_eq_of_sameName hapart hs] at hholds
    obtain ⟨hw, hv, heq⟩ := hholds
    cases hget : row.get? name with
    | none =>
      rw [hget] at hw
      cases hw
    | some w =>
      rw [hget] at hw heq
      exact ⟨w, rfl, hw, hv, heq⟩

private def redAndHeavy : Expr Statement :=
  -- WHERE (1 < KG) AND hue = ('red')
  .and (.paren (.compare .lt (.literal (.integer 1)) (.column "KG")))
    (.compare .eq (.column "hue") (.paren (.literal (.text "red"))))

private def redAndHeavyFruit : Statement :=
  { Statement.ofTable "fruit" with condition := some redAndHeavy }

private def redFruit : Row := .ofList [("kg", .integer 3), ("Hue", .text "red")]

section

attribute [local instance] Like.Compiler.unlimited

theorem trustworthy_redFruit :
    (redAndHeavy.Conjunctive ∧ redAndHeavy.matches redFruit = .ok true ∧
      ∀ c ∈ (ofStatement "fruit" redAndHeavyFruit).constraints, c.Holds redFruit) ∧
    (ofStatement "fruit" redAndHeavyFruit).constant? "HUE" = some (.text "red") ∧
    redFruit.columns.Pairwise Entries.Apart ∧
    ∃ w, redFruit.get? "HUE" = some w ∧ w.order (.text "red") = .eq := by
  have hconj : redAndHeavy.Conjunctive :=
    .and (.paren (.literalFirst (by decide) (by decide) rfl rfl)) (.columnFirst .eq rfl rfl)
  have hrow : redAndHeavy.matches redFruit = .ok true := by decide +kernel
  have hapart : redFruit.columns.Pairwise Entries.Apart := List.pairwise_pair.mpr rfl
  have hconstant : (ofStatement "fruit" redAndHeavyFruit).constant? "HUE" = some (.text "red") := by
    decide +kernel
  obtain ⟨hexact, hholds⟩ := trustworthy "fruit" redAndHeavyFruit redFruit
  obtain ⟨w, hw, -, -, heq⟩ := hholds "HUE" _ hconstant hapart hrow
  exact ⟨⟨hconj, hrow, (hexact _ rfl hconj).mp hrow⟩, hconstant, hapart, w, hw, heq⟩

end

end Hints

end TableQuery
