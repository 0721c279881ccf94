import TableQuery.Condition
import TableQuery.Proofs.Outcome
import TableQuery.Proofs.Value.Order

namespace TableQuery

variable {σ : Type}

theorem Value.isTrue_boolean (b : Bool) : (Value.boolean b).isTrue = b := rfl

theorem ite_related {α β : Type} {R : α → β → Prop} {x y : α} {x' y' : β} (hx : R x x')
    (hy : R y y') (holds : Bool) : R (if holds then x else y) (if holds then x' else y') := by
  cases holds with
  | true => exact hx
  | false => exact hy

section

variable {m m' : Type → Type} [Monad m] [MonadExcept Fault m] [Monad m'] [MonadExcept Fault m']

/-- A relation between computations that pure results, unsupported faults and binds preserve. -/
structure Compatible (R : (α : Type) → m α → m' α → Prop) : Prop where
  pure {α : Type} (a : α) : R α (pure a) (pure a)
  unsupported {α : Type} (what : Unsupported) :
    R α (throw (.unsupported what)) (throw (.unsupported what))
  bind {α β : Type} {x : m α} {x' : m' α} {f : α → m β} {f' : α → m' β} (hx : R α x x')
    (hf : ∀ a, R β (f a) (f' a)) : R β (x >>= f) (x' >>= f')

namespace Compatible

variable {R : (α : Type) → m α → m' α → Prop} {like : Value → Value → m Bool}
  {like' : Value → Value → m' Bool} {a b : Row}

theorem comparison (hR : Compatible R) (hlike : ∀ v w, R Bool (like v w) (like' v w))
    (op : Comparison) (v w : Value) : R Bool (op.holds like v w) (op.holds like' v w) := by
  unfold Comparison.holds
  refine ite_related (hR.pure false) ?_ _
  cases op with
  | like => exact hlike v w
  | notLike => exact hR.bind (hlike v w) fun holds ↦ hR.pure !holds
  | _ => exact hR.pure _

mutual

/-- Two evaluations of an expression are related if deciding LIKE is and if the rows agree on the
columns of the expression. -/
theorem value (hR : Compatible R) (hlike : ∀ v w, R Bool (like v w) (like' v w)) (role : Role)
    (e : Expr σ) (h : ∀ name ∈ e.columns, a.get name = b.get name) :
    R Value (e.value like a role) (e.value like' b role) := by
  cases e with
  | column name =>
    simp only [Expr.value, h name (by simp [Expr.columns])]
    exact hR.pure _
  | literal v =>
    simp only [Expr.value]
    exact hR.pure v
  | star => cases role <;> simpa only [Expr.value] using hR.unsupported _
  | compare op left right =>
    simp only [Expr.columns, List.forall_mem_append] at h
    simp only [Expr.value]
    exact hR.bind (value hR hlike .operand left h.1) fun v ↦
      hR.bind (value hR hlike .operand right h.2) fun w ↦
        hR.bind (hR.comparison hlike op v w) fun holds ↦ hR.pure _
  | and left right =>
    simp only [Expr.columns, List.forall_mem_append] at h
    simp only [Expr.value]
    refine hR.bind (value hR hlike .condition left h.1) fun v ↦ ite_related ?_ (hR.pure _) _
    exact hR.bind (value hR hlike .condition right h.2) fun w ↦ hR.pure _
  | or left right =>
    simp only [Expr.columns, List.forall_mem_append] at h
    simp only [Expr.value]
    refine hR.bind (value hR hlike .condition left h.1) fun v ↦ ite_related (hR.pure _) ?_ _
    exact hR.bind (value hR hlike .condition right h.2) fun w ↦ hR.pure _
  | not inner =>
    simp only [Expr.value]
    exact hR.bind (value hR hlike .condition inner h) fun v ↦ hR.pure _
  | paren inner =>
    simp only [Expr.value]
    exact value hR hlike role inner h
  | between negated operand low high =>
    simp only [Expr.columns, List.forall_mem_append] at h
    obtain ⟨⟨ho, hl⟩, hh⟩ := h
    simp only [Expr.value]
    exact hR.bind (value hR hlike .operand operand ho) fun v ↦
      hR.bind (value hR hlike .operand low hl) fun x ↦
        hR.bind (value hR hlike .operand high hh) fun y ↦ ite_related (hR.pure _) (hR.pure _) _
  | among negated operand items =>
    simp only [Expr.columns, List.forall_mem_append] at h
    simp only [Expr.value]
    refine hR.bind (value hR hlike .operand operand h.1) fun v ↦ ite_related (hR.pure _) ?_ _
    exact hR.bind (anyEqual hR hlike v items h.2) fun found ↦ hR.pure _
  | is negated operand test =>
    simp only [Expr.value]
    exact hR.bind (value hR hlike .operand operand h) fun v ↦ hR.pure _
  | call name distinct args => cases role <;> simpa only [Expr.value] using hR.unsupported _
  | subquery s => simpa only [Expr.value] using hR.unsupported _
  | «exists» s => simpa only [Expr.value] using hR.unsupported _

theorem anyEqual (hR : Compatible R) (hlike : ∀ v w, R Bool (like v w) (like' v w)) (v : Value)
    (items : List (Expr σ)) (h : ∀ name ∈ Expr.columnsOf items, a.get name = b.get name) :
    R Bool (Expr.anyEqual like a v items) (Expr.anyEqual like' b v items) := by
  cases items with
  | nil =>
    simp only [Expr.anyEqual]
    exact hR.pure false
  | cons item items =>
    simp only [Expr.columnsOf, List.forall_mem_append] at h
    simp only [Expr.anyEqual]
    exact hR.bind (value hR hlike .operand item h.1) fun w ↦
      ite_related (hR.pure true) (anyEqual hR hlike v items h.2) _

end

theorem holds (hR : Compatible R) (hlike : ∀ v w, R Bool (like v w) (like' v w)) (e : Expr σ)
    (h : ∀ name ∈ e.columns, a.get name = b.get name) :
    R Bool (e.holds like a) (e.holds like' b) :=
  hR.bind (hR.value hlike .condition e h) fun _ ↦ hR.pure _

end Compatible

end

namespace Expr

section

variable {m : Type → Type} [Monad m] [MonadExcept Fault m] {like : Value → Value → m Bool}
  {a b : Row}

theorem holds_congr (e : Expr σ) (h : ∀ name ∈ e.columns, a.get name = b.get name) :
    e.holds like a = e.holds like b := by
  have heq : Compatible (fun α (x y : m α) ↦ x = y) :=
    ⟨fun _ ↦ rfl, fun _ ↦ rfl, fun hx hf ↦ hx ▸ bind_congr hf⟩
  exact heq.holds (fun _ _ ↦ rfl) e h

theorem value_bare (role : Role) (e : Expr σ) :
    e.bare.value like a role = e.value like a role := by
  induction e using bare.induct with
  | case1 inner ih => simpa only [bare, value] using ih
  | case2 e he => rw [bare.eq_def]; split <;> simp_all

end

variable [Like.Compiler] {row : Row}

theorem matches_paren (e : Expr σ) : (paren e).matches row = e.matches row := by
  simp only [Expr.matches, holds, value]

theorem matches_and (left right : Expr σ) : (and left right).matches row =
    (left.matches row >>= fun holds ↦ if holds then right.matches row else .ok false) := by
  simp only [Expr.matches, holds, value, bind_assoc, pure_bind]
  refine bind_congr fun a ↦ ?_
  cases a.isTrue with
  | false => rfl
  | true => simp only [if_true, bind_assoc, pure_bind, Value.isTrue_boolean]

theorem matches_and_eq_true {left right : Expr σ} : (and left right).matches row = .ok true ↔
    left.matches row = .ok true ∧ right.matches row = .ok true := by
  rw [matches_and, bind_eq_ok]
  constructor
  · rintro ⟨holds, hl, hr⟩
    cases holds with
    | false => cases hr
    | true => exact ⟨hl, hr⟩
  · rintro ⟨hl, hr⟩
    exact ⟨true, hl, hr⟩

theorem matches_or (left right : Expr σ) : (or left right).matches row =
    (left.matches row >>= fun holds ↦ if holds then .ok true else right.matches row) := by
  simp only [Expr.matches, holds, value, bind_assoc, pure_bind]
  refine bind_congr fun a ↦ ?_
  cases a.isTrue with
  | false => simp only [Bool.false_eq_true, if_false, bind_assoc, pure_bind, Value.isTrue_boolean]
  | true => rfl

theorem matches_compare (op : Comparison) (left right : Expr σ) :
    (compare op left right).matches row = (do
      let a ← left.value Like.test row .operand
      let b ← right.value Like.test row .operand
      op.holds Like.test a b) := by
  simp only [Expr.matches, holds, value, bind_assoc, pure_bind, Value.isTrue_boolean, bind_pure]

theorem failsWith_like (value pattern : Value) :
    FailsWith "LQ_UNSUPPORTED_EXPRESSION" (Like.test value pattern) := by
  unfold Like.test
  split
  · exact .ok _
  · exact .error rfl

theorem failsWith_matches (e : Expr σ) :
    FailsWith "LQ_UNSUPPORTED_EXPRESSION" (e.matches row) := by
  have hfails : Compatible (fun α (x y : Except Fault α) ↦
      x = y ∧ FailsWith "LQ_UNSUPPORTED_EXPRESSION" x) :=
    ⟨fun a ↦ ⟨rfl, .ok a⟩, fun _ ↦ ⟨rfl, .error rfl⟩,
      fun hx hf ↦ ⟨hx.1 ▸ bind_congr fun a ↦ (hf a).1, hx.2.bind fun a ↦ (hf a).2⟩⟩
  exact (hfails.holds (fun v w ↦ ⟨rfl, failsWith_like v w⟩) e fun _ _ ↦ rfl).2

end Expr

theorem Comparison.holds_eq_iff {like : Value → Value → Except Fault Bool} {a b : Value} :
    eq.holds like a b = .ok true ↔ a.isNull = false ∧ b.isNull = false ∧ a.order b = .eq := by
  unfold holds
  cases a.isNull <;> cases b.isNull <;> simp [test, pure, Except.pure]

theorem Comparison.holds_swapped [Like.Compiler] {op op' : Comparison}
    (h : op.swapped? = some op') (a b : Value) :
    op.holds Like.test a b = op'.holds Like.test b a := by
  unfold holds
  rw [Bool.or_comm]
  split
  · rfl
  · cases op <;> cases h <;> simp only [test, Value.order_swap b a] <;> cases a.order b <;> rfl

end TableQuery
