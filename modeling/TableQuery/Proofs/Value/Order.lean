import TableQuery.Value.Order

namespace TableQuery

namespace Binary64

theorem order?_swap (x y : Binary64) : order? x y = (order? y x).map Ordering.swap := by
  cases x with
  | nan => cases y <;> rfl
  | signed =>
    cases y with
    | nan => rfl
    | signed => exact congrArg some Std.OrientedOrd.eq_swap

end Binary64

namespace Value

theorem numericOrder?_swap (a b : Value) :
    numericOrder? a b = (numericOrder? b a).map Ordering.swap := by
  unfold numericOrder?
  cases a.numeric? with
  | none => cases b.numeric? <;> rfl
  | some x =>
    cases b.numeric? with
    | none => rfl
    | some y => exact Binary64.order?_swap x y

theorem textOrder_swap (a b : Value) : textOrder a b = (textOrder b a).swap :=
  Std.OrientedOrd.eq_swap

theorem order_eq_mixed {a b : Value} (ha : a ≠ .null) (hb : b ≠ .null)
    (h : ∀ m n, a = .integer m → b ≠ .integer n) :
    a.order b = (numericOrder? a b).getD (textOrder a b) := by
  cases a <;> cases b <;> first
    | rfl
    | exact absurd rfl ha
    | exact absurd rfl hb
    | exact absurd rfl (h _ _ rfl)

theorem order_swap (a b : Value) : a.order b = (b.order a).swap := by
  by_cases ha : a = .null
  · subst ha
    cases b <;> rfl
  by_cases hb : b = .null
  · subst hb
    cases a <;> rfl
  by_cases h : ∃ m n, a = .integer m ∧ b = .integer n
  · obtain ⟨m, n, rfl, rfl⟩ := h
    exact Std.OrientedOrd.eq_swap
  · have hab : ∀ m n, a = .integer m → b ≠ .integer n := fun m n hm hn ↦ h ⟨m, n, hm, hn⟩
    rw [order_eq_mixed ha hb hab, order_eq_mixed hb ha fun m n hm hn ↦ hab n m hn hm,
      numericOrder?_swap]
    cases numericOrder? b a with
    | none => exact textOrder_swap a b
    | some o => rfl

instance : Std.OrientedCmp order := ⟨order_swap _ _⟩

end Value

end TableQuery
