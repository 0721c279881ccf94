import TableQuery.Proofs.Sorting.Stability

namespace TableQuery

open Sorting

def Binary64.place? : Binary64 → Option Int
  | .nan => none
  | .signed negative rank _ => some (position negative rank)

theorem Binary64.exists_place {x : Binary64} (h : x ≠ .nan) : ∃ p, x.place? = some p := by
  cases x with
  | nan => exact absurd rfl h
  | signed => exact ⟨_, rfl⟩

theorem Binary64.order?_of_place? {x y : Binary64} {p q : Int} (hx : x.place? = some p)
    (hy : y.place? = some q) : order? x y = some (compare p q) := by
  cases x with
  | nan => cases hx
  | signed =>
    cases y with
    | nan => cases hy
    | signed =>
      cases hx
      cases hy
      rfl

namespace Value

inductive IsInteger : Value → Prop
  | integer (n : Int64) : IsInteger (.integer n)

/-- Booleans, and text that does not read as a number. -/
inductive IsWord : Value → Prop
  | boolean (b : Bool) : IsWord (.boolean b)
  | text (s : String) (h : (Value.text s).numeric? = none) : IsWord (.text s)

/-- Floating-point numbers and text that reads as one, but no integers. -/
inductive IsMeasure : Value → Prop
  | float (x : Binary64) (hx : x ≠ .nan) : IsMeasure (.float x)
  | text (s : String) (x : Binary64) (h : (Value.text s).numeric? = some x) (hx : x ≠ .nan) :
      IsMeasure (.text s)

def OrNull (K : Value → Prop) (v : Value) : Prop := v = .null ∨ K v

theorem transitiveOn_orNull {γ : Type} [Ord γ] [Std.TransOrd γ] {K : Value → Prop} (key : Value → γ)
    (h : ∀ a b, K a → K b → a.order b = compare (key a) (key b)) :
    TransitiveOn (OrNull K) order := by
  let level (v : Value) : Option γ := if v = .null then none else some (key v)
  have hlevel : ∀ a b, OrNull K a → OrNull K b → a.order b = compare (level a) (level b) := by
    intro a b ha hb
    by_cases hna : a = .null
    · subst hna
      cases b <;> rfl
    by_cases hnb : b = .null
    · subst hnb
      cases a <;> rfl
    · rw [h a b (ha.resolve_left hna) (hb.resolve_left hnb)]
      simp only [level, if_neg hna, if_neg hnb]
      rfl
  intro a b c ha hb hc hab hbc
  rw [hlevel a b ha hb] at hab
  rw [hlevel b c hb hc] at hbc
  rw [hlevel a c ha hc]
  exact Std.TransOrd.isLE_trans hab hbc

theorem order_of_integers {a b : Value} (ha : IsInteger a) (hb : IsInteger b) :
    a.order b = compare (a.asInteger?.map Int64.toInt) (b.asInteger?.map Int64.toInt) := by
  cases ha
  cases hb
  rfl

theorem order_of_words {a b : Value} (ha : IsWord a) (hb : IsWord b) :
    a.order b = compare a.toText b.toText := by
  have hna : a ≠ .null := by rintro rfl; cases ha
  have hnb : b ≠ .null := by rintro rfl; cases hb
  have hinteger (m n : Int64) : a = .integer m → b ≠ .integer n := by rintro rfl; cases ha
  have hnumeric : a.numeric? = none := by
    cases ha with
    | boolean b => rfl
    | text s h => exact h
  have hnone : numericOrder? a b = none := by
    rw [numericOrder?, hnumeric]
    rfl
  rw [order_eq_mixed hna hnb hinteger, hnone]
  rfl

theorem IsMeasure.exists_place {v : Value} (h : IsMeasure v) :
    ∃ x p, v.numeric? = some x ∧ x.place? = some p := by
  cases h with
  | float x hx => exact ⟨x, (Binary64.exists_place hx).imp fun _ hp ↦ ⟨rfl, hp⟩⟩
  | text s x h hx => exact ⟨x, (Binary64.exists_place hx).imp fun _ hp ↦ ⟨h, hp⟩⟩

theorem order_of_measures {a b : Value} (ha : IsMeasure a) (hb : IsMeasure b) :
    a.order b = compare (a.numeric?.bind Binary64.place?) (b.numeric?.bind Binary64.place?) := by
  have hna : a ≠ .null := by rintro rfl; cases ha
  have hnb : b ≠ .null := by rintro rfl; cases hb
  have hinteger (m n : Int64) : a = .integer m → b ≠ .integer n := by rintro rfl; cases ha
  obtain ⟨x, p, hx, hp⟩ := ha.exists_place
  obtain ⟨y, q, hy, hq⟩ := hb.exists_place
  have hsome : numericOrder? a b = some (compare p q) := by
    rw [numericOrder?, hx, hy]
    exact Binary64.order?_of_place? hp hq
  rw [order_eq_mixed hna hnb hinteger, hsome, hx, hy, Option.bind_some, Option.bind_some, hp, hq]
  rfl

/-- The order of values is a total preorder on the values of each kind and NULL. Swapping two values
reverses their order and a value is equal to itself, of whatever kinds they are. -/
theorem order_laws :
    (∀ a b : Value, b.order a = (a.order b).swap) ∧ (∀ a : Value, a.order a = .eq) ∧
      TransitiveOn (OrNull IsInteger) order ∧ TransitiveOn (OrNull IsWord) order ∧
        TransitiveOn (OrNull IsMeasure) order :=
  ⟨fun a b ↦ order_swap b a, fun _ ↦ Std.ReflCmp.compare_self,
    transitiveOn_orNull _ fun _ _ ↦ order_of_integers,
    transitiveOn_orNull _ fun _ _ ↦ order_of_words,
    transitiveOn_orNull _ fun _ _ ↦ order_of_measures⟩

end Value

end TableQuery
