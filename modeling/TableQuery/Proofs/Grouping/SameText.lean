import TableQuery.Proofs.Condition.Evaluation
import TableQuery.Proofs.Grouping.Reordering

namespace TableQuery

theorem Binary64.order?_self (x : Binary64) : (order? x x).getD .eq = .eq := by
  cases x with
  | nan => rfl
  | signed negative rank h =>
    change compare (position negative rank) (position negative rank) = .eq
    exact Std.ReflCmp.compare_self

namespace Value

theorem isNull_iff {v : Value} : v.isNull = true ↔ v = .null := by cases v <;> simp [isNull]

theorem integerText_injective {m n : Int64} (h : integerText m = integerText n) : m = n := by
  have hm := (Binary64.positional_toDigits m.toInt.natAbs).readSign_eq (m.toInt < 0)
  have hn := (Binary64.positional_toDigits n.toInt.natAbs).readSign_eq (n.toInt < 0)
  simp only [decide_eq_true_eq] at hm hn
  have hread : (decide (m.toInt < 0), Nat.toDigits 10 m.toInt.natAbs) =
      (decide (n.toInt < 0), Nat.toDigits 10 n.toInt.natAbs) := by
    rw [← hm, ← hn]
    exact congrArg Binary64.readSign h
  obtain ⟨hsign, hdigits⟩ := Prod.mk.inj hread
  have habs : m.toInt.natAbs = n.toInt.natAbs := by
    rw [← Nat.ofDigitChars_ten_toDigits (n := m.toInt.natAbs), hdigits,
      Nat.ofDigitChars_ten_toDigits]
  rw [decide_eq_decide] at hsign
  exact Int64.toInt_inj.mp (by omega)

theorem order_eq_of_toText_eq {a b : Value} (ha : a.isNull = false) (hb : b.isNull = false)
    (h : a.toText = b.toText) : a.order b = .eq := by
  by_cases hint : ∃ m n, a = .integer m ∧ b = .integer n
  · obtain ⟨m, n, rfl, rfl⟩ := hint
    have hchars := congrArg String.toList h
    simp only [toText, String.toList_ofList] at hchars
    obtain rfl := integerText_injective hchars
    exact Std.ReflCmp.compare_self
  · have hmixed := order_eq_mixed (a := a) (b := b) (by rintro rfl; cases ha)
      (by rintro rfl; cases hb) fun m n hm hn ↦ hint ⟨m, n, hm, hn⟩
    have htext : textOrder a b = .eq := by
      rw [textOrder, h]
      exact Std.ReflCmp.compare_self
    rw [hmixed, htext, numericOrder?, numeric?_eq_of_toText_eq h]
    cases b.numeric? with
    | none => rfl
    | some x => exact Binary64.order?_self x

/-- A list without some of its values, each of which is equal to one that is kept before it. -/
inductive WithoutEqual : List Value → List Value → Prop
  | nil : WithoutEqual [] []
  | keep {values kept : List Value} (v : Value) (h : WithoutEqual values kept) :
      WithoutEqual (values ++ [v]) (kept ++ [v])
  | drop {values kept : List Value} {v w : Value} (h : WithoutEqual values kept) (hw : w ∈ kept)
      (heq : w.order v = .eq) : WithoutEqual (values ++ [v]) kept

theorem WithoutEqual.refl (values : List Value) : WithoutEqual values values := by
  induction values using List.reverseRecOn with
  | nil => exact .nil
  | append_singleton values v ih => exact .keep v ih

end Value

namespace Aggregate

theorem firstOfEachText_concat (seen : List String) (values : List Value) (v : Value) :
    firstOfEachText seen (values ++ [v]) = firstOfEachText seen values ++ [v] ∨
      firstOfEachText seen (values ++ [v]) = firstOfEachText seen values ∧
        (v.toText ∈ seen ∨ ∃ w ∈ firstOfEachText seen values, w.toText = v.toText) := by
  induction values generalizing seen with
  | nil =>
    by_cases hv : v.toText ∈ seen
    · exact .inr ⟨if_pos hv, .inl hv⟩
    · exact .inl (if_neg hv)
  | cons w values ih =>
    rw [List.cons_append, firstOfEachText, firstOfEachText]
    by_cases hw : w.toText ∈ seen
    · rw [if_pos hw, if_pos hw]
      exact ih seen
    · rw [if_neg hw, if_neg hw, List.cons_append]
      rcases ih (w.toText :: seen) with heq | ⟨heq, hseen | ⟨u, hu, htext⟩⟩
      · exact .inl (by rw [heq])
      · refine .inr ⟨by rw [heq], ?_⟩
        rcases List.mem_cons.mp hseen with htext | hseen
        · exact .inr ⟨w, List.mem_cons_self, htext.symm⟩
        · exact .inl hseen
      · exact .inr ⟨by rw [heq], .inr ⟨u, List.mem_cons_of_mem w hu, htext⟩⟩

theorem withoutEqual_firstOfEachText {values : List Value} (h : ∀ v ∈ values, v.isNull = false) :
    Value.WithoutEqual values (firstOfEachText [] values) := by
  induction values using List.reverseRecOn with
  | nil => exact .nil
  | append_singleton values v ih =>
    obtain ⟨hvalues, hv⟩ := List.forall_mem_append.mp h
    rcases firstOfEachText_concat [] values v with heq | ⟨heq, hseen | ⟨w, hw, htext⟩⟩
    · rw [heq]
      exact .keep v (ih hvalues)
    · cases hseen
    · rw [heq]
      have hnull := hvalues w (mem_of_mem_firstOfEachText hw)
      exact .drop (ih hvalues) hw
        (Value.order_eq_of_toText_eq hnull (hv v (List.mem_singleton_self v)) htext)

theorem withoutEqual_values (a : Aggregate) (rows : List Row) :
    Value.WithoutEqual ((rows.map (·.get a.column)).filter (!·.isNull)) (a.values rows) := by
  rw [values, present_eq]
  cases a.distinct with
  | false => exact .refl _
  | true => exact withoutEqual_firstOfEachText fun v hv ↦ by simpa using (List.mem_filter.mp hv).2

end Aggregate

namespace Grouping

variable {columns : List String} {rows : List Row}

theorem null_or_equal_of_key_eq [Like.Compiler] {a b : Row} (h : key columns a = key columns b)
    {column : String} (hc : column ∈ columns) : (a.get column = .null ∧ b.get column = .null) ∨
      (Expr.compare .eq (.column column) (.literal (b.get column)) : Expr Statement).matches a =
        .ok true := by
  have hreading := reading_eq_of_cellKey (List.map_inj_left.mp h column hc)
  obtain ⟨hnull, htext⟩ := Prod.mk.inj hreading
  cases ha : (a.get column).isNull with
  | true =>
    have hb := hnull.symm.trans ha
    exact .inl ⟨Value.isNull_iff.mp ha, Value.isNull_iff.mp hb⟩
  | false =>
    have hb := hnull.symm.trans ha
    refine .inr ?_
    simp only [Expr.matches_compare, Expr.value]
    exact Comparison.holds_eq_iff.mpr ⟨ha, hb, Value.order_eq_of_toText_eq ha hb htext⟩

end Grouping

/-- GROUP BY and DISTINCT never put together what `=` tells apart. Values with one canonical text
are equal in the order; two rows of one group hold NULL, or equal values, in every GROUP BY column;
and what DISTINCT leaves out is equal to a value that it has kept before. -/
theorem merged_of_equal [Like.Compiler] :
    (∀ a b : Value, a.isNull = false → b.isNull = false → a.toText = b.toText →
      a.order b = .eq) ∧
    (∀ (columns : List String) (rows : List Row), ∀ group ∈ Grouping.groups columns rows,
      ∀ a ∈ group.2, ∀ b ∈ group.2, ∀ column ∈ columns,
        (a.get column = .null ∧ b.get column = .null) ∨
          (Expr.compare .eq (.column column) (.literal (b.get column)) :
            Expr Statement).matches a = .ok true) ∧
    ∀ (a : Aggregate) (rows : List Row),
      Value.WithoutEqual ((rows.map (·.get a.column)).filter (!·.isNull)) (a.values rows) := by
  refine ⟨fun a b ↦ Value.order_eq_of_toText_eq, fun columns rows group hg a ha b hb column hc ↦ ?_,
    Aggregate.withoutEqual_values⟩
  have hkey := (Grouping.key_of_mem_groups hg ha).trans (Grouping.key_of_mem_groups hg hb).symm
  exact Grouping.null_or_equal_of_key_eq hkey hc

private def mixed : List Row :=
  [.ofList [("v", .integer 9007199254740992)], .ofList [("v", .float .nan)],
    .ofList [("v", .integer 9007199254740993)], .ofList [("v", .float (.ofNat 9007199254740992))],
    .ofList [("v", .text "NaN")]]

section

attribute [local instance] Like.Compiler.unlimited

theorem merged_of_equal_mixed :
    Value.order (.float .nan) (.text "NaN") = .eq ∧
    Value.order (.integer 9007199254740992) (.float (.ofNat 9007199254740992)) = .eq ∧
    (Grouping.groups ["v"] mixed).map (·.2.length) = [2, 2, 1] ∧
    (∀ group ∈ Grouping.groups ["v"] mixed, ∀ a ∈ group.2, ∀ b ∈ group.2,
      (Expr.compare .eq (.column "v") (.literal (b.get "v")) : Expr Statement).matches a =
        .ok true) := by
  obtain ⟨hequal, hgroups, -⟩ := merged_of_equal
  have hvalues : ∀ row ∈ mixed, row.get "v" ≠ .null := by decide +kernel
  refine ⟨hequal _ _ rfl rfl rfl, hequal _ _ rfl rfl (by decide +kernel), by decide +kernel, ?_⟩
  intro group hg a ha b hb
  rcases hgroups ["v"] mixed group hg a ha b hb "v" (List.mem_singleton_self _) with hnull | hequal
  · exact absurd hnull.1 (hvalues a (Grouping.exists_mem_groups.mp ⟨group, hg, ha⟩))
  · exact hequal

end

end TableQuery
