import TableQuery.Proofs.Condition.Selection
import TableQuery.Proofs.Row.Agreement

namespace TableQuery

section

variable {α : Type} {test : α → Except Fault Bool} {l : List α} {fault : Fault}

theorem select_eq_error_iff_mapM : select test l = .error fault ↔ l.mapM test = .error fault := by
  induction l with
  | nil => exact ⟨nofun, nofun⟩
  | cons a l ih =>
    cases ha : test a with
    | error fault' => rw [select_cons_error ha, mapM_cons_error ha, Except.error.injEq,
        Except.error.injEq]
    | ok holds => rw [select_cons_ok ha, mapM_cons_ok ha, map_eq_error, map_eq_error, ih]

theorem toOption_getD_false (x : Except Fault Bool) :
    x.toOption.getD false = decide (x = .ok true) := by
  rcases x with fault | holds
  · rfl
  · cases holds <;> rfl

end

namespace RowFilter

section

variable [Like.Compiler] {σ : Type}

def evaluateOnce (row : Row) (condition : Expr σ) : Except Fault Bool :=
  ((evaluate row condition).run.run []).1

/-- The outcomes of conditions on rows, one after another on one filter. -/
def outcomes (calls : List (Row × Expr σ)) : StateM PatternCache (List (Except Fault Bool)) :=
  calls.mapM fun call ↦ (evaluate call.1 call.2).run

theorem evaluateOnce_eq (row : Row) (condition : Expr σ) :
    evaluateOnce row condition = condition.matches row := by
  obtain ⟨cache, -, h⟩ := gives_evaluate row condition [] PatternCache.sound_nil
  rw [evaluateOnce, h]

theorem run_outcomes (calls : List (Row × Expr σ)) {cache : PatternCache} (h : cache.Sound) :
    ∃ cache' : PatternCache, cache'.Sound ∧
      (outcomes calls).run cache = (calls.map fun call ↦ call.2.matches call.1, cache') := by
  induction calls generalizing cache with
  | nil => exact ⟨cache, h, rfl⟩
  | cons call calls ih =>
    obtain ⟨cache₁, h₁, hcall⟩ := gives_evaluate call.1 call.2 cache h
    obtain ⟨cache₂, h₂, hcalls⟩ := ih h₁
    refine ⟨cache₂, h₂, ?_⟩
    rw [outcomes] at hcalls ⊢
    rw [List.mapM_cons, StateT.run_bind, hcall]
    -- the calls after the first start from the cache that it leaves
    change StateT.run (List.mapM _ calls >>= _) cache₁ = _
    rw [StateT.run_bind, hcalls]
    rfl

/-- Kept patterns change no outcome, whatever conditions a filter has evaluated and on whatever
rows. WHERE gives the rows on which the condition holds, or the fault of the first row on which it
fails. -/
theorem transparent :
    (∀ calls : List (Row × Expr σ),
      ((outcomes calls).run []).1 = calls.map fun call ↦ evaluateOnce call.1 call.2) ∧
    ∀ (condition : Expr σ) (rows : List Row),
      (∀ kept, apply (some condition) rows = .ok kept ↔
        (∀ row ∈ rows, ∃ holds, evaluateOnce row condition = .ok holds) ∧
          kept = rows.filter fun row ↦ evaluateOnce row condition = .ok true) ∧
      ∀ fault, apply (some condition) rows = .error fault ↔
        ∃ before row after, rows = before ++ row :: after ∧
          (∀ r ∈ before, ∃ holds, evaluateOnce r condition = .ok holds) ∧
            evaluateOnce row condition = .error fault := by
  simp only [evaluateOnce_eq, apply_eq_select]
  refine ⟨fun calls ↦ ?_, fun condition rows ↦ ⟨fun kept ↦ ?_, fun fault ↦ ?_⟩⟩
  · obtain ⟨cache, -, h⟩ := run_outcomes calls PatternCache.sound_nil
    rw [h]
  · rw [select_eq_ok_iff, eq_comm (b := kept)]
    simp only [toOption_getD_false, passes]
  · exact select_eq_error_iff_mapM.trans mapM_eq_error_iff

theorem getLast?_outcomes (calls : List (Row × Expr σ)) (row : Row) (condition : Expr σ) :
    ((outcomes (calls ++ [(row, condition)])).run []).1.getLast? =
      some (condition.matches row) := by
  obtain ⟨cache, -, h⟩ := run_outcomes (calls ++ [(row, condition)]) PatternCache.sound_nil
  rw [h, List.map_append, List.map_singleton, List.getLast?_concat]

/-- WHERE reads only the columns that it names. Two rows that read alike under these names have the
same outcome, a fault included: by themselves, on one filter with any kept patterns, and on two
filters after whatever either of them has evaluated. -/
theorem evaluate_of_readAlike {condition : Expr σ} {a b : Row}
    (h : Row.ReadAlike (· ∈ condition.columns) a b) :
    condition.matches a = condition.matches b ∧ evaluate a condition = evaluate b condition ∧
      ∀ calls calls' : List (Row × Expr σ),
        ((outcomes (calls ++ [(a, condition)])).run []).1.getLast? =
          ((outcomes (calls' ++ [(b, condition)])).run []).1.getLast? := by
  have hmatches : condition.matches a = condition.matches b := condition.holds_congr h
  refine ⟨hmatches, condition.holds_congr h, fun calls calls' ↦ ?_⟩
  rw [getLast?_outcomes, getLast?_outcomes, hmatches]

end

section

attribute [local instance] Like.Compiler.unlimited

private def hueless : Expr Unit :=
  -- kg BETWEEN low AND 9 AND (hue IS NULL OR EXISTS (..))
  .and (.between false (.column "kg") (.column "low") (.literal (.integer 9)))
    (.paren (.or (.is false (.column "hue") .null) (.exists ())))

theorem evaluate_of_readAlike_hueless :
    let fig : Row := .ofList [("name", .text "fig"), ("kg", .integer 3), ("low", .integer 1)]
    let plum : Row := .ofList [("hue", .null), ("Kg", .integer 3), ("low", .integer 1)]
    hueless.columns = ["kg", "low", "hue"] ∧
      (∀ name ∈ hueless.columns, fig.get name = plum.get name) ∧
        fig.get "name" ≠ plum.get "name" ∧ hueless.matches plum = .ok true := by
  intro fig plum
  have h : ∀ name ∈ hueless.columns, fig.get name = plum.get name := by decide +kernel
  have hfig : hueless.matches fig = .ok true := by decide +kernel
  exact ⟨rfl, h, by decide +kernel, (evaluate_of_readAlike h).1.symm.trans hfig⟩

end

end RowFilter

end TableQuery
