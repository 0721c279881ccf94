import TableQuery.RowFilter
import TableQuery.Proofs.Condition.Evaluation

namespace TableQuery

variable [Like.Compiler]

def PatternCache.Sound (cache : PatternCache) : Prop :=
  ∀ text compiled, cache.lookup text = some compiled → Like.Pattern.compile? text = some compiled

theorem PatternCache.sound_nil : PatternCache.Sound [] := fun _ _ h ↦ nomatch h

theorem PatternCache.Sound.cons {cache : PatternCache} (h : cache.Sound) {text : String}
    {compiled : Like.Pattern} (hc : Like.Pattern.compile? text = some compiled) :
    PatternCache.Sound ((text, compiled) :: cache) := by
  intro t c ht
  rw [List.lookup_cons] at ht
  split at ht
  · rename_i he
    rw [eq_of_beq he, hc, ht]
  · exact h t c ht

namespace RowFilter

variable {σ α β : Type}

/-- From every sound cache the computation has the outcome and leaves a sound cache. -/
def Gives (x : RowFilter α) (outcome : Except Fault α) : Prop :=
  ∀ cache, PatternCache.Sound cache →
    ∃ cache', PatternCache.Sound cache' ∧ x.run.run cache = (outcome, cache')

namespace Gives

theorem pure (a : α) : Gives (Pure.pure a) (.ok a) := fun cache h ↦ ⟨cache, h, rfl⟩

theorem throw (fault : Fault) : Gives (MonadExcept.throw fault : RowFilter α) (.error fault) :=
  fun cache h ↦ ⟨cache, h, rfl⟩

theorem bind {x : RowFilter α} {outcome : Except Fault α} {f : α → RowFilter β}
    {g : α → Except Fault β} (hx : Gives x outcome) (hf : ∀ a, Gives (f a) (g a)) :
    Gives (x >>= f) (outcome >>= g) := by
  intro cache h
  obtain ⟨cache', h', hr⟩ := hx cache h
  cases outcome with
  | ok a =>
    obtain ⟨cache'', h'', hr'⟩ := hf a cache' h'
    refine ⟨cache'', h'', ?_⟩
    rw [ExceptT.run_bind, StateT.run_bind, hr]
    exact hr'
  | error fault =>
    refine ⟨cache', h', ?_⟩
    rw [ExceptT.run_bind, StateT.run_bind, hr]
    rfl

end Gives

theorem run_like (value pattern : Value) (cache : PatternCache) :
    (like value pattern).run.run cache =
      match cache.lookup pattern.toText with
      | some compiled => (.ok (compiled.isMatch value.toText), cache)
      | none =>
        match Like.Pattern.compile? pattern.toText with
        | some compiled =>
          (.ok (compiled.isMatch value.toText), (pattern.toText, compiled) :: cache)
        | none => (.error (.unsupported (.pattern pattern.toText)), cache) := by
  unfold like
  rw [ExceptT.run_bind, StateT.run_bind]
  change StateT.run (ExceptT.run
    (match cache.lookup pattern.toText with | some _ => _ | none => _)) cache = _
  split
  · rfl
  · cases Like.Pattern.compile? pattern.toText <;> rfl

theorem gives_like (value pattern : Value) :
    Gives (like value pattern) (Like.test value pattern) := by
  intro cache h
  rw [run_like, Like.test]
  cases hl : cache.lookup pattern.toText with
  | some compiled => exact ⟨cache, h, by rw [h _ _ hl]⟩
  | none =>
    cases hc : Like.Pattern.compile? pattern.toText with
    | some compiled => exact ⟨_, h.cons hc, rfl⟩
    | none => exact ⟨cache, h, rfl⟩

/-- With kept patterns a condition has the outcome that it has by itself. -/
theorem gives_evaluate (row : Row) (condition : Expr σ) :
    Gives (evaluate row condition) (condition.matches row) := by
  have hgives : Compatible (fun α (x : RowFilter α) (outcome : Except Fault α) ↦ Gives x outcome) :=
    ⟨Gives.pure, fun _ ↦ .throw _, Gives.bind⟩
  exact hgives.holds gives_like condition fun _ _ ↦ rfl

end RowFilter

end TableQuery
