import TableQuery.Proofs.Engine.Requirements
import Mathlib.Algebra.GroupWithZero.Nat

namespace TableQuery

namespace QueryScope

theorem drop_of_closed {s : QueryScope} (h : s.closed = true) : s.drop = s.log := if_pos h

theorem complete_begin (id table : String) (fields : List (String × String))
    (elapsed threshold : ℕ) : (begin id table).complete fields elapsed threshold =
      QueryEvent.begin.record id table [] ::
      QueryEvent.complete.record id table (fields ++ [("elapsed_ms", toString elapsed)]) ::
        if threshold < elapsed then
          [QueryEvent.slow.record id table
            [("elapsed_ms", toString elapsed), ("threshold_ms", toString threshold)]]
        else [] := by
  rw [complete]
  split <;> exact drop_of_closed rfl

theorem fail_begin (id table code reason : String) : (begin id table).fail code reason =
    [QueryEvent.begin.record id table [],
      QueryEvent.failed.record id table [("code", code), ("reason", reason)]] :=
  drop_of_closed rfl

end QueryScope

namespace Request

def call : Request → Call
  | .execution c | .result c => c
  | .fromTable id s elapsed => .ofStatement id s elapsed

def answer (outcome : Except QueryError Execution) : Request → Answer
  | .execution _ => .execution outcome
  | .result _ | .fromTable _ _ _ => .result (outcome.map (·.result))

end Request

namespace Answer

def outcome : Answer → Except QueryError ResultSet
  | .execution outcome => outcome.map (·.result)
  | .result outcome => outcome

def succeeds (a : Answer) : Bool := a.outcome.isOk

def size (a : Answer) : ℕ := (a.outcome.toOption.map ResultSet.size).getD 0

theorem outcome_answer (outcome : Except QueryError Execution) (request : Request) :
    (request.answer outcome).outcome = outcome.map (·.result) := by
  cases request <;> rfl

end Answer

namespace Occasion

def call (o : Occasion) : Call := o.request.call

/-- The rows that the table returns; none if there is no such table or it fails. -/
def rows (o : Occasion) : List Row :=
  match o.tables.lookup? o.call.table with
  | none => []
  | some g => (g (.ofStatement o.call.table o.call.statement)).toOption.getD []

theorem rows_eq {o : Occasion} {rows : List Row}
    (h : Generates o.tables o.call.table o.call.statement rows) : o.rows = rows := by
  obtain ⟨g, hg, hrows⟩ := h
  rw [Occasion.rows, hg]
  simp only [hrows, Except.toOption, Option.getD_some]

variable [Like.Compiler]

def matched (o : Occasion) : List Row := o.call.statement.matched o.rows

def answer (config : Config) (o : Occasion) : Answer :=
  o.request.answer (execute o.tables config o.call.table o.call.statement)

def record (o : Occasion) (event : QueryEvent) (fields : List (String × String)) : LogRecord :=
  event.record o.call.id o.call.table fields

def endRecords (threshold : ℕ) (o : Occasion) (a : Answer) : List LogRecord :=
  match a.outcome with
  | .ok result =>
    o.record .complete [("rows_generated", toString o.rows.length),
        ("rows_matched", toString o.matched.length), ("rows_returned", toString result.size),
        ("elapsed_ms", toString o.call.elapsed)] ::
      if threshold < o.call.elapsed then
        [o.record .slow [("elapsed_ms", toString o.call.elapsed),
          ("threshold_ms", toString threshold)]]
      else []
  | .error e => [o.record .failed [("code", e.fault.code), ("reason", e.fault.message)]]

def records (threshold : ℕ) (o : Occasion) (a : Answer) : List LogRecord :=
  o.record .begin [] :: o.endRecords threshold a

variable {o : Occasion} {config : Config} {e : Execution}

theorem counts_eq (h : execute o.tables config o.call.table o.call.statement = .ok e) :
    e.generated = o.rows.length ∧ e.matched = o.matched.length := by
  obtain ⟨g, rows, hg, hrows, p, hp, hf⟩ := Plan.exists_finish_of_execute h
  obtain ⟨matching, grouped, hm, -, rfl, -⟩ := Plan.finish_eq_ok_iff.mp hf
  have hgenerated : o.rows = rows := rows_eq ⟨g, hg, hrows⟩
  have hmatched : o.matched = matching := by
    rw [matched, hgenerated]
    exact Plan.matched_of_apply hp hm
  rw [hmatched, hgenerated]
  exact ⟨rfl, rfl⟩

theorem ne_incomplete_of_mem_records {threshold : ℕ} {a : Answer} {r : LogRecord}
    (h : r ∈ o.records threshold a) : r.event ≠ QueryEvent.incomplete.name := by
  have hne (event : QueryEvent) (he : event ≠ .incomplete) (fields : List (String × String)) :
      (o.record event fields).event ≠ QueryEvent.incomplete.name := by
    cases event
    case incomplete => exact absurd rfl he
    all_goals exact of_decide_eq_true rfl
  rcases List.mem_cons.mp h with rfl | h
  · exact hne .begin nofun _
  · unfold endRecords at h
    split at h
    · rcases List.mem_cons.mp h with rfl | h
      · exact hne .complete nofun _
      · split at h
        · rw [List.mem_singleton.mp h]
          exact hne .slow nofun _
        · cases h
    · rw [List.mem_singleton.mp h]
      exact hne .failed nofun _

end Occasion

namespace Metrics

def after (m : Metrics) (o : Occasion) (a : Answer) : Metrics :=
  if a.succeeds then m.success o.rows.length a.size else m.failure

end Metrics

namespace Engine

variable [Like.Compiler] {engine : Engine}

theorem answer_eq_call (engine : Engine) (request : Request) : engine.answer request =
    (request.answer (engine.call request.call).1, (engine.call request.call).2) := by
  cases request <;> rfl

theorem call_snd {o : Occasion} (hlog : engine.config.logQueries = true)
    (htables : engine.registry = o.tables) : (engine.call o.call).2 =
      ({ engine with metrics := engine.metrics.after o (o.answer engine.config) },
        o.records engine.config.slowThreshold (o.answer engine.config)) := by
  rw [call, htables, hlog, Metrics.after, Answer.succeeds, Answer.size, Occasion.records,
    Occasion.endRecords, Occasion.answer, Answer.outcome_answer]
  cases h : execute o.tables engine.config o.call.table o.call.statement with
  | error err =>
    simp only [if_true, Option.elim_some, QueryScope.fail_begin]
    rfl
  | ok e =>
    obtain ⟨hgenerated, hmatched⟩ := Occasion.counts_eq h
    simp only [hgenerated, hmatched, if_true, Option.elim_some, QueryScope.complete_begin]
    rfl

theorem answer_eq (engine : Engine) {o : Occasion} (hlog : engine.config.logQueries = true)
    (htables : engine.registry = o.tables) : engine.answer o.request =
      (o.answer engine.config,
        { engine with metrics := engine.metrics.after o (o.answer engine.config) },
        o.records engine.config.slowThreshold (o.answer engine.config)) := by
  have houtcome : (engine.call o.call).1 =
      execute o.tables engine.config o.call.table o.call.statement := by
    rw [call, htables]
    cases execute o.tables engine.config o.call.table o.call.statement <;> rfl
  have hsnd := call_snd hlog htables
  rw [answer_eq_call]
  change (o.request.answer (engine.call o.call).1, (engine.call o.call).2) = _
  rw [houtcome, hsnd, Occasion.answer]

theorem run_cons (hlog : engine.config.logQueries = true) (o : Occasion)
    (occasions : List Occasion) : engine.run (o :: occasions) =
      let answer := o.answer engine.config
      let rest := Engine.run ⟨o.tables, engine.config, engine.metrics.after o answer⟩ occasions
      (answer :: rest.1, rest.2.1, o.records engine.config.slowThreshold answer ++ rest.2.2) := by
  have hstep := answer_eq { engine with registry := o.tables } hlog rfl
  rw [run, hstep]

theorem run_eq (engine : Engine) (hlog : engine.config.logQueries = true)
    (occasions : List Occasion) :
    (engine.run occasions).1 = occasions.map (·.answer engine.config) ∧
    (engine.run occasions).2.1.metrics =
      occasions.foldl (fun m o ↦ m.after o (o.answer engine.config)) engine.metrics ∧
    (engine.run occasions).2.2 = occasions.flatMap fun o ↦
      o.records engine.config.slowThreshold (o.answer engine.config) := by
  -- The tables may change at every request. What carries the induction is the configuration.
  induction occasions generalizing engine with
  | nil => exact ⟨rfl, rfl, rfl⟩
  | cons o occasions ih =>
    obtain ⟨hanswers, hmetrics, hrecords⟩ :=
      ih ⟨o.tables, engine.config, engine.metrics.after o (o.answer engine.config)⟩ hlog
    rw [run_cons hlog]
    exact ⟨congrArg (_ :: ·) hanswers, hmetrics, congrArg (_ ++ ·) hrecords⟩

end Engine

/-- The counters and the log of an engine agree with the requests made and the answers given.
Counters count modulo `2 ^ 64`. -/
structure Accounts [Like.Compiler] (config : Config) (occasions : List Occasion)
    (answers : List Answer) (metrics : Metrics) (log : List LogRecord) : Prop where
  answers_eq : answers = occasions.map (·.answer config)
  executed_eq : metrics.executed.toNat = answers.countP (·.succeeds) % 2 ^ 64
  failed_eq : metrics.failed.toNat = answers.countP (!·.succeeds) % 2 ^ 64
  generated_eq : metrics.generated.toNat = ((occasions.zip answers).map fun (o, a) ↦
    if a.succeeds then o.rows.length else 0).sum % 2 ^ 64
  returned_eq : metrics.returned.toNat = (answers.map Answer.size).sum % 2 ^ 64
  exact_of_length_lt : occasions.length < 2 ^ 64 →
    metrics.executed.toNat = answers.countP (·.succeeds) ∧
      metrics.failed.toNat = answers.countP (!·.succeeds)
  log_eq : log = (occasions.zip answers).flatMap fun (o, a) ↦ o.records config.slowThreshold a
  not_incomplete : ∀ r ∈ log, r.event ≠ QueryEvent.incomplete.name

namespace Metrics

theorem toNat_foldl {α : Type} {counter : Metrics → UInt64} {step : Metrics → α → Metrics}
    {amount : α → ℕ} (hstep : ∀ m a, counter (step m a) = counter m + .ofNat (amount a))
    (l : List α) (m : Metrics) : (counter (l.foldl step m)).toNat =
      ((counter m).toNat + (l.map amount).sum) % 2 ^ 64 := by
  induction l generalizing m with
  | nil => exact (Nat.mod_eq_of_lt (counter m).toNat_lt).symm
  | cons a l ih =>
    have hadd : (counter (step m a)).toNat = ((counter m).toNat + amount a) % 2 ^ 64 := by
      rw [hstep, UInt64.toNat_add, UInt64.toNat_ofNat', Nat.add_mod_mod]
    rw [List.foldl_cons, ih, hadd, List.map_cons, List.sum_cons, Nat.mod_add_mod, Nat.add_assoc]

variable (m : Metrics) (o : Occasion) (a : Answer)

theorem executed_after :
    (m.after o a).executed = m.executed + .ofNat (if a.succeeds then 1 else 0) := by
  unfold after
  split
  · rfl
  · exact (UInt64.add_zero _).symm

theorem failed_after :
    (m.after o a).failed = m.failed + .ofNat (if !a.succeeds then 1 else 0) := by
  unfold after
  cases a.succeeds with
  | false => rfl
  | true => exact (UInt64.add_zero _).symm

theorem generated_after :
    (m.after o a).generated = m.generated + .ofNat (if a.succeeds then o.rows.length else 0) := by
  unfold after
  split
  · rfl
  · exact (UInt64.add_zero _).symm

theorem returned_after : (m.after o a).returned = m.returned + .ofNat a.size := by
  unfold after Answer.succeeds Answer.size
  cases a.outcome with
  | ok result => rfl
  | error e => exact (UInt64.add_zero _).symm

end Metrics

theorem sum_map_ite {α : Type} (p : α → Bool) (l : List α) :
    (l.map fun a ↦ if p a then 1 else 0).sum = l.countP p := by
  induction l with
  | nil => rfl
  | cons a l ih => rw [List.map_cons, List.sum_cons, ih, List.countP_cons, Nat.add_comm]

namespace Engine

section

variable [Like.Compiler]

section

variable {engine last : Engine} {occasions : List Occasion} {answers : List Answer}
  {log : List LogRecord} (hlog : engine.config.logQueries = true)
  (hrun : engine.run occasions = (answers, last, log))

include hlog hrun

theorem answers_of_run : answers = occasions.map (·.answer engine.config) := by
  have hanswers := (run_eq engine hlog occasions).1
  rwa [hrun] at hanswers

theorem log_of_run : log = (occasions.zip answers).flatMap fun (o, a) ↦
    o.records engine.config.slowThreshold a := by
  have hrecords := (run_eq engine hlog occasions).2.2
  rw [hrun] at hrecords
  rw [answers_of_run hlog hrun, ← List.map_prod_left_eq_zip, List.flatMap_map]
  exact hrecords

theorem total_of_run {counter : Metrics → UInt64} {amount : Occasion → Answer → ℕ}
    (hzero : counter engine.metrics = 0)
    (hafter : ∀ m o a, counter (m.after o a) = counter m + .ofNat (amount o a)) :
    (counter last.metrics).toNat =
      ((occasions.zip answers).map fun (o, a) ↦ amount o a).sum % 2 ^ 64 := by
  have hmetrics := (run_eq engine hlog occasions).2.1
  have hsum := Metrics.toNat_foldl (fun m o ↦ hafter m o (o.answer engine.config)) occasions
    engine.metrics
  rw [hrun] at hmetrics
  rw [hzero, UInt64.toNat_zero, Nat.zero_add, ← hmetrics] at hsum
  rw [answers_of_run hlog hrun, ← List.map_prod_left_eq_zip, List.map_map]
  exact hsum

theorem total_answers_of_run {counter : Metrics → UInt64} {amount : Answer → ℕ}
    (hzero : counter engine.metrics = 0)
    (hafter : ∀ m o a, counter (m.after o a) = counter m + .ofNat (amount a)) :
    (counter last.metrics).toNat = (answers.map amount).sum % 2 ^ 64 := by
  have hlength : answers.length = occasions.length := by
    rw [answers_of_run hlog hrun, List.length_map]
  have hsnd : (occasions.zip answers).map (fun x ↦ amount x.2) = answers.map amount :=
    List.map_map.symm.trans (congrArg (List.map amount) (List.map_snd_zip hlength.le))
  rw [← hsnd]
  exact total_of_run hlog hrun hzero hafter

theorem count_answers_of_run {counter : Metrics → UInt64} {p : Answer → Bool}
    (hzero : counter engine.metrics = 0)
    (hafter : ∀ m o a, counter (m.after o a) = counter m + .ofNat (if p a then 1 else 0)) :
    (counter last.metrics).toNat = answers.countP p % 2 ^ 64 := by
  rw [← sum_map_ite]
  exact total_answers_of_run hlog hrun hzero hafter

end

/-- The counters and the log agree with what happened, over whole runs. -/
theorem accounts_run (registry : Registry Generator) {config : Config}
    (hlog : config.logQueries = true) (occasions : List Occasion) :
    let (answers, engine, log) := (ofRegistry registry config).run occasions
    Accounts config occasions answers engine.metrics log := by
  rcases hrun : (ofRegistry registry config).run occasions with ⟨answers, engine, log⟩
  have hexecuted := count_answers_of_run hlog hrun rfl Metrics.executed_after
  have hfailed := count_answers_of_run hlog hrun rfl Metrics.failed_after
  have hanswers := answers_of_run hlog hrun
  have hrecords := log_of_run hlog hrun
  refine ⟨hanswers, hexecuted, hfailed, ?_, ?_, ?_, hrecords, ?_⟩
  · exact total_of_run hlog hrun rfl Metrics.generated_after
  · exact total_answers_of_run hlog hrun rfl Metrics.returned_after
  · intro hlt
    have hle (p : Answer → Bool) : answers.countP p < 2 ^ 64 := by
      have hlength : answers.length = occasions.length := by rw [hanswers, List.length_map]
      exact List.countP_le_length.trans_lt (hlength ▸ hlt)
    rw [hexecuted, hfailed, Nat.mod_eq_of_lt (hle _), Nat.mod_eq_of_lt (hle _)]
    exact ⟨rfl, rfl⟩
  · intro r hr
    rw [hrecords] at hr
    obtain ⟨⟨o, a⟩, -, hr⟩ := List.mem_flatMap.mp hr
    exact Occasion.ne_incomplete_of_mem_records hr

end

private def fruit (weights : List Int64) : Registry Generator :=
  ⟨[("fruit", FixedTable.generate ⟨weights.map fun n ↦ .ofList [("kg", .integer n)]⟩)]⟩

private def fruitRequests : List Occasion :=
  let heavy : Statement := { Statement.ofTable "fruit" with
    condition := some (.compare .lt (.literal (.integer 1)) (.column "kg")) }
  [⟨fruit [1, 2], .execution ⟨"a", "Fruit", heavy, 5⟩⟩, ⟨fruit [1, 2, 3], .fromTable "b" heavy 20⟩,
    ⟨fruit [1, 2, 3], .result ⟨"c", "nuts", heavy, 0⟩⟩]

section

attribute [local instance] Like.Compiler.unlimited

theorem accounts_run_fruit :
    let (_, engine, log) := (ofRegistry (fruit [1]) ⟨true, 10, none⟩).run fruitRequests
    engine.metrics.executed.toNat = 2 ∧ engine.metrics.failed.toNat = 1 ∧
    engine.metrics.generated.toNat = 5 ∧ engine.metrics.returned.toNat = 3 ∧
    log.map (·.event) = ["QUERY_BEGIN", "QUERY_COMPLETE", "QUERY_BEGIN", "QUERY_COMPLETE",
      "QUERY_SLOW", "QUERY_BEGIN", "QUERY_FAILED"] := by
  have hlog : (Config.mk true 10 none).logQueries = true := rfl
  have h := accounts_run (fruit [1]) hlog fruitRequests
  exact ⟨h.executed_eq.trans rfl, h.failed_eq.trans rfl, h.generated_eq.trans rfl,
    h.returned_eq.trans rfl, (congrArg _ h.log_eq).trans rfl⟩

end

end Engine

end TableQuery
