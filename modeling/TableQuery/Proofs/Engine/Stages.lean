import TableQuery.Engine
import TableQuery.Proofs.Condition.Selection
import TableQuery.Proofs.Grouping.Aggregation
import TableQuery.Proofs.Projection.Outputs
import TableQuery.Proofs.Sorting.MergeSort

namespace TableQuery

def Fault.on (table : String) (fault : Fault) : QueryError :=
  (QueryError.ofFault fault).withTable table

namespace Plan

def check (table : String) (s : Statement) (generator : Generator) : Except Fault Plan := do
  let aggregates ← Aggregate.ofSelect s.select
  let projection ← Projection.ofSelect s.select aggregates
  let window ← Window.ofLiterals s.limit s.offset
  return ⟨generator, .ofStatement table s, s.condition, s.groupBy, s.orderBy, aggregates,
    projection, window⟩

structure Prepares (p : Plan) (table : String) (s : Statement) : Prop where
  hints : p.hints = .ofStatement table s
  condition : p.condition = s.condition
  groupBy : p.groupBy = s.groupBy
  orderBy : p.orderBy = s.orderBy
  aggregates : Aggregate.ofSelect s.select = .ok p.aggregates
  projection : Projection.ofSelect s.select p.aggregates = .ok p.projection
  window : Window.ofLiterals s.limit s.offset = .ok p.window

variable {registry : Registry Generator} {config : Config} {table : String} {s : Statement}
  {g : Generator} {p : Plan} {maxRows : Option Nat} {rows rows' : List Row}

theorem check_eq_ok_iff : check table s g = .ok p ↔ p.generator = g ∧ p.Prepares table s := by
  constructor
  · intro h
    obtain ⟨aggregates, ha, h⟩ := bind_eq_ok.mp h
    obtain ⟨projection, hp, h⟩ := bind_eq_ok.mp h
    obtain ⟨window, hw, h⟩ := bind_eq_ok.mp h
    cases h
    exact ⟨rfl, rfl, rfl, rfl, rfl, ha, hp, hw⟩
  · rintro ⟨rfl, h⟩
    cases p
    obtain ⟨rfl, rfl, rfl, rfl, ha, hp, hw⟩ := h
    simp only at ha hp hw
    simp only [check, ha, hp, hw, bind, Except.bind, pure, Except.pure]

theorem check_eq_map {s' : Statement} {g' : Generator} {f : Plan → Plan}
    (hselect : s'.select = s.select) (hlimit : s'.limit = s.limit) (hoffset : s'.offset = s.offset)
    (hf : ∀ aggregates projection window,
      f ⟨g, .ofStatement table s, s.condition, s.groupBy, s.orderBy, aggregates, projection,
          window⟩ =
        ⟨g', .ofStatement table s', s'.condition, s'.groupBy, s'.orderBy, aggregates, projection,
          window⟩) : check table s' g' = (check table s g).map f := by
  rw [check, check, hselect, hlimit, hoffset]
  cases Aggregate.ofSelect s.select with
  | error fault => rfl
  | ok aggregates =>
    cases hp : Projection.ofSelect s.select aggregates with
    | error fault => simp only [bind, Except.bind, Except.map, hp]
    | ok projection =>
      cases Window.ofLiterals s.limit s.offset <;>
        simp only [bind, Except.bind, pure, Except.pure, Except.map, hp, hf]

theorem check_generator (g g' : Generator) :
    check table s g' = (check table s g).map fun p ↦ { p with generator := g' } :=
  check_eq_map rfl rfl rfl fun _ _ _ ↦ rfl

theorem ofStatement_of_lookup (hg : registry.lookup? table = some g) :
    ofStatement registry table s = check table s g := by
  rw [ofStatement, hg, check]

theorem generate_eq_ok : p.generate = .ok rows ↔ p.generator p.hints = .ok rows := by
  unfold generate
  cases p.generator p.hints <;> simp

theorem ofStatement_eq_ok_iff : ofStatement registry table s = .ok p ↔
    registry.lookup? table = some p.generator ∧ p.Prepares table s := by
  cases hg : registry.lookup? table with
  | none =>
    rw [ofStatement, hg]
    simp [throw, throwThe, MonadExceptOf.throw]
  | some g =>
    rw [ofStatement_of_lookup hg, check_eq_ok_iff, Option.some_inj]
    exact and_congr_left' eq_comm

def report (p : Plan) (generated matched : ℕ) (grouped : List Row) : Execution :=
  let sorted := p.sort grouped
  let shown := p.window.apply sorted
  ⟨p.hints.table, p.projection.apply shown, generated, matched, shown.length < sorted.length⟩

theorem any_contains_congr {names : String → Prop} {rows rows' : List Row} {column : String}
    (hc : names column) (h : List.Forall₂ (Row.Agree names) rows rows') :
    rows.any (·.contains column) = rows'.any (·.contains column) := by
  induction h with
  | nil => rfl
  | cons hr _ ih => rw [List.any_cons, List.any_cons, hr.contains hc, ih]

variable {names : String → Prop}

theorem group_of_nil (ha : p.aggregates = []) (rows : List Row) : p.group rows = .ok rows := by
  rw [group, ha]
  rfl

theorem group_of_ne_nil (ha : p.aggregates ≠ []) (rows : List Row) :
    p.group rows = Grouping.aggregate p.groupBy p.aggregates rows := by
  rw [group, List.isEmpty_eq_false_iff.mpr ha]
  rfl

theorem group_congr (ha : p.aggregates ≠ [])
    (hn : ∀ name, Grouping.Reads p.groupBy p.aggregates name → names name)
    (h : List.Forall₂ (Row.Agree names) rows rows') : p.group rows = p.group rows' := by
  rw [group_of_ne_nil ha, group_of_ne_nil ha]
  exact Grouping.aggregate_congr (h.imp fun _ _ hr ↦ hr.readAlike)
    (fun column hm ↦ any_contains_congr (hn column (.inl hm)) h) hn

theorem forall₂_window {α : Type} {R : α → α → Prop} (w : Window) {l l' : List α}
    (h : List.Forall₂ R l l') : List.Forall₂ R (w.apply l) (w.apply l') := by
  unfold Window.apply
  cases w.limit with
  | none => exact List.forall₂_drop _ h
  | some n => exact List.forall₂_take n (List.forall₂_drop _ h)

variable [Like.Compiler]

def outcome (table : String) (s : Statement) (maxRows : Option Nat) (rows : List Row) :
    Except Fault Execution := check table s (fun _ ↦ .ok rows) >>= (·.finish maxRows rows)

theorem execute_eq_mapError : execute registry config table s =
    (ofStatement registry table s >>= (·.run config.maxRows)).mapError (Fault.on table) := by
  rw [execute]
  cases ofStatement registry table s >>= (·.run config.maxRows) <;> rfl

theorem run_of_generated (h : p.generator p.hints = .ok rows) :
    p.run maxRows = p.finish maxRows rows := by
  rw [run, generate, h]
  rfl

/-- A query depends on its table only through the rows that it produces. -/
theorem execute_of_generated (hg : registry.lookup? table = some g)
    (hr : g (.ofStatement table s) = .ok rows) : execute registry config table s =
      (outcome table s config.maxRows rows).mapError (Fault.on table) := by
  rw [execute_eq_mapError, ofStatement_of_lookup hg, outcome, check_generator g fun _ ↦ .ok rows]
  cases hc : check table s g with
  | error fault => rfl
  | ok p =>
    obtain ⟨rfl, hp⟩ := check_eq_ok_iff.mp hc
    refine congrArg (Except.mapError (Fault.on table)) ?_
    exact run_of_generated (hp.hints ▸ hr)

theorem outcome_congr (h : ∀ p : Plan, p.Prepares table s →
      p.finish maxRows rows = p.finish maxRows rows') :
    outcome table s maxRows rows = outcome table s maxRows rows' := by
  rw [outcome, outcome, check_generator (fun _ ↦ .ok rows) fun _ ↦ .ok rows']
  cases hc : check table s fun _ ↦ .ok rows with
  | error fault => rfl
  | ok p => exact h p (check_eq_ok_iff.mp hc).2

theorem outcome_of_prepares (hp : p.Prepares table s) :
    outcome table s maxRows rows = p.finish maxRows rows := by
  have hcheck : check table s (fun _ ↦ .ok rows) = .ok { p with generator := fun _ ↦ .ok rows } :=
    check_eq_ok_iff.mpr ⟨rfl, hp.hints, hp.condition, hp.groupBy, hp.orderBy, hp.aggregates,
      hp.projection, hp.window⟩
  rw [outcome, hcheck]
  rfl

theorem outcome_eq_ok_iff {e : Execution} : outcome table s maxRows rows = .ok e ↔
    ∃ p : Plan, p.Prepares table s ∧ p.finish maxRows rows = .ok e := by
  constructor
  · intro h
    obtain ⟨p, hc, he⟩ := bind_eq_ok.mp h
    exact ⟨p, (check_eq_ok_iff.mp hc).2, he⟩
  · intro h
    obtain ⟨p, hp, he⟩ := h
    rw [outcome_of_prepares hp, he]

theorem execute_eq_ok_iff (hg : registry.lookup? table = some g)
    (hr : g (.ofStatement table s) = .ok rows) {e : Execution} :
    execute registry config table s = .ok e ↔
      ∃ p : Plan, p.Prepares table s ∧ p.finish config.maxRows rows = .ok e := by
  rw [execute_of_generated hg hr, ← outcome_eq_ok_iff]
  cases outcome table s config.maxRows rows <;> simp [Except.mapError]

theorem exists_finish_of_execute {e : Execution} (h : execute registry config table s = .ok e) :
    ∃ g rows, registry.lookup? table = some g ∧ g (.ofStatement table s) = .ok rows ∧
      ∃ p : Plan, p.Prepares table s ∧ p.finish config.maxRows rows = .ok e := by
  have hrun : (ofStatement registry table s >>= (·.run config.maxRows)) = .ok e := by
    rw [execute_eq_mapError] at h
    revert h
    cases ofStatement registry table s >>= (·.run config.maxRows) <;> simp [Except.mapError]
  obtain ⟨p, hp, hrun⟩ := bind_eq_ok.mp hrun
  obtain ⟨rows, hrows, hf⟩ := bind_eq_ok.mp hrun
  obtain ⟨hg, hprep⟩ := ofStatement_eq_ok_iff.mp hp
  rw [generate_eq_ok, hprep.hints] at hrows
  exact ⟨p.generator, rows, hg, hrows, p, hprep, hf⟩

theorem finish_eq_ok_iff {e : Execution} : p.finish maxRows rows = .ok e ↔
    ∃ matching grouped, RowFilter.apply p.condition rows = .ok matching ∧
      p.group matching = .ok grouped ∧ e = p.report rows.length matching.length grouped ∧
        checkSize maxRows e.result = .ok () := by
  constructor
  · intro h
    obtain ⟨matching, hm, h⟩ := bind_eq_ok.mp h
    obtain ⟨grouped, hg, h⟩ := bind_eq_ok.mp h
    obtain ⟨_, hsize, h⟩ := bind_eq_ok.mp h
    cases h
    exact ⟨matching, grouped, hm, hg, rfl, hsize⟩
  · rintro ⟨matching, grouped, hm, hg, rfl, hsize⟩
    refine bind_eq_ok.mpr ⟨matching, hm, bind_eq_ok.mpr ⟨grouped, hg, ?_⟩⟩
    exact bind_eq_ok.mpr ⟨_, hsize, rfl⟩

theorem passes_congr {σ : Type} {names : String → Prop} {condition : Option (Expr σ)}
    (hc : ∀ e, condition = some e → ∀ name ∈ e.columns, names name) {row row' : Row}
    (h : Row.ReadAlike names row row') : passes condition row = passes condition row' := by
  cases condition with
  | none => rfl
  | some e => exact e.holds_congr fun name hn ↦ h name (hc e rfl name hn)

/-- Rows that agree on the names that a plan reads have the same outcome. -/
theorem finish_congr
    (hcond : ∀ e, p.condition = some e → ∀ name ∈ e.columns, names name)
    (hgroup : p.aggregates ≠ [] →
      ∀ name, Grouping.Reads p.groupBy p.aggregates name → names name)
    (hshow : p.aggregates = [] → (∀ key ∈ p.sortKeys, names key.column) ∧
      p.projection.outputs ≠ [] ∧ ∀ output ∈ p.projection.outputs, output.Within names)
    (h : List.Forall₂ (Row.Agree names) rows rows') :
    p.finish maxRows rows = p.finish maxRows rows' := by
  have hsel : Alike (List.Forall₂ (Row.Agree names)) (RowFilter.apply p.condition rows)
      (RowFilter.apply p.condition rows') := by
    rw [RowFilter.apply_eq_select, RowFilter.apply_eq_select]
    exact alike_select (fun _ _ hr ↦ passes_congr hcond hr.readAlike) h
  refine (hsel.bind fun matching matching' hm ↦ ?_).eq
  by_cases ha : p.aggregates = []
  · obtain ⟨hkeys, hne, hout⟩ := hshow ha
    have hsort : List.Forall₂ (Row.Agree names) (p.sort matching) (p.sort matching') :=
      Sorting.forall₂_sortRows (fun _ _ hr key hk ↦ hr.readAlike _ (hkeys key hk)) hm
    have hwindow := forall₂_window p.window hsort
    rw [group_of_nil ha, group_of_nil ha]
    refine Alike.of_eq ?_
    simp only [bind, Except.bind, Projection.apply_congr hne hout hwindow, hm.length_eq,
      h.length_eq, hsort.length_eq, hwindow.length_eq]
  · rw [group_congr ha (hgroup ha) hm, hm.length_eq, h.length_eq]
    exact Alike.of_eq rfl

end Plan

end TableQuery
