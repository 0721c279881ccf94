import TableQuery.Proofs.Engine.Stages
import TableQuery.Proofs.Grouping.Totals
import TableQuery.Proofs.Projection.Executable

namespace TableQuery

/-- What a query needs to succeed: its table is registered, its SELECT list, LIMIT and OFFSET can be
executed, the table produces rows, WHERE can be decided on them, the grouped rows have the GROUP BY
columns, SUM and AVG find numbers, and the result is not too large. -/
inductive Requirement where
  | table
  | select
  | window
  | source
  | condition
  | groupColumns
  | numbers
  | size
deriving DecidableEq

namespace Requirement

def inOrder : List Requirement :=
  [.table, .select, .window, .source, .condition, .groupColumns, .numbers, .size]

theorem mem_inOrder (q : Requirement) : q ∈ inOrder := by cases q <;> decide

def code : Requirement → String
  | .table => "LQ_UNSUPPORTED_TABLE"
  | .select => "LQ_UNSUPPORTED_EXPRESSION"
  | .window => "LQ_INVALID_LIMIT"
  | .source => "LQ_GENERATOR_FAILED"
  | .condition => "LQ_UNSUPPORTED_EXPRESSION"
  | .groupColumns => "LQ_MISSING_GROUP_COLUMN"
  | .numbers => "LQ_TYPE_ERROR"
  | .size => "LQ_RESULT_LIMIT"

end Requirement

namespace Statement

def hasCall (s : Statement) : Bool := s.select.any SelectItem.isCall

def matched [Like.Compiler] (s : Statement) (rows : List Row) : List Row :=
  rows.filter fun row ↦ (passes s.condition row).toOption.getD false

/-- How many rows there are after grouping. Without rows, aggregates still make one. -/
def groupedSize (s : Statement) (matched : List Row) : Nat :=
  if s.hasCall then
    if matched.isEmpty then 1 else (matched.map (Grouping.key s.groupBy)).eraseDups.length
  else matched.length

end Statement

def Window.keptSize (limit offset : Option Value) (n : Nat) : Nat :=
  let rest := match offset with
    | some (.integer k) => n - k.toInt.toNat
    | _ => n
  match limit with
  | some (.integer k) => if k.toInt < 0 then rest else min k.toInt.toNat rest
  | _ => rest

def Generates (registry : Registry Generator) (table : String) (s : Statement) (rows : List Row) :
    Prop := ∃ g, registry.lookup? table = some g ∧ g (.ofStatement table s) = .ok rows

/-- Whether a requirement is met. Later requirements are about the rows that the table produces. -/
def Requirement.Met [Like.Compiler] (registry : Registry Generator) (config : Config)
    (table : String) (s : Statement) : Requirement → Prop
  | .table => ∃ g, registry.lookup? table = some g
  | .select => ∀ item ∈ s.select, item.Executable
  | .window => ∀ v, s.limit = some v ∨ s.offset = some v → ∃ n, v = .integer n
  | .source => ∃ rows, Generates registry table s rows
  | .condition => ∀ rows, Generates registry table s rows → ∀ e, s.condition = some e →
      ∀ row ∈ rows, ∃ holds, e.matches row = .ok holds
  | .groupColumns => ∀ rows, Generates registry table s rows → s.hasCall = true →
      s.matched rows ≠ [] → ∀ column ∈ s.groupBy, ∃ row ∈ s.matched rows, row.contains column = true
  | .numbers => ∀ rows, Generates registry table s rows → ∀ name distinct column label,
      .entry (.call name distinct [.column column]) label ∈ s.select →
        Text.sameName "SUM" name = true ∨ Text.sameName "AVG" name = true →
          ∀ row ∈ s.matched rows, row.Summable column
  | .size => ∀ rows, Generates registry table s rows → ∀ max, config.maxRows = some max →
      Window.keptSize s.limit s.offset (s.groupedSize (s.matched rows)) ≤ max

namespace Window

theorem decides_ofLiterals (limit offset : Option Value) : Decides "LQ_INVALID_LIMIT"
    (∀ v, limit = some v ∨ offset = some v → ∃ n, v = .integer n) (ofLiterals limit offset) := by
  rcases offset with _ | (_ | k | _ | _ | _) <;> rcases limit with _ | (_ | n | _ | _ | _) <;>
    first
    | exact .ok (by rintro v (h | h) <;> cases h <;> exact ⟨_, rfl⟩) _
    | exact .error (by simp) rfl

theorem length_apply {α : Type} {limit offset : Option Value} {w : Window}
    (h : ofLiterals limit offset = .ok w) (l : List α) :
    (w.apply l).length = keptSize limit offset l.length := by
  have hlimit (skipped : Nat) (n : Int64) :
      (apply ⟨skipped, if n.toInt < 0 then none else some n.toInt.toNat⟩ l).length =
        if n.toInt < 0 then l.length - skipped else min n.toInt.toNat (l.length - skipped) := by
    unfold apply
    split <;> simp
  rcases offset with _ | (_ | k | _ | _ | _) <;> rcases limit with _ | (_ | n | _ | _ | _) <;>
    cases h
  · rfl
  · exact hlimit 0 n
  · exact List.length_drop
  · exact hlimit k.toInt.toNat n

end Window

theorem Generates.unique {registry : Registry Generator} {table : String} {s : Statement}
    {rows rows' : List Row} (h : Generates registry table s rows)
    (h' : Generates registry table s rows') : rows = rows' := by
  obtain ⟨g, hg, hr⟩ := h
  obtain ⟨g', hg', hr'⟩ := h'
  obtain rfl := Option.some.inj (hg.symm.trans hg')
  exact Except.ok.inj (hr.symm.trans hr')

theorem Generates.forall_iff {registry : Registry Generator} {table : String} {s : Statement}
    {rows : List Row} (h : Generates registry table s rows) {P : List Row → Prop} :
    (∀ rows, Generates registry table s rows → P rows) ↔ P rows :=
  ⟨fun hP ↦ hP rows h, fun hP _ h' ↦ h.unique h' ▸ hP⟩

namespace Plan

variable {registry : Registry Generator} {config : Config} {table : String} {s : Statement}
  {g : Generator} {p : Plan} {rows matching grouped : List Row}

theorem aggregates_eq_nil_iff (hp : p.Prepares table s) :
    p.aggregates = [] ↔ s.hasCall = false := by
  have hlength := (Aggregate.forall₂_ofSelect hp.aggregates).length_eq
  rw [← List.length_eq_zero_iff, ← hlength, List.length_eq_zero_iff, List.filter_eq_nil_iff,
    Statement.hasCall, List.any_eq_false]

theorem adds_iff (hp : p.Prepares table s) {Q : String → Prop} :
    (∀ a ∈ p.aggregates, a.Adds → Q a.column) ↔ ∀ name distinct column label,
      .entry (.call name distinct [.column column]) label ∈ s.select →
        Text.sameName "SUM" name = true ∨ Text.sameName "AVG" name = true → Q column := by
  simp only [Aggregate.mem_ofSelect hp.aggregates, Aggregate.ofCall_eq_ok_iff]
  constructor
  · intro h name distinct column label hm hname
    rcases hname with hname | hname
    · exact h (.new .sum column distinct label)
        ⟨_, _, _, _, hm, .sum, column, hname, rfl, rfl⟩ (.inl rfl)
    · exact h (.new .avg column distinct label)
        ⟨_, _, _, _, hm, .avg, column, hname, rfl, rfl⟩ (.inr rfl)
  · rintro h a ⟨name, distinct, args, label, hm, kind, column, hname, hcolumn, rfl⟩ hadds
    have hadds : kind = .sum ∨ kind = .avg := hadds
    have hcount : kind ≠ .count := by rcases hadds with rfl | rfl <;> decide
    rw [(Aggregate.column?_eq_some_iff hcount).mp hcolumn] at hm
    refine h name distinct column label hm ?_
    rcases hadds with rfl | rfl
    · exact .inl hname
    · exact .inr hname

theorem generate_eq_ok_iff (hg : registry.lookup? table = some p.generator)
    (hp : p.Prepares table s) : p.generate = .ok rows ↔ Generates registry table s rows := by
  rw [generate_eq_ok, hp.hints]
  simp [Generates, hg]

theorem decides_generate (hg : registry.lookup? table = some p.generator)
    (hp : p.Prepares table s) :
    Decides "LQ_GENERATOR_FAILED" (∃ rows, Generates registry table s rows) p.generate := by
  simp only [← generate_eq_ok_iff hg hp]
  refine .of_failsWith fun fault h ↦ ?_
  unfold generate at h
  split at h
  · cases h
  · cases h
    rfl

theorem length_group (hp : p.Prepares table s) (h : p.group matching = .ok grouped) :
    grouped.length = s.groupedSize matching := by
  unfold Statement.groupedSize
  by_cases ha : p.aggregates = []
  · rw [group_of_nil ha] at h
    cases h
    rw [(aggregates_eq_nil_iff hp).mp ha]
    rfl
  · have hcall : s.hasCall = true := by
      rwa [aggregates_eq_nil_iff hp, Bool.not_eq_false] at ha
    rw [group_of_ne_nil ha, hp.groupBy] at h
    rw [if_pos hcall]
    exact Grouping.length_aggregate h

theorem decides_checkSize (maxRows : Option Nat) (result : ResultSet) :
    Decides "LQ_RESULT_LIMIT" (∀ max, maxRows = some max → result.size ≤ max)
      (checkSize maxRows result) := by
  unfold checkSize
  cases maxRows with
  | none => exact .ok (by simp) ()
  | some max =>
    dsimp only
    split
    · exact .error (by simp; omega) rfl
    · exact .ok (by simp; omega) ()

theorem size_apply (projection : Projection) (rows : List Row) :
    (projection.apply rows).size = rows.length := by
  unfold Projection.apply
  split
  · rfl
  · exact List.length_map _

theorem size_shown (hp : p.Prepares table s) (hg : p.group matching = .ok grouped) :
    (p.projection.apply (p.window.apply (p.sort grouped))).size =
      Window.keptSize s.limit s.offset (s.groupedSize matching) := by
  rw [size_apply, Window.length_apply hp.window, sort, (Sorting.sortRows_perm _ _).length_eq,
    length_group hp hg]

variable [Like.Compiler]

theorem settles_check : Settles (Requirement.Met registry config table s) Requirement.code
    [.select, .window] (check table s g) := by
  have hcalls := Aggregate.decides_ofSelect s.select
  unfold check
  cases ha : Aggregate.ofSelect s.select with
  | error fault =>
    rw [ha] at hcalls
    cases hcalls with
    | error h hc => exact .unmet _ (fun hall ↦ h fun item hi _ ↦ hall item hi) hc
  | ok aggregates =>
    have hselect := (Projection.decides_outputsOf ha).map Projection.mk
    change Settles _ _ ([Requirement.select] ++ ([Requirement.window] ++ []))
      (Projection.ofSelect s.select aggregates >>= fun _ ↦
        Window.ofLiterals s.limit s.offset >>= fun _ ↦ _)
    refine Settles.bind (.of_decides hselect) fun projection _ ↦ ?_
    exact Settles.bind (.of_decides (Window.decides_ofLiterals _ _)) fun window _ ↦ .ok _

theorem settles_group (hp : p.Prepares table s) (hr : Generates registry table s rows) :
    Settles (Requirement.Met registry config table s) Requirement.code
      [.groupColumns, .numbers] (p.group (s.matched rows)) := by
  have hcolumns : Requirement.Met registry config table s .groupColumns ↔ _ := hr.forall_iff
  have hnumbers : Requirement.Met registry config table s .numbers ↔ _ :=
    hr.forall_iff.trans (adds_iff hp).symm
  by_cases ha : p.aggregates = []
  · rw [group_of_nil ha]
    have hcall := (aggregates_eq_nil_iff hp).mp ha
    refine .met (hcolumns.mpr fun h ↦ ?_) (.met (hnumbers.mpr ?_) (.ok _))
    · rw [hcall] at h
      cases h
    · simp [ha]
  · have hcall : s.hasCall = true := by
      rwa [aggregates_eq_nil_iff hp, Bool.not_eq_false] at ha
    rw [group_of_ne_nil ha, hp.groupBy]
    by_cases hm : s.matched rows = []
    · rw [hm, Grouping.aggregate_of_nil]
      refine .met (hcolumns.mpr fun _ hne ↦ absurd hm hne) (.of_decides ?_)
      refine (Grouping.decides_groupRow.map _).iff ?_
      simp [hnumbers, hm]
    · rw [Grouping.aggregate_of_ne_nil hm]
      change Settles _ _ ([Requirement.groupColumns] ++ [.numbers]) _
      have hcheck : Decides "LQ_MISSING_GROUP_COLUMN"
          (Requirement.Met registry config table s .groupColumns)
          (Grouping.checkColumns s.groupBy (s.matched rows)) :=
        Grouping.decides_checkColumns.iff (hcolumns.trans ⟨fun h ↦ h hcall hm, fun h _ _ ↦ h⟩).symm
      refine Settles.bind (.of_decides hcheck) fun _ _ ↦ .of_decides ?_
      exact Grouping.decides_groups.iff hnumbers.symm

theorem matched_of_apply (hp : p.Prepares table s)
    (h : RowFilter.apply p.condition rows = .ok matching) : s.matched rows = matching := by
  rw [RowFilter.apply_eq_select] at h
  rw [Statement.matched, ← hp.condition]
  exact (select_eq_ok_iff.mp h).2

theorem decides_apply (hp : p.Prepares table s) (hr : Generates registry table s rows) :
    Decides "LQ_UNSUPPORTED_EXPRESSION" (Requirement.Met registry config table s .condition)
      (RowFilter.apply p.condition rows) := by
  have hcondition : Requirement.Met registry config table s .condition ↔
      ∀ row ∈ rows, ∃ holds, passes p.condition row = .ok holds := by
    refine hr.forall_iff.trans ?_
    rw [hp.condition]
    cases s.condition <;> simp [passes]
  have hfails (row : Row) : FailsWith "LQ_UNSUPPORTED_EXPRESSION" (passes p.condition row) := by
    cases p.condition with
    | none => exact .ok true
    | some e => exact e.failsWith_matches
  rw [RowFilter.apply_eq_select]
  exact (decides_select hfails rows).iff hcondition.symm

theorem settles_finish (hp : p.Prepares table s) (hr : Generates registry table s rows) :
    Settles (Requirement.Met registry config table s) Requirement.code
      [.condition, .groupColumns, .numbers, .size] (p.finish config.maxRows rows) := by
  have hsize : Requirement.Met registry config table s .size ↔ _ := hr.forall_iff
  change Settles _ _ ([Requirement.condition] ++ ([.groupColumns, .numbers] ++ ([.size] ++ []))) _
  refine Settles.bind (.of_decides (decides_apply hp hr)) fun matching hm ↦ ?_
  obtain rfl := matched_of_apply hp hm
  refine Settles.bind (settles_group hp hr) fun grouped hg ↦ ?_
  refine Settles.bind (.of_decides ((decides_checkSize _ _).iff ?_)) fun _ _ ↦ .ok _
  rw [hsize, size_shown hp hg]

theorem settles_inOrder : Settles (Requirement.Met registry config table s) Requirement.code
    Requirement.inOrder (ofStatement registry table s >>= (·.run config.maxRows)) := by
  cases hg : registry.lookup? table with
  | none =>
    rw [ofStatement, hg]
    exact .unmet _ (by simp [Requirement.Met, hg]) rfl
  | some g =>
    rw [ofStatement_of_lookup hg]
    refine .met ⟨g, hg⟩ ?_
    change Settles _ _ ([Requirement.select, .window] ++ ([.source] ++
      [.condition, .groupColumns, .numbers, .size])) _
    refine Settles.bind settles_check fun p hc ↦ ?_
    obtain ⟨rfl, hp⟩ := check_eq_ok_iff.mp hc
    refine Settles.bind (.of_decides (decides_generate hg hp)) fun rows hrows ↦ ?_
    exact settles_finish hp ((generate_eq_ok_iff hg hp).mp hrows)

end Plan

section

variable [Like.Compiler]

theorem execute_returned {registry : Registry Generator} {config : Config} {table : String}
    {s : Statement} {rows : List Row} {e : Execution} (hr : Generates registry table s rows)
    (h : execute registry config table s = .ok e) :
    e.returned = Window.keptSize s.limit s.offset (s.groupedSize (s.matched rows)) := by
  obtain ⟨g, hg, hrows⟩ := hr
  obtain ⟨p, hp, hf⟩ := (Plan.execute_eq_ok_iff hg hrows).mp h
  obtain ⟨matching, grouped, hm, hg, rfl, -⟩ := Plan.finish_eq_ok_iff.mp hf
  rw [Plan.matched_of_apply hp hm]
  exact Plan.size_shown hp hg

/-- A query succeeds if and only if all its requirements are met, and if it fails, its error has the
code of the first requirement that is not met. -/
theorem execute_requirements (registry : Registry Generator) (config : Config) (table : String)
    (s : Statement) :
    ((∃ e, execute registry config table s = .ok e) ↔
      ∀ q, Requirement.Met registry config table s q) ∧
    ∀ err, execute registry config table s = .error err → ∃ before q after,
      Requirement.inOrder = before ++ q :: after ∧
        (∀ p ∈ before, Requirement.Met registry config table s p) ∧
          ¬Requirement.Met registry config table s q ∧ err.fault.code = q.code := by
  have h : Settles (Requirement.Met registry config table s) Requirement.code _ _ :=
    Plan.settles_inOrder
  have hmet : (∀ q ∈ Requirement.inOrder, Requirement.Met registry config table s q) ↔
      ∀ q, Requirement.Met registry config table s q :=
    ⟨fun hq q ↦ hq q q.mem_inOrder, fun hq q _ ↦ hq q⟩
  rw [← hmet, ← h.exists_ok_iff, Plan.execute_eq_mapError]
  cases hx : Plan.ofStatement registry table s >>= (·.run config.maxRows) with
  | ok e => exact ⟨iff_of_true ⟨e, rfl⟩ ⟨e, rfl⟩, nofun⟩
  | error fault =>
    refine ⟨⟨nofun, nofun⟩, fun err herr ↦ ?_⟩
    cases herr
    exact h.exists_first_unmet hx

end

end TableQuery
