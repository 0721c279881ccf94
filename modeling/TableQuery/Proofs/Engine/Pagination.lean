import TableQuery.Proofs.Engine.Requirements

namespace TableQuery

namespace Window

variable {α β : Type}

def ofIntegers (limit offset : Int64) : Window :=
  ⟨offset.toInt.toNat, if limit.toInt < 0 then none else some limit.toInt.toNat⟩

theorem ofLiterals_integers (limit offset : Int64) :
    ofLiterals (some (.integer limit)) (some (.integer offset)) = .ok (ofIntegers limit offset) :=
  rfl

theorem apply_map (w : Window) (f : α → β) (l : List α) :
    w.apply (l.map f) = (w.apply l).map f := by
  unfold apply
  cases w.limit with
  | none => exact List.map_drop.symm
  | some n => rw [List.map_take, List.map_drop]

theorem apply_ofIntegers (limit offset : Int64) (l : List α) :
    (ofIntegers limit offset).apply l =
      let rest := l.drop (max offset.toInt 0).toNat
      if limit.toInt < 0 then rest else rest.take limit.toInt.toNat := by
  have hoffset : (max offset.toInt 0).toNat = offset.toInt.toNat := by omega
  rw [hoffset]
  unfold ofIntegers apply
  split <;> rfl

/-- How many multiples of a page size an `Int64` can be. -/
def pageCount (size : ℕ) : ℕ := Int64.maxValue.toInt.toNat / size + 1

variable {size : ℕ}

theorem lt_pageCount_iff (hs : 0 < size) {k : ℕ} :
    k < pageCount size ↔ k * size ≤ Int64.maxValue.toInt.toNat := by
  rw [pageCount, Nat.lt_succ_iff, Nat.le_div_iff_mul_le hs]

theorem lt_pageCount_mul (hs : 0 < size) :
    Int64.maxValue.toInt.toNat < pageCount size * size := by
  have hlast := mt (lt_pageCount_iff hs).mpr (lt_irrefl (pageCount size))
  omega

theorem flatMap_take_drop (l : List α) (size n : ℕ) :
    (List.range n).flatMap (fun k ↦ (l.drop (k * size)).take size) = l.take (n * size) := by
  induction n with
  | zero => rw [Nat.zero_mul, List.take_zero, List.range_zero, List.flatMap_nil]
  | succ n ih =>
    rw [List.range_succ, List.flatMap_append, ih, List.flatMap_singleton, Nat.succ_mul,
      List.take_add]

end Window

theorem Projection.rows_apply_window (projection : Projection) (w : Window) (rows : List Row) :
    (projection.apply (w.apply rows)).rows = w.apply (projection.apply rows).rows := by
  unfold Projection.apply
  split
  · rfl
  · exact (w.apply_map _ rows).symm

namespace Statement

def windowed (s : Statement) (limit offset : Int64) : Statement :=
  { s with limit := some (.integer limit), offset := some (.integer offset) }

def page (s : Statement) (size : Int64) (k : ℕ) : Statement :=
  s.windowed size (.ofNat (k * size.toInt.toNat))

end Statement

namespace Plan

variable {table : String} {s : Statement} {p : Plan}

def windowed (p : Plan) (w : Window) : Plan := { p with window := w }

theorem Prepares.windowed (hp : p.Prepares table s) (limit offset : Int64) :
    (p.windowed (.ofIntegers limit offset)).Prepares table (s.windowed limit offset) :=
  ⟨hp.hints, hp.condition, hp.groupBy, hp.orderBy, hp.aggregates, hp.projection,
    (Window.ofLiterals_integers limit offset).symm ▸ rfl⟩

theorem Prepares.window_eq (hp : p.Prepares table s) (hl : s.limit = none) (ho : s.offset = none) :
    p.window = ⟨0, none⟩ := by
  have hw := hp.window
  rw [hl, ho] at hw
  exact (Except.ok.inj hw).symm

theorem rows_report_windowed (hw : p.window = ⟨0, none⟩) (w : Window) (generated matched : ℕ)
    (grouped : List Row) : ((p.windowed w).report generated matched grouped).result.rows =
      w.apply (p.report generated matched grouped).result.rows := by
  unfold report
  rw [hw]
  exact p.projection.rows_apply_window w (p.sort grouped)

theorem limitApplied_report (generated matched : ℕ) (grouped : List Row) :
    (p.report generated matched grouped).limitApplied = true ↔
      (p.report generated matched grouped).result.size < grouped.length := by
  unfold report
  rw [decide_eq_true_iff, size_apply, sort, (Sorting.sortRows_perm _ _).length_eq]

end Plan

section

variable [Like.Compiler] {registry : Registry Generator} {config : Config} {table : String}
  {s : Statement} {e : Execution}

theorem exists_execute_windowed (hmax : config.maxRows = none) (hl : s.limit = none)
    (ho : s.offset = none) (h : execute registry config table s = .ok e) (limit offset : Int64) :
    ∃ page, execute registry config table (s.windowed limit offset) = .ok page ∧
      page.result.rows = (Window.ofIntegers limit offset).apply e.result.rows ∧
        (page.limitApplied = true ↔ page.result.size < e.result.size) := by
  obtain ⟨g, rows, hg, hr, p, hp, hf⟩ := Plan.exists_finish_of_execute h
  obtain ⟨matching, grouped, hm, hgroup, rfl, -⟩ := Plan.finish_eq_ok_iff.mp hf
  have hw := hp.window_eq hl ho
  -- the table gets the same hints, so the plan with another window starts from the same rows
  let q := p.windowed (.ofIntegers limit offset)
  have hq : q.finish config.maxRows rows = .ok (q.report rows.length matching.length grouped) := by
    refine Plan.finish_eq_ok_iff.mpr ⟨matching, grouped, hm, hgroup, rfl, ?_⟩
    rw [hmax]
    rfl
  have hall : (p.report rows.length matching.length grouped).result.size = grouped.length := by
    unfold Plan.report
    rw [Plan.size_apply, hw]
    exact (Sorting.sortRows_perm _ _).length_eq
  have hrun := (Plan.execute_eq_ok_iff (s := s.windowed limit offset) hg hr).mpr
    ⟨q, hp.windowed limit offset, hq⟩
  refine ⟨_, hrun, Plan.rows_report_windowed hw _ _ _ _, ?_⟩
  rw [hall]
  exact Plan.limitApplied_report _ _ _

theorem exists_execute_page (hmax : config.maxRows = none) (hl : s.limit = none)
    (ho : s.offset = none) (h : execute registry config table s = .ok e) {size : Int64}
    (hs : 0 < size) {k : ℕ} (hk : k < Window.pageCount size.toInt.toNat) :
    ∃ page, execute registry config table (s.page size k) = .ok page ∧
      page.result.rows = (e.result.rows.drop (k * size.toInt.toNat)).take size.toInt.toNat := by
  have hpos : 0 < size.toInt := Int64.lt_iff_toInt_lt.mp hs
  have hfits := (Window.lt_pageCount_iff (by omega)).mp hk
  have hoffset := Int64.toInt_ofNat_of_lt (Nat.lt_of_le_of_lt hfits (by decide))
  obtain ⟨page, hrun, hrows, -⟩ := exists_execute_windowed hmax hl ho h size
    (.ofNat (k * size.toInt.toNat))
  refine ⟨page, hrun, ?_⟩
  rw [hrows, Window.apply_ofIntegers, if_neg (by omega), hoffset,
    max_eq_left (Int.natCast_nonneg _), Int.toNat_natCast]

theorem exists_execute_pages (hmax : config.maxRows = none) (hl : s.limit = none)
    (ho : s.offset = none) (h : execute registry config table s = .ok e) {size : Int64}
    (hs : 0 < size) {n : ℕ} (hn : n ≤ Window.pageCount size.toInt.toNat) :
    ∃ pages,
      (List.range n).mapM (fun k ↦ execute registry config table (s.page size k)) = .ok pages ∧
        pages.flatMap (·.result.rows) = e.result.rows.take (n * size.toInt.toNat) := by
  have hpage (k : ℕ) (hk : k ∈ List.range n) := exists_execute_page hmax hl ho h hs
    (lt_of_lt_of_le (List.mem_range.mp hk) hn)
  obtain ⟨pages, hpages⟩ := exists_mapM_eq_ok_iff.mpr fun k hk ↦ (hpage k hk).imp fun _ hp ↦ hp.1
  refine ⟨pages, hpages, ?_⟩
  rw [← Window.flatMap_take_drop]
  refine flatMap_of_mapM hpages fun k hk page hrun ↦ ?_
  -- one run has one outcome, so this page is the one that `hpage` describes
  obtain ⟨page', hrun', hrows⟩ := hpage k hk
  rwa [Except.ok.inj (hrun.symm.trans hrun')]

/-- A statement that succeeds without LIMIT and OFFSET succeeds with any of them, and its rows are
cut out of the rows without them. Pages of one size are these rows one after another, and the pages
whose offsets are integers have all rows, unless there are more rows than the greatest integer. -/
theorem execute_windowed (hmax : config.maxRows = none) (hl : s.limit = none)
    (ho : s.offset = none) (h : execute registry config table s = .ok e) :
    (∀ limit offset : Int64,
      let rest := e.result.rows.drop (max offset.toInt 0).toNat
      ∃ page, execute registry config table (s.windowed limit offset) = .ok page ∧
        page.result.rows = (if limit.toInt < 0 then rest else rest.take limit.toInt.toNat) ∧
          (page.limitApplied = true ↔ page.result.size < e.result.size)) ∧
    ∀ size : Int64, 0 < size →
      (∀ n ≤ Window.pageCount size.toInt.toNat, ∃ pages,
        (List.range n).mapM (fun k ↦ execute registry config table (s.page size k)) = .ok pages ∧
          pages.flatMap (·.result.rows) = e.result.rows.take (n * size.toInt.toNat)) ∧
      (e.result.size ≤ Int64.maxValue.toInt.toNat → ∃ pages,
        (List.range (Window.pageCount size.toInt.toNat)).mapM
          (fun k ↦ execute registry config table (s.page size k)) = .ok pages ∧
            pages.flatMap (·.result.rows) = e.result.rows) := by
  refine ⟨fun limit offset ↦ ?_, fun size hs ↦ ⟨fun n hn ↦ ?_, fun hsize ↦ ?_⟩⟩
  · simpa only [Window.apply_ofIntegers] using exists_execute_windowed hmax hl ho h limit offset
  · exact exists_execute_pages hmax hl ho h hs hn
  · obtain ⟨pages, hpages, hrows⟩ := exists_execute_pages hmax hl ho h hs le_rfl
    have hpos : 0 < size.toInt := Int64.lt_iff_toInt_lt.mp hs
    have hreach : e.result.rows.length ≤ Window.pageCount size.toInt.toNat * size.toInt.toNat :=
      hsize.trans (Window.lt_pageCount_mul (by omega)).le
    exact ⟨pages, hpages, by rw [hrows, List.take_of_length_le hreach]⟩

end

private def byWeight : Registry Generator :=
  ⟨[("fruit", FixedTable.generate ⟨[.ofList [("kg", .integer 1)], .ofList [("kg", .integer 2)],
    .ofList [("kg", .integer 3)]]⟩)]⟩

section

attribute [local instance] Like.Compiler.unlimited

theorem execute_windowed_byWeight :
    (∃ page, execute byWeight .default "fruit" ((Statement.ofTable "fruit").windowed (-1) 2) =
      .ok page ∧ page.result.rows = [.ofList [("kg", .integer 3)]] ∧ page.limitApplied = true) ∧
    ∃ pages, (List.range 2).mapM (fun k ↦
      execute byWeight .default "fruit" ((Statement.ofTable "fruit").page 2 k)) = .ok pages ∧
        pages.flatMap (·.result.rows) = [.ofList [("kg", .integer 1)], .ofList [("kg", .integer 2)],
          .ofList [("kg", .integer 3)]] := by
  have hrun : execute byWeight .default "fruit" (.ofTable "fruit") = .ok ⟨"fruit", ⟨["kg"],
      [.ofList [("kg", .integer 1)], .ofList [("kg", .integer 2)], .ofList [("kg", .integer 3)]]⟩,
        3, 3, false⟩ := rfl
  have h := execute_windowed rfl rfl rfl hrun
  obtain ⟨page, hpage, hrows, happlied⟩ := h.1 (-1) 2
  obtain ⟨pages, hpages, hall⟩ := (h.2 2 (by decide)).1 2 (by decide)
  refine ⟨⟨page, hpage, hrows, happlied.mpr ?_⟩, pages, hpages, hall⟩
  rw [ResultSet.size, hrows]
  decide

end

end TableQuery
