import TableQuery.Proofs.Grouping.Aggregation
import TableQuery.Proofs.Value.NumericText

namespace TableQuery

/-- What a row holds in a column can be added up: nothing, NULL or a number. -/
def Row.Summable (row : Row) (column : String) : Prop :=
  ∀ v, row.get? column = some v → v = .null ∨ v.numeric?.isSome

namespace Aggregate

def Adds (a : Aggregate) : Prop := a.kind = .sum ∨ a.kind = .avg

variable {a : Aggregate} {rows : List Row}

theorem mem_of_mem_firstOfEachText {seen : List String} {values : List Value} {v : Value}
    (h : v ∈ firstOfEachText seen values) : v ∈ values := by
  induction values generalizing seen with
  | nil => exact h
  | cons w values ih =>
    rw [firstOfEachText] at h
    split at h
    · exact List.mem_cons_of_mem _ (ih h)
    · rcases List.mem_cons.mp h with rfl | h
      · exact List.mem_cons_self
      · exact List.mem_cons_of_mem _ (ih h)

theorem exists_mem_firstOfEachText {seen : List String} {values : List Value} {v : Value}
    (h : v ∈ values) (hs : v.toText ∉ seen) :
    ∃ w ∈ firstOfEachText seen values, w.toText = v.toText := by
  induction values generalizing seen with
  | nil => cases h
  | cons w values ih =>
    rw [firstOfEachText]
    by_cases hw : v.toText = w.toText
    · rw [if_neg (hw ▸ hs)]
      exact ⟨w, List.mem_cons_self, hw.symm⟩
    · have hv : v ∈ values := by
        rcases List.mem_cons.mp h with rfl | h
        · exact absurd rfl hw
        · exact h
      split
      · exact ih hv hs
      · have hs : v.toText ∉ w.toText :: seen := by simp [hw, hs]
        obtain ⟨u, hu, ht⟩ := ih hv hs
        exact ⟨u, List.mem_cons_of_mem _ hu, ht⟩

theorem forall_mem_values_iff : (∀ v ∈ a.values rows, v.numeric?.isSome) ↔
    ∀ row ∈ rows, row.Summable a.column := by
  have hpresent : (∀ v ∈ (rows.filterMap (·.get? a.column)).filter (!·.isNull), v.numeric?.isSome) ↔
      ∀ row ∈ rows, row.Summable a.column := by
    simp only [List.mem_filter, List.mem_filterMap, Row.Summable]
    constructor
    · intro h row hr v hv
      by_cases hnull : v = .null
      · exact .inl hnull
      · exact .inr (h v ⟨⟨row, hr, hv⟩, by cases v <;> first | rfl | exact absurd rfl hnull⟩)
    · rintro h v ⟨⟨row, hr, hv⟩, hnull⟩
      rcases h row hr v hv with rfl | hv
      · cases hnull
      · exact hv
  rw [← hpresent, values]
  cases a.distinct with
  | false => rfl
  | true =>
    refine ⟨fun h v hv ↦ ?_, fun h v hv ↦ h v (mem_of_mem_firstOfEachText hv)⟩
    obtain ⟨w, hw, ht⟩ := exists_mem_firstOfEachText hv List.not_mem_nil
    rw [← Value.numeric?_eq_of_toText_eq ht]
    exact h w hw

theorem decides_addTo (sum : Binary64) (v : Value) :
    Decides "LQ_TYPE_ERROR" v.numeric?.isSome (a.addTo sum v) := by
  unfold addTo
  cases v.numeric? with
  | none => exact .error (by simp) rfl
  | some x => exact .ok rfl _

theorem decides_total : Decides "LQ_TYPE_ERROR" (∀ row ∈ rows, row.Summable a.column)
    (a.total (a.values rows)) :=
  Decides.iff (.foldlM (fun sum v _ ↦ decides_addTo sum v) .zero) forall_mem_values_iff

theorem decides_compute : Decides "LQ_TYPE_ERROR" (a.Adds → ∀ row ∈ rows, row.Summable a.column)
    (a.compute rows) := by
  have hother (h : ¬a.Adds) (v : Value) : Decides "LQ_TYPE_ERROR"
      (a.Adds → ∀ row ∈ rows, row.Summable a.column) (.ok v) := .ok (absurd · h) v
  have hadds {x : Except Fault Value} (h : a.Adds) (hx : Decides "LQ_TYPE_ERROR"
      (∀ row ∈ rows, row.Summable a.column) x) : Decides "LQ_TYPE_ERROR"
      (a.Adds → ∀ row ∈ rows, row.Summable a.column) x := hx.iff ⟨fun hs _ ↦ hs, fun hs ↦ hs h⟩
  unfold compute
  cases hk : a.kind with
  | count => split <;> exact hother (by simp [Adds, hk]) _
  | sum => simpa [countsRows, hk] using hadds (.inl hk) (decides_total.map _)
  | avg => simpa [countsRows, hk] using hadds (.inr hk) (decides_total.map _)
  | min => simpa [countsRows, hk] using hother (by simp [Adds, hk]) _
  | max => simpa [countsRows, hk] using hother (by simp [Adds, hk]) _

end Aggregate

namespace Grouping

variable {columns : List String} {aggregates : List Aggregate} {rows : List Row}

theorem addAggregate_eq (row : Row) (a : Aggregate) :
    addAggregate rows row a = (a.compute rows).map (row.insert a.key) := by
  unfold addAggregate
  cases a.compute rows <;> rfl

theorem decides_groupRow : Decides "LQ_TYPE_ERROR"
    (∀ a ∈ aggregates, a.Adds → ∀ row ∈ rows, row.Summable a.column)
    (groupRow columns aggregates rows) := by
  refine Decides.foldlM (fun row a _ ↦ ?_) _
  rw [addAggregate_eq]
  exact Aggregate.decides_compute.map _

def checkColumns (columns : List String) (rows : List Row) : Except Fault Unit :=
  match columns.find? fun column ↦ !rows.any (·.contains column) with
  | some column => .error (.missingGroupColumn column)
  | none => .ok ()

theorem decides_checkColumns : Decides "LQ_MISSING_GROUP_COLUMN"
    (∀ column ∈ columns, ∃ row ∈ rows, row.contains column = true)
    (checkColumns columns rows) := by
  unfold checkColumns
  cases hfind : columns.find? fun column ↦ !rows.any (·.contains column) with
  | some column =>
    refine .error (fun h ↦ ?_) rfl
    obtain ⟨row, hr, hcontains⟩ := h column (List.mem_of_find?_eq_some hfind)
    have hnone := List.find?_some hfind
    rw [Bool.not_eq_true', List.any_eq_false] at hnone
    exact hnone row hr hcontains
  | none =>
    refine .ok (fun column hc ↦ ?_) ()
    have hany := List.find?_eq_none.mp hfind column hc
    rwa [Bool.not_eq_true', Bool.not_eq_false, List.any_eq_true] at hany

theorem aggregate_of_nil :
    aggregate columns aggregates [] = (groupRow [] aggregates []).map ([·]) := by
  unfold aggregate
  cases groupRow [] aggregates [] <;> rfl

theorem aggregate_of_ne_nil (h : rows ≠ []) : aggregate columns aggregates rows =
    (checkColumns columns rows >>= fun _ ↦
      (groups columns rows).mapM fun group ↦ groupRow columns aggregates group.2) := by
  rw [aggregate, if_neg (by simpa using h), checkColumns]
  cases columns.find? fun column ↦ !rows.any (·.contains column) <;> rfl

theorem length_aggregate {grouped : List Row}
    (h : aggregate columns aggregates rows = .ok grouped) :
    grouped.length = if rows.isEmpty then 1 else (rows.map (key columns)).eraseDups.length := by
  cases rows with
  | nil =>
    rw [aggregate_of_nil] at h
    obtain ⟨row, -, rfl⟩ := map_eq_ok.mp h
    rfl
  | cons row rows =>
    rw [aggregate_of_ne_nil (List.cons_ne_nil row rows)] at h
    obtain ⟨_, -, h⟩ := bind_eq_ok.mp h
    rw [length_of_mapM h, length_groups]
    rfl

theorem decides_groups : Decides "LQ_TYPE_ERROR"
    (∀ a ∈ aggregates, a.Adds → ∀ row ∈ rows, row.Summable a.column)
    ((groups columns rows).mapM fun group ↦ groupRow columns aggregates group.2) := by
  refine Decides.iff (.mapM fun group _ ↦ decides_groupRow) ?_
  constructor
  · intro h a ha hadds row hr
    obtain ⟨group, hg, hr⟩ := exists_mem_groups.mpr hr
    exact h group hg a ha hadds row hr
  · intro h group hg a ha hadds row hr
    exact h a ha hadds row (exists_mem_groups.mp ⟨group, hg, hr⟩)

end Grouping

end TableQuery
