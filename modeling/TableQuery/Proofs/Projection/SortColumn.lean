import TableQuery.Proofs.Projection.LastWriter

namespace TableQuery

open Text

namespace Output

def sourceFor? (name : String) : Output → Option String
  | .single source shown => if sameName shown name then some source else none
  | .all => none

variable {output : Output} {name source : String}

theorem sourceFor?_eq_some_iff : output.sourceFor? name = some source ↔
    ∃ shown, output = .single source shown ∧ sameName shown name = true := by
  cases output with
  | all => exact ⟨nofun, nofun⟩
  | single source' shown =>
    rw [sourceFor?, Option.ite_none_right_eq_some, Option.some.injEq]
    constructor
    · rintro ⟨hs, rfl⟩
      exact ⟨shown, rfl, hs⟩
    · rintro ⟨_, ⟨⟩, hs⟩
      exact ⟨hs, rfl⟩

theorem sourceFor?_eq_none_iff : output.sourceFor? name = none ↔
    ∀ shown, output.name? = some shown → sameName shown name = false := by
  cases output <;> simp [sourceFor?, name?]

end Output

theorem Row.eq_of_forall_get?_eq {a b : String} (h : ∀ row : Row, row.get? a = row.get? b) :
    a = b := by
  by_contra hne
  have hboth := h (.ofList [(a, .integer 0), (b, .integer 1)])
  rw [get?_ofList (by simp [Entries.names]), get?_ofList (by simp [Entries.names])] at hboth
  simp [List.lookup_cons, beq_eq_false_iff_ne.mpr hne] at hboth

namespace Projection

variable {p : Projection} {outputs : List Output} {row : Row} {name source : String} {v : Value}

/-- What a row is sorted by for a name in ORDER BY is what is shown for it under exactly this name,
and nothing where nothing is shown. -/
def SortsByShown (p : Projection) (name : String) (row : Row) : Prop :=
  ∀ v, row.get? (p.sortColumn name) = some v ↔ (name, v) ∈ (p.projectRow row).columns

/-- The first output with the name in any casing takes the column. -/
def TakenFirst (outputs : List Output) (name source : String) : Prop :=
  ∃ before shown after, outputs = before ++ .single source shown :: after ∧
    sameName shown name = true ∧
      ∀ other ∈ before.filterMap Output.name?, sameName other name = false

/-- Outputs whose names differ only in casing take the same column. -/
def CasingsAgree (outputs : List Output) : Prop :=
  ∀ source name other shown, .single source name ∈ outputs → .single other shown ∈ outputs →
    sameName name shown = true → source = other

theorem takenFirst_iff : TakenFirst outputs name source ↔
    outputs.findSome? (Output.sourceFor? name) = some source := by
  have hbefore (before : List Output) :
      (∀ other ∈ before.filterMap Output.name?, sameName other name = false) ↔
        ∀ output ∈ before, output.sourceFor? name = none := by
    simp only [List.mem_filterMap, Output.sourceFor?_eq_none_iff]
    exact ⟨fun h output ho shown hs ↦ h shown ⟨output, ho, hs⟩,
      fun h shown ⟨output, ho, hs⟩ ↦ h output ho shown hs⟩
  rw [List.findSome?_eq_some_iff]
  constructor
  · rintro ⟨before, shown, after, heq, hs, hother⟩
    exact ⟨before, _, after, heq, Output.sourceFor?_eq_some_iff.mpr ⟨shown, rfl, hs⟩,
      (hbefore before).mp hother⟩
  · rintro ⟨before, output, after, heq, hoff, hother⟩
    obtain ⟨shown, rfl, hs⟩ := Output.sourceFor?_eq_some_iff.mp hoff
    exact ⟨before, shown, after, heq, hs, (hbefore before).mpr hother⟩

theorem TakenFirst.unique {other : String} (h : TakenFirst outputs name source)
    (h' : TakenFirst outputs name other) : source = other :=
  Option.some.inj ((takenFirst_iff.mp h).symm.trans (takenFirst_iff.mp h'))

theorem TakenFirst.recased {other : String} (h : TakenFirst outputs name source)
    (hs : sameName name other = true) : TakenFirst outputs other source := by
  unfold TakenFirst at h ⊢
  simpa only [sameName_congr_right hs] using h

theorem TakenFirst.exists_mem (h : TakenFirst outputs name source) :
    ∃ shown, .single source shown ∈ outputs ∧ sameName shown name = true := by
  obtain ⟨before, shown, after, rfl, hs, -⟩ := h
  exact ⟨shown, List.mem_append_right _ List.mem_cons_self, hs⟩

theorem sortColumn_cases (p : Projection) (name : String) :
    TakenFirst p.outputs name (p.sortColumn name) ∨
      p.sortColumn name = name ∧ ∀ shown ∈ p.shownNames, sameName shown name = false := by
  have hsort : p.sortColumn name =
      (p.outputs.findSome? (Output.sourceFor? name)).getD name := rfl
  rw [takenFirst_iff, hsort]
  cases hfind : p.outputs.findSome? (Output.sourceFor? name) with
  | none =>
    refine .inr ⟨rfl, fun shown hm ↦ ?_⟩
    obtain ⟨output, ho, hname⟩ := List.mem_filterMap.mp hm
    have hnone := List.findSome?_eq_none_iff.mp hfind output ho
    exact Output.sourceFor?_eq_none_iff.mp hnone shown hname
  | some source => exact .inl rfl

theorem takenFirst_sortColumn (h : ∃ shown ∈ p.shownNames, sameName shown name = true) :
    TakenFirst p.outputs name (p.sortColumn name) := by
  obtain ⟨shown, hm, hs⟩ := h
  refine (sortColumn_cases p name).resolve_right fun ⟨_, hnone⟩ ↦ ?_
  rw [hnone shown hm] at hs
  cases hs

theorem names_flatMap_writes_sublist (hall : .all ∉ outputs) (row : Row) :
    (Entries.names (outputs.flatMap (·.writes row))).Sublist (outputs.filterMap Output.name?) := by
  induction outputs with
  | nil => exact .slnil
  | cons output outputs ih =>
    have htail := ih fun h ↦ hall (List.mem_cons_of_mem _ h)
    cases output with
    | all => exact absurd List.mem_cons_self hall
    | single source name =>
      rw [List.flatMap_cons, Output.writes, Entries.names, List.map_append]
      cases row.get? source with
      | none => exact htail.cons name
      | some v => exact htail.cons_cons name

theorem source_unique (hnames : (outputs.filterMap Output.name?).Nodup) {other : String}
    (h : .single source name ∈ outputs) (h' : .single other name ∈ outputs) : source = other := by
  obtain ⟨before, after, rfl⟩ := List.append_of_mem h
  have hname : (Output.single source name).name? = some name := rfl
  rw [List.filterMap_append, List.filterMap_cons_some hname, List.nodup_middle,
    ← List.filterMap_append] at hnames
  obtain ⟨hnew, -⟩ := List.nodup_cons.mp hnames
  by_contra hne
  have hm : .single other name ∈ before ++ after := by simpa [Ne.symm hne] using h'
  exact hnew (List.mem_filterMap.mpr ⟨_, hm, rfl⟩)

theorem mem_columns_projectRow (hall : .all ∉ p.outputs) (hnames : p.shownNames.Nodup)
    (hm : .single source name ∈ p.outputs) :
    (name, v) ∈ (p.projectRow row).columns ↔ row.get? source = some v := by
  have hnodup := hnames.sublist (names_flatMap_writes_sublist hall row)
  rw [projectRow_eq, Row.columns_ofList, Entries.ofList_of_nodup hnodup, List.mem_flatMap]
  constructor
  · rintro ⟨output, ho, hv⟩
    cases output with
    | all => exact absurd ho hall
    | single other shown =>
      obtain ⟨w, hw, heq⟩ := List.mem_map.mp hv
      cases heq
      rw [source_unique hnames hm ho, Option.mem_toList.mp hw]
  · intro hv
    exact ⟨_, hm, List.mem_map.mpr ⟨v, Option.mem_toList.mpr hv, rfl⟩⟩

theorem exists_single_of_mem_shownNames (h : name ∈ p.shownNames) :
    ∃ source, .single source name ∈ p.outputs := by
  obtain ⟨output, ho, hname⟩ := List.mem_filterMap.mp h
  cases output with
  | all => cases hname
  | single source shown =>
    cases hname
    exact ⟨source, ho⟩

theorem mem_shownNames_of_single (h : .single source name ∈ p.outputs) : name ∈ p.shownNames :=
  List.mem_filterMap.mpr ⟨_, h, rfl⟩

section

variable (hall : .all ∉ p.outputs) (hnames : p.shownNames.Nodup)

include hall hnames

theorem sortsByShown_iff_get? (hm : .single source name ∈ p.outputs) :
    p.SortsByShown name row ↔ row.get? (p.sortColumn name) = row.get? source := by
  unfold SortsByShown
  simp only [mem_columns_projectRow hall hnames hm]
  exact Option.ext_iff.symm

theorem forall_sortsByShown_iff (hm : .single source name ∈ p.outputs) :
    (∀ row, p.SortsByShown name row) ↔ TakenFirst p.outputs name source := by
  have hfirst := takenFirst_sortColumn ⟨name, mem_shownNames_of_single hm, sameName_self name⟩
  constructor
  · intro h
    rw [← Row.eq_of_forall_get?_eq fun row ↦ (sortsByShown_iff_get? hall hnames hm).mp (h row)]
    exact hfirst
  · intro h row
    rw [sortsByShown_iff_get? hall hnames hm, hfirst.unique h]

theorem forall_mem_sortsByShown_iff : (∀ name ∈ p.shownNames, ∀ row, p.SortsByShown name row) ↔
    CasingsAgree p.outputs := by
  constructor
  · intro h source name other shown hm hm' hs
    have hfirst := (forall_sortsByShown_iff hall hnames hm).mp (h _ (mem_shownNames_of_single hm))
    have hfirst' := (forall_sortsByShown_iff hall hnames hm').mp
      (h _ (mem_shownNames_of_single hm'))
    exact (hfirst.recased hs).unique hfirst'
  · intro h name hn
    obtain ⟨source, hm⟩ := exists_single_of_mem_shownNames hn
    rw [forall_sortsByShown_iff hall hnames hm]
    have hfirst := takenFirst_sortColumn ⟨name, hn, sameName_self name⟩
    obtain ⟨shown, hm', hs⟩ := hfirst.exists_mem
    rwa [h _ _ _ _ hm' hm hs] at hfirst

end

section

variable {σ : Type} {items : List (SelectItem σ)} {aggregates : List Aggregate}

theorem all_not_mem_outputs (ha : Aggregate.ofSelect items = .ok aggregates)
    (hp : ofSelect items aggregates = .ok p) (hstar : ∀ item ∈ items, item.isStar = false) :
    .all ∉ p.outputs := by
  rw [all_mem_outputs_iff ha hp, List.any_eq_true]
  rintro ⟨item, hi, hs⟩
  rw [hstar item hi] at hs
  cases hs

/-- Where ORDER BY a name that is shown sorts by what is shown under exactly this name. It does so
on a row if the first entry with the name in any casing takes a column of the same value, on all
rows if it takes the same column, and for all names of a SELECT list if entries whose names differ
only in casing take the same column; and in no other cases. -/
theorem sortsByShown_iff (ha : Aggregate.ofSelect items = .ok aggregates)
    (hp : ofSelect items aggregates = .ok p) (hstar : ∀ item ∈ items, item.isStar = false)
    (hnames : (items.filterMap SelectItem.shownName?).Nodup) :
    (∀ source name, .single source name ∈ p.outputs →
      (∀ row, p.SortsByShown name row ↔
        ∃ first, TakenFirst p.outputs name first ∧ row.get? first = row.get? source) ∧
      ((∀ row, p.SortsByShown name row) ↔ TakenFirst p.outputs name source)) ∧
    ((∀ name ∈ items.filterMap SelectItem.shownName?, ∀ row, p.SortsByShown name row) ↔
      CasingsAgree p.outputs) := by
  have hall := all_not_mem_outputs ha hp hstar
  rw [← shownNames_eq ha hp] at hnames ⊢
  refine ⟨fun source name hm ↦ ⟨fun row ↦ ?_, forall_sortsByShown_iff hall hnames hm⟩,
    forall_mem_sortsByShown_iff hall hnames⟩
  have hfirst := takenFirst_sortColumn ⟨name, mem_shownNames_of_single hm, sameName_self name⟩
  rw [sortsByShown_iff_get? hall hnames hm]
  constructor
  · exact fun h ↦ ⟨_, hfirst, h⟩
  · rintro ⟨first, h, heq⟩
    rwa [hfirst.unique h]

end

private def recased : List (SelectItem Statement) :=
  -- SELECT a AS n, b AS N
  [.entry (.column "a") (some "n"), .entry (.column "b") (some "N")]

theorem sortsByShown_iff_recased :
    let p : Projection := ⟨[.single "a" "n", .single "b" "N"]⟩
    (∀ row, p.SortsByShown "n" row) ∧ (¬∀ row, p.SortsByShown "N" row) ∧
      p.SortsByShown "N" (.ofList [("a", .integer 1), ("b", .integer 1)]) := by
  intro p
  have hselect : Aggregate.ofSelect recased = .ok [] := rfl
  obtain ⟨hsorts, -⟩ := sortsByShown_iff (p := p) hselect rfl (by decide) (by decide)
  have hfirst : TakenFirst p.outputs "N" "a" := ⟨[], "n", _, rfl, rfl, by simp⟩
  refine ⟨(hsorts "a" "n" (by decide)).2.mpr ⟨[], "n", _, rfl, rfl, by simp⟩, fun h ↦ ?_,
    ((hsorts "b" "N" (by decide)).1 _).mpr ⟨"a", hfirst, by decide⟩⟩
  have hsecond := (hsorts "b" "N" (by decide)).2.mp h
  exact absurd (hfirst.unique hsecond) (by decide)

/-- The rows are sorted by 1 for `ORDER BY N`, but 2 is shown under `N`. -/
theorem not_sortsByShown_recased :
    let p : Projection := ⟨[.single "a" "n", .single "b" "N"]⟩
    let row : Row := .ofList [("a", .integer 1), ("b", .integer 2)]
    Aggregate.ofSelect recased = .ok [] ∧ ofSelect recased [] = .ok p ∧
      recased.filterMap SelectItem.shownName? = ["n", "N"] ∧
        p.projectRow row = .ofList [("n", .integer 1), ("N", .integer 2)] ∧
          ¬p.SortsByShown "N" row := by
  intro p row
  refine ⟨rfl, rfl, rfl, by decide, fun h ↦ ?_⟩
  have hshown := (h (.integer 2)).mpr (by decide)
  exact absurd hshown (by decide)

end Projection

end TableQuery
