import TableQuery.Proofs.Projection.SortColumn
import TableQuery.Proofs.Sorting.Successive

namespace TableQuery

open Text

namespace Projection

variable {p : Projection} {row : Row} {name : String}

theorem names_projectRow_sublist (hall : .all ∉ p.outputs) (hnames : p.shownNames.Nodup)
    (row : Row) : (p.projectRow row).names.Sublist p.shownNames := by
  have hsub := names_flatMap_writes_sublist hall row
  rwa [← Entries.ofList_of_nodup (hnames.sublist hsub), ← Row.columns_ofList,
    ← projectRow_eq] at hsub

theorem get?_projectRow (hall : .all ∉ p.outputs)
    (hnames : p.shownNames.Pairwise fun a b ↦ sameName a b = false)
    (h : ∃ shown ∈ p.shownNames, sameName shown name = true) :
    (p.projectRow row).get? name = row.get? (p.sortColumn name) := by
  have hnodup : p.shownNames.Nodup := hnames.imp fun hab heq ↦ by
    rw [heq, sameName_self] at hab
    cases hab
  have hsub := names_projectRow_sublist hall hnodup row
  have hapart : (p.projectRow row).columns.Pairwise Entries.Apart :=
    List.pairwise_map (f := Prod.fst).mp (hnames.sublist hsub)
  obtain ⟨shown, hm, hs⟩ := (takenFirst_sortColumn h).exists_mem
  rw [← Row.get?_eq_of_sameName hapart hs]
  refine Option.ext fun v ↦ ?_
  rw [← mem_columns_projectRow hall hnodup hm]
  constructor
  · intro hv
    obtain ⟨column, hfind, rfl⟩ := Option.map_eq_some_iff.mp hv
    obtain ⟨hc, hsame⟩ := Entries.mem_of_find? hfind
    have hshown : column.1 = shown := eq_of_sameName hnames
      (hsub.subset (List.mem_map_of_mem hc)) (mem_shownNames_of_single hm) hsame
    rwa [← hshown]
  · exact Row.get?_of_mem

def sortKey (p : Projection) (key : SortKey) : SortKey := ⟨p.sortColumn key.column, key.direction⟩

theorem rowOrder_projectRow {orderBy : List SortKey}
    (h : ∀ key ∈ orderBy, ∀ row, (p.projectRow row).get? key.column =
      row.get? (p.sortColumn key.column)) (a b : Row) :
    Sorting.rowOrder orderBy (p.projectRow a) (p.projectRow b) =
      Sorting.rowOrder (orderBy.map p.sortKey) a b := by
  induction orderBy with
  | nil => rfl
  | cons key orderBy ih =>
    obtain ⟨hkey, h⟩ := List.forall_mem_cons.mp h
    have hget (row : Row) :
        (p.projectRow row).get key.column = row.get (p.sortColumn key.column) := by
      rw [Row.get, hkey row, Row.get]
    simp only [List.map_cons, Sorting.rowOrder, SortKey.order, sortKey, hget, ih h]

theorem sortRows_map_projectRow {orderBy : List SortKey}
    (h : ∀ key ∈ orderBy, ∀ row, (p.projectRow row).get? key.column =
      row.get? (p.sortColumn key.column)) (rows : List Row) :
    Sorting.sortRows orderBy (rows.map p.projectRow) =
      (Sorting.sortRows (orderBy.map p.sortKey) rows).map p.projectRow := by
  cases orderBy with
  | nil => rfl
  | cons key orderBy =>
    change Sorting.mergeSort _ _ = (Sorting.mergeSort _ _).map _
    rw [Sorting.mergeSort_map]
    congr 2
    funext a b
    exact rowOrder_projectRow h a b

/-- Sorting commutes with projection: sorting rows by the sources of ORDER BY and then projecting
them has the same result as projecting them and then sorting what is shown. -/
theorem apply_sortRows {σ : Type} {items : List (SelectItem σ)} {aggregates : List Aggregate}
    {p : Projection} (ha : Aggregate.ofSelect items = .ok aggregates)
    (hp : ofSelect items aggregates = .ok p) (hstar : ∀ item ∈ items, item.isStar = false)
    (hnames : (items.filterMap SelectItem.shownName?).Pairwise fun a b ↦ sameName a b = false)
    {orderBy : List SortKey} (horder : ∀ key ∈ orderBy,
      ∃ name ∈ items.filterMap SelectItem.shownName?, sameName name key.column = true)
    (rows : List Row) :
    p.apply (Sorting.sortRows (orderBy.map p.sortKey) rows) =
      ⟨(p.apply rows).columns, Sorting.sortRows orderBy (p.apply rows).rows⟩ := by
  rw [← shownNames_eq ha hp] at hnames horder
  have hall := all_not_mem_outputs ha hp hstar
  have hget : ∀ key ∈ orderBy, ∀ row, (p.projectRow row).get? key.column =
      row.get? (p.sortColumn key.column) :=
    fun key hk row ↦ get?_projectRow hall hnames (horder key hk)
  cases hid : p.isIdentity with
  | true =>
    -- then there are no entries at all, so nothing to sort by
    have hnil := outputs_eq_nil_of_isIdentity hid hall
    have horder : orderBy = [] := List.eq_nil_iff_forall_not_mem.mpr fun key hk ↦ by
      obtain ⟨name, hm, -⟩ := horder key hk
      rw [shownNames, hnil] at hm
      cases hm
    subst horder
    rfl
  | false =>
    have hwithin : ∀ output ∈ p.outputs, Output.Within (fun _ ↦ True) output := by
      intro output ho
      cases output with
      | all => exact absurd ho hall
      | single source name => exact trivial
    simp only [apply, hid, Bool.false_eq_true, if_false, sortRows_map_projectRow hget,
      columns_congr hwithin (Sorting.sortRows _ _) rows]

private def swapped : List (SelectItem Statement) :=
  -- SELECT a AS b, b AS a, SUM(kg) AS total
  [.entry (.column "a") (some "b"), .entry (.column "b") (some "a"),
    .entry (.call "sum" false [.column "kg"]) (some "total")]

theorem apply_sortRows_swapped :
    let p : Projection := ⟨[.single "a" "b", .single "b" "a", .single "SUM(kg)" "total"]⟩
    let rows : List Row := [.ofList [("a", .integer 1), ("b", .text "x"), ("SUM(kg)", .integer 5)],
      .ofList [("a", .integer 2), ("SUM(kg)", .integer 4)],
      .ofList [("a", .integer 3), ("b", .text "x")]]
    let shown : List Row := [.ofList [("b", .integer 3), ("a", .text "x")],
      .ofList [("b", .integer 1), ("a", .text "x"), ("total", .integer 5)],
      .ofList [("b", .integer 2), ("total", .integer 4)]]
    p.apply (Sorting.sortRows [⟨"b", .desc⟩, ⟨"SUM(kg)", .asc⟩] rows) =
        ⟨["b", "a", "total"], shown⟩ ∧
      Sorting.sortRows [⟨"A", .desc⟩, ⟨"total", .asc⟩] (p.apply rows).rows = shown := by
  intro p rows shown
  have hselect : Aggregate.ofSelect swapped = .ok [.new .sum "kg" false (some "total")] := rfl
  have horder : ∀ key ∈ [SortKey.mk "A" .desc, ⟨"total", .asc⟩],
      ∃ name ∈ swapped.filterMap SelectItem.shownName?, sameName name key.column = true := by decide
  have hcommutes := apply_sortRows (p := p) hselect rfl (by decide) (by decide) horder rows
  have ht : Sorting.TransitiveOn (· ∈ (p.apply rows).rows)
      (Sorting.rowOrder [⟨"A", .desc⟩, ⟨"total", .asc⟩]) := by decide +kernel
  have hshown : Sorting.sortRows [⟨"A", .desc⟩, ⟨"total", .asc⟩] (p.apply rows).rows = shown :=
    (Sorting.sortRows_eq_insertionSort ht).trans (by decide +kernel)
  rw [hshown] at hcommutes
  exact ⟨hcommutes, hshown⟩

end Projection

end TableQuery
