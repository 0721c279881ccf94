import TableQuery.Proofs.Grouping.Counts

namespace TableQuery

/-- What a value reads as: whether it is NULL, and its canonical text. -/
def Value.reading (v : Value) : Bool × String := (v.isNull, v.toText)

def Row.readings (row : Row) : List (String × (Bool × String)) :=
  row.columns.map fun (name, v) ↦ (name, v.reading)

theorem Row.readings_ofList (columns : List (String × Value)) : (Row.ofList columns).readings =
    Entries.ofList (columns.map fun (name, v) ↦ (name, v.reading)) := by
  rw [readings, columns_ofList, Entries.map_ofList]

namespace Grouping

variable {columns : List String} {aggregates : List Aggregate} {rows rows' group group' : List Row}
  {row row' : Row}

theorem reading_eq_of_cellKey {column : String} (h : cellKey row column = cellKey row' column) :
    (row.get column).reading = (row'.get column).reading := by
  simp only [cellKey, Row.filter_get?, Option.filter_some] at h
  unfold Value.reading
  cases hv : row.get column <;> cases hw : row'.get column <;> simp_all [Value.isNull]

theorem readings_eq_of_shows (hcounts : ∀ a ∈ aggregates, a.kind = .count)
    (hperm : group.Perm group') {k : GroupKey} (hkey : ∀ row ∈ group, key columns row = k)
    (h : Shows columns aggregates group row) (h' : Shows columns aggregates group' row') :
    row.readings = row'.readings := by
  obtain ⟨first, values, hf, hv, rfl⟩ := h
  obtain ⟨first', values', hf', hv', rfl⟩ := h'
  have hfirst : key columns first = key columns first' := by
    rw [hkey first (List.mem_of_mem_head? hf),
      hkey first' (hperm.mem_iff.mpr (List.mem_of_mem_head? hf'))]
  have hvalues : values = values' := by
    have hcompute : aggregates.mapM (·.compute group) = aggregates.mapM (·.compute group') := by
      refine mapM_congr fun a ha ↦ ?_
      rw [Aggregate.compute_of_count (hcounts a ha), Aggregate.compute_of_count (hcounts a ha),
        Aggregate.counted_perm hperm]
    rw [mapM_eq_ok_iff.mpr hv, mapM_eq_ok_iff.mpr hv'] at hcompute
    exact Except.ok.inj hcompute
  rw [Row.readings_ofList, Row.readings_ofList, List.map_append, List.map_append, hvalues,
    List.map_map, List.map_map]
  congr 2
  refine List.map_congr_left fun column hc ↦ ?_
  exact congrArg (column, ·) (reading_eq_of_cellKey (List.map_inj_left.mp hfirst column hc))

theorem checkColumns_perm (h : rows.Perm rows') (columns : List String) :
    checkColumns columns rows = checkColumns columns rows' := by
  have hany (column : String) : rows.any (·.contains column) = rows'.any (·.contains column) :=
    h.any_eq
  simp only [checkColumns, hany]

theorem groups_perm_groups (h : rows.Perm rows') (columns : List String) :
    ((rows.map (key columns)).eraseDups.map fun k ↦
      (k, rows'.filter fun row ↦ key columns row == k)).Perm (groups columns rows') := by
  rw [groups_eq]
  exact (eraseDups_perm fun _ ↦ (h.map _).mem_iff).map _

theorem readings_perm_of_shows (hcounts : ∀ a ∈ aggregates, a.kind = .count)
    (h : rows.Perm rows') {grouped grouped' : List Row}
    (hs : List.Forall₂ (fun group row ↦ Shows columns aggregates group.2 row)
      (groups columns rows) grouped)
    (hs' : List.Forall₂ (fun group row ↦ Shows columns aggregates group.2 row)
      (groups columns rows') grouped') :
    (grouped.map Row.readings).Perm (grouped'.map Row.readings) := by
  -- the rows of the second run, in the order of the groups of the first one
  obtain ⟨moved, hmoved, hperm⟩ := List.perm_comp_forall₂ (groups_perm_groups h columns) hs'
  rw [groups_eq, List.forall₂_map_left_iff] at hs
  rw [List.forall₂_map_left_iff] at hmoved
  have hsame : grouped.map Row.readings = moved.map Row.readings := by
    refine map_eq_map_of_forall₂ hs hmoved fun k row row' hrow hrow' ↦ ?_
    refine readings_eq_of_shows hcounts (h.filter _) (k := k) (fun member hm ↦ ?_) hrow hrow'
    exact eq_of_beq (List.mem_filter.mp hm).2
  rw [hsame]
  exact hperm.map _

/-- Rows in another order have the same grouped counts, in another order, or fail with the same
fault. -/
theorem aggregate_perm {rows rows' : List Row} (h : rows.Perm rows') {aggregates : List Aggregate}
    (hcounts : ∀ a ∈ aggregates, a.kind = .count) (columns : List String) :
    Alike (fun grouped grouped' ↦ (grouped.map Row.readings).Perm (grouped'.map Row.readings))
      (aggregate columns aggregates rows) (aggregate columns aggregates rows') := by
  by_cases hrows : rows = []
  · subst hrows
    rw [h.nil_eq]
    cases aggregate columns aggregates rows' with
    | ok grouped => exact .ok (.refl _)
    | error fault => exact .error fault
  · have hrows' : rows' ≠ [] := fun hnil ↦ hrows (hnil ▸ h).eq_nil
    rw [aggregate_of_ne_nil hrows, aggregate_of_ne_nil hrows', ← checkColumns_perm h]
    refine Alike.bind (.of_eq rfl) fun _ _ _ ↦ ?_
    obtain ⟨grouped, hok⟩ := exists_mapM_groupRow hcounts columns rows
    obtain ⟨grouped', hok'⟩ := exists_mapM_groupRow hcounts columns rows'
    rw [hok, hok']
    exact .ok (readings_perm_of_shows hcounts h (mapM_groups_eq_ok_iff.mp hok)
      (mapM_groups_eq_ok_iff.mp hok'))

theorem aggregate_perm_reverse :
    Alike (fun grouped grouped' ↦ (grouped.map Row.readings).Perm (grouped'.map Row.readings))
      (.ok [.ofList [("hue", .text "7"), ("COUNT(DISTINCT kg)", .integer 2)],
        .ofList [("hue", .null), ("COUNT(DISTINCT kg)", .integer 1)]])
      (.ok [.ofList [("hue", .null), ("COUNT(DISTINCT kg)", .integer 1)],
        .ofList [("hue", .integer 7), ("COUNT(DISTINCT kg)", .integer 2)]]) := by
  have hperm := List.reverse_perm [Row.ofList [("hue", .text "7"), ("kg", .integer 2)],
    .ofList [("HUE", .integer 7), ("kg", .integer 3)], .ofList [("kg", .integer 5)]]
  have hcounts : ∀ a ∈ [Aggregate.new .count "kg" true none], a.kind = .count := by decide
  exact aggregate_perm hperm.symm hcounts ["hue"]

end Grouping

end TableQuery
