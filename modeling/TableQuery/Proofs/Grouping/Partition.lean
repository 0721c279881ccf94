import TableQuery.Proofs.Grouping.Totals

namespace TableQuery.Grouping

structure Partitions (columns : List String) (rows : List Row)
    (groups : List (GroupKey × List Row)) : Prop where
  /-- A group holds exactly the rows with its key, in their order, and at least one. -/
  members : ∀ group ∈ groups, group.2 = rows.filter (key columns · == group.1) ∧ group.2 ≠ []
  /-- The groups stand in the order in which their keys appear first. -/
  ordered : groups.Pairwise fun a b ↦
    (rows.map (key columns)).idxOf a.1 < (rows.map (key columns)).idxOf b.1
  perm : (groups.flatMap Prod.snd).Perm rows
  disjoint : ∀ a ∈ groups, ∀ b ∈ groups, ∀ row ∈ a.2, row ∈ b.2 → a = b
  null_apart : ∀ group ∈ groups, ∀ a ∈ group.2, ∀ b ∈ group.2, ∀ column ∈ columns,
    a.get column = .null → b.get column ≠ .text "NULL"

/-- A row shows a group if it has the GROUP BY columns of the first row of the group, and then the
value of each aggregate over the group. -/
def Shows (columns : List String) (aggregates : List Aggregate) (group : List Row) (row : Row) :
    Prop :=
  ∃ first values, group.head? = some first ∧
    List.Forall₂ (fun a v ↦ Aggregate.compute a group = .ok v) aggregates values ∧
      row = .ofList (columns.map (fun column ↦ (column, first.get column)) ++
        (aggregates.map Aggregate.key).zip values)

def FirstFault (aggregates : List Aggregate) (groups : List (List Row)) (fault : Fault) : Prop :=
  ∃ before group after done a rest,
    groups = before ++ group :: after ∧ aggregates = done ++ a :: rest ∧
      (∀ g ∈ before, ∀ b ∈ aggregates, ∃ v, b.compute g = .ok v) ∧
        (∀ b ∈ done, ∃ v, b.compute group = .ok v) ∧ a.compute group = .error fault

theorem addRow_perm (k : GroupKey) (row : Row) (groups : List (GroupKey × List Row)) :
    ((addRow k row groups).flatMap Prod.snd).Perm (groups.flatMap Prod.snd ++ [row]) := by
  induction groups with
  | nil => simp [addRow]
  | cons group groups ih =>
    rw [addRow]
    split
    · have hswap : ([row] ++ groups.flatMap Prod.snd).Perm (groups.flatMap Prod.snd ++ [row]) :=
        List.perm_append_comm
      simpa using hswap.append_left group.2
    · simpa using ih.append_left group.2

theorem groups_perm (columns : List String) (rows : List Row) :
    ((groups columns rows).flatMap Prod.snd).Perm rows := by
  induction rows using List.reverseRecOn with
  | nil => exact .refl _
  | append_singleton rows row ih =>
    have hstep : groups columns (rows ++ [row]) =
        addRow (key columns row) row (groups columns rows) := by
      simp only [groups, List.foldl_append, List.foldl_cons, List.foldl_nil]
    rw [hstep]
    exact (addRow_perm _ _ _).trans (ih.append_right [row])

variable {columns : List String} {aggregates : List Aggregate} {rows : List Row}

theorem cellKey_eq_none_iff {row : Row} {column : String} :
    cellKey row column = none ↔ row.get column = .null := by
  rw [cellKey, Row.filter_get?, Option.map_eq_none_iff]
  cases row.get column <;> simp [Value.isNull]

theorem cellKey_ne_of_null {a b : Row} {column : String} (ha : a.get column = .null)
    (hb : b.get column = .text "NULL") : cellKey a column ≠ cellKey b column := by
  intro h
  have hnone := cellKey_eq_none_iff.mp (h.symm.trans (cellKey_eq_none_iff.mpr ha))
  rw [hb] at hnone
  cases hnone

theorem mem_groups {group : GroupKey × List Row} : group ∈ groups columns rows ↔
    group.1 ∈ rows.map (key columns) ∧ group.2 = rows.filter (key columns · == group.1) := by
  rw [groups_eq, List.mem_map]
  constructor
  · rintro ⟨k, hk, rfl⟩
    exact ⟨List.mem_eraseDups.mp hk, rfl⟩
  · rintro ⟨hk, heq⟩
    exact ⟨group.1, List.mem_eraseDups.mpr hk, Prod.ext rfl heq.symm⟩

theorem key_of_mem_groups {group : GroupKey × List Row} (hg : group ∈ groups columns rows)
    {row : Row} (hr : row ∈ group.2) : key columns row = group.1 := by
  rw [(mem_groups.mp hg).2, List.mem_filter] at hr
  exact eq_of_beq hr.2

theorem partitions_groups (columns : List String) (rows : List Row) :
    Partitions columns rows (groups columns rows) where
  members group hg := by
    obtain ⟨hk, heq⟩ := mem_groups.mp hg
    obtain ⟨row, hr, hk⟩ := List.mem_map.mp hk
    refine ⟨heq, List.ne_nil_of_mem (a := row) ?_⟩
    rw [heq]
    exact List.mem_filter.mpr ⟨hr, beq_iff_eq.mpr hk⟩
  ordered := by
    rw [groups_eq]
    exact List.pairwise_map.mpr (pairwise_idxOf_eraseDups _)
  perm := groups_perm columns rows
  disjoint a ha b hb row hra hrb := by
    have hkey := (key_of_mem_groups ha hra).symm.trans (key_of_mem_groups hb hrb)
    refine Prod.ext hkey ?_
    rw [(mem_groups.mp ha).2, (mem_groups.mp hb).2, hkey]
  null_apart group hg a ha b hb column hc hnull htext := by
    have hkey := (key_of_mem_groups hg ha).trans (key_of_mem_groups hg hb).symm
    exact cellKey_ne_of_null hnull htext (List.map_inj_left.mp hkey column hc)

def valuesOf (aggregates : List Aggregate) (group : List Row) : Except Fault (List Value) :=
  aggregates.mapM fun a ↦ a.compute group

theorem foldlM_addAggregate (row : Row) : aggregates.foldlM (addAggregate rows) row =
    (valuesOf aggregates rows).map fun values ↦
      ((aggregates.map Aggregate.key).zip values).foldl
        (fun row column ↦ row.insert column.1 column.2) row := by
  induction aggregates generalizing row with
  | nil => rfl
  | cons a aggregates ih =>
    rw [List.foldlM_cons, addAggregate_eq]
    cases ha : a.compute rows with
    | error fault =>
      have hvalues : valuesOf (a :: aggregates) rows = .error fault :=
        mapM_cons_error (f := fun a : Aggregate ↦ a.compute rows) ha aggregates
      rw [hvalues]
      rfl
    | ok v =>
      have hvalues : valuesOf (a :: aggregates) rows = (valuesOf aggregates rows).map (v :: ·) :=
        mapM_cons_ok (f := fun a : Aggregate ↦ a.compute rows) ha aggregates
      rw [hvalues]
      refine (ih (row.insert a.key v)).trans ?_
      cases valuesOf aggregates rows <;> rfl

theorem groupRow_cons (first : Row) (rest : List Row) :
    groupRow columns aggregates (first :: rest) =
      (valuesOf aggregates (first :: rest)).map fun values ↦
        .ofList (columns.map (fun column ↦ (column, first.get column)) ++
          (aggregates.map Aggregate.key).zip values) := by
  have hkeys : keyRow columns (first :: rest) =
      .ofList (columns.map fun column ↦ (column, first.get column)) := by
    rw [keyRow, Row.ofList, List.foldl_map]
  rw [groupRow, foldlM_addAggregate, hkeys]
  simp only [Row.ofList, List.foldl_append]

theorem groupRow_eq_ok_iff {group : List Row} (hg : group ≠ []) {row : Row} :
    groupRow columns aggregates group = .ok row ↔ Shows columns aggregates group row := by
  obtain ⟨first, rest, rfl⟩ := List.exists_cons_of_ne_nil hg
  simp only [groupRow_cons, map_eq_ok, valuesOf, mapM_eq_ok_iff, Shows, List.head?_cons,
    Option.some.injEq]
  constructor
  · rintro ⟨values, hv, rfl⟩
    exact ⟨first, values, rfl, hv, rfl⟩
  · rintro ⟨_, values, rfl, hv, rfl⟩
    exact ⟨values, hv, rfl⟩

theorem exists_groupRow_iff {group : List Row} :
    (∃ row, groupRow columns aggregates group = .ok row) ↔
      ∀ a ∈ aggregates, ∃ v, a.compute group = .ok v := by
  rw [groupRow, foldlM_addAggregate, ← exists_mapM_eq_ok_iff, ← valuesOf]
  cases valuesOf aggregates group <;> simp [Except.map]

theorem groupRow_eq_error_iff {group : List Row} {fault : Fault} :
    groupRow columns aggregates group = .error fault ↔
      ∃ done a rest, aggregates = done ++ a :: rest ∧
        (∀ b ∈ done, ∃ v, b.compute group = .ok v) ∧ a.compute group = .error fault := by
  rw [groupRow, foldlM_addAggregate, map_eq_error, valuesOf, mapM_eq_error_iff]

theorem mapM_groupRow_eq_ok_iff {groups : List (GroupKey × List Row)}
    (hne : ∀ group ∈ groups, group.2 ≠ []) {grouped : List Row} :
    (groups.mapM fun group ↦ groupRow columns aggregates group.2) = .ok grouped ↔
      List.Forall₂ (fun group row ↦ Shows columns aggregates group.2 row) groups grouped := by
  rw [mapM_eq_ok_iff]
  induction groups generalizing grouped with
  | nil => simp
  | cons group groups ih =>
    obtain ⟨hg, hne⟩ := List.forall_mem_cons.mp hne
    simp only [List.forall₂_cons_left_iff, groupRow_eq_ok_iff hg, ih hne]

theorem mapM_groups_eq_ok_iff {grouped : List Row} :
    ((groups columns rows).mapM fun group ↦ groupRow columns aggregates group.2) = .ok grouped ↔
      List.Forall₂ (fun group row ↦ Shows columns aggregates group.2 row) (groups columns rows)
        grouped :=
  mapM_groupRow_eq_ok_iff fun group hg ↦ ((partitions_groups columns rows).members group hg).2

theorem mapM_groupRow_eq_error_iff {groups : List (GroupKey × List Row)} {fault : Fault} :
    (groups.mapM fun group ↦ groupRow columns aggregates group.2) = .error fault ↔
      FirstFault aggregates (groups.map Prod.snd) fault := by
  have hmap : (groups.mapM fun group ↦ groupRow columns aggregates group.2) =
      (groups.map Prod.snd).mapM (groupRow columns aggregates) := by
    rw [List.mapM_map]
    rfl
  rw [hmap, mapM_eq_error_iff]
  simp only [exists_groupRow_iff, groupRow_eq_error_iff, FirstFault]
  constructor
  · rintro ⟨before, group, after, hg, hb, done, a, rest, ha, hd, hf⟩
    exact ⟨before, group, after, done, a, rest, hg, ha, hb, hd, hf⟩
  · rintro ⟨before, group, after, done, a, rest, hg, ha, hb, hd, hf⟩
    exact ⟨before, group, after, hg, hb, done, a, rest, ha, hd, hf⟩

theorem aggregate_eq_mapM (hrows : rows ≠ [])
    (hcolumns : ∀ column ∈ columns, ∃ row ∈ rows, row.contains column = true) :
    aggregate columns aggregates rows =
      (groups columns rows).mapM fun group ↦ groupRow columns aggregates group.2 := by
  obtain ⟨_, hcheck⟩ := decides_checkColumns.exists_ok hcolumns
  rw [aggregate_of_ne_nil hrows, hcheck]
  rfl

theorem forall₂_shows (hrows : rows ≠ []) {grouped : List Row}
    (h : aggregate columns aggregates rows = .ok grouped) :
    List.Forall₂ (fun group row ↦ Shows columns aggregates group.2 row) (groups columns rows)
      grouped := by
  rw [aggregate_of_ne_nil hrows] at h
  obtain ⟨_, -, h⟩ := bind_eq_ok.mp h
  exact mapM_groups_eq_ok_iff.mp h

/-- GROUP BY is exactly a partition of the rows: aggregation makes one row of each group, or fails
with the fault of the first aggregate that fails. -/
theorem aggregate_partition {columns : List String} {aggregates : List Aggregate} {rows : List Row}
    (hrows : rows ≠ [])
    (hcolumns : ∀ column ∈ columns, ∃ row ∈ rows, row.contains column = true) :
    ∃ groups, Partitions columns rows groups ∧
      (∀ grouped, aggregate columns aggregates rows = .ok grouped ↔
        List.Forall₂ (fun group row ↦ Shows columns aggregates group.2 row) groups grouped) ∧
      ∀ fault, aggregate columns aggregates rows = .error fault ↔
        FirstFault aggregates (groups.map Prod.snd) fault := by
  have hp := partitions_groups columns rows
  refine ⟨groups columns rows, hp, fun grouped ↦ ?_, fun fault ↦ ?_⟩
  · rw [aggregate_eq_mapM hrows hcolumns]
    exact mapM_groupRow_eq_ok_iff fun group hg ↦ (hp.members group hg).2
  · rw [aggregate_eq_mapM hrows hcolumns]
    exact mapM_groupRow_eq_error_iff

private def hues : List Row :=
  [.ofList [("hue", .null)], .ofList [("hue", .text "NULL")], .ofList [("kg", .integer 2)],
    .ofList [("HUE", .integer 7), ("kg", .integer 3)], .ofList [("hue", .text "7")]]

theorem aggregate_partition_hues : ∃ groups, Partitions ["hue"] hues groups ∧
    List.Forall₂ (fun group row ↦ Shows ["hue"] [.new .count "*" false none] group.2 row) groups
      [.ofList [("hue", .null), ("COUNT(*)", .integer 2)],
        .ofList [("hue", .text "NULL"), ("COUNT(*)", .integer 1)],
        .ofList [("hue", .integer 7), ("COUNT(*)", .integer 2)]] := by
  have hcolumns : ∀ column ∈ ["hue"], ∃ row ∈ hues, row.contains column = true := by decide
  obtain ⟨groups, hp, hok, -⟩ := aggregate_partition (List.cons_ne_nil _ _) hcolumns
  exact ⟨groups, hp, (hok _).mp rfl⟩

end TableQuery.Grouping
