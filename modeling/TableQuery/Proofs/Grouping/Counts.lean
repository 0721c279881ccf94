import TableQuery.Proofs.Grouping.Keys
import Mathlib.Algebra.GroupWithZero.Nat

namespace TableQuery

open Grouping

namespace Aggregate

def countRows : Aggregate := .new .count "*" false none

def countOf (column : String) : Aggregate := .new .count column false none

def countDistinct (column : String) : Aggregate := .new .count column true none

def counted (a : Aggregate) (rows : List Row) : ℕ :=
  if a.countsRows then rows.length else (a.values rows).length

def texts (column : String) (rows : List Row) : List String := rows.filterMap (cellKey · column)

variable {a : Aggregate} {rows rows' : List Row}

theorem compute_of_count (h : a.kind = .count) (rows : List Row) :
    a.compute rows = .ok (.ofCount (a.counted rows)) := by
  unfold compute counted
  rw [h]
  cases a.countsRows <;> rfl

theorem map_toText_present (column : String) (rows : List Row) :
    ((rows.filterMap (·.get? column)).filter (!·.isNull)).map Value.toText = texts column rows := by
  rw [present_eq, texts]
  induction rows with
  | nil => rfl
  | cons row rows ih =>
    rw [List.map_cons, List.filter_cons, List.filterMap_cons, ← ih, cellKey, Row.filter_get?,
      Option.filter_some]
    split <;> rfl

theorem map_toText_firstOfEachText (seen : List String) (values : List Value) :
    (firstOfEachText seen values).map Value.toText =
      ((values.map Value.toText).removeAll seen).eraseDups := by
  induction values generalizing seen with
  | nil => simp [firstOfEachText]
  | cons v values ih =>
    rw [firstOfEachText, List.map_cons, List.cons_removeAll]
    by_cases h : v.toText ∈ seen
    · rw [if_pos h, ih, if_neg (by simpa using h)]
    · rw [if_neg h, if_pos (by simpa using h), List.map_cons, ih, List.eraseDups_cons,
        List.removeAll_cons, List.removeAll, List.removeAll, List.filter_comm]

theorem counted_eq (a : Aggregate) (rows : List Row) : a.counted rows =
    if a.countsRows then rows.length
    else if a.distinct then (texts a.column rows).eraseDups.length
    else (texts a.column rows).length := by
  unfold counted values
  rw [← map_toText_present]
  cases a.distinct with
  | false => simp
  | true =>
    have hfirst := map_toText_firstOfEachText []
      ((rows.filterMap (·.get? a.column)).filter (!·.isNull))
    rw [List.removeAll_nil] at hfirst
    rw [← hfirst, List.length_map]
    rfl

theorem texts_append (column : String) (rows rows' : List Row) :
    texts column (rows ++ rows') = texts column rows ++ texts column rows' :=
  List.filterMap_append

theorem counted_perm (h : rows.Perm rows') : a.counted rows = a.counted rows' := by
  have htexts : (texts a.column rows).Perm (texts a.column rows') := h.filterMap _
  rw [counted_eq, counted_eq, h.length_eq, htexts.length_eq,
    (eraseDups_perm fun _ ↦ htexts.mem_iff).length_eq]

theorem counted_nil (a : Aggregate) : a.counted [] = 0 := by
  simp [counted_eq, texts]

theorem counted_append_le (a : Aggregate) (rows rows' : List Row) :
    a.counted (rows ++ rows') ≤ a.counted rows + a.counted rows' := by
  simp only [counted_eq, texts_append, List.length_append]
  split
  · exact le_rfl
  split
  · exact length_eraseDups_append_le _ _
  · exact le_rfl

theorem counted_append (h : a.distinct = false) (rows rows' : List Row) :
    a.counted (rows ++ rows') = a.counted rows + a.counted rows' := by
  simp only [counted_eq, texts_append, List.length_append, h]
  split <;> rfl

theorem counted_flatten_le (a : Aggregate) (blocks : List (List Row)) :
    a.counted blocks.flatten ≤ (blocks.map a.counted).sum := by
  induction blocks with
  | nil => exact (counted_nil a).le
  | cons rows blocks ih =>
    rw [List.flatten_cons, List.map_cons, List.sum_cons]
    exact (counted_append_le a rows _).trans (Nat.add_le_add_left ih _)

theorem counted_flatten (h : a.distinct = false) (blocks : List (List Row)) :
    a.counted blocks.flatten = (blocks.map a.counted).sum := by
  induction blocks with
  | nil => exact counted_nil a
  | cons rows blocks ih =>
    rw [List.flatten_cons, List.map_cons, List.sum_cons, counted_append h, ih]

end Aggregate

namespace Grouping

open Aggregate

def groupCounts (columns : List String) (rows : List Row) (a : Aggregate) : List ℕ :=
  (groups columns rows).map fun group ↦ a.counted group.2

def counts (column : String) : List Aggregate :=
  [countRows, countOf column, countDistinct column]

/-- Grouped rows show the counts of the groups, and these add up to the counts of all rows. -/
structure CountsAddUp (columns : List String) (rows grouped : List Row) (column : String) :
    Prop where
  shown : ∀ a ∈ counts column,
    grouped.map (·.get? a.key) = (groupCounts columns rows a).map (some <| .ofCount ·)
  all : (groupCounts columns rows countRows).sum = rows.length
  present : (groupCounts columns rows (countOf column)).sum = (countOf column).counted rows
  /-- A value may be in several groups. -/
  different : (countDistinct column).counted rows ≤
    (groupCounts columns rows (countDistinct column)).sum

variable {columns : List String} {aggregates : List Aggregate} {rows grouped : List Row}
  {row : Row} {column : String} {a : Aggregate}

theorem kind_of_mem_counts (ha : a ∈ counts column) : a.kind = .count := by
  simp only [counts, List.mem_cons, List.not_mem_nil, or_false] at ha
  rcases ha with rfl | rfl | rfl <;> rfl

theorem keyed_of_mem_counts (ha : a ∈ counts column) : a.Keyed := by
  simp only [counts, List.mem_cons, List.not_mem_nil, or_false] at ha
  rcases ha with rfl | rfl | rfl <;> rfl

theorem keysApart_counts (column : String) : KeysApart [] (counts column) where
  columns _ _ := List.not_mem_nil
  distinct a ha b hb _ hda _ hcolumn := by
    simp only [counts, List.mem_cons, List.not_mem_nil, or_false] at ha hb
    have ha : a.column = column := by
      rcases ha with rfl | rfl | rfl
      · cases hda
      · cases hda
      · rfl
    have hlen : b.column.length ≤ column.length + 1 := by
      rcases hb with rfl | rfl | rfl
      · exact Nat.le_add_left 1 _
      · exact Nat.le_succ _
      · exact Nat.le_succ _
    have hprefix : "DISTINCT ".length = 9 := rfl
    rw [hcolumn, String.length_append, ha] at hlen
    omega

theorem get?_key_of_counts (h : Shows columns (counts column) rows row) (ha : a ∈ counts column) :
    row.get? a.key = some (.ofCount (a.counted rows)) := by
  have hok (b : Aggregate) (hb : b ∈ counts column) :=
    compute_of_count (kind_of_mem_counts hb) rows
  refine get?_key_of_shows h ha fun b hb hkey ↦ ?_
  have hwrites : Writes [] (counts column) rows a.key (.ofCount (b.counted rows)) :=
    hkey ▸ .aggregate hb (hok b hb)
  rw [hok b hb, (keysApart_counts column).noneOverwritten (fun _ ↦ keyed_of_mem_counts) rows _ _ _
    hwrites (.aggregate ha (hok a ha))]

theorem counted_flatten_groups (a : Aggregate) (columns : List String) (rows : List Row) :
    a.counted ((groups columns rows).map Prod.snd).flatten = a.counted rows :=
  counted_perm (List.flatMap_def ▸ groups_perm columns rows)

theorem sum_groupCounts (h : a.distinct = false) (columns : List String) (rows : List Row) :
    (groupCounts columns rows a).sum = a.counted rows := by
  rw [← counted_flatten_groups a columns, counted_flatten h, List.map_map]
  rfl

theorem counted_le_sum_groupCounts (a : Aggregate) (columns : List String) (rows : List Row) :
    a.counted rows ≤ (groupCounts columns rows a).sum := by
  rw [← counted_flatten_groups a columns]
  refine (counted_flatten_le a _).trans_eq ?_
  rw [List.map_map]
  rfl

theorem countsAddUp (hrows : rows ≠ [])
    (h : aggregate columns (counts column) rows = .ok grouped) :
    CountsAddUp columns rows grouped column where
  shown a ha := by
    have hshown := (forall₂_shows hrows h).imp fun _ _ hs ↦ get?_key_of_counts hs ha
    rw [groupCounts, List.map_map, ← List.forall₂_eq_eq_eq, List.forall₂_map_left_iff,
      List.forall₂_map_right_iff]
    exact hshown.flip
  all := sum_groupCounts rfl columns rows
  present := sum_groupCounts rfl columns rows
  different := counted_le_sum_groupCounts _ columns rows

theorem counted_countDistinct (h : column ≠ "*") (rows : List Row) :
    (countDistinct column).counted rows =
      (rows.map (cellKey · column)).reduceOption.eraseDups.length := by
  have hrows : (countDistinct column).countsRows = false := by
    simpa [countsRows, countDistinct] using h
  rw [counted_eq, hrows, List.reduceOption, List.filterMap_map]
  rfl

/-- GROUP BY and COUNT tell the same values apart, but NULL makes a group and is not counted. -/
theorem length_groups_singleton (h : column ≠ "*") (rows : List Row) :
    (groups [column] rows).length = (countDistinct column).counted rows +
      if ∃ row ∈ rows, row.get column = .null then 1 else 0 := by
  have hkeys : rows.map (key [column]) = (rows.map (cellKey · column)).map ([·]) := by
    rw [List.map_map]
    rfl
  rw [length_groups, hkeys, eraseDups_map List.singleton_injective, List.length_map,
    length_eraseDups_reduceOption, ← counted_countDistinct h]
  simp only [List.mem_map, cellKey_eq_none_iff]

theorem exists_mapM_groupRow (h : ∀ a ∈ aggregates, a.kind = .count) (columns : List String)
    (rows : List Row) : ∃ grouped,
      ((groups columns rows).mapM fun group ↦ groupRow columns aggregates group.2) =
        .ok grouped := by
  refine decides_groups.exists_ok fun a ha hadds ↦ ?_
  rw [Aggregate.Adds, h a ha] at hadds
  rcases hadds with hsum | havg
  · cases hsum
  · cases havg

/-- Groups and counts of non-empty rows agree. -/
theorem aggregate_counts {rows : List Row} (hrows : rows ≠ []) :
    (∀ column, ∀ a ∈ counts column, a.compute rows = .ok (.ofCount (a.counted rows))) ∧
      (∀ column ≠ "*", ∀ aggregates grouped, aggregate [column] aggregates rows = .ok grouped →
        grouped.length = (countDistinct column).counted rows +
          if ∃ row ∈ rows, row.get column = .null then 1 else 0) ∧
      ∀ columns column, (∀ c ∈ columns, ∃ row ∈ rows, row.contains c = true) →
        ∃ grouped, aggregate columns (counts column) rows = .ok grouped ∧
          CountsAddUp columns rows grouped column := by
  refine ⟨fun column a ha ↦ compute_of_count (kind_of_mem_counts ha) rows,
    fun column hstar aggregates grouped h ↦ ?_, fun columns column hcolumns ↦ ?_⟩
  · rw [← (forall₂_shows hrows h).length_eq, length_groups_singleton hstar]
  · obtain ⟨grouped, h⟩ : ∃ grouped, aggregate columns (counts column) rows = .ok grouped := by
      rw [aggregate_eq_mapM hrows hcolumns]
      exact exists_mapM_groupRow (fun _ ↦ kind_of_mem_counts) columns rows
    exact ⟨grouped, h, countsAddUp hrows h⟩

private def shades : List Row :=
  [.ofList [("hue", .text "7"), ("kg", .integer 2)], .ofList [("kg", .integer 2)],
    .ofList [("HUE", .integer 7), ("kg", .null)], .ofList [("hue", .null), ("kg", .integer 5)],
    .ofList [("hue", .boolean true), ("kg", .integer 2)]]

theorem aggregate_counts_shades : (countDistinct "hue").counted shades = 2 ∧
    (countDistinct "kg").compute shades = .ok (.integer 2) ∧
      ∃ grouped, aggregate ["hue"] (counts "kg") shades = .ok grouped ∧ grouped.length = 2 + 1 ∧
        CountsAddUp ["hue"] shades grouped "kg" := by
  have hcolumns : ∀ c ∈ ["hue"], ∃ row ∈ shades, row.contains c = true := by decide
  have hnull : ∃ row ∈ shades, row.get "hue" = .null := by decide
  have hhues : (countDistinct "hue").counted shades = 2 := by decide
  have hrows : shades ≠ [] := List.cons_ne_nil _ _
  obtain ⟨hcompute, hlength, hgroups⟩ := aggregate_counts hrows
  obtain ⟨grouped, hok, hadds⟩ := hgroups ["hue"] "kg" hcolumns
  refine ⟨hhues, ?_, grouped, hok, ?_, hadds⟩
  · rw [hcompute "kg" _ (by simp [counts])]
    decide
  · rw [hlength "hue" (by decide) _ _ hok, hhues, if_pos hnull]

end Grouping

end TableQuery
