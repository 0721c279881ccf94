import TableQuery.Proofs.Grouping.Partition
import TableQuery.Proofs.Projection.Executable
import TableQuery.Proofs.Row.Casing
import TableQuery.Proofs.Row.History

namespace TableQuery

theorem AggregateKind.name_injective : Function.Injective name := by
  intro a b h
  cases a <;> cases b <;> first | rfl | simp [name] at h

namespace Aggregate

variable {a b : Aggregate} {rows : List Row}

def operand (a : Aggregate) : String := if a.distinct then "DISTINCT " ++ a.column else a.column

/-- The key is that of the call, as it is for all aggregates of a SELECT list. -/
def Keyed (a : Aggregate) : Prop := a.key = keyOf a.kind a.column a.distinct

theorem keyed_of_mem_ofSelect {σ : Type} {items : List (SelectItem σ)}
    {aggregates : List Aggregate} (h : ofSelect items = .ok aggregates) (ha : a ∈ aggregates) :
    a.Keyed := by
  obtain ⟨_, _, _, _, -, hcall⟩ := (mem_ofSelect h).mp ha
  obtain ⟨_, _, -, -, rfl⟩ := ofCall_eq_ok_iff.mp hcall
  rfl

theorem Keyed.toList_key (h : a.Keyed) :
    a.key.toList = a.kind.name.toList ++ '(' :: (a.operand.toList ++ [')']) := by
  rw [h]
  cases hd : a.distinct <;> simp [keyOf, operand, hd, String.toList_append]

theorem Keyed.key_eq_iff (ha : a.Keyed) (hb : b.Keyed) :
    a.key = b.key ↔ a.kind = b.kind ∧ a.operand = b.operand := by
  have hname (k : AggregateKind) (l : List Char) :
      (k.name.toList ++ '(' :: l).takeWhile (· ≠ '(') = k.name.toList := by
    cases k <;> rfl
  rw [← String.toList_inj, ha.toList_key, hb.toList_key]
  constructor
  · intro h
    have hkind := congrArg (List.takeWhile (· ≠ '(')) h
    rw [hname, hname, String.toList_inj] at hkind
    have hkind := AggregateKind.name_injective hkind
    rw [hkind, List.append_cancel_left_eq, List.cons.injEq, List.append_cancel_right_eq,
      String.toList_inj] at h
    exact ⟨hkind, h.2⟩
  · rintro ⟨hkind, hoperand⟩
    rw [hkind, hoperand]

theorem compute_eq_of_eq (hk : a.kind = b.kind) (hc : a.column = b.column)
    (hd : a.distinct = b.distinct) : a.compute rows = b.compute rows := by
  cases a
  cases b
  cases hk
  cases hc
  cases hd
  rfl

theorem values_of_one {row : Row} (h : row.get? a.column = some (.integer 1)) :
    a.values [row] = [.integer 1] := by
  simp [values, h, Value.isNull, firstOfEachText]

theorem values_of_null {row : Row} (h : row.get a.column = .null) : a.values [row] = [] := by
  rw [values, present_eq, List.map_singleton, h]
  cases a.distinct <;> rfl

theorem total_one : a.total [.integer 1] = .ok (.add .zero (.ofInt 1)) := rfl

theorem compute_ne_null {row : Row} (h : a.values [row] = [.integer 1]) :
    a.compute [row] ≠ .ok .null := by
  unfold compute
  rw [h]
  cases a.countsRows
  · cases a.kind <;> simp [total_one, Value.ofCount, least, greatest, Except.map]
  · simp [Value.ofCount]

theorem compute_ne_of_nil {row : Row} (hk : a.kind = b.kind) (ha : a.values [row] = [.integer 1])
    (hb : b.values [row] = []) (hcount : b.countsRows = false) :
    a.compute [row] ≠ b.compute [row] := by
  have hne {x : Binary64} (hx : x.isZero = false) : x ≠ .zero := by
    rintro rfl
    cases hx
  have hsum : Binary64.add .zero (.ofInt 1) ≠ .zero := hne (by decide +kernel)
  have havg : (Binary64.add .zero (.ofInt 1)).div (.ofNat 1) ≠ .zero := hne (by decide +kernel)
  have hzero : b.total [] = .ok .zero := rfl
  have hcounts : Value.ofCount 1 ≠ .ofCount 0 := by decide
  have hrows {k : AggregateKind} (hkind : b.kind = k) (h : k ≠ .count) :
      a.countsRows = false := by
    simp [countsRows, hk, hkind, h]
  unfold compute
  rw [ha, hb, hcount, hk]
  cases hkind : b.kind with
  | count => cases a.countsRows <;> simpa using hcounts
  | sum => simpa [hrows hkind (by decide), total_one, hzero, Except.map] using hsum
  | avg => simpa [hrows hkind (by decide), total_one, hzero, Except.map] using havg
  | min => simp [hrows hkind (by decide), least]
  | max => simp [hrows hkind (by decide), greatest]

end Aggregate

namespace Grouping

/-- What aggregation writes into the row of a group: the value of the group in each GROUP BY column,
and under the key of each aggregate the value of this aggregate. -/
inductive Writes (columns : List String) (aggregates : List Aggregate) (group : List Row) :
    String → Value → Prop
  | column {column : String} {first : Row} (hc : column ∈ columns)
      (hf : group.head? = some first) : Writes columns aggregates group column (first.get column)
  | aggregate {a : Aggregate} {v : Value} (ha : a ∈ aggregates)
      (hv : a.compute group = .ok v) : Writes columns aggregates group a.key v

/-- Each grouped row holds all that is written into it. -/
def KeepsAll (columns : List String) (aggregates : List Aggregate) (rows grouped : List Row) :
    Prop :=
  List.Forall₂ (fun group row ↦ ∀ name v, Writes columns aggregates group.2 name v →
    row.get? name = some v) (groups columns rows) grouped

/-- Different values are written under different names. -/
def NoneOverwritten (columns : List String) (aggregates : List Aggregate) (group : List Row) :
    Prop :=
  ∀ name v w, Writes columns aggregates group name v → Writes columns aggregates group name w →
    v = w

structure KeysApart (columns : List String) (aggregates : List Aggregate) : Prop where
  columns : ∀ a ∈ aggregates, a.key ∉ columns
  /-- No aggregate stands beside one of the same kind whose column is named as if it were this
  aggregate with DISTINCT. -/
  distinct : ∀ a ∈ aggregates, ∀ b ∈ aggregates, a.kind = b.kind → a.distinct = true →
    b.distinct = false → b.column ≠ "DISTINCT " ++ a.column

variable {columns : List String} {aggregates : List Aggregate} {group rows : List Row} {row : Row}
  {name : String} {v : Value}

theorem mem_zip_iff {values : List Value}
    (hv : List.Forall₂ (fun a v ↦ Aggregate.compute a group = .ok v) aggregates values) :
    (name, v) ∈ (aggregates.map Aggregate.key).zip values ↔
      ∃ a ∈ aggregates, a.key = name ∧ a.compute group = .ok v := by
  induction hv with
  | nil => simp
  | cons ha _ ih => simp [ih, ha, eq_comm]

theorem writes_iff {first : Row} {values : List Value} (hf : group.head? = some first)
    (hv : List.Forall₂ (fun a v ↦ Aggregate.compute a group = .ok v) aggregates values) :
    Writes columns aggregates group name v ↔
      (name, v) ∈ columns.map (fun column ↦ (column, first.get column)) ++
        (aggregates.map Aggregate.key).zip values := by
  rw [List.mem_append, mem_zip_iff hv, List.mem_map]
  constructor
  · rintro (⟨hc, hf'⟩ | ⟨ha, hv⟩)
    · cases hf.symm.trans hf'
      exact .inl ⟨_, hc, rfl⟩
    · exact .inr ⟨_, ha, rfl, hv⟩
  · rintro (⟨column, hc, heq⟩ | ⟨a, ha, rfl, hv⟩)
    · cases heq
      exact .column hc hf
    · exact .aggregate ha hv

theorem keeps_iff (h : Shows columns aggregates group row) :
    (∀ name v, Writes columns aggregates group name v → row.get? name = some v) ↔
      NoneOverwritten columns aggregates group := by
  obtain ⟨first, values, hf, hv, rfl⟩ := h
  simp only [NoneOverwritten, writes_iff hf hv]
  exact Row.forall_get?_ofList_iff

theorem get?_key_of_shows (h : Shows columns aggregates group row) {a : Aggregate}
    (ha : a ∈ aggregates)
    (hsame : ∀ b ∈ aggregates, b.key = a.key → b.compute group = .ok v) :
    row.get? a.key = some v := by
  obtain ⟨first, values, hf, hv, rfl⟩ := h
  -- the aggregates are written last, so one that has the key has written the value
  have hkey : a.key ∈ Entries.names ((aggregates.map Aggregate.key).zip values) := by
    have hlen : (aggregates.map Aggregate.key).length ≤ values.length := by
      rw [List.length_map, hv.length_eq]
    rw [Entries.names, List.map_fst_zip hlen]
    exact List.mem_map_of_mem ha
  obtain ⟨w, hw⟩ := Entries.exists_lookup_reverse hkey
  obtain ⟨b, hb, hbkey, hbw⟩ := (mem_zip_iff hv).mp (Entries.mem_of_lookup_reverse hw)
  have hvw := Except.ok.inj ((hsame b hb hbkey).symm.trans hbw)
  rw [Row.get?_ofList (by rw [Entries.names, List.map_append]; exact List.mem_append_right _ hkey),
    List.reverse_append, List.lookup_append, hw, hvw]
  rfl

theorem keepsAll_iff_noneOverwritten (hrows : rows ≠ []) {grouped : List Row}
    (h : aggregate columns aggregates rows = .ok grouped) :
    KeepsAll columns aggregates rows grouped ↔
      ∀ group ∈ groups columns rows, NoneOverwritten columns aggregates group.2 :=
  forall₂_iff_forall_mem (forall₂_shows hrows h) fun _ _ hs ↦ keeps_iff hs

theorem KeysApart.noneOverwritten (hkeyed : ∀ a ∈ aggregates, a.Keyed)
    (h : KeysApart columns aggregates) (group : List Row) :
    NoneOverwritten columns aggregates group := by
  have hcompute {a b : Aggregate} (ha : a ∈ aggregates) (hb : b ∈ aggregates)
      (hkey : a.key = b.key) : a.compute group = b.compute group := by
    obtain ⟨hk, ho⟩ := ((hkeyed a ha).key_eq_iff (hkeyed b hb)).mp hkey
    unfold Aggregate.operand at ho
    cases hda : a.distinct <;> cases hdb : b.distinct <;>
      simp only [hda, hdb, Bool.false_eq_true, if_true, if_false] at ho
    · exact Aggregate.compute_eq_of_eq hk ho (hda.trans hdb.symm)
    · exact absurd ho (h.distinct b hb a ha hk.symm hdb hda)
    · exact absurd ho.symm (h.distinct a ha b hb hk hda hdb)
    · rw [String.append_right_inj] at ho
      exact Aggregate.compute_eq_of_eq hk ho (hda.trans hdb.symm)
  intro name v w hv hw
  cases hv with
  | column hc hf =>
    generalize hname : name = other at hw
    cases hw with
    | column _ hf' =>
      cases hf.symm.trans hf'
      rfl
    | aggregate ha _ => exact absurd (hname ▸ hc) (h.columns _ ha)
  | @aggregate a v ha hv =>
    generalize hname : a.key = other at hw
    cases hw with
    | column hc _ => exact absurd (hname ▸ hc) (h.columns a ha)
    | aggregate hb hw => exact Except.ok.inj (hv.symm.trans ((hcompute ha hb hname).trans hw))

/-- A row with the number 1 in one column and NULL in the others. -/
def probe (columns : List String) (column : String) : Row :=
  (Row.ofList (columns.map (·, .null))).insert column (.integer 1)

theorem mem_probe {column : String} (h : (name, v) ∈ (probe columns column).columns) :
    name = column ∧ v = .integer 1 ∨ name ≠ column ∧ v = .null := by
  rw [probe, Row.insert, Entries.mem_insert (Row.nodup _)] at h
  split at h
  · rename_i hname
    exact .inl ⟨hname, h⟩
  · rename_i hname
    obtain ⟨_, -, heq⟩ := List.mem_map.mp (Row.mem_of_mem_ofList h)
    exact .inr ⟨hname, (congrArg Prod.snd heq).symm⟩

theorem get?_probe (columns : List String) (column : String) :
    (probe columns column).get? column = some (.integer 1) := by
  refine Row.get?_of_mem ?_
  rw [probe, Row.insert, Entries.mem_insert (Row.nodup _), if_pos rfl]

theorem get_probe_of_not_sameName {column other : String}
    (h : Text.sameName column other = false) : (probe columns column).get other = .null := by
  unfold Row.get Row.get? Row.find?
  cases hfind : Entries.find? other (probe columns column).columns with
  | none => rfl
  | some found =>
    obtain ⟨hm, hs⟩ := Entries.mem_of_find? hfind
    rcases mem_probe hm with ⟨hname, -⟩ | ⟨-, hnull⟩
    · rw [hname, h] at hs
      cases hs
    · exact hnull

theorem contains_probe {column other : String} (h : other ∈ columns) :
    (probe columns column).contains other = true := by
  have hnames : other ∈ Entries.names (Row.ofList (columns.map (·, .null))).columns := by
    rw [Row.columns_ofList, Entries.names_ofList, List.mem_eraseDups]
    exact List.mem_map.mpr ⟨_, List.mem_map_of_mem h, rfl⟩
  refine Row.contains_of_mem_names ?_
  rw [Row.names, probe, Row.insert, Entries.names_insert]
  split
  · exact hnames
  · exact List.mem_append_left _ hnames

theorem summable_probe (columns : List String) (column other : String) :
    (probe columns column).Summable other := by
  intro v hv
  obtain ⟨found, hfind, rfl⟩ := Option.map_eq_some_iff.mp hv
  rcases mem_probe (Entries.mem_of_find? hfind).1 with ⟨-, hone⟩ | ⟨-, hnull⟩
  · rw [hone]
    exact .inr rfl
  · exact .inl hnull

theorem exists_aggregate_probe (columns : List String) (aggregates : List Aggregate)
    (column : String) :
    ∃ grouped, aggregate columns aggregates [probe columns column] = .ok grouped := by
  rw [aggregate_eq_mapM (List.cons_ne_nil _ _) fun other ho ↦
    ⟨_, List.mem_singleton_self _, contains_probe ho⟩]
  refine decides_groups.exists_ok fun a _ _ row hr ↦ ?_
  rw [List.mem_singleton.mp hr]
  exact summable_probe columns column a.column

theorem exists_compute_probe (columns : List String) (a : Aggregate) (column : String) :
    ∃ v, a.compute [probe columns column] = .ok v := by
  refine Aggregate.decides_compute.exists_ok fun _ row hr ↦ ?_
  rw [List.mem_singleton.mp hr]
  exact summable_probe columns column a.column

theorem noneOverwritten_probe (h : ∀ rows, rows ≠ [] → ∀ grouped,
      aggregate columns aggregates rows = .ok grouped → KeepsAll columns aggregates rows grouped)
    (column : String) : NoneOverwritten columns aggregates [probe columns column] := by
  obtain ⟨grouped, hok⟩ := exists_aggregate_probe columns aggregates column
  have hne : [probe columns column] ≠ [] := List.cons_ne_nil _ _
  exact (keepsAll_iff_noneOverwritten hne hok).mp (h _ hne _ hok) _ (List.mem_singleton_self _)

theorem keysApart_of_keepsAll (hkeyed : ∀ a ∈ aggregates, a.Keyed)
    (h : ∀ rows, rows ≠ [] → ∀ grouped, aggregate columns aggregates rows = .ok grouped →
      KeepsAll columns aggregates rows grouped) : KeysApart columns aggregates where
  columns a ha hkey := by
    -- the GROUP BY column is NULL, but no aggregate of the number 1 is
    have hother : Text.sameName a.column a.key = false := by
      refine Text.sameName_of_length_ne ?_
      rw [(hkeyed a ha).toList_key, Aggregate.operand]
      split <;> simp <;> omega
    obtain ⟨v, hv⟩ := exists_compute_probe columns a a.column
    have hnull := noneOverwritten_probe h a.column a.key v _ (.aggregate ha hv) (.column hkey rfl)
    rw [hnull, get_probe_of_not_sameName hother] at hv
    exact Aggregate.compute_ne_null (Aggregate.values_of_one (get?_probe columns a.column)) hv
  distinct a ha b hb hk hda hdb hcolumn := by
    -- the column of the first aggregate holds the number 1, that of the second one is NULL
    have hother : Text.sameName a.column b.column = false := by
      refine Text.sameName_of_length_ne ?_
      rw [hcolumn, String.toList_append, List.length_append]
      have hlen : "DISTINCT ".toList.length = 9 := rfl
      omega
    have hcount : b.countsRows = false := by
      have hstar : b.column ≠ "*" := by
        rw [hcolumn, Ne, ← String.toList_inj, String.toList_append]
        simp
      simp [Aggregate.countsRows, hstar]
    have hkey : a.key = b.key := by
      rw [(hkeyed a ha).key_eq_iff (hkeyed b hb), Aggregate.operand, Aggregate.operand, hda, hdb,
        hcolumn]
      exact ⟨hk, rfl⟩
    obtain ⟨v, hv⟩ := exists_compute_probe columns a a.column
    obtain ⟨w, hw⟩ := exists_compute_probe columns b a.column
    have heq := noneOverwritten_probe h a.column b.key v w (hkey ▸ .aggregate ha hv)
      (.aggregate hb hw)
    refine Aggregate.compute_ne_of_nil hk (Aggregate.values_of_one (get?_probe columns a.column))
      (Aggregate.values_of_null (get_probe_of_not_sameName hother)) hcount ?_
    rw [hv, hw, heq]

/-- A grouped row keeps all that is written into it exactly if different values have different
names. So with the keys of calls nothing is ever overwritten if and only if no GROUP BY column has
the name of a key, and no aggregate with DISTINCT shares its key with one without. -/
theorem keepsAll_iff (columns : List String) (aggregates : List Aggregate) :
    (∀ rows, rows ≠ [] → ∀ grouped, aggregate columns aggregates rows = .ok grouped →
      (KeepsAll columns aggregates rows grouped ↔
        ∀ group ∈ groups columns rows, NoneOverwritten columns aggregates group.2)) ∧
    ((∀ a ∈ aggregates, a.Keyed) →
      ((∀ rows, rows ≠ [] → ∀ grouped, aggregate columns aggregates rows = .ok grouped →
        KeepsAll columns aggregates rows grouped) ↔ KeysApart columns aggregates)) :=
  ⟨fun _ hrows _ h ↦ keepsAll_iff_noneOverwritten hrows h, fun hkeyed ↦
    ⟨keysApart_of_keepsAll hkeyed, fun hapart _ hrows _ h ↦
      (keepsAll_iff_noneOverwritten hrows h).mpr fun group _ ↦
        hapart.noneOverwritten hkeyed group.2⟩⟩

private def classes : List Row :=
  [.ofList [("class", .text "heavy"), ("kg", .integer 2)],
    .ofList [("class", .text "light"), ("kg", .integer 1)]]

theorem keepsAll_iff_classes :
    let select : List (SelectItem Statement) :=
      [.entry (.call "max" false [.column "kg"]) (some "class"),
        .entry (.call "max" true [.column "kg"]) none]
    let aggregates : List Aggregate :=
      [.new .max "kg" false (some "class"), .new .max "kg" true none]
    let grouped : List Row := [
      .ofList [("class", .text "heavy"), ("MAX(kg)", .integer 2), ("MAX(DISTINCT kg)", .integer 2)],
      .ofList [("class", .text "light"), ("MAX(kg)", .integer 1), ("MAX(DISTINCT kg)", .integer 1)]]
    Aggregate.ofSelect select = .ok aggregates ∧
      aggregate ["class"] aggregates classes = .ok grouped ∧
        KeepsAll ["class"] aggregates classes grouped := by
  intro select aggregates grouped
  have hselect : Aggregate.ofSelect select = .ok aggregates := rfl
  have hgrouped : aggregate ["class"] aggregates classes = .ok grouped := rfl
  have hkeyed : ∀ a ∈ aggregates, a.Keyed := fun _ ↦ Aggregate.keyed_of_mem_ofSelect hselect
  have hapart : KeysApart ["class"] aggregates := ⟨by decide, by decide⟩
  have hkeeps := ((keepsAll_iff ["class"] aggregates).2 hkeyed).mpr hapart
  exact ⟨hselect, hgrouped, hkeeps _ (List.cons_ne_nil _ _) _ hgrouped⟩

private def labelled : List Row :=
  [.ofList [("MAX(kg)", .text "heavy"), ("kg", .integer 2)],
    .ofList [("MAX(kg)", .text "light"), ("kg", .integer 1)]]

/-- In `SELECT MAX(kg) FROM labelled GROUP BY "MAX(kg)"` the maximum overwrites the label. -/
theorem not_keepsAll_labelled :
    aggregate ["MAX(kg)"] [.new .max "kg" false none] labelled =
        .ok [.ofList [("MAX(kg)", .integer 2)], .ofList [("MAX(kg)", .integer 1)]] ∧
      ¬KeepsAll ["MAX(kg)"] [.new .max "kg" false none] labelled
        [.ofList [("MAX(kg)", .integer 2)], .ofList [("MAX(kg)", .integer 1)]] := by
  refine ⟨rfl, fun h ↦ ?_⟩
  obtain ⟨hheavy, -⟩ := List.forall₂_cons.mp h
  have hlabel := hheavy _ _ (.column (List.mem_singleton_self "MAX(kg)") rfl)
  exact absurd hlabel (by decide)

end Grouping

end TableQuery
