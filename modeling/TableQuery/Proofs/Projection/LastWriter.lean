import TableQuery.Proofs.Projection.Names
import TableQuery.Proofs.Row.History

namespace TableQuery

variable {σ : Type}

def Output.writes (row : Row) : Output → List (String × Value)
  | .all => row.columns
  | .single source name => (row.get? source).toList.map (name, ·)

def Output.declares (rows : List Row) : Output → List String
  | .all => ResultSet.firstNames rows
  | .single _ name => [name]

namespace SelectItem

def writes (row : Row) (item : SelectItem σ) : List (String × Value) :=
  item.output?.elim [] (·.writes row)

def declares (rows : List Row) (item : SelectItem σ) : List String :=
  item.output?.elim [] (·.declares rows)

end SelectItem

/-- What the entries of a SELECT list show for a row. -/
structure LastWriterWins (items : List (SelectItem σ)) (row shown : Row) : Prop where
  mem : ∀ name, name ∈ shown.names ↔ ∃ item ∈ items, name ∈ Entries.names (item.writes row)
  once : shown.names.Nodup
  /-- The names stand in the order in which they are first written. -/
  ordered : shown.names.Pairwise fun a b ↦
    (Entries.names (items.flatMap (·.writes row))).idxOf a <
      (Entries.names (items.flatMap (·.writes row))).idxOf b
  /-- The value under a name is that of the last entry that writes the name. -/
  last : ∀ name v, (name, v) ∈ shown.columns ↔ ∃ before item after,
    items = before ++ item :: after ∧ (name, v) ∈ item.writes row ∧
      ∀ later ∈ after, name ∉ Entries.names (later.writes row)

theorem Entries.lookup_reverse_flatMap {α β : Type} {f : β → List (String × α)}
    (hf : ∀ b, (names (f b)).Nodup) {name : String} {v : α} (l : List β) :
    (l.flatMap f).reverse.lookup name = some v ↔ ∃ before b after,
      l = before ++ b :: after ∧ (name, v) ∈ f b ∧ ∀ later ∈ after, name ∉ names (f later) := by
  induction l using List.reverseRecOn with
  | nil => simp
  | append_singleton l b ih =>
    rw [List.flatMap_append, List.flatMap_singleton, List.reverse_append, List.lookup_append,
      Option.or_eq_some_iff, lookup_reverse_of_nodup (hf b), lookup_reverse_eq_none_iff, ih]
    constructor
    · rintro (hb | ⟨hb, before, c, after, rfl, hc, hafter⟩)
      · exact ⟨l, b, [], rfl, hb, by simp⟩
      · refine ⟨before, c, after ++ [b], by simp, hc, ?_⟩
        simpa [or_imp, forall_and] using ⟨hafter, hb⟩
    · rintro ⟨before, c, after, hl, hc, hafter⟩
      rcases List.eq_nil_or_concat after with rfl | ⟨after, d, rfl⟩
      · obtain ⟨rfl, hbc⟩ := List.append_inj' hl rfl
        cases hbc
        exact .inl hc
      · rw [List.concat_eq_append, ← List.cons_append, ← List.append_assoc] at hl
        obtain ⟨rfl, hbd⟩ := List.append_inj' hl rfl
        cases hbd
        refine .inr ⟨hafter b (by simp), before, c, after, rfl, hc, fun later hm ↦ ?_⟩
        exact hafter later (by simp [hm])

namespace Projection

variable {p : Projection} {row out : Row} {rows : List Row}

theorem nodup_names_writes (row : Row) (item : SelectItem σ) :
    (Entries.names (item.writes row)).Nodup := by
  unfold SelectItem.writes
  cases item.output? with
  | none => exact List.nodup_nil
  | some output =>
    cases output with
    | all => exact row.nodup
    | single source name =>
      change (Entries.names ((row.get? source).toList.map (name, ·))).Nodup
      cases row.get? source with
      | none => exact List.nodup_nil
      | some v => exact List.nodup_singleton name

theorem addOutput_eq (row out : Row) (output : Output) : addOutput row out output =
    (output.writes row).foldl (fun out column ↦ out.insert column.1 column.2) out := by
  cases output with
  | all => rfl
  | single source name =>
    rw [addOutput, Output.writes]
    cases row.get? source <;> rfl

theorem projectRow_eq (p : Projection) (row : Row) :
    p.projectRow row = .ofList (p.outputs.flatMap (·.writes row)) := by
  rw [projectRow, Row.ofList, List.foldl_flatMap]
  exact List.foldl_ext _ _ _ fun out output _ ↦ addOutput_eq row out output

theorem foldl_addName (names : List String) : names.foldl addName [] = names.eraseDups := by
  induction names using List.reverseRecOn with
  | nil => rfl
  | append_singleton names name ih =>
    rw [List.foldl_append, ih, List.foldl_cons, List.foldl_nil, addName, eraseDups_concat]
    simp only [List.mem_eraseDups]

theorem columns_eq (p : Projection) (rows : List Row) :
    p.columns rows = (p.outputs.flatMap (·.declares rows)).eraseDups := by
  rw [columns, ← foldl_addName, List.foldl_flatMap]
  refine List.foldl_ext _ _ _ fun names output _ ↦ ?_
  cases output <;> rfl

theorem projectRow_of_isIdentity (hne : p.outputs ≠ []) (hid : p.isIdentity = true) (row : Row) :
    p.projectRow row = row := by
  obtain ⟨first, rest, houtputs⟩ := List.exists_cons_of_ne_nil hne
  rw [isIdentity_iff, houtputs, List.forall_mem_cons] at hid
  obtain ⟨rfl, hrest⟩ := hid
  rw [projectRow, houtputs, List.foldl_cons]
  have hfirst : addOutput row .empty .all = row := row.ofList_columns
  rw [hfirst]
  refine List.foldlRecOn (motive := (· = row)) rest _ rfl ?_
  intro _ hsame output ho
  rw [hsame, hrest output ho]
  exact row.foldl_insert_columns

theorem columns_of_isIdentity (hne : p.outputs ≠ []) (hid : p.isIdentity = true)
    (rows : List Row) : p.columns rows = ResultSet.firstNames rows := by
  have hall := isIdentity_iff.mp hid
  rw [columns_eq]
  cases rows with
  | nil =>
    have hnil : p.outputs.flatMap (·.declares []) = [] :=
      List.flatMap_eq_nil_iff.mpr fun output ho ↦ hall output ho ▸ rfl
    rw [hnil]
    rfl
  | cons row rows =>
    -- what the stars declare is what they write for the first row
    have hnames : p.outputs.flatMap (·.declares (row :: rows)) =
        Entries.names (p.outputs.flatMap (·.writes row)) := by
      rw [Entries.names, List.map_flatMap]
      exact List.flatMap_congr fun output ho ↦ hall output ho ▸ rfl
    rw [hnames, ← Entries.names_ofList, ← Row.columns_ofList, ← projectRow_eq,
      projectRow_of_isIdentity hne hid]
    rfl

theorem apply_eq (hne : p.outputs ≠ []) (rows : List Row) :
    p.apply rows = ⟨p.columns rows, rows.map p.projectRow⟩ := by
  unfold apply
  split
  · rename_i hid
    rw [columns_of_isIdentity hne hid, List.map_congr_left fun row _ ↦
      projectRow_of_isIdentity hne hid row, List.map_id']
    rfl
  · rfl

section

variable {items : List (SelectItem σ)} {aggregates : List Aggregate}

theorem flatMap_output? {β : Type} {outputs : List Output} (f : Output → List β)
    (h : List.Forall₂ (fun item output ↦ item.output? = some output) items outputs) :
    items.flatMap (·.output?.elim [] f) = outputs.flatMap f := by
  induction h with
  | nil => rfl
  | cons h _ ih => rw [List.flatMap_cons, List.flatMap_cons, ih, h, Option.elim_some]

theorem lastWriterWins_ofList (items : List (SelectItem σ)) (row : Row) :
    LastWriterWins items row (.ofList (items.flatMap (·.writes row))) := by
  have hnames : (Row.ofList (items.flatMap (·.writes row))).names =
      (Entries.names (items.flatMap (·.writes row))).eraseDups := by
    rw [Row.names, Row.columns_ofList, Entries.names_ofList]
  refine ⟨fun name ↦ ?_, Row.nodup _, ?_, fun name v ↦ ?_⟩
  · rw [hnames, List.mem_eraseDups, Entries.names, List.map_flatMap, List.mem_flatMap]
    rfl
  · rw [hnames]
    exact pairwise_idxOf_eraseDups _
  · rw [Row.columns_ofList, Entries.mem_ofList,
      Entries.lookup_reverse_flatMap (nodup_names_writes row)]

/-- Every row is shown by the entries as writers of whom the last one wins. The result declares what
the entries declare, each name once and where it first comes. -/
theorem apply_lastWriterWins {p : Projection} (hne : items ≠ [])
    (ha : Aggregate.ofSelect items = .ok aggregates) (hp : ofSelect items aggregates = .ok p)
    (rows : List Row) :
    List.Forall₂ (LastWriterWins items) rows (p.apply rows).rows ∧
      (p.apply rows).columns = (items.flatMap (·.declares rows)).eraseDups := by
  have houtputs : p.outputs ≠ [] := mt (outputs_eq_nil_iff hp).mp hne
  have hitems : List.Forall₂ (fun item output ↦ item.output? = some output) items p.outputs := by
    obtain ⟨outputs, ho, rfl⟩ := map_eq_ok.mp hp
    exact forall₂_output? ha ho
  rw [apply_eq houtputs]
  constructor
  · rw [List.forall₂_map_right_iff, List.forall₂_same]
    intro row _
    rw [projectRow_eq, ← flatMap_output? _ hitems]
    exact lastWriterWins_ofList items row
  · rw [columns_eq, ← flatMap_output? _ hitems]
    rfl

end

private def twoStars : List (SelectItem Statement) :=
  -- SELECT *, KG AS hue, age, *
  [.star, .entry (.column "KG") (some "hue"), .entry (.column "age") none, .star]

theorem apply_lastWriterWins_twoStars :
    let p : Projection := ⟨[.all, .single "KG" "hue", .single "age" "age", .all]⟩
    let rows : List Row := [.ofList [("hue", .text "red"), ("kg", .integer 1)],
      .ofList [("kg", .integer 2)]]
    p.apply rows = ⟨["hue", "kg", "age"], [.ofList [("hue", .text "red"), ("kg", .integer 1)],
        .ofList [("kg", .integer 2), ("hue", .integer 2)]]⟩ ∧
      List.Forall₂ (LastWriterWins twoStars) rows (p.apply rows).rows ∧
        (p.apply rows).columns = (twoStars.flatMap (·.declares rows)).eraseDups := by
  intro p rows
  have hselect : Aggregate.ofSelect twoStars = .ok [] := rfl
  exact ⟨by decide, apply_lastWriterWins (List.cons_ne_nil _ _) hselect rfl rows⟩

end Projection

end TableQuery
