import TableQuery.Proofs.Projection.Executable

namespace TableQuery

variable {σ : Type}

def Output.name? : Output → Option String
  | .all => none
  | .single _ name => some name

namespace SelectItem

/-- What an entry of the SELECT list puts out, if it can be executed. -/
def output? : SelectItem σ → Option Output
  | .star => some .all
  | .entry (.column source) label => some (.single source (label.getD source))
  | .entry (.call name distinct args) label =>
    (Aggregate.ofCall name distinct args label).toOption.map fun a ↦ .single a.key a.shownName
  | .entry _ _ => none

/-- The name that an entry of the SELECT list is shown under: its label, or else the column or the
key of the aggregate. -/
def shownName? (item : SelectItem σ) : Option String := item.output?.bind Output.name?

theorem isStar_iff_of_output? {item : SelectItem σ} {output : Output}
    (h : item.output? = some output) : item.isStar = true ↔ output = .all := by
  unfold output? at h
  split at h
  · cases h
    exact iff_of_true rfl rfl
  · cases h
    exact iff_of_false Bool.false_ne_true (nomatch ·)
  · obtain ⟨a, -, rfl⟩ := Option.map_eq_some_iff.mp h
    exact iff_of_false Bool.false_ne_true (nomatch ·)
  · cases h

end SelectItem

def Statement.shownNames (s : Statement) : List String := s.select.filterMap SelectItem.shownName?

namespace Projection

theorem forall₂_output? {items : List (SelectItem σ)} {aggregates : List Aggregate}
    {outputs : List Output} (ha : Aggregate.ofSelect items = .ok aggregates)
    (ho : outputsOf items aggregates = .ok outputs) :
    List.Forall₂ (fun item output ↦ item.output? = some output) items outputs := by
  induction items, aggregates using outputsOf.induct generalizing outputs with
  | case1 aggregates =>
    cases ho
    exact .nil
  | case2 items aggregates ih =>
    obtain ⟨rest, hr, rfl⟩ := map_eq_ok.mp ho
    exact .cons rfl (ih ha hr)
  | case3 source label items aggregates ih =>
    obtain ⟨rest, hr, rfl⟩ := map_eq_ok.mp ho
    exact .cons rfl (ih ha hr)
  | case4 name distinct args label items => cases ho
  | case5 name distinct args label items a aggregates ih =>
    obtain ⟨b, hb, ha⟩ := bind_eq_ok.mp ha
    obtain ⟨aggregates', ha', ha⟩ := bind_eq_ok.mp ha
    cases ha
    obtain ⟨rest, hr, rfl⟩ := map_eq_ok.mp ho
    refine .cons ?_ (ih ha' hr)
    rw [SelectItem.output?, hb]
    rfl
  | case6 e label items aggregates hc hn =>
    rw [outputsOf] at ho
    · cases ho
    · exact hc
    · exact hn

def shownNames (p : Projection) : List String := p.outputs.filterMap Output.name?

section

variable {p : Projection} {items : List (SelectItem σ)} {aggregates : List Aggregate}

theorem shownNames_eq (ha : Aggregate.ofSelect items = .ok aggregates)
    (hp : ofSelect items aggregates = .ok p) :
    p.shownNames = items.filterMap SelectItem.shownName? := by
  obtain ⟨outputs, ho, rfl⟩ := map_eq_ok.mp hp
  have h := forall₂_output? ha ho
  rw [shownNames]
  clear ha ho hp
  induction h with
  | nil => rfl
  | cons h _ ih =>
    rw [List.filterMap_cons, List.filterMap_cons, ih, SelectItem.shownName?, h]
    rfl

theorem all_mem_outputs_iff (ha : Aggregate.ofSelect items = .ok aggregates)
    (hp : ofSelect items aggregates = .ok p) :
    .all ∈ p.outputs ↔ items.any SelectItem.isStar = true := by
  obtain ⟨outputs, ho, rfl⟩ := map_eq_ok.mp hp
  have h := forall₂_output? ha ho
  change .all ∈ outputs ↔ _
  clear ha ho hp
  induction h with
  | nil => simp
  | cons h _ ih =>
    rw [List.mem_cons, ih, List.any_cons, Bool.or_eq_true, SelectItem.isStar_iff_of_output? h,
      eq_comm]

theorem outputs_eq_nil_iff (hp : ofSelect items aggregates = .ok p) :
    p.outputs = [] ↔ items = [] := by
  obtain ⟨outputs, ho, rfl⟩ := map_eq_ok.mp hp
  rw [← List.length_eq_zero_iff, ← List.length_eq_zero_iff, length_outputsOf ho]

end

theorem mem_addName {names : List String} {name other : String} :
    other ∈ addName names name ↔ other ∈ names ∨ other = name := by
  unfold addName
  split
  · rename_i hm
    exact (or_iff_left_of_imp fun h ↦ h ▸ hm).symm
  · simp

theorem mem_foldl_addName {added names : List String} {name : String} :
    name ∈ added.foldl addName names ↔ name ∈ names ∨ name ∈ added := by
  induction added generalizing names with
  | nil => simp
  | cons n added ih => rw [List.foldl_cons, ih, mem_addName, List.mem_cons, or_assoc]

theorem names_insert (row : Row) (name : String) (value : Value) :
    (row.insert name value).names = addName row.names name := Entries.names_insert _ _ _

theorem names_foldl_insert (columns : List (String × Value)) (row : Row) :
    (columns.foldl (fun row column ↦ row.insert column.1 column.2) row).names =
      (columns.map Prod.fst).foldl addName row.names := by
  induction columns generalizing row with
  | nil => rfl
  | cons column columns ih =>
    rw [List.foldl_cons, ih, names_insert, List.map_cons, List.foldl_cons]

def namesIn (row : Row) : Output → List String
  | .all => row.names
  | .single source name => if row.contains source then [name] else []

theorem names_addOutput (row out : Row) (output : Output) :
    (addOutput row out output).names = (namesIn row output).foldl addName out.names := by
  cases output with
  | all => exact names_foldl_insert _ _
  | single source name =>
    rw [addOutput, namesIn, ← Row.isSome_get?]
    cases row.get? source with
    | none => rfl
    | some value => exact names_insert out name value

theorem mem_names_foldl_addOutput {row out : Row} {outputs : List Output} {name : String} :
    name ∈ (outputs.foldl (addOutput row) out).names ↔
      name ∈ out.names ∨ ∃ output ∈ outputs, name ∈ namesIn row output := by
  induction outputs generalizing out with
  | nil => simp
  | cons output outputs ih =>
    rw [List.foldl_cons, ih, names_addOutput, mem_foldl_addName, List.exists_mem_cons_iff, or_assoc]

theorem mem_foldl_addNames {rows : List Row} {outputs : List Output} {names : List String}
    {name : String} :
    name ∈ outputs.foldl (addNames rows) names ↔ name ∈ names ∨
      .all ∈ outputs ∧ name ∈ ResultSet.firstNames rows ∨
        name ∈ outputs.filterMap Output.name? := by
  induction outputs generalizing names with
  | nil => simp
  | cons output outputs ih =>
    rw [List.foldl_cons, ih]
    cases output with
    | all =>
      rw [addNames, mem_foldl_addName]
      simp [Output.name?]
      tauto
    | single source shown =>
      rw [addNames, mem_addName]
      simp [Output.name?]
      tauto

variable {p : Projection} {row : Row} {rows : List Row} {name : String}

theorem mem_columns : name ∈ p.columns rows ↔
    .all ∈ p.outputs ∧ name ∈ ResultSet.firstNames rows ∨ name ∈ p.shownNames := by
  rw [columns, mem_foldl_addNames, shownNames]
  simp

theorem mem_names_projectRow : name ∈ (p.projectRow row).names ↔
    ∃ output ∈ p.outputs, name ∈ namesIn row output := by
  rw [projectRow, mem_names_foldl_addOutput]
  simp [Row.empty, Row.names, Entries.names]

theorem mem_names_projectRow_of_all (hall : .all ∈ p.outputs) (h : name ∈ row.names) :
    name ∈ (p.projectRow row).names := mem_names_projectRow.mpr ⟨.all, hall, h⟩

theorem mem_shownNames_of_projectRow (h : name ∈ (p.projectRow row).names) :
    .all ∈ p.outputs ∧ name ∈ row.names ∨ name ∈ p.shownNames := by
  obtain ⟨output, ho, hn⟩ := mem_names_projectRow.mp h
  cases output with
  | all => exact .inl ⟨ho, hn⟩
  | single source shown =>
    rw [namesIn] at hn
    split at hn
    · obtain rfl := List.mem_singleton.mp hn
      exact .inr (List.mem_filterMap.mpr ⟨_, ho, rfl⟩)
    · cases hn

theorem mem_columns_apply : name ∈ (p.apply rows).columns ↔
    name ∈ ResultSet.firstNames (p.apply rows).rows ∨ name ∈ p.shownNames := by
  unfold apply
  split
  · rename_i hid
    refine (or_iff_left fun hs ↦ ?_).symm
    obtain ⟨output, ho, hn⟩ := List.mem_filterMap.mp hs
    rw [isIdentity_iff.mp hid output ho] at hn
    cases hn
  · rw [mem_columns]
    cases rows with
    | nil => simp [ResultSet.firstNames]
    | cons first rest =>
      constructor
      · rintro (⟨hall, hn⟩ | hs)
        · exact .inl (mem_names_projectRow_of_all hall hn)
        · exact .inr hs
      · rintro (hn | hs)
        · exact mem_shownNames_of_projectRow hn
        · exact .inr hs

theorem mem_columns_of_mem_names (h : p.outputs ≠ [] ∧ .all ∉ p.outputs ∨
      ∀ row ∈ rows, row.names = ResultSet.firstNames rows)
    (hr : row ∈ (p.apply rows).rows) (hn : name ∈ row.names) : name ∈ (p.apply rows).columns := by
  unfold apply at hr ⊢
  split at hr
  · rename_i hid
    rw [if_pos hid]
    rcases h with ⟨hne, hall⟩ | hsame
    · exact absurd (outputs_eq_nil_of_isIdentity hid hall) hne
    · rw [hsame row hr] at hn
      exact hn
  · rename_i hid
    rw [if_neg hid, mem_columns]
    obtain ⟨source, hs, rfl⟩ := List.mem_map.mp hr
    rcases mem_shownNames_of_projectRow hn with ⟨hall, hn⟩ | hshown
    · rcases h with ⟨-, hnot⟩ | hsame
      · exact absurd hall hnot
      · exact .inl ⟨hall, hsame source hs ▸ hn⟩
    · exact .inr hshown

end Projection

end TableQuery
