import TableQuery.Proofs.Projection.Outputs

namespace TableQuery

namespace AggregateKind

theorem ofName?_name (kind : AggregateKind) : ofName? kind.name = some kind := by
  cases kind <;> decide

theorem ofName?_eq_some_iff {name : String} {kind : AggregateKind} :
    ofName? name = some kind ↔ Text.sameName kind.name name = true := by
  constructor
  · intro h
    have hk := List.find?_some (show List.find? _ _ = some kind from h)
    exact hk
  · intro h
    rw [← ofName?_name kind]
    exact List.find?_congr fun k _ ↦ (Text.sameName_congr_right h k.name).symm

end AggregateKind

variable {σ : Type}

/-- An entry of the SELECT list that can be executed: a star, a column, or an aggregate in any
casing of one column. COUNT may also stand without an argument or with a star. -/
inductive SelectItem.Executable : SelectItem σ → Prop
  | star : Executable .star
  | column (name : String) (label : Option String) : Executable (.entry (.column name) label)
  | call {name : String} (kind : AggregateKind) (h : Text.sameName kind.name name = true)
      (distinct : Bool) (column : String) (label : Option String) :
      Executable (.entry (.call name distinct [.column column]) label)
  | count {name : String} (h : Text.sameName "COUNT" name = true) (distinct : Bool)
      {args : List (Expr σ)} (hargs : args = [] ∨ args = [.star]) (label : Option String) :
      Executable (.entry (.call name distinct args) label)

/-- An expression other than a column or a call, whatever its label. -/
inductive SelectItem.Other : SelectItem σ → Prop
  | entry {e : Expr σ} (hcolumn : ∀ source, e ≠ .column source)
      (hcall : ∀ name distinct args, e ≠ .call name distinct args) (label : Option String) :
      Other (.entry e label)

namespace SelectItem

variable {item : SelectItem σ}

theorem Executable.not_other (h : item.Executable) : ¬item.Other := by
  rintro ⟨hcolumn, hcall, label⟩
  cases h with
  | column name _ => exact hcolumn name rfl
  | call kind h distinct column _ => exact hcall _ _ _ rfl
  | count h distinct hargs _ => exact hcall _ _ _ rfl

theorem executable_of_not_other (hother : ¬item.Other)
    (hcall : item.isCall = true → item.Executable) : item.Executable := by
  cases item with
  | star => exact .star
  | entry e label =>
    by_contra hne
    refine hother (.entry ?_ ?_ label)
    · rintro source rfl
      exact hne (.column source label)
    · rintro name distinct args rfl
      exact hne (hcall rfl)

end SelectItem

namespace Aggregate

theorem isSome_column?_iff {kind : AggregateKind} {args : List (Expr σ)} :
    (column? kind args).isSome ↔
      (∃ column, args = [.column column]) ∨ kind = .count ∧ (args = [] ∨ args = [.star]) := by
  unfold column?
  split
  · simp
  · simp
  · simp
  · rename_i hcolumn hnil hstar
    simp only [Option.isSome_none, Bool.false_eq_true, false_iff, not_or, not_and, not_exists]
    exact ⟨fun column h ↦ hcolumn column h, fun hk ↦ ⟨hnil hk, hstar hk⟩⟩

theorem executable_call_iff {name : String} {distinct : Bool} {args : List (Expr σ)}
    {label : Option String} : (SelectItem.entry (.call name distinct args) label).Executable ↔
      ∃ kind, AggregateKind.ofName? name = some kind ∧ (column? kind args).isSome := by
  simp only [AggregateKind.ofName?_eq_some_iff, isSome_column?_iff]
  constructor
  · intro h
    cases h with
    | call kind h _ column _ => exact ⟨kind, h, .inl ⟨column, rfl⟩⟩
    | count h _ hargs _ => exact ⟨.count, h, .inr ⟨rfl, hargs⟩⟩
  · rintro ⟨kind, h, ⟨column, rfl⟩ | ⟨rfl, hargs⟩⟩
    · exact .call kind h distinct column label
    · exact .count h distinct hargs label

theorem ofCall_eq_ok_iff {name : String} {distinct : Bool} {args : List (Expr σ)}
    {label : Option String} {a : Aggregate} : ofCall name distinct args label = .ok a ↔
      ∃ kind column, Text.sameName kind.name name = true ∧ column? kind args = some column ∧
        a = .new kind column distinct label := by
  simp only [← AggregateKind.ofName?_eq_some_iff]
  unfold ofCall
  constructor
  · intro h
    split at h
    · cases h
    · rename_i kind hkind
      split at h
      · cases h
      · rename_i column hcolumn
        cases h
        exact ⟨kind, column, hkind, hcolumn, rfl⟩
  · rintro ⟨kind, column, hkind, hcolumn, rfl⟩
    simp only [hkind, hcolumn]

theorem column?_eq_some_iff {kind : AggregateKind} (h : kind ≠ .count) {args : List (Expr σ)}
    {column : String} : column? kind args = some column ↔ args = [.column column] := by
  unfold column?
  split
  · exact absurd rfl h
  · exact absurd rfl h
  · simp
  · rename_i hcolumn _ _
    exact ⟨nofun, fun hargs ↦ (hcolumn column hargs).elim⟩

theorem decides_ofCall (name : String) (distinct : Bool) (args : List (Expr σ))
    (label : Option String) : Decides "LQ_UNSUPPORTED_EXPRESSION"
      (SelectItem.entry (.call name distinct args) label).Executable
      (ofCall name distinct args label) := by
  refine Decides.iff ?_ executable_call_iff.symm
  unfold ofCall
  cases AggregateKind.ofName? name with
  | none => exact .error (by simp) rfl
  | some kind =>
    dsimp only
    cases hc : column? kind args with
    | none => exact .error (by simp [hc]) rfl
    | some column => exact .ok ⟨kind, rfl, by rw [hc]; rfl⟩ _

theorem decides_ofSelect (items : List (SelectItem σ)) : Decides "LQ_UNSUPPORTED_EXPRESSION"
    (∀ item ∈ items, item.isCall = true → item.Executable) (ofSelect items) := by
  induction items using ofSelect.induct with
  | case1 => exact .ok (by simp) []
  | case2 name distinct args label items ih =>
    have hbind := (decides_ofCall name distinct args label).bind fun a _ ↦ ih.map (a :: ·)
    rw [List.forall_mem_cons]
    exact hbind.iff (and_congr_left fun _ ↦ ⟨fun h _ ↦ h, fun h ↦ h rfl⟩)
  | case3 item items hitem ih =>
    rw [ofSelect]
    · rw [List.forall_mem_cons]
      refine ih.iff (and_iff_right fun hcall ↦ ?_).symm
      obtain ⟨name, distinct, args, label, heq⟩ := SelectItem.isCall_iff.mp hcall
      exact (hitem name distinct args label heq).elim
    · exact hitem

end Aggregate

namespace Projection

theorem outputsOf_eq_error_iff {items : List (SelectItem σ)} {aggregates : List Aggregate}
    (h : Aggregate.ofSelect items = .ok aggregates) {fault : Fault} :
    outputsOf items aggregates = .error fault ↔
      fault = .unsupported .selectEntry ∧ ∃ item ∈ items, item.Other := by
  have hcons {first : SelectItem σ} {items : List (SelectItem σ)} (hfirst : first.Executable)
      {x : Except Fault (List Output)} (f : List Output → List Output)
      (hx : x = .error fault ↔ fault = .unsupported .selectEntry ∧ ∃ item ∈ items, item.Other) :
      x.map f = .error fault ↔
        fault = .unsupported .selectEntry ∧ ∃ item ∈ first :: items, item.Other := by
    rw [map_eq_error, hx, List.exists_mem_cons_iff, or_iff_right hfirst.not_other]
  induction items, aggregates using outputsOf.induct with
  | case1 aggregates => simp [outputsOf]
  | case2 items aggregates ih => exact hcons .star _ (ih h)
  | case3 source label items aggregates ih => exact hcons (.column source label) _ (ih h)
  | case4 name distinct args label items =>
    -- the list of aggregates has one for this call, so it is not empty
    obtain ⟨a, ha, h⟩ := bind_eq_ok.mp h
    obtain ⟨rest, hr, h⟩ := bind_eq_ok.mp h
    cases h
  | case5 name distinct args label items a aggregates ih =>
    obtain ⟨b, hb, h⟩ := bind_eq_ok.mp h
    obtain ⟨rest, hr, h⟩ := bind_eq_ok.mp h
    cases h
    have hcall := (Aggregate.decides_ofCall name distinct args label).of_eq_ok hb
    exact hcons hcall _ (ih hr)
  | case6 e label items aggregates hcolumn hcall =>
    rw [outputsOf]
    · have hother : (SelectItem.entry e label).Other := .entry hcolumn hcall label
      rw [Except.error.injEq, eq_comm]
      exact (and_iff_left ⟨_, List.mem_cons_self, hother⟩).symm
    · exact hcolumn
    · exact hcall

theorem decides_outputsOf {items : List (SelectItem σ)} {aggregates : List Aggregate}
    (h : Aggregate.ofSelect items = .ok aggregates) : Decides "LQ_UNSUPPORTED_EXPRESSION"
      (∀ item ∈ items, item.Executable) (outputsOf items aggregates) := by
  have hcalls := (Aggregate.decides_ofSelect items).of_eq_ok h
  cases ho : outputsOf items aggregates with
  | ok outputs =>
    refine .ok (fun item hi ↦ ?_) outputs
    refine SelectItem.executable_of_not_other (fun hother ↦ ?_) (hcalls item hi)
    have herror := (outputsOf_eq_error_iff h).mpr ⟨rfl, item, hi, hother⟩
    rw [ho] at herror
    cases herror
  | error fault =>
    obtain ⟨rfl, item, hi, hother⟩ := (outputsOf_eq_error_iff h).mp ho
    exact .error (fun hall ↦ (hall item hi).not_other hother) rfl

end Projection

end TableQuery
