import TableQuery.Projection
import TableQuery.Proofs.Outcome
import TableQuery.Proofs.Row.Agreement

namespace TableQuery

def SelectItem.isCall {σ : Type} : SelectItem σ → Bool
  | .entry (.call _ _ _) _ => true
  | _ => false

theorem SelectItem.isCall_iff {σ : Type} {item : SelectItem σ} : item.isCall = true ↔
    ∃ name distinct args label, item = .entry (.call name distinct args) label := by
  constructor
  · intro h
    unfold isCall at h
    split at h
    · exact ⟨_, _, _, _, rfl⟩
    · cases h
  · rintro ⟨name, distinct, args, label, rfl⟩
    rfl

namespace Aggregate

variable {σ : Type} {items : List (SelectItem σ)} {aggregates : List Aggregate}

/-- The aggregates of a SELECT list are those of its calls, one of each and in order. -/
theorem forall₂_ofSelect (h : ofSelect items = .ok aggregates) :
    List.Forall₂ (fun item a ↦ ∃ name distinct args label,
        item = .entry (.call name distinct args) label ∧ ofCall name distinct args label = .ok a)
      (items.filter SelectItem.isCall) aggregates := by
  induction items using ofSelect.induct generalizing aggregates with
  | case1 =>
    cases h
    exact .nil
  | case2 name distinct args label items ih =>
    obtain ⟨a, ha, h⟩ := bind_eq_ok.mp h
    obtain ⟨rest, hr, h⟩ := bind_eq_ok.mp h
    cases h
    rw [List.filter_cons_of_pos rfl]
    exact .cons ⟨name, distinct, args, label, rfl, ha⟩ (ih hr)
  | case3 item items hitem ih =>
    have hcall : ¬item.isCall = true := fun hcall ↦ by
      obtain ⟨name, distinct, args, label, heq⟩ := SelectItem.isCall_iff.mp hcall
      exact hitem name distinct args label heq
    rw [ofSelect] at h
    · rw [List.filter_cons_of_neg hcall]
      exact ih h
    · exact hitem

theorem mem_ofSelect (h : ofSelect items = .ok aggregates) {a : Aggregate} :
    a ∈ aggregates ↔ ∃ name distinct args label, .entry (.call name distinct args) label ∈ items ∧
      ofCall name distinct args label = .ok a := by
  have hcalls := forall₂_ofSelect h
  constructor
  · intro ha
    obtain ⟨_, hm, name, distinct, args, label, rfl, hc⟩ := exists_mem_of_forall₂ hcalls ha
    exact ⟨name, distinct, args, label, List.mem_of_mem_filter hm, hc⟩
  · rintro ⟨name, distinct, args, label, hm, hc⟩
    have hcall : .entry (.call name distinct args) label ∈ items.filter SelectItem.isCall :=
      List.mem_filter.mpr ⟨hm, rfl⟩
    obtain ⟨b, hb, _, _, _, _, ⟨⟩, hc'⟩ := exists_mem_of_forall₂ hcalls.flip hcall
    rwa [Except.ok.inj (hc.symm.trans hc')]

end Aggregate

/-- Whether an output reads only some names of a row. A star reads all of them. -/
def Output.Within (names : String → Prop) : Output → Prop
  | .all => False
  | .single source _ => names source

namespace Projection

variable {σ : Type}

/-- What an entry of the SELECT list puts out, given the aggregates of the list. -/
inductive Produces (aggregates : List Aggregate) : SelectItem σ → Output → Prop
  | star : Produces aggregates .star .all
  | column (source : String) (label : Option String) :
      Produces aggregates (.entry (.column source) label) (.single source (label.getD source))
  | call (name : String) (distinct : Bool) (args : List (Expr σ)) (label : Option String)
      {a : Aggregate} (ha : a ∈ aggregates) :
      Produces aggregates (.entry (.call name distinct args) label) (.single a.key a.shownName)

theorem Produces.mono {aggregates aggregates' : List Aggregate} (h : aggregates ⊆ aggregates')
    {item : SelectItem σ} {output : Output} (hp : Produces aggregates item output) :
    Produces aggregates' item output := by
  cases hp with
  | star => exact .star
  | column source label => exact .column source label
  | call name distinct args label ha => exact .call name distinct args label (h ha)

theorem forall₂_outputsOf {items : List (SelectItem σ)} {aggregates : List Aggregate}
    {outputs : List Output} (h : outputsOf items aggregates = .ok outputs) :
    List.Forall₂ (Produces aggregates) items outputs := by
  induction items, aggregates using outputsOf.induct generalizing outputs with
  | case1 aggregates =>
    cases h
    exact .nil
  | case2 items aggregates ih =>
    obtain ⟨rest, hr, rfl⟩ := map_eq_ok.mp h
    exact .cons .star (ih hr)
  | case3 source label items aggregates ih =>
    obtain ⟨rest, hr, rfl⟩ := map_eq_ok.mp h
    exact .cons (.column source label) (ih hr)
  | case4 name distinct args label items => cases h
  | case5 name distinct args label items a aggregates ih =>
    obtain ⟨rest, hr, rfl⟩ := map_eq_ok.mp h
    exact .cons (.call name distinct args label List.mem_cons_self)
      ((ih hr).imp fun _ _ hp ↦ hp.mono (List.subset_cons_self a aggregates))
  | case6 e label items aggregates hc hn =>
    rw [outputsOf] at h
    · cases h
    · exact hc
    · exact hn

theorem length_outputsOf {items : List (SelectItem σ)} {aggregates : List Aggregate}
    {outputs : List Output} (h : outputsOf items aggregates = .ok outputs) :
    outputs.length = items.length := (forall₂_outputsOf h).length_eq.symm

theorem exists_produces {items : List (SelectItem σ)} {aggregates : List Aggregate}
    {outputs : List Output} (h : outputsOf items aggregates = .ok outputs) {output : Output}
    (hm : output ∈ outputs) : ∃ item ∈ items, Produces aggregates item output :=
  exists_mem_of_forall₂ (forall₂_outputsOf h) hm

variable {names : String → Prop} {p : Projection}

theorem projectRow_congr (hp : ∀ output ∈ p.outputs, Output.Within names output) {row row' : Row}
    (h : Row.Agree names row row') : p.projectRow row = p.projectRow row' := by
  refine List.foldl_ext _ _ _ fun out output hm ↦ ?_
  cases output with
  | all => exact (hp _ hm).elim
  | single source name => simp only [addOutput, h source (hp _ hm)]

theorem columns_congr (hp : ∀ output ∈ p.outputs, Output.Within names output)
    (rows rows' : List Row) : p.columns rows = p.columns rows' := by
  refine List.foldl_ext _ _ _ fun out output hm ↦ ?_
  cases output with
  | all => exact (hp _ hm).elim
  | single source name => rfl

theorem isIdentity_iff : p.isIdentity = true ↔ ∀ output ∈ p.outputs, output = .all := by
  simp [isIdentity]

theorem outputs_eq_nil_of_isIdentity (hid : p.isIdentity = true) (hall : .all ∉ p.outputs) :
    p.outputs = [] :=
  List.eq_nil_iff_forall_not_mem.mpr fun output ho ↦ hall (isIdentity_iff.mp hid output ho ▸ ho)

theorem apply_congr (hne : p.outputs ≠ [])
    (hp : ∀ output ∈ p.outputs, Output.Within names output) {rows rows' : List Row}
    (h : List.Forall₂ (Row.Agree names) rows rows') : p.apply rows = p.apply rows' := by
  have hid : p.isIdentity = false := Bool.eq_false_iff.mpr fun hid ↦
    hne (outputs_eq_nil_of_isIdentity hid (hp .all))
  have hrows : rows.map p.projectRow = rows'.map p.projectRow := by
    induction h with
    | nil => rfl
    | cons hr _ ih => rw [List.map_cons, List.map_cons, ih, projectRow_congr hp hr]
  simp only [apply, hid, Bool.false_eq_true, if_false, columns_congr hp rows rows', hrows]

end Projection

end TableQuery
