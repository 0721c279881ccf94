import TableQuery.Proofs.Projection.Names

namespace TableQuery

variable {σ : Type}

namespace Aggregate

/-- The aggregate of a call: of the kind that the call names in any casing, over its column, and
with its DISTINCT and its label. COUNT without an argument, or with a star, counts rows. -/
inductive BuiltFrom : SelectItem σ → Aggregate → Prop
  | column {name : String} {kind : AggregateKind} (h : Text.sameName kind.name name = true)
      (distinct : Bool) (column : String) (label : Option String) :
      BuiltFrom (.entry (.call name distinct [.column column]) label)
        (.new kind column distinct label)
  | rows {name : String} (h : Text.sameName "COUNT" name = true) (distinct : Bool)
      {args : List (Expr σ)} (hargs : args = [] ∨ args = [.star]) (label : Option String) :
      BuiltFrom (.entry (.call name distinct args) label) (.new .count "*" distinct label)

theorem builtFrom_of_ofCall {name : String} {distinct : Bool} {args : List (Expr σ)}
    {label : Option String} {a : Aggregate} (h : ofCall name distinct args label = .ok a) :
    a.BuiltFrom (.entry (.call name distinct args) label) := by
  obtain ⟨kind, column, hname, hcolumn, rfl⟩ := ofCall_eq_ok_iff.mp h
  unfold column? at hcolumn
  split at hcolumn
  · cases hcolumn
    exact .rows hname _ (.inl rfl) _
  · cases hcolumn
    exact .rows hname _ (.inr rfl) _
  · cases hcolumn
    exact .column hname _ _ _
  · cases hcolumn

end Aggregate

namespace Projection

/-- The outputs of a SELECT list stand beside its entries, and those of its calls beside its
aggregates. -/
structure Aligned (items : List (SelectItem σ)) (aggregates : List Aggregate)
    (outputs : List Output) : Prop where
  entries : List.Forall₂ (Produces aggregates) items outputs
  /-- The calls take the aggregates in order, and each aggregate once. What a call puts out is read
  from the key of the aggregate that is built from this call, and shown under its name. -/
  calls : List.Forall₂ (fun call a ↦ a.BuiltFrom call.1 ∧ call.2 = .single a.key a.shownName)
    ((items.zip outputs).filter (·.1.isCall)) aggregates

variable {items : List (SelectItem σ)} {aggregates : List Aggregate}

theorem aligned_outputsOf {outputs : List Output} (ha : Aggregate.ofSelect items = .ok aggregates)
    (ho : outputsOf items aggregates = .ok outputs) : Aligned items aggregates outputs := by
  refine ⟨forall₂_outputsOf ho, ?_⟩
  -- an output is what its entry says by itself, so both passes agree on each call
  have hcalls := forall₂_filter_zip (forall₂_output? ha ho) (Aggregate.forall₂_ofSelect ha)
  refine hcalls.imp fun call a ⟨hshown, name, distinct, args, label, hcall, hbuilt⟩ ↦ ?_
  rw [hcall, SelectItem.output?, hbuilt] at hshown
  refine ⟨?_, (Option.some.inj hshown).symm⟩
  rw [hcall]
  exact Aggregate.builtFrom_of_ofCall hbuilt

/-- Once the aggregates are taken from a SELECT list, its outputs are refused exactly if some entry
is an expression other than a column or a call, and otherwise they are aligned with both the entries
and the aggregates. -/
theorem ofSelect_aligned (ha : Aggregate.ofSelect items = .ok aggregates) :
    (∀ fault, ofSelect items aggregates = .error fault ↔
      fault = .unsupported .selectEntry ∧ ∃ item ∈ items, item.Other) ∧
    ∀ p, ofSelect items aggregates = .ok p → Aligned items aggregates p.outputs := by
  constructor
  · intro fault
    rw [ofSelect, map_eq_error, outputsOf_eq_error_iff ha]
  · intro p hp
    obtain ⟨outputs, ho, rfl⟩ := map_eq_ok.mp hp
    exact aligned_outputsOf ha ho

private def interleaved : List (SelectItem Statement) :=
  -- SELECT count(*) AS n, *, Sum(DISTINCT kg), hue, COUNT() AS m
  [.entry (.call "count" false [.star]) (some "n"), .star,
    .entry (.call "Sum" true [.column "kg"]) none, .entry (.column "hue") none,
    .entry (.call "COUNT" false []) (some "m")]

theorem ofSelect_aligned_interleaved :
    let aggregates : List Aggregate := [.new .count "*" false (some "n"), .new .sum "kg" true none,
      .new .count "*" false (some "m")]
    let p : Projection := ⟨[.single "COUNT(*)" "n", .all,
      .single "SUM(DISTINCT kg)" "SUM(DISTINCT kg)", .single "hue" "hue", .single "COUNT(*)" "m"]⟩
    let one : SelectItem Statement := .entry (.literal (.integer 1)) none
    Aggregate.ofSelect interleaved = .ok aggregates ∧ Aligned interleaved aggregates p.outputs ∧
      Aggregate.ofSelect (interleaved ++ [one]) = .ok aggregates ∧
        ofSelect (interleaved ++ [one]) aggregates = .error (.unsupported .selectEntry) := by
  intro aggregates p one
  have hselect : Aggregate.ofSelect interleaved = .ok aggregates := rfl
  have hrefused : Aggregate.ofSelect (interleaved ++ [one]) = .ok aggregates := rfl
  have hone : one.Other := .entry (by simp) (by simp) none
  exact ⟨hselect, (ofSelect_aligned hselect).2 p rfl, hrefused,
    ((ofSelect_aligned hrefused).1 _).mpr ⟨rfl, one, by simp, hone⟩⟩

end Projection

end TableQuery
