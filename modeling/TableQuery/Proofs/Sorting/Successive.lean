import TableQuery.Proofs.Sorting.Arrangement

namespace TableQuery.Sorting

section

variable {α : Type} {cmp cmp₁ cmp₂ : α → α → Ordering} {before : α → α → Prop} {K : α → Prop}

instance (l : List α) (cmp : α → α → Ordering) : Decidable (TransitiveOn (· ∈ l) cmp) :=
  decidable_of_iff (∀ a ∈ l, ∀ b ∈ l, ∀ c ∈ l, (cmp a b).isLE → (cmp b c).isLE → (cmp a c).isLE)
    ⟨fun h a b c ha hb hc ↦ h a ha b hb c hc, fun h a ha b hb c hc ↦ h a b c ha hb hc⟩

theorem transitiveOn_iff_transCmp [Std.OrientedCmp cmp] :
    TransitiveOn K cmp ↔ Std.TransCmp fun a b : { a // K a } ↦ cmp a b := by
  constructor
  · intro h
    exact { eq_swap := Std.OrientedCmp.eq_swap, isLE_trans := fun {a b c} ↦ h a b c a.2 b.2 c.2 }
  · intro h a b c ha hb hc
    exact h.isLE_trans (a := ⟨a, ha⟩) (b := ⟨b, hb⟩) (c := ⟨c, hc⟩)

theorem transitiveOn_swap [Std.OrientedCmp cmp] (h : TransitiveOn K cmp) :
    TransitiveOn K fun a b ↦ (cmp a b).swap := by
  intro a b c ha hb hc hab hbc
  have hswap : ∀ x y, (cmp x y).swap = cmp y x := fun _ _ ↦ Std.OrientedCmp.eq_swap.symm
  simp only [hswap] at hab hbc ⊢
  exact h c b a hc hb ha hbc hab

variable [Std.OrientedCmp cmp₁] [Std.OrientedCmp cmp₂]

theorem transitiveOn_compareLex (h₁ : TransitiveOn K cmp₁) (h₂ : TransitiveOn K cmp₂) :
    TransitiveOn K (compareLex cmp₁ cmp₂) := by
  rw [transitiveOn_iff_transCmp] at h₁ h₂ ⊢
  exact inferInstanceAs (Std.TransCmp (compareLex _ _))

omit [Std.OrientedCmp cmp₁] [Std.OrientedCmp cmp₂] in
theorem stablyOrdered_compareLex_iff {a b : α} :
    StablyOrdered (compareLex cmp₁ cmp₂) before a b ↔
      StablyOrdered cmp₁ (StablyOrdered cmp₂ before) a b := by
  unfold StablyOrdered compareLex
  cases cmp₁ a b <;> simp

theorem mergeSort_compareLex (h₁ : TransitiveOn K cmp₁) (h₂ : TransitiveOn K cmp₂)
    (hasymm : ∀ a b, before a b → ¬before b a) {l : List α} (hl : ∀ a ∈ l, K a)
    (h : l.Pairwise before) :
    mergeSort (compareLex cmp₁ cmp₂) l = mergeSort cmp₁ (mergeSort cmp₂ l) := by
  have hl₂ : ∀ a ∈ mergeSort cmp₂ l, K a := fun a ha ↦ hl a ((mergeSort_perm l).mem_iff.mp ha)
  have hboth := stablyOrdered_mergeSort (transitiveOn_compareLex h₁ h₂) hasymm hl h
  have hsecond := stablyOrdered_mergeSort h₂ hasymm hl h
  have hfirst := stablyOrdered_mergeSort h₁ (fun _ _ ↦ StablyOrdered.asymm hasymm) hl₂ hsecond
  have hperm : (mergeSort (compareLex cmp₁ cmp₂) l).Perm (mergeSort cmp₁ (mergeSort cmp₂ l)) :=
    (mergeSort_perm l).trans ((mergeSort_perm _).trans (mergeSort_perm l)).symm
  refine eq_of_stablyOrdered hasymm hperm hboth (hfirst.imp ?_)
  exact fun hab ↦ stablyOrdered_compareLex_iff.mpr hab

end

variable {keys keys₁ keys₂ : List SortKey} {rows : List Row}

/-- The order of values is transitive on what the rows hold in a column, where a row without the
column holds NULL. -/
def TransitiveIn (rows : List Row) (column : String) : Prop :=
  TransitiveOn (· ∈ rows.map (·.get column)) Value.order

instance (rows : List Row) (column : String) : Decidable (TransitiveIn rows column) :=
  inferInstanceAs (Decidable (TransitiveOn _ _))

theorem transitiveOn_order {key : SortKey} (h : TransitiveIn rows key.column) :
    TransitiveOn (· ∈ rows) key.order := by
  have hget : TransitiveOn (· ∈ rows) fun a b ↦
      (a.get key.column).order (b.get key.column) :=
    fun _ _ _ ha hb hc ↦ h _ _ _ (List.mem_map_of_mem ha) (List.mem_map_of_mem hb)
      (List.mem_map_of_mem hc)
  have horiented : Std.OrientedCmp fun a b : Row ↦
      (a.get key.column).order (b.get key.column) := ⟨Value.order_swap _ _⟩
  unfold SortKey.order
  cases key.direction with
  | asc => exact hget
  | desc => exact transitiveOn_swap hget

theorem rowOrder_append (keys₁ keys₂ : List SortKey) :
    rowOrder (keys₁ ++ keys₂) = compareLex (rowOrder keys₁) (rowOrder keys₂) := by
  funext a b
  induction keys₁ with
  | nil => rfl
  | cons key keys ih => rw [List.cons_append, rowOrder, ih, compareLex, compareLex, rowOrder,
      Ordering.then_assoc]

theorem transitiveOn_rowOrder (h : ∀ key ∈ keys, TransitiveIn rows key.column) :
    TransitiveOn (· ∈ rows) (rowOrder keys) := by
  induction keys with
  | nil => exact fun _ _ _ _ _ _ _ _ ↦ rfl
  | cons key keys ih =>
    obtain ⟨hkey, hkeys⟩ := List.forall_mem_cons.mp h
    exact transitiveOn_compareLex (transitiveOn_order hkey) (ih hkeys)

theorem sortRows_append (h₁ : TransitiveOn (· ∈ rows) (rowOrder keys₁))
    (h₂ : TransitiveOn (· ∈ rows) (rowOrder keys₂)) :
    sortRows (keys₁ ++ keys₂) rows = sortRows keys₁ (sortRows keys₂ rows) := by
  have hmarked : sortMarked (keys₁ ++ keys₂) rows =
      mergeSort (fun a b ↦ rowOrder keys₁ a.1 b.1) (sortMarked keys₂ rows) := by
    rw [sortMarked, rowOrder_append]
    exact mergeSort_compareLex (K := fun a : Row × ℕ ↦ a.1 ∈ rows)
      (fun a b c ↦ h₁ a.1 b.1 c.1) (fun a b c ↦ h₂ a.1 b.1 c.1) (fun _ _ ↦ Nat.lt_asymm)
      (fun _ ha ↦ List.fst_mem_of_mem_zipIdx ha) (pairwise_zipIdx rows)
  rw [← map_fst_sortMarked, hmarked, ← mergeSort_map, map_fst_sortMarked, ← sortRows_eq_mergeSort]

theorem sortRows_eq_foldr (h : ∀ key ∈ keys, TransitiveIn rows key.column) :
    sortRows keys rows = keys.foldr (fun key ↦ sortRows [key]) rows := by
  induction keys with
  | nil => rfl
  | cons key keys ih =>
    obtain ⟨hkey, hkeys⟩ := List.forall_mem_cons.mp h
    rw [List.foldr_cons, ← ih hkeys]
    exact sortRows_append (transitiveOn_rowOrder (List.forall_mem_singleton.mpr hkey))
      (transitiveOn_rowOrder hkeys)

/-- Where the order of values is transitive on what the rows hold in each sort column, two lists of
keys come to two sorts, and all keys to one sort each. The sort by the last key is the first. -/
theorem sortRows_successively (h : ∀ key ∈ keys₁ ++ keys₂, TransitiveIn rows key.column) :
    sortRows (keys₁ ++ keys₂) rows = sortRows keys₁ (sortRows keys₂ rows) ∧
      sortRows (keys₁ ++ keys₂) rows =
        (keys₁ ++ keys₂).foldr (fun key ↦ sortRows [key]) rows := by
  obtain ⟨h₁, h₂⟩ := List.forall_mem_append.mp h
  refine ⟨?_, sortRows_eq_foldr h⟩
  exact sortRows_append (transitiveOn_rowOrder h₁) (transitiveOn_rowOrder h₂)

def fruitByHue : List Row :=
  [.ofList [("id", .integer 0), ("hue", .text "red"), ("kg", .integer 2)],
    .ofList [("id", .integer 1), ("hue", .text "green"), ("kg", .integer 9)],
    .ofList [("id", .integer 2), ("kg", .integer 3)],
    .ofList [("id", .integer 3), ("hue", .text "red"), ("kg", .null)],
    .ofList [("id", .integer 4), ("hue", .text "green"), ("kg", .text "10")]]

theorem sortRows_successively_fruit :
    let byWeight : List Row := [4, 1, 2, 0, 3].filterMap fun i ↦ fruitByHue[i]?
    let sorted : List Row := [2, 4, 1, 0, 3].filterMap fun i ↦ fruitByHue[i]?
    (∀ key ∈ [⟨"hue", .asc⟩] ++ [⟨"kg", .desc⟩], TransitiveIn fruitByHue (SortKey.column key)) ∧
      sortRows [⟨"kg", .desc⟩] fruitByHue = byWeight ∧
        sortRows [⟨"hue", .asc⟩] byWeight = sorted ∧
          sortRows [⟨"hue", .asc⟩, ⟨"kg", .desc⟩] fruitByHue = sorted := by
  intro byWeight sorted
  have h : ∀ key ∈ [⟨"hue", .asc⟩] ++ [⟨"kg", .desc⟩],
      TransitiveIn fruitByHue (SortKey.column key) := by decide +kernel
  have hweight : TransitiveOn (· ∈ fruitByHue) (rowOrder [⟨"kg", .desc⟩]) := by decide +kernel
  have hhue : TransitiveOn (· ∈ byWeight) (rowOrder [⟨"hue", .asc⟩]) := by decide +kernel
  have hfirst : sortRows [⟨"kg", .desc⟩] fruitByHue = byWeight :=
    (sortRows_eq_insertionSort hweight).trans (by decide +kernel)
  have hsecond : sortRows [⟨"hue", .asc⟩] byWeight = sorted :=
    (sortRows_eq_insertionSort hhue).trans (by decide +kernel)
  refine ⟨h, hfirst, hsecond, ?_⟩
  have hboth := (sortRows_successively h).1
  rwa [hfirst, hsecond] at hboth

end TableQuery.Sorting
