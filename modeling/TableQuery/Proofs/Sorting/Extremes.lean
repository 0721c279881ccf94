import TableQuery.Proofs.Grouping.Aggregation
import TableQuery.Proofs.Sorting.Successive

namespace TableQuery

namespace Sorting

section

variable {α : Type} {cmp : α → α → Ordering} {K : α → Prop}

/-- The lesser of two members, the first of equal ones. -/
def lesser (cmp : α → α → Ordering) (a b : α) : α := if cmp a b == .gt then b else a

/-- The greater of two members, the last of equal ones. -/
def greater (cmp : α → α → Ordering) (a b : α) : α := if cmp a b == .gt then a else b

theorem lesser_of_isLE {a b : α} (h : (cmp a b).isLE) : lesser cmp a b = a := by
  simp [lesser, Ordering.isLE_iff_ne_gt.mp h]

theorem greater_of_isLE {a b : α} (h : (cmp a b).isLE) : greater cmp a b = b := by
  simp [greater, Ordering.isLE_iff_ne_gt.mp h]

theorem lesser_of_not_isLE {a b : α} (h : ¬(cmp a b).isLE) : lesser cmp a b = b := by
  rw [Ordering.isLE_iff_ne_gt, not_not] at h
  simp [lesser, h]

theorem greater_of_not_isLE {a b : α} (h : ¬(cmp a b).isLE) : greater cmp a b = a := by
  rw [Ordering.isLE_iff_ne_gt, not_not] at h
  simp [greater, h]

theorem lesser_mem {a b : α} (ha : K a) (hb : K b) : K (lesser cmp a b) := by
  unfold lesser
  split
  · exact hb
  · exact ha

theorem greater_mem {a b : α} (ha : K a) (hb : K b) : K (greater cmp a b) := by
  unfold greater
  split
  · exact ha
  · exact hb

def reduce? (f : α → α → α) : List α → Option α
  | [] => none
  | a :: l => some (l.foldl f a)

theorem exists_reduce? (f : α → α → α) {l : List α} (h : l ≠ []) : ∃ x, reduce? f l = some x := by
  obtain ⟨a, l, rfl⟩ := List.exists_cons_of_ne_nil h
  exact ⟨_, rfl⟩

section

variable {f : α → α → α} (hK : ∀ {a b}, K a → K b → K (f a b))
  (hassoc : ∀ a b c, K a → K b → K c → f (f a b) c = f a (f b c))

include hK hassoc

theorem foldl_of_assoc {a b : α} {l : List α} (ha : K a) (hb : K b) (hl : ∀ c ∈ l, K c) :
    l.foldl f (f a b) = f a (l.foldl f b) := by
  induction l generalizing b with
  | nil => rfl
  | cons c l ih =>
    obtain ⟨hc, hl⟩ := List.forall_mem_cons.mp hl
    rw [List.foldl_cons, List.foldl_cons, hassoc a b c ha hb hc, ih (hK hb hc) hl]

theorem reduce?_append {left right : List α} (hl : ∀ a ∈ left, K a) (hr : ∀ b ∈ right, K b)
    {x y : α} (hx : reduce? f left = some x) (hy : reduce? f right = some y) :
    reduce? f (left ++ right) = some (f x y) := by
  cases left with
  | nil => cases hx
  | cons a left =>
    cases right with
    | nil => cases hy
    | cons b right =>
      obtain ⟨ha, hl⟩ := List.forall_mem_cons.mp hl
      obtain ⟨hb, hr⟩ := List.forall_mem_cons.mp hr
      have hKx : K (left.foldl f a) :=
        List.foldlRecOn left f ha fun c hc d hd ↦ hK hc (hl d hd)
      cases hx
      cases hy
      rw [List.cons_append, reduce?, List.foldl_append, List.foldl_cons,
        foldl_of_assoc hK hassoc hKx hb hr]

end

variable [Std.OrientedCmp cmp]

theorem lesser_assoc (ht : TransitiveOn K cmp) (a b c : α) (ha : K a) (hb : K b) (hc : K c) :
    lesser cmp (lesser cmp a b) c = lesser cmp a (lesser cmp b c) := by
  by_cases hab : (cmp a b).isLE
  · rw [lesser_of_isLE hab]
    by_cases hbc : (cmp b c).isLE
    · rw [lesser_of_isLE hbc, lesser_of_isLE hab, lesser_of_isLE (ht a b c ha hb hc hab hbc)]
    · rw [lesser_of_not_isLE hbc]
  · rw [lesser_of_not_isLE hab]
    by_cases hbc : (cmp b c).isLE
    · rw [lesser_of_isLE hbc, lesser_of_not_isLE hab]
    · have hcb : (cmp c b).isLE := by
        rw [Std.OrientedCmp.lt_of_not_isLE hbc]
        rfl
      have hac : ¬(cmp a c).isLE := fun hac ↦ hab (ht a c b ha hc hb hac hcb)
      rw [lesser_of_not_isLE hbc, lesser_of_not_isLE hac]

theorem greater_assoc (ht : TransitiveOn K cmp) (a b c : α) (ha : K a) (hb : K b) (hc : K c) :
    greater cmp (greater cmp a b) c = greater cmp a (greater cmp b c) := by
  have hflip : Std.OrientedCmp fun a b ↦ cmp b a := ⟨Std.OrientedCmp.eq_swap⟩
  have htrans : TransitiveOn K fun a b ↦ cmp b a :=
    fun a b c ha hb hc hab hbc ↦ ht c b a hc hb ha hbc hab
  exact (lesser_assoc htrans c b a hc hb ha).symm

theorem head?_mergeRuns_of_some {left right : List α} {x y : α} (hx : left.head? = some x)
    (hy : right.head? = some y) : (mergeRuns cmp left right).head? = some (lesser cmp x y) := by
  obtain ⟨left, rfl⟩ := List.head?_eq_some_iff.mp hx
  obtain ⟨right, rfl⟩ := List.head?_eq_some_iff.mp hy
  by_cases hxy : (cmp x y).isLE
  · rw [lesser_of_isLE hxy, mergeRuns_cons_of_ne_lt cmp (Std.OrientedCmp.not_lt_of_isLE hxy)]
    rfl
  · rw [lesser_of_not_isLE hxy, mergeRuns_cons_of_lt cmp (Std.OrientedCmp.lt_of_not_isLE hxy)]
    rfl

theorem isLE_getLast {l : List α} (h : l.Pairwise fun a b ↦ (cmp a b).isLE) {a x : α} (ha : a ∈ l)
    (hx : l.getLast? = some x) : (cmp a x).isLE := by
  obtain ⟨l, rfl⟩ := List.getLast?_eq_some_iff.mp hx
  rcases List.mem_append.mp ha with ha | ha
  · exact (List.pairwise_append.mp h).2.2 a ha x (List.mem_singleton_self x)
  · rw [List.mem_singleton.mp ha]
    exact Std.ReflCmp.isLE_rfl

/-- The last member of a merge is the last of one of the runs. The run that is used up first ends in
a member that the rest of the other run is not less than. -/
theorem getLast?_mergeRuns (ht : TransitiveOn K cmp) {left right : List α} {x y : α}
    (hl : ∀ a ∈ left, K a) (hr : ∀ b ∈ right, K b) (sl : left.Pairwise fun a b ↦ (cmp a b).isLE)
    (sr : right.Pairwise fun a b ↦ (cmp a b).isLE) (hx : left.getLast? = some x)
    (hy : right.getLast? = some y) :
    (mergeRuns cmp left right).getLast? = some (greater cmp x y) := by
  have hKx := hl x (List.mem_of_getLast? hx)
  have hKy := hr y (List.mem_of_getLast? hy)
  induction left generalizing right with
  | nil => cases hx
  | cons a left ihl =>
    induction right with
    | nil => cases hy
    | cons b right ihr =>
      obtain ⟨hKa, hl'⟩ := List.forall_mem_cons.mp hl
      obtain ⟨hKb, hr'⟩ := List.forall_mem_cons.mp hr
      by_cases hab : (cmp a b).isLE
      · rw [mergeRuns_cons_of_ne_lt cmp (Std.OrientedCmp.not_lt_of_isLE hab)]
        cases left with
        | nil =>
          obtain rfl : a = x := by simpa using hx
          have hby : (cmp b y).isLE := isLE_getLast sr List.mem_cons_self hy
          rw [mergeRuns_nil_left, List.getLast?_cons_cons, hy,
            greater_of_isLE (ht a b y hKa hKb hKy hab hby)]
        | cons c left =>
          have hlast := ihl hl' hr (List.pairwise_cons.mp sl).2 sr hx hy
          rw [List.getLast?_cons, hlast, Option.getD_some]
      · rw [mergeRuns_cons_of_lt cmp (Std.OrientedCmp.lt_of_not_isLE hab)]
        cases right with
        | nil =>
          obtain rfl : b = y := by simpa using hy
          have hax : (cmp a x).isLE := isLE_getLast sl List.mem_cons_self hx
          have hxb : ¬(cmp x b).isLE := fun hxb ↦ hab (ht a x b hKa hKx hKb hax hxb)
          rw [mergeRuns_nil_right, List.getLast?_cons_cons, hx, greater_of_not_isLE hxb]
        | cons c right =>
          have hlast := ihr hr' (List.pairwise_cons.mp sr).2 hy
          rw [List.getLast?_cons, hlast, Option.getD_some]

/-- The ends of a sort are the lesser and the greater of all members, taken from left to right. -/
theorem ends_mergeSort (ht : TransitiveOn K cmp) {l : List α} (hl : ∀ a ∈ l, K a) :
    (mergeSort cmp l).head? = reduce? (lesser cmp) l ∧
      (mergeSort cmp l).getLast? = reduce? (greater cmp) l := by
  induction l using mergeSort.induct with
  | case1 l h =>
    rw [mergeSort_of_length_le_one cmp h]
    cases l with
    | nil => exact ⟨rfl, rfl⟩
    | cons a l =>
      obtain rfl : l = [] := by simpa using h
      exact ⟨rfl, rfl⟩
  | case2 l h ihl ihr =>
    have hnel : l.take (l.length / 2) ≠ [] := by
      rw [← List.length_pos_iff, List.length_take]
      omega
    have hner : l.drop (l.length / 2) ≠ [] := by
      rw [← List.length_pos_iff, List.length_drop]
      omega
    have hl₁ : ∀ a ∈ l.take (l.length / 2), K a := fun a ha ↦ hl a (List.mem_of_mem_take ha)
    have hl₂ : ∀ a ∈ l.drop (l.length / 2), K a := fun a ha ↦ hl a (List.mem_of_mem_drop ha)
    obtain ⟨hhead₁, hlast₁⟩ := ihl hl₁
    obtain ⟨hhead₂, hlast₂⟩ := ihr hl₂
    rw [mergeSort_halves cmp h]
    constructor
    · obtain ⟨x, hx⟩ := exists_reduce? (lesser cmp) hnel
      obtain ⟨y, hy⟩ := exists_reduce? (lesser cmp) hner
      have hwhole := reduce?_append lesser_mem (lesser_assoc ht) hl₁ hl₂ hx hy
      rw [List.take_append_drop] at hwhole
      rw [hwhole, head?_mergeRuns_of_some (hhead₁.trans hx) (hhead₂.trans hy)]
    · obtain ⟨x, hx⟩ := exists_reduce? (greater cmp) hnel
      obtain ⟨y, hy⟩ := exists_reduce? (greater cmp) hner
      have hwhole := reduce?_append greater_mem (greater_assoc ht) hl₁ hl₂ hx hy
      rw [List.take_append_drop] at hwhole
      rw [hwhole]
      refine getLast?_mergeRuns ht (fun a ha ↦ hl₁ a ((mergeSort_perm _).mem_iff.mp ha))
        (fun b hb ↦ hl₂ b ((mergeSort_perm _).mem_iff.mp hb)) (sorted_mergeSort ht hl₁)
        (sorted_mergeSort ht hl₂) (hlast₁.trans hx) (hlast₂.trans hy)

end

end Sorting

namespace Aggregate

variable {column : String} {rows : List Row}

theorem least_eq (values : List Value) :
    least values = (Sorting.reduce? (Sorting.lesser Value.order) values).getD .null := by
  cases values <;> rfl

theorem greatest_eq (values : List Value) :
    greatest values = (Sorting.reduce? (Sorting.greater Value.order) values).getD .null := by
  cases values <;> rfl

def rowsWith (column : String) (rows : List Row) : List Row :=
  rows.filter fun row ↦ !(row.get column).isNull

theorem values_eq_map (kind : AggregateKind) (label : Option String) (rows : List Row) :
    values (.new kind column false label) rows = (rowsWith column rows).map (·.get column) := by
  simp only [values, new, present_eq, Bool.false_eq_true, if_false, rowsWith, List.filter_map]
  rfl

theorem map_sortRows_asc (column : String) (rows : List Row) :
    (Sorting.sortRows [⟨column, .asc⟩] rows).map (·.get column) =
      Sorting.mergeSort Value.order (rows.map (·.get column)) := by
  have horder : Sorting.rowOrder [⟨column, .asc⟩] = fun a b ↦
      (a.get column).order (b.get column) := funext fun _ ↦ funext fun _ ↦ Ordering.then_eq
  rw [Sorting.mergeSort_map, Sorting.sortRows_eq_mergeSort, horder]

theorem compute_min_and_max (ht : Sorting.TransitiveIn (rowsWith column rows) column)
    (label : Option String) :
    compute (.new .min column false label) rows =
        .ok (((Sorting.sortRows [⟨column, .asc⟩] (rowsWith column rows)).head?.map
          (·.get column)).getD .null) ∧
      compute (.new .max column false label) rows =
        .ok (((Sorting.sortRows [⟨column, .asc⟩] (rowsWith column rows)).getLast?.map
          (·.get column)).getD .null) := by
  obtain ⟨hhead, hlast⟩ := Sorting.ends_mergeSort ht fun _ hv ↦ hv
  have hmin : compute (.new .min column false label) rows =
      .ok (least (values (.new .min column false label) rows)) := rfl
  have hmax : compute (.new .max column false label) rows =
      .ok (greatest (values (.new .max column false label) rows)) := rfl
  rw [hmin, hmax, values_eq_map, values_eq_map, least_eq, greatest_eq, ← hhead, ← hlast,
    ← map_sortRows_asc, List.head?_map, List.getLast?_map]
  exact ⟨rfl, rfl⟩

theorem get?_of_mem_sortRows {keys : List SortKey} {row : Row}
    (h : row ∈ Sorting.sortRows keys (rowsWith column rows)) :
    row.get? column = some (row.get column) ∧ (row.get column).isNull = false := by
  have hm := (Sorting.sortRows_perm keys _).mem_iff.mp h
  have hnull : (row.get column).isNull = false := by simpa using (List.mem_filter.mp hm).2
  rw [Row.get] at hnull ⊢
  cases hget : row.get? column with
  | none =>
    rw [hget] at hnull
    cases hnull
  | some v =>
    rw [hget] at hnull
    exact ⟨rfl, hnull⟩

/-- Where the order of values is transitive on what the rows hold in a column, NULL apart, the rows
with a value there have a first and a last one by `ORDER BY` this column, and MIN is the value in
the first row and MAX the value in the last row. Without any such row both are NULL. -/
theorem compute_ends (ht : Sorting.TransitiveIn (rowsWith column rows) column)
    (label : Option String) :
    (rowsWith column rows ≠ [] →
      (∃ row v, (Sorting.sortRows [⟨column, .asc⟩] (rowsWith column rows)).head? = some row ∧
        row.get? column = some v ∧ v.isNull = false ∧
          compute (.new .min column false label) rows = .ok v) ∧
      ∃ row v, (Sorting.sortRows [⟨column, .asc⟩] (rowsWith column rows)).getLast? = some row ∧
        row.get? column = some v ∧ v.isNull = false ∧
          compute (.new .max column false label) rows = .ok v) ∧
    (rowsWith column rows = [] → compute (.new .min column false label) rows = .ok .null ∧
      compute (.new .max column false label) rows = .ok .null) := by
  obtain ⟨hmin, hmax⟩ := compute_min_and_max ht label
  constructor
  · intro hne
    have hsorted : Sorting.sortRows [⟨column, .asc⟩] (rowsWith column rows) ≠ [] := fun hnil ↦
      hne (hnil ▸ (Sorting.sortRows_perm [⟨column, .asc⟩] (rowsWith column rows)).symm).eq_nil
    obtain ⟨first, hfirst⟩ :=
      Option.ne_none_iff_exists'.mp (mt List.head?_eq_none_iff.mp hsorted)
    obtain ⟨last, hlast⟩ :=
      Option.ne_none_iff_exists'.mp (mt List.getLast?_eq_none_iff.mp hsorted)
    obtain ⟨hleast, hleastNull⟩ := get?_of_mem_sortRows (List.mem_of_head? hfirst)
    obtain ⟨hgreatest, hgreatestNull⟩ := get?_of_mem_sortRows (List.mem_of_getLast? hlast)
    rw [hfirst] at hmin
    rw [hlast] at hmax
    exact ⟨⟨first, _, hfirst, hleast, hleastNull, hmin⟩, last, _, hlast, hgreatest, hgreatestNull,
      hmax⟩
  · intro hnil
    rw [hmin, hmax, hnil, (Sorting.sortRows_perm _ []).eq_nil]
    exact ⟨rfl, rfl⟩

def weighed : List Row :=
  [.ofList [("id", .integer 0), ("kg", .integer 10)], .ofList [("id", .integer 1)],
    .ofList [("id", .integer 2), ("kg", .text "2")], .ofList [("id", .integer 3), ("kg", .null)],
    .ofList [("id", .integer 4), ("kg", .integer 2)],
    .ofList [("id", .integer 5), ("kg", .text "10")],
    .ofList [("id", .integer 6), ("kg", .text "1e1")]]

theorem compute_ends_weighed :
    let sorted : List Row := [.ofList [("id", .integer 2), ("kg", .text "2")],
      .ofList [("id", .integer 4), ("kg", .integer 2)],
      .ofList [("id", .integer 0), ("kg", .integer 10)],
      .ofList [("id", .integer 5), ("kg", .text "10")],
      .ofList [("id", .integer 6), ("kg", .text "1e1")]]
    Sorting.TransitiveIn (rowsWith "kg" weighed) "kg" ∧
      Sorting.sortRows [⟨"kg", .asc⟩] (rowsWith "kg" weighed) = sorted ∧
        compute (.new .min "kg" false none) weighed = .ok (.text "2") ∧
          compute (.new .max "kg" false none) weighed = .ok (.text "1e1") := by
  intro sorted
  have ht : Sorting.TransitiveIn (rowsWith "kg" weighed) "kg" := by decide +kernel
  have hrows : Sorting.TransitiveOn (· ∈ rowsWith "kg" weighed)
      (Sorting.rowOrder [⟨"kg", .asc⟩]) :=
    Sorting.transitiveOn_rowOrder (List.forall_mem_singleton.mpr ht)
  have hsort : Sorting.sortRows [⟨"kg", .asc⟩] (rowsWith "kg" weighed) = sorted :=
    (Sorting.sortRows_eq_insertionSort hrows).trans (by decide +kernel)
  obtain ⟨⟨first, v, hfirst, hv, -, hmin⟩, last, w, hlast, hw, -, hmax⟩ :=
    (compute_ends ht none).1 (by decide +kernel)
  rw [hsort] at hfirst hlast
  cases hfirst
  cases hlast
  cases hv
  cases hw
  exact ⟨ht, hsort, hmin, hmax⟩

end Aggregate

end TableQuery
