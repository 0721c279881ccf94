import TableQuery.Grouping
import TableQuery.Proofs.FirstOccurrences

namespace TableQuery.Grouping

theorem addRow_map (k : GroupKey) (row : Row) {keys : List GroupKey} (hn : keys.Nodup)
    (f : GroupKey → List Row) :
    addRow k row (keys.map fun k' ↦ (k', f k')) =
      (if k ∈ keys then keys else keys ++ [k]).map fun k' ↦
        (k', if k' = k then (if k ∈ keys then f k else []) ++ [row] else f k') := by
  induction keys with
  | nil => simp [addRow]
  | cons k' keys ih =>
    obtain ⟨hk', hn⟩ := List.nodup_cons.mp hn
    rw [List.map_cons, addRow]
    by_cases h : k' = k
    · subst h
      have hne : ∀ k ∈ keys, k ≠ k' := fun k hk he ↦ hk' (he ▸ hk)
      simp only [List.mem_cons, true_or, if_true, List.map_cons, List.cons.injEq, true_and]
      exact List.map_congr_left fun k hk ↦ by rw [if_neg (hne k hk)]
    · have hne : k ≠ k' := Ne.symm h
      simp only [if_neg h, ih hn, List.mem_cons, hne, false_or]
      split <;> simp [h]

/-- The groups of rows: one for each different key, with the rows that have it. -/
theorem groups_eq (columns : List String) (rows : List Row) :
    groups columns rows = (rows.map (key columns)).eraseDups.map fun k ↦
      (k, rows.filter fun row ↦ key columns row == k) := by
  induction rows using List.reverseRecOn with
  | nil => rfl
  | append_singleton rows row ih =>
    have hstep : groups columns (rows ++ [row]) =
        addRow (key columns row) row (groups columns rows) := by
      simp only [groups, List.foldl_append, List.foldl_cons, List.foldl_nil]
    rw [hstep, ih, addRow_map _ _ (nodup_eraseDups _), List.map_append, List.map_singleton,
      eraseDups_concat]
    simp only [List.mem_eraseDups]
    refine List.map_congr_left fun k hk ↦ ?_
    rw [List.filter_append]
    by_cases h : k = key columns row
    · subst h
      by_cases hm : key columns row ∈ rows.map (key columns)
      · simp [hm]
      · have hnil : rows.filter (fun r ↦ key columns r == key columns row) = [] := by
          refine List.filter_eq_nil_iff.mpr fun r hr he ↦ hm ?_
          exact List.mem_map.mpr ⟨r, hr, eq_of_beq he⟩
        simp [hm, hnil]
    · have hne : (key columns row == k) = false := beq_eq_false_iff_ne.mpr (Ne.symm h)
      simp [h, hne]

theorem length_groups (columns : List String) (rows : List Row) :
    (groups columns rows).length = (rows.map (key columns)).eraseDups.length := by
  rw [groups_eq, List.length_map]

theorem exists_mem_groups {columns : List String} {rows : List Row} {row : Row} :
    (∃ group ∈ groups columns rows, row ∈ group.2) ↔ row ∈ rows := by
  simp only [groups_eq, List.mem_map, List.mem_eraseDups]
  constructor
  · rintro ⟨_, ⟨k, _, rfl⟩, hr⟩
    exact (List.mem_filter.mp hr).1
  · intro hr
    exact ⟨_, ⟨_, ⟨row, hr, rfl⟩, rfl⟩, List.mem_filter.mpr ⟨hr, beq_self_eq_true _⟩⟩

end TableQuery.Grouping
