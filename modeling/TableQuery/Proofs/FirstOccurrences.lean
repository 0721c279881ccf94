import Mathlib.Data.List.Induction
import Mathlib.Data.List.Nodup
import Mathlib.Data.List.Perm.Basic
import Mathlib.Data.List.ReduceOption
import Mathlib.Data.Option.Basic

namespace TableQuery

variable {α : Type} [BEq α] [LawfulBEq α]

theorem eraseDups_concat (l : List α) (a : α) :
    (l ++ [a]).eraseDups = if a ∈ l then l.eraseDups else l.eraseDups ++ [a] := by
  rw [List.eraseDups_append]
  by_cases h : a ∈ l <;> simp [List.removeAll, List.eraseDups_cons, h]

theorem nodup_eraseDups (l : List α) : l.eraseDups.Nodup := by
  induction l using List.reverseRecOn with
  | nil => exact List.nodup_nil
  | append_singleton l a ih =>
    rw [eraseDups_concat]
    split
    · exact ih
    · rename_i ha
      refine List.nodup_append.2 ⟨ih, by simp, fun b hb c hc hbc ↦ ha ?_⟩
      rw [List.mem_singleton] at hc
      exact List.mem_eraseDups.mp (hc ▸ hbc ▸ hb)

theorem pairwise_idxOf_eraseDups (l : List α) :
    l.eraseDups.Pairwise fun a b ↦ l.idxOf a < l.idxOf b := by
  induction l using List.reverseRecOn with
  | nil => exact .nil
  | append_singleton l a ih =>
    -- the members of `l` keep their places, and a new member comes behind all of them
    have hold : l.eraseDups.Pairwise fun b c ↦ (l ++ [a]).idxOf b < (l ++ [a]).idxOf c := by
      refine ih.imp_of_mem fun {b c} hb hc h ↦ ?_
      rwa [List.idxOf_append_of_mem (List.mem_eraseDups.mp hb),
        List.idxOf_append_of_mem (List.mem_eraseDups.mp hc)]
    rw [eraseDups_concat]
    split
    · exact hold
    · rename_i ha
      refine List.pairwise_append.mpr ⟨hold, List.pairwise_singleton _ _, fun b hb c hc ↦ ?_⟩
      have hb := List.mem_eraseDups.mp hb
      obtain rfl := List.mem_singleton.mp hc
      have hlt := List.idxOf_lt_length_of_mem hb
      rw [List.idxOf_append_of_mem hb, List.idxOf_append_of_notMem ha]
      omega

theorem eraseDups_perm {l l' : List α} (h : ∀ a, a ∈ l ↔ a ∈ l') :
    l.eraseDups.Perm l'.eraseDups := by
  refine (List.perm_ext_iff_of_nodup (nodup_eraseDups l) (nodup_eraseDups l')).mpr fun a ↦ ?_
  rw [List.mem_eraseDups, List.mem_eraseDups, h]

theorem length_eraseDups_append_le (l l' : List α) :
    (l ++ l').eraseDups.length ≤ l.eraseDups.length + l'.eraseDups.length := by
  have hsub : (l ++ l').eraseDups ⊆ l.eraseDups ++ l'.eraseDups := by
    intro a ha
    simpa [List.mem_append, List.mem_eraseDups] using ha
  have hle := (List.subperm_of_subset (nodup_eraseDups _) hsub).length_le
  rwa [List.length_append] at hle

theorem eraseDups_map {β : Type} [BEq β] [LawfulBEq β] {f : α → β} (hf : Function.Injective f)
    (l : List α) : (l.map f).eraseDups = l.eraseDups.map f := by
  induction l using List.reverseRecOn with
  | nil => rfl
  | append_singleton l a ih =>
    rw [List.map_append, List.map_singleton, eraseDups_concat, eraseDups_concat, ih]
    by_cases ha : a ∈ l
    · rw [if_pos ha, if_pos (List.mem_map_of_mem ha)]
    · rw [if_neg ha, if_neg (mt (List.mem_map_of_injective hf).mp ha), List.map_append,
        List.map_singleton]

theorem find?_eraseDups (p : α → Bool) (l : List α) : l.eraseDups.find? p = l.find? p := by
  induction l using List.reverseRecOn with
  | nil => rfl
  | append_singleton l a ih =>
    rw [eraseDups_concat, List.find?_append]
    split
    · rename_i ha
      rw [ih]
      cases hp : p a with
      | false => simp [hp]
      | true =>
        have hsome : (l.find? p).isSome = true := List.find?_isSome.mpr ⟨a, ha, hp⟩
        rw [Option.or_of_isSome hsome]
    · rw [List.find?_append, ih]

theorem length_eraseDups_reduceOption (l : List (Option α)) :
    l.eraseDups.length = l.reduceOption.eraseDups.length + if none ∈ l then 1 else 0 := by
  have hnodup : (l.reduceOption.eraseDups.map some ++ if none ∈ l then [none] else []).Nodup := by
    have hsome := (nodup_eraseDups l.reduceOption).map (Option.some_injective _)
    split
    · exact List.nodup_append.mpr ⟨hsome, by simp, by simp⟩
    · rwa [List.append_nil]
  have hperm := (List.perm_ext_iff_of_nodup (nodup_eraseDups l) hnodup).mpr fun o ↦ by
    rw [List.mem_append, List.mem_eraseDups]
    cases o with
    | none => by_cases h : none ∈ l <;> simp [h]
    | some a => by_cases h : none ∈ l <;> simp [h, List.mem_eraseDups, List.reduceOption_mem_iff]
  rw [hperm.length_eq, List.length_append, List.length_map]
  split <;> rfl

end TableQuery
