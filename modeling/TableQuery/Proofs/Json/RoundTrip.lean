import TableQuery.Proofs.Json.Strings
import TableQuery.Proofs.Json.WholeNumbers
import TableQuery.Proofs.Row.Insertion
import Mathlib.Data.List.Forall2

namespace TableQuery.Json

open Raw (skipBlank)

/-- Values that JSON text keeps, at most so deep: whole numbers have 64 bits, and the keys of an
object are distinct. -/
inductive Exact : Nat → Json → Prop
  | null {n : Nat} : Exact n .null
  | bool {n : Nat} (b : Bool) : Exact n (.bool b)
  | integer {n : Nat} {k : Int} (hlow : -2 ^ 63 ≤ k) (hhigh : k < 2 ^ 64) :
      Exact n (.number (.integer k))
  | text {n : Nat} (s : String) : Exact n (.text s)
  | array {n : Nat} {items : List Json} (h : ∀ item ∈ items, Exact n item) :
      Exact (n + 1) (.array items)
  | object {n : Nat} {members : List (String × Json)} (hkeys : (Entries.names members).Nodup)
      (h : ∀ member ∈ members, Exact n member.2) : Exact (n + 1) (.object members)

/-- What is written for a value is read, up to whatever follows, as parts of at most some depth that
mean the value. -/
structure ReadsAs (n : Nat) (j : Json) (raw : Raw) : Prop where
  head : ∃ c s, j.render = c :: s ∧ Raw.isBlank c = false ∧ c ≠ ']'
  read : ∀ fuel rest, 2 * j.render.length ≤ fuel + 1 → EndsNumber rest →
    Raw.readValue? (fuel + 1) (j.render ++ rest) = some (raw, rest)
  value : raw.value? = some j
  depth_le : raw.depth ≤ n

def MemberReadsAs (n : Nat) (member : String × Json) (raw : List Letter × Raw) : Prop :=
  raw.1 = lettersOf member.1 ∧ ReadsAs n member.2 raw.2

theorem skipBlank_cons {c : Char} (h : Raw.isBlank c = false) (s : List Char) :
    skipBlank (c :: s) = c :: s := by
  rw [skipBlank, List.dropWhile_cons_of_neg (by rw [h]; decide)]

theorem endsNumber_cons {c : Char} (h : c ∈ [',', ']', '\x7d']) (s : List Char) :
    EndsNumber (c :: s) := by
  intro d hd
  obtain rfl : c = d := by simpa using hd
  obtain rfl | rfl | rfl : c = ',' ∨ c = ']' ∨ c = '\x7d' := by simpa using h
  all_goals decide

theorem ne_of_numeral {c : Char} (hc : c = '-' ∨ c.isDigit = true) :
    ∀ d ∈ [' ', '\n', '\t', '\r', '"', '[', ']', '\x7b', 'n', 't', 'f'], c ≠ d := by
  have hother : [' ', '\n', '\t', '\r', '"', '[', ']', '\x7b', 'n', 't', 'f'].all
      (fun d ↦ d != '-' && !d.isDigit) = true := by decide
  rintro d hd rfl
  have hnot := List.all_eq_true.mp hother c hd
  rcases hc with rfl | hdigit
  · exact absurd hnot (by decide)
  · simp [hdigit] at hnot

theorem isBlank_of_numeral {c : Char} (hc : c = '-' ∨ c.isDigit = true) :
    Raw.isBlank c = false := by
  have hne := ne_of_numeral hc
  simp only [Raw.isBlank, Bool.or_eq_false_iff, beq_eq_false_iff_ne]
  exact ⟨⟨⟨hne _ (by simp), hne _ (by simp)⟩, hne _ (by simp)⟩, hne _ (by simp)⟩

theorem readValue?_of_numeral {c : Char} (hc : c = '-' ∨ c.isDigit = true) (s : List Char)
    (fuel : Nat) : Raw.readValue? (fuel + 1) (c :: s) =
      (Raw.readNumeral? (c :: s)).map fun (n, rest) ↦ (.number n, rest) := by
  have hne := ne_of_numeral hc
  rw [Raw.readValue?, skipBlank_cons (isBlank_of_numeral hc)]
  split
  case h_7 => rfl
  all_goals
    rename_i heq
    cases heq
    exact absurd rfl (hne _ (by simp))

theorem renderItems_cons_cons (item item' : Json) (items : List Json) :
    renderItems (item :: item' :: items) = item.render ++ ',' :: renderItems (item' :: items) := by
  simp [renderItems]

theorem renderMembers_cons_cons (member member' : String × Json) (members : List (String × Json)) :
    renderMembers (member :: member' :: members) = renderText member.1 ++ ':' :: member.2.render ++
      ',' :: renderMembers (member' :: members) := by
  simp [renderMembers]

theorem readItems?_of_bracket {fuel : Nat} {s rest : List Char} {item : Raw}
    (h : Raw.readValue? fuel s = some (item, ']' :: rest)) :
    Raw.readItems? (fuel + 1) s = some ([item], rest) := by
  simp [Raw.readItems?, skipBlank_cons, Raw.isBlank, h]

theorem readItems?_of_comma {fuel : Nat} {s rest : List Char} {item : Raw}
    (h : Raw.readValue? fuel s = some (item, ',' :: rest)) : Raw.readItems? (fuel + 1) s =
      (Raw.readItems? fuel rest).map fun (items, rest) ↦ (item :: items, rest) := by
  simp [Raw.readItems?, skipBlank_cons, Raw.isBlank, h]

theorem readMembers?_of_brace {fuel : Nat} {s t rest : List Char} {key : List Letter} {value : Raw}
    (hkey : Raw.readText? [] s = some (key, ':' :: t))
    (h : Raw.readValue? fuel t = some (value, '\x7d' :: rest)) :
    Raw.readMembers? (fuel + 1) ('"' :: s) = some ([(key, value)], rest) := by
  simp [Raw.readMembers?, skipBlank_cons, Raw.isBlank, hkey, h]

theorem readMembers?_of_comma {fuel : Nat} {s t rest : List Char} {key : List Letter} {value : Raw}
    (hkey : Raw.readText? [] s = some (key, ':' :: t))
    (h : Raw.readValue? fuel t = some (value, ',' :: rest)) :
    Raw.readMembers? (fuel + 1) ('"' :: s) =
      (Raw.readMembers? fuel rest).map fun (members, rest) ↦ ((key, value) :: members, rest) := by
  simp [Raw.readMembers?, skipBlank_cons, Raw.isBlank, hkey, h]

namespace ReadsAs

variable {n : Nat}

theorem null : ReadsAs n .null .null where
  head := ⟨'n', ['u', 'l', 'l'], by simp [render], by decide, by decide⟩
  read := by
    intro fuel rest _ _
    simp [render, Raw.readValue?, skipBlank_cons, Raw.isBlank]
  value := by simp [Raw.value?]
  depth_le := by simp [Raw.depth]

theorem bool (b : Bool) : ReadsAs n (.bool b) (.bool b) where
  head := by
    cases b with
    | true => exact ⟨'t', ['r', 'u', 'e'], by simp [render], by decide, by decide⟩
    | false => exact ⟨'f', ['a', 'l', 's', 'e'], by simp [render], by decide, by decide⟩
  read := by
    intro fuel rest _ _
    cases b <;> simp [render, Raw.readValue?, skipBlank_cons, Raw.isBlank]
  value := by simp [Raw.value?]
  depth_le := by simp [Raw.depth]

theorem text (s : String) : ReadsAs n (.text s) (.text (lettersOf s)) where
  head :=
    ⟨'"', s.toList.flatMap escape ++ ['"'], by simp [render, renderText], by decide, by decide⟩
  read := by
    intro fuel rest _ _
    rw [render, renderText_append, Raw.readValue?, skipBlank_cons (by decide)]
    simp [readText?_lettersOf]
  value := by simp [Raw.value?, string?_lettersOf]
  depth_le := by simp [Raw.depth]

theorem integer {k : Int} (hlow : -2 ^ 63 ≤ k) (hhigh : k < 2 ^ 64) :
    ReadsAs n (.number (.integer k)) (.number (.ofInt k)) where
  head := by
    obtain ⟨c, digits, hrender, hc⟩ := exists_head_renderNumber k
    rw [render]
    exact ⟨c, digits, hrender, isBlank_of_numeral hc, ne_of_numeral hc _ (by simp)⟩
  read := by
    intro fuel rest _ hrest
    obtain ⟨c, digits, hrender, hc⟩ := exists_head_renderNumber k
    have hread := readNumeral?_renderNumber k hrest
    rw [hrender] at hread
    rw [render, hrender, List.cons_append, readValue?_of_numeral hc, ← List.cons_append, hread]
    rfl
  value := by simp [Raw.value?, number?_ofInt hlow hhigh]
  depth_le := by simp [Raw.depth]

theorem readValue?_of_le {j : Json} {raw : Raw} (h : ReadsAs n j raw) {fuel : Nat}
    (hfuel : 2 * j.render.length ≤ fuel) {rest : List Char} (hrest : EndsNumber rest) :
    Raw.readValue? fuel (j.render ++ rest) = some (raw, rest) := by
  obtain ⟨c, s, hrender, -, -⟩ := h.head
  cases fuel with
  | zero => simp [hrender] at hfuel
  | succ fuel => exact h.read fuel rest hfuel hrest

variable {items : List Json} {raws : List Raw}

theorem readItems?_render (h : List.Forall₂ (ReadsAs n) items raws) (hne : items ≠ [])
    {fuel : Nat} (hfuel : 2 * (renderItems items).length ≤ fuel) (rest : List Char) :
    Raw.readItems? (fuel + 1) (renderItems items ++ ']' :: rest) = some (raws, rest) := by
  induction h generalizing fuel with
  | nil => exact absurd rfl hne
  | @cons item raw items raws hitem hitems ih =>
    cases hitems with
    | nil =>
      rw [renderItems] at hfuel ⊢
      exact readItems?_of_bracket (hitem.readValue?_of_le hfuel (endsNumber_cons (by simp) rest))
    | @cons item' raw' items raws hitem' hitems =>
      rw [renderItems_cons_cons, List.length_append, List.length_cons] at hfuel
      rw [renderItems_cons_cons, List.append_assoc, List.cons_append]
      have hread := hitem.readValue?_of_le (show _ ≤ fuel by omega)
        (endsNumber_cons (show ',' ∈ _ by simp) (renderItems (item' :: items) ++ ']' :: rest))
      obtain ⟨fuel, rfl⟩ : ∃ k, fuel = k + 1 := ⟨fuel - 1, by omega⟩
      have hrest := ih (List.cons_ne_nil _ _) (show _ ≤ fuel by omega)
      rw [readItems?_of_comma hread, hrest]
      rfl

theorem items?_eq (h : List.Forall₂ (ReadsAs n) items raws) : Raw.items? raws = some items := by
  induction h with
  | nil => rfl
  | cons hitem _ ih => simp [Raw.items?, hitem.value, ih]

theorem depthItems_le (h : List.Forall₂ (ReadsAs n) items raws) : Raw.depthItems raws ≤ n := by
  induction h with
  | nil => exact Nat.zero_le n
  | cons hitem _ ih => exact Nat.max_le.mpr ⟨hitem.depth_le, ih⟩

theorem exists_head_renderItems (h : List.Forall₂ (ReadsAs n) items raws) (hne : items ≠ []) :
    ∃ c s, renderItems items = c :: s ∧ Raw.isBlank c = false ∧ c ≠ ']' := by
  cases h with
  | nil => exact absurd rfl hne
  | @cons item raw items raws hitem hitems =>
    obtain ⟨c, s, hrender, hc⟩ := hitem.head
    cases items with
    | nil => exact ⟨c, s, by rw [renderItems, hrender], hc⟩
    | cons item' items =>
      rw [renderItems_cons_cons, hrender]
      exact ⟨c, _, List.cons_append, hc⟩

theorem array (h : List.Forall₂ (ReadsAs n) items raws) :
    ReadsAs (n + 1) (.array items) (.array raws) where
  head := ⟨'[', renderItems items ++ [']'], by simp [render], by decide, by decide⟩
  read := by
    intro fuel rest hfuel _
    have hlen : (Json.array items).render.length = (renderItems items).length + 2 := by
      simp [render]
    have hrender : (Json.array items).render ++ rest =
        '[' :: (renderItems items ++ ']' :: rest) := by
      simp [render]
    rw [hlen] at hfuel
    rw [hrender, Raw.readValue?, skipBlank_cons (by decide)]
    by_cases hne : items = []
    · subst hne
      cases h
      simp [renderItems, skipBlank_cons, Raw.isBlank]
    · obtain ⟨c, s, hhead, hblank, hclose⟩ := exists_head_renderItems h hne
      obtain ⟨fuel, rfl⟩ : ∃ k, fuel = k + 1 := ⟨fuel - 1, by omega⟩
      have hread := readItems?_render h hne (show _ ≤ fuel by omega) rest
      rw [hhead] at hread ⊢
      rw [List.cons_append] at hread ⊢
      simp [skipBlank_cons hblank, hclose, hread]
  value := by simp [Raw.value?, items?_eq h]
  depth_le := Nat.add_le_add_right (depthItems_le h) 1

variable {members : List (String × Json)} {rawMembers : List (List Letter × Raw)}

theorem readMembers?_render (h : List.Forall₂ (MemberReadsAs n) members rawMembers)
    (hne : members ≠ []) {fuel : Nat} (hfuel : 2 * (renderMembers members).length ≤ fuel)
    (rest : List Char) : Raw.readMembers? (fuel + 1) (renderMembers members ++ '\x7d' :: rest) =
      some (rawMembers, rest) := by
  induction h generalizing fuel with
  | nil => exact absurd rfl hne
  | @cons member raw members rawMembers hmember hmembers ih =>
    obtain ⟨key, value⟩ := member
    obtain ⟨rawKey, raw⟩ := raw
    obtain ⟨rfl, hvalue⟩ : rawKey = lettersOf key ∧ ReadsAs n value raw := hmember
    cases hmembers with
    | nil =>
      simp only [renderMembers, List.length_append, List.length_cons] at hfuel
      have hread := hvalue.readValue?_of_le (show _ ≤ fuel by omega)
        (endsNumber_cons (show '\x7d' ∈ _ by simp) rest)
      rw [renderMembers, List.append_assoc, List.cons_append, renderText_append]
      exact readMembers?_of_brace (readText?_lettersOf key _) hread
    | @cons member' raw' members rawMembers hmember' hmembers =>
      simp only [renderMembers_cons_cons, List.length_append, List.length_cons] at hfuel
      have hread := hvalue.readValue?_of_le (show _ ≤ fuel by omega)
        (endsNumber_cons (show ',' ∈ _ by simp)
          (renderMembers (member' :: members) ++ '\x7d' :: rest))
      obtain ⟨fuel, rfl⟩ : ∃ k, fuel = k + 1 := ⟨fuel - 1, by omega⟩
      have hrest := ih (List.cons_ne_nil _ _) (show _ ≤ fuel by omega)
      rw [renderMembers_cons_cons, List.append_assoc, List.append_assoc, renderText_append,
        List.cons_append, List.cons_append,
        readMembers?_of_comma (readText?_lettersOf key _) hread, hrest]
      rfl

theorem members?_eq (h : List.Forall₂ (MemberReadsAs n) members rawMembers) :
    Raw.members? rawMembers = some members := by
  induction h with
  | nil => rfl
  | @cons member raw members rawMembers hmember _ ih =>
    simp [Raw.members?, hmember.1, string?_lettersOf, hmember.2.value, ih]

theorem depthMembers_le (h : List.Forall₂ (MemberReadsAs n) members rawMembers) :
    Raw.depthMembers rawMembers ≤ n := by
  induction h with
  | nil => exact Nat.zero_le n
  | cons hmember _ ih => exact Nat.max_le.mpr ⟨hmember.2.depth_le, ih⟩

theorem exists_renderMembers (hne : members ≠ []) : ∃ s, renderMembers members = '"' :: s := by
  obtain ⟨member, members, rfl⟩ := List.exists_cons_of_ne_nil hne
  cases members with
  | nil => exact ⟨_, by rw [renderMembers, renderText_append]⟩
  | cons member' members =>
    exact ⟨_, by rw [renderMembers_cons_cons, List.append_assoc, renderText_append]⟩

theorem object (hkeys : (Entries.names members).Nodup)
    (h : List.Forall₂ (MemberReadsAs n) members rawMembers) :
    ReadsAs (n + 1) (.object members) (.object rawMembers) where
  head := ⟨'\x7b', renderMembers members ++ ['\x7d'], by simp [render], by decide, by decide⟩
  read := by
    intro fuel rest hfuel _
    have hlen : (Json.object members).render.length = (renderMembers members).length + 2 := by
      simp [render]
    have hrender : (Json.object members).render ++ rest =
        '\x7b' :: (renderMembers members ++ '\x7d' :: rest) := by
      simp [render]
    rw [hlen] at hfuel
    rw [hrender, Raw.readValue?, skipBlank_cons (by decide)]
    by_cases hne : members = []
    · subst hne
      cases h
      simp [renderMembers, skipBlank_cons, Raw.isBlank]
    · obtain ⟨s, hhead⟩ := exists_renderMembers hne
      obtain ⟨fuel, rfl⟩ : ∃ k, fuel = k + 1 := ⟨fuel - 1, by omega⟩
      have hread := readMembers?_render h hne (show _ ≤ fuel by omega) rest
      rw [hhead, List.cons_append] at hread ⊢
      simp [skipBlank_cons, Raw.isBlank, hread]
  value := by simp [Raw.value?, members?_eq h, Entries.ofList_of_nodup hkeys]
  depth_le := Nat.add_le_add_right (depthMembers_le h) 1

end ReadsAs

theorem exists_forall₂ {α β : Type} {R : α → β → Prop} {l : List α} (h : ∀ a ∈ l, ∃ b, R a b) :
    ∃ l', List.Forall₂ R l l' := by
  induction l with
  | nil => exact ⟨[], .nil⟩
  | cons a l ih =>
    obtain ⟨⟨b, hb⟩, hl⟩ := List.forall_mem_cons.mp h
    obtain ⟨l', hl'⟩ := ih hl
    exact ⟨b :: l', .cons hb hl'⟩

theorem Exact.exists_readsAs {n : Nat} {j : Json} (h : Exact n j) : ∃ raw, ReadsAs n j raw := by
  induction h with
  | null => exact ⟨_, .null⟩
  | bool b => exact ⟨_, .bool b⟩
  | integer hlow hhigh => exact ⟨_, .integer hlow hhigh⟩
  | text s => exact ⟨_, .text s⟩
  | array _ ih =>
    obtain ⟨raws, hraws⟩ := exists_forall₂ ih
    exact ⟨_, .array hraws⟩
  | object hkeys _ ih =>
    obtain ⟨raws, hraws⟩ := exists_forall₂ (R := MemberReadsAs _) fun member hm ↦
      let ⟨raw, hraw⟩ := ih member hm
      ⟨(lettersOf member.1, raw), rfl, hraw⟩
    exact ⟨_, .object hkeys hraws⟩

/-- What is written for an exact value is read as the same value. -/
theorem parse?_compact {j : Json} (h : Exact maxDepth j) : parse? j.compact = some j := by
  obtain ⟨raw, hraw⟩ := h.exists_readsAs
  have hend : EndsNumber [] := by simp [EndsNumber]
  have hread := hraw.readValue?_of_le (show _ ≤ 2 * j.render.length + 2 by omega) hend
  rw [List.append_nil] at hread
  simp [parse?, compact, Raw.read?, hread, skipBlank, hraw.depth_le, hraw.value]

end TableQuery.Json
