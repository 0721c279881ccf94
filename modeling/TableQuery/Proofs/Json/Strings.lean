import TableQuery.Json.Meaning
import TableQuery.Json.Printer

namespace TableQuery.Json

def Letter.ofChar (c : Char) : Letter :=
  if c.toNat < 0x20 ∧ c ∉ ['\x08', '\t', '\n', '\x0c', '\r'] then .unit c.toNat else .plain c

theorem hexValue?_digitChar : ∀ n < 16, Raw.hexValue? n.digitChar = some n := by decide

theorem unit?_digitChar {n : Nat} (h : n < 0x20) :
    Raw.unit? '0' '0' (n / 16).digitChar (n % 16).digitChar = some (.unit n) := by
  have hzero : Raw.hexValue? '0' = some 0 := by decide
  have hhigh := hexValue?_digitChar (n / 16) (by omega)
  have hlow := hexValue?_digitChar (n % 16) (by omega)
  simp only [Raw.unit?, hzero, hhigh, hlow, Option.bind_eq_bind, Option.bind_some]
  congr 2
  omega

theorem readText?_plain {c : Char} (hquote : c ≠ '"') (hslash : c ≠ '\\') (hc : ¬c.toNat < 0x20)
    (letters : List Letter) (rest : List Char) :
    Raw.readText? letters (c :: rest) = Raw.readText? (.plain c :: letters) rest := by
  rw [Raw.readText?.eq_def]
  split
  · rename_i h
    cases h
  · rename_i h
    cases h
    exact absurd rfl hquote
  · rename_i h
    cases h
    exact absurd rfl hslash
  · rename_i h
    cases h
    exact absurd rfl hslash
  · rename_i h
    cases h
    exact if_neg hc

theorem readText?_escape (c : Char) (letters : List Letter) (rest : List Char) :
    Raw.readText? letters (escape c ++ rest) = Raw.readText? (.ofChar c :: letters) rest := by
  unfold escape
  split
  case h_8 hquote hslash hb ht hn hf hr =>
    split
    · rename_i hc
      have hcontrol : c ∉ ['\x08', '\t', '\n', '\x0c', '\r'] := by
        simp only [List.mem_cons, List.not_mem_nil, or_false, not_or]
        exact ⟨hb, ht, hn, hf, hr⟩
      rw [Letter.ofChar, if_pos ⟨hc, hcontrol⟩]
      simp [Raw.readText?, unit?_digitChar hc]
    · rename_i hc
      rw [Letter.ofChar, if_neg fun h ↦ hc h.1]
      exact readText?_plain hquote hslash hc letters rest
  -- the quote, the backslash and the controls that have a letter
  all_goals simp [Raw.readText?, Raw.escaped?, Letter.ofChar]

theorem readText?_flatMap_escape (cs : List Char) (letters : List Letter) (rest : List Char) :
    Raw.readText? letters (cs.flatMap escape ++ '"' :: rest) =
      some (letters.reverse ++ cs.map .ofChar, rest) := by
  induction cs generalizing letters with
  | nil => simp [Raw.readText?]
  | cons c cs ih =>
    rw [List.flatMap_cons, List.append_assoc, readText?_escape, ih]
    simp

def lettersOf (s : String) : List Letter := s.toList.map .ofChar

theorem renderText_append (s : String) (rest : List Char) :
    renderText s ++ rest = '"' :: (s.toList.flatMap escape ++ '"' :: rest) := by
  simp [renderText]

theorem readText?_lettersOf (s : String) (rest : List Char) :
    Raw.readText? [] (s.toList.flatMap escape ++ '"' :: rest) = some (lettersOf s, rest) :=
  readText?_flatMap_escape s.toList [] rest

theorem joinLetters?_unit {n : Nat} (h : n < 0xD800) (found : List Char) (letters : List Letter) :
    joinLetters? found (.unit n :: letters) = joinLetters? (Char.ofNat n :: found) letters := by
  have hhigh : isHigh n = false := by
    simp only [isHigh, Bool.and_eq_false_iff, decide_eq_false_iff_not]
    omega
  have hlow : isLow n = false := by
    simp only [isLow, Bool.and_eq_false_iff, decide_eq_false_iff_not]
    omega
  cases letters with
  | nil => simp [joinLetters?, hhigh, hlow]
  | cons letter letters => cases letter <;> simp [joinLetters?, hhigh, hlow]

theorem joinLetters?_ofChar (c : Char) (found : List Char) (letters : List Letter) :
    joinLetters? found (.ofChar c :: letters) = joinLetters? (c :: found) letters := by
  unfold Letter.ofChar
  split
  · rename_i h
    rw [joinLetters?_unit (by omega), Char.ofNat_toNat]
  · simp only [joinLetters?]

theorem joinLetters?_map_ofChar (cs found : List Char) :
    joinLetters? found (cs.map .ofChar) = some (found.reverse ++ cs) := by
  induction cs generalizing found with
  | nil => simp [joinLetters?]
  | cons c cs ih =>
    rw [List.map_cons, joinLetters?_ofChar, ih]
    simp

theorem string?_lettersOf (s : String) : string? (lettersOf s) = some s := by
  simp [string?, lettersOf, joinLetters?_map_ofChar]

def ControlFree (cs : List Char) : Prop := ∀ c ∈ cs, ¬c.toNat < 0x20

instance : DecidablePred ControlFree := List.decidableBAll fun c : Char ↦ ¬c.toNat < 0x20

theorem controlFree_append {cs ds : List Char} :
    ControlFree (cs ++ ds) ↔ ControlFree cs ∧ ControlFree ds := List.forall_mem_append

theorem controlFree_flatMap {α : Type} {f : α → List Char} (h : ∀ a, ControlFree (f a))
    (l : List α) : ControlFree (l.flatMap f) := by
  intro c hc
  obtain ⟨a, -, hmem⟩ := List.mem_flatMap.mp hc
  exact h a c hmem

theorem controlFree_digitChar : ∀ n < 16, ControlFree [n.digitChar] := by decide

theorem controlFree_escape (c : Char) : ControlFree (escape c) := by
  unfold escape
  split
  case h_8 =>
    split
    · have hfixed : ControlFree ['\\', 'u', '0', '0'] := by decide
      have hhigh := controlFree_digitChar (c.toNat / 16) (by omega)
      have hlow := controlFree_digitChar (c.toNat % 16) (by omega)
      exact controlFree_append.mpr ⟨hfixed, controlFree_append.mpr ⟨hhigh, hlow⟩⟩
    · rename_i hc
      exact List.forall_mem_singleton.mpr hc
  all_goals decide

theorem controlFree_renderText (s : String) : ControlFree (renderText s) := by
  have hquote : ControlFree ['"'] := by decide
  have hinside : ControlFree (s.toList.flatMap escape) := controlFree_flatMap controlFree_escape _
  exact controlFree_append.mpr ⟨controlFree_append.mpr ⟨hquote, hinside⟩, hquote⟩

end TableQuery.Json
