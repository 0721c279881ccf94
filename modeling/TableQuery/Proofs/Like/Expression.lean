import TableQuery.Proofs.Like.Cuts

namespace TableQuery.Like

/-- What the expression of a pattern is put together from. Letters match in any case, and any one
character or run of characters may be line breaks. -/
inductive Atom where
  | textStart
  | textEnd
  | anyOne
  | anyRun
  | letters (run : List Char)
deriving DecidableEq

/-- Whether an atom matches a part of a text between what stands before and after it. -/
def Atom.Matches : Atom → (before part after : List Char) → Prop
  | .textStart, before, part, _ => before = [] ∧ part = []
  | .textEnd, _, part, after => part = [] ∧ after = []
  | .anyOne, _, part, _ => ∃ c, part = [c]
  | .anyRun, _, _, _ => True
  | .letters run, _, part, _ => List.Forall₂ (fun p c ↦ Text.fold c = Text.fold p) run part

def MatchInTurn : List Atom → (before part after : List Char) → Prop
  | [], _, part, _ => part = []
  | atom :: atoms, before, part, after => ∃ first rest, part = first ++ rest ∧
      atom.Matches before first (rest ++ after) ∧ MatchInTurn atoms (before ++ first) rest after

def FoundIn (atoms : List Atom) (text : List Char) : Prop :=
  ∃ before part after, text = before ++ part ++ after ∧ MatchInTurn atoms before part after

/-- An expression while it is written: the atoms so far, and the letters that wait to be written. -/
structure Draft where
  atoms : List Atom
  waiting : List Char
deriving DecidableEq

namespace Draft

def start : Draft := ⟨[.textStart], []⟩

def written (d : Draft) : List Atom := d.atoms ++ [.letters d.waiting]

def add (d : Draft) (c : Char) : Draft :=
  if c = '%' then ⟨d.written ++ [.anyRun], []⟩
  else if c = '_' then ⟨d.written ++ [.anyOne], []⟩
  else ⟨d.atoms, d.waiting ++ [c]⟩

end Draft

/-- The expression of a pattern. -/
def translate (pattern : List Char) : List Atom :=
  (pattern.foldl Draft.add .start).written ++ [.textEnd]

section

variable {atoms atoms' : List Atom} {atom : Atom} {before part after : List Char}

theorem matchInTurn_append : MatchInTurn (atoms ++ atoms') before part after ↔
    ∃ first rest, part = first ++ rest ∧ MatchInTurn atoms before first (rest ++ after) ∧
      MatchInTurn atoms' (before ++ first) rest after := by
  induction atoms generalizing before part with
  | nil => simp [MatchInTurn]
  | cons atom atoms ih =>
    simp only [List.cons_append, MatchInTurn, ih]
    constructor
    · rintro ⟨first, _, rfl, ha, middle, rest, rfl, hm, hr⟩
      refine ⟨first ++ middle, rest, by simp, ⟨first, middle, rfl, ?_, hm⟩, ?_⟩
      · simpa using ha
      · simpa using hr
    · rintro ⟨_, rest, rfl, ⟨first, middle, rfl, ha, hm⟩, hr⟩
      refine ⟨first, middle ++ rest, by simp, ?_, middle, rest, rfl, hm, ?_⟩
      · simpa using ha
      · simpa using hr

theorem matchInTurn_singleton : MatchInTurn [atom] before part after ↔
    atom.Matches before part after := by
  simp [MatchInTurn]

theorem matchInTurn_concat : MatchInTurn (atoms ++ [atom]) before part after ↔
    ∃ first rest, part = first ++ rest ∧ MatchInTurn atoms before first (rest ++ after) ∧
      atom.Matches (before ++ first) rest after := by
  simp only [matchInTurn_append, matchInTurn_singleton]

end

namespace Draft

variable {before part after : List Char}

theorem matchInTurn_written_nil {atoms : List Atom} :
    MatchInTurn (written ⟨atoms, []⟩) before part after ↔ MatchInTurn atoms before part after := by
  simp [written, matchInTurn_concat, Atom.Matches]

theorem matchInTurn_written_concat {atoms : List Atom} {waiting : List Char} {p : Char} :
    MatchInTurn (written ⟨atoms, waiting ++ [p]⟩) before part after ↔
      ∃ first c, part = first ++ [c] ∧ MatchInTurn (written ⟨atoms, waiting⟩) before first
        ([c] ++ after) ∧ Text.fold c = Text.fold p := by
  simp only [written, matchInTurn_concat, Atom.Matches, forall₂_concat_iff]
  constructor
  · rintro ⟨first, _, rfl, hatoms, letters, c, rfl, hletters, hc⟩
    have hpart : first ++ (letters ++ [c]) = first ++ letters ++ [c] :=
      (List.append_assoc _ _ _).symm
    refine ⟨first ++ letters, c, hpart, ⟨first, letters, rfl, ?_, hletters⟩, hc⟩
    rwa [← List.append_assoc]
  · rintro ⟨_, c, rfl, ⟨first, letters, rfl, hatoms, hletters⟩, hc⟩
    refine ⟨first, letters ++ [c], List.append_assoc _ _ _, ?_, letters, c, rfl, hletters, hc⟩
    rwa [List.append_assoc]

theorem matchInTurn_add (d : Draft) (p : Char) :
    MatchInTurn (d.add p).written before part after ↔
      ∃ first rest, part = first ++ rest ∧ MatchInTurn d.written before first (rest ++ after) ∧
        StandsFor p rest := by
  unfold add
  split
  · rename_i hrun
    subst hrun
    rw [matchInTurn_written_nil, matchInTurn_concat]
    refine exists₂_congr fun first rest ↦ and_congr_right' (and_congr_right' ?_)
    exact iff_of_true trivial (.run rest)
  · split
    · rename_i hone
      subst hone
      rw [matchInTurn_written_nil, matchInTurn_concat]
      refine exists₂_congr fun first rest ↦ and_congr_right' (and_congr_right' ?_)
      exact standsFor_one_iff.symm
    · rename_i hrun hone
      simp only [matchInTurn_written_concat, standsFor_letter_iff hrun hone]
      constructor
      · rintro ⟨first, c, rfl, hwritten, hc⟩
        exact ⟨first, [c], rfl, hwritten, c, rfl, hc⟩
      · rintro ⟨first, _, rfl, hwritten, c, rfl, hc⟩
        exact ⟨first, c, rfl, hwritten, hc⟩

theorem matchInTurn_foldl (pattern : List Char) :
    MatchInTurn (pattern.foldl add start).written before part after ↔
      before = [] ∧ Cuts StandsFor pattern part := by
  induction pattern using List.reverseRecOn generalizing part after with
  | nil => simp [start, written, MatchInTurn, Atom.Matches, cuts_nil]
  | append_singleton pattern p ih =>
    -- the last character is added to the draft of the characters before it
    rw [List.foldl_concat, matchInTurn_add, cuts_concat]
    simp only [ih]
    constructor
    · rintro ⟨first, rest, rfl, ⟨rfl, hfirst⟩, hp⟩
      exact ⟨rfl, first, rest, rfl, hfirst, hp⟩
    · rintro ⟨rfl, first, rest, rfl, hfirst, hp⟩
      exact ⟨first, rest, rfl, ⟨rfl, hfirst⟩, hp⟩

end Draft

theorem foundIn_translate {pattern text : List Char} :
    FoundIn (translate pattern) text ↔ Cuts StandsFor pattern text := by
  simp only [FoundIn, translate, matchInTurn_concat, Draft.matchInTurn_foldl, Atom.Matches]
  constructor
  · rintro ⟨before, _, after, rfl, part, rest, rfl, ⟨rfl, hpart⟩, rfl, rfl⟩
    simpa using hpart
  · intro h
    exact ⟨[], text, [], by simp, text, [], by simp, ⟨rfl, h⟩, rfl, rfl⟩

/-- A text matches a compiled pattern exactly if it can be cut into parts that the characters of the
pattern stand for, and so does the regular expression of any pattern. -/
theorem isMatch_iff_cuts [Compiler] (pattern text : String) :
    (∀ compiled, Pattern.compile? pattern = some compiled →
      (compiled.isMatch text = true ↔ Cuts StandsFor pattern.toList text.toList)) ∧
    (FoundIn (translate pattern.toList) text.toList ↔
      Cuts StandsFor pattern.toList text.toList) :=
  ⟨fun _ h ↦ isMatch_iff h text, foundIn_translate⟩

section

attribute [local instance] Compiler.unlimited

theorem isMatch_iff_cuts_script :
    Pattern.compile? "%_.JS" = some ⟨[.run, .one, .letter '.', .letter 'j', .letter 's']⟩ ∧
      Cuts StandsFor "%_.JS".toList "a.b\n.jſ".toList ∧
        FoundIn (translate "%_.JS".toList) "a.b\n.jſ".toList := by
  have h : Pattern.compile? "%_.JS" =
      some ⟨[.run, .one, .letter '.', .letter 'j', .letter 's']⟩ := by decide +kernel
  obtain ⟨hcuts, hfound⟩ := isMatch_iff_cuts "%_.JS" "a.b\n.jſ"
  have hmatch := (hcuts _ h).mp (by decide +kernel)
  exact ⟨h, hmatch, hfound.mpr hmatch⟩

end

end TableQuery.Like
