import TableQuery.Like
import Mathlib.Data.List.Forall2
import Mathlib.Data.List.Infix

namespace TableQuery.Like

variable {α β : Type} {fits fits' : α → List Char → Prop} {l : List α} {text : List Char}

/-- A text is cut into consecutive parts, one for every member of a list. -/
def Cuts (fits : α → List Char → Prop) (l : List α) (text : List Char) : Prop :=
  ∃ parts : List (List Char), parts.flatten = text ∧ List.Forall₂ fits l parts

/-- A percent sign stands for any run of characters, an underscore for one character, and every
other character for one that is equal to it under simple case folding. -/
inductive StandsFor : Char → List Char → Prop
  | run (part : List Char) : StandsFor '%' part
  | one (c : Char) : StandsFor '_' [c]
  | letter {p c : Char} (hrun : p ≠ '%') (hone : p ≠ '_') (h : Text.fold c = Text.fold p) :
      StandsFor p [c]

def Piece.Fits : Piece → List Char → Prop
  | .run, _ => True
  | .one, part => ∃ c, part = [c]
  | .letter folded, part => part = [folded]

theorem cuts_nil : Cuts fits [] text ↔ text = [] := by
  constructor
  · rintro ⟨parts, rfl, h⟩
    rw [List.forall₂_nil_left_iff.mp h, List.flatten_nil]
  · rintro rfl
    exact ⟨[], rfl, .nil⟩

theorem cuts_cons {a : α} : Cuts fits (a :: l) text ↔
    ∃ part rest, text = part ++ rest ∧ fits a part ∧ Cuts fits l rest := by
  constructor
  · rintro ⟨parts, rfl, h⟩
    obtain ⟨part, parts, ha, hl, rfl⟩ := List.forall₂_cons_left_iff.mp h
    exact ⟨part, parts.flatten, List.flatten_cons, ha, parts, rfl, hl⟩
  · rintro ⟨part, rest, rfl, ha, parts, rfl, hl⟩
    exact ⟨part :: parts, List.flatten_cons, .cons ha hl⟩

theorem cuts_cons_of_char {a : α} {test : Char → Bool}
    (h : ∀ part, fits a part ↔ ∃ c, part = [c] ∧ test c = true) : Cuts fits (a :: l) text ↔
      ∃ c rest, text = c :: rest ∧ test c = true ∧ Cuts fits l rest := by
  rw [cuts_cons]
  constructor
  · rintro ⟨part, rest, rfl, ha, hl⟩
    obtain ⟨c, rfl, hc⟩ := (h part).mp ha
    exact ⟨c, rest, rfl, hc, hl⟩
  · rintro ⟨c, rest, rfl, hc, hl⟩
    exact ⟨[c], rest, rfl, (h [c]).mpr ⟨c, rfl, hc⟩, hl⟩

theorem cuts_congr (h : ∀ a part, fits a part ↔ fits' a part) :
    Cuts fits l text ↔ Cuts fits' l text := by
  have hfits : fits = fits' := funext fun a ↦ funext fun part ↦ propext (h a part)
  rw [hfits]

theorem forall₂_concat_iff {R : α → β → Prop} {a : α} {l' : List β} :
    List.Forall₂ R (l ++ [a]) l' ↔ ∃ m b, l' = m ++ [b] ∧ List.Forall₂ R l m ∧ R a b := by
  constructor
  · intro h
    rw [← List.forall₂_reverse_iff, List.reverse_concat, List.forall₂_cons_left_iff] at h
    obtain ⟨b, m, hab, hm, hl'⟩ := h
    refine ⟨m.reverse, b, List.reverse_eq_cons_iff.mp hl', ?_, hab⟩
    rwa [← List.forall₂_reverse_iff, List.reverse_reverse]
  · rintro ⟨m, b, rfl, hm, hab⟩
    exact List.rel_append hm (.cons hab .nil)

theorem cuts_concat {a : α} : Cuts fits (l ++ [a]) text ↔
    ∃ before part, text = before ++ part ∧ Cuts fits l before ∧ fits a part := by
  constructor
  · rintro ⟨_, rfl, h⟩
    obtain ⟨parts, part, rfl, hl, ha⟩ := forall₂_concat_iff.mp h
    exact ⟨parts.flatten, part, List.flatten_concat, ⟨parts, rfl, hl⟩, ha⟩
  · rintro ⟨_, part, rfl, ⟨parts, rfl, hl⟩, ha⟩
    exact ⟨parts ++ [part], List.flatten_concat, forall₂_concat_iff.mpr ⟨parts, part, rfl, hl, ha⟩⟩

theorem cuts_map {g : β → α} {f : Char → Char} {l : List β} :
    Cuts fits (l.map g) (text.map f) ↔ Cuts (fun b part ↦ fits (g b) (part.map f)) l text := by
  induction l generalizing text with
  | nil => rw [List.map_nil, cuts_nil, cuts_nil, List.map_eq_nil_iff]
  | cons b l ih =>
    rw [List.map_cons, cuts_cons, cuts_cons]
    constructor
    · rintro ⟨part, rest, htext, hb, hl⟩
      obtain ⟨part, rest, rfl, rfl, rfl⟩ := List.map_eq_append_iff.mp htext
      exact ⟨part, rest, rfl, hb, ih.mp hl⟩
    · rintro ⟨part, rest, rfl, hb, hl⟩
      exact ⟨part.map f, rest.map f, List.map_append, hb, ih.mpr hl⟩

section

variable {p : Char} {part : List Char}

theorem standsFor_one_iff : StandsFor '_' part ↔ ∃ c, part = [c] := by
  constructor
  · rintro (_ | c | ⟨-, hone, -⟩)
    · exact ⟨_, rfl⟩
    · exact absurd rfl hone
  · rintro ⟨c, rfl⟩
    exact .one c

theorem standsFor_letter_iff (hrun : p ≠ '%') (hone : p ≠ '_') :
    StandsFor p part ↔ ∃ c, part = [c] ∧ Text.fold c = Text.fold p := by
  constructor
  · rintro (_ | _ | ⟨-, -, hc⟩)
    · exact absurd rfl hrun
    · exact absurd rfl hone
    · exact ⟨_, rfl, hc⟩
  · rintro ⟨c, rfl, hc⟩
    exact .letter hrun hone hc

theorem fits_ofChar : (Piece.ofChar p).Fits (part.map Text.fold) ↔ StandsFor p part := by
  by_cases hrun : p = '%'
  · subst hrun
    exact iff_of_true trivial (.run part)
  by_cases hone : p = '_'
  · subst hone
    simp [Piece.ofChar, Piece.Fits, standsFor_one_iff, List.map_eq_singleton_iff]
  · rw [Piece.ofChar, if_neg hrun, if_neg hone, Piece.Fits, List.map_eq_singleton_iff,
      standsFor_letter_iff hrun hone]

end

/-- The marks of a text tell of each of its rests, the text itself first, whether it has a
property. -/
def Marks (P : List Char → Prop) (text : List Char) (marks : List Bool) : Prop :=
  List.Forall₂ (fun rest mark ↦ mark = true ↔ P rest) text.tails marks

namespace Marks

variable {P Q : List Char → Prop} {ms : List Bool} {c : Char}

theorem nil_iff : Marks P [] ms ↔ ∃ mark, ms = [mark] ∧ (mark = true ↔ P []) := by
  simp [Marks, List.forall₂_cons_left_iff, and_comm]

theorem cons_iff : Marks P (c :: text) ms ↔
    ∃ mark ms', ms = mark :: ms' ∧ (mark = true ↔ P (c :: text)) ∧ Marks P text ms' := by
  rw [Marks, List.tails, List.forall₂_cons_left_iff]
  constructor
  · rintro ⟨mark, ms', hmark, hms, rfl⟩
    exact ⟨mark, ms', rfl, hmark, hms⟩
  · rintro ⟨mark, ms', rfl, hmark, hms⟩
    exact ⟨mark, ms', hmark, hms, rfl⟩

theorem congr (h : Marks P text ms) (hPQ : ∀ rest, P rest ↔ Q rest) : Marks Q text ms := by
  have heq : P = Q := funext fun rest ↦ propext (hPQ rest)
  exact heq ▸ h

theorem headD_iff (h : Marks P text ms) : ms.headD false = true ↔ P text := by
  cases text with
  | nil =>
    obtain ⟨mark, rfl, hmark⟩ := nil_iff.mp h
    exact hmark
  | cons c text =>
    obtain ⟨mark, ms, rfl, hmark, -⟩ := cons_iff.mp h
    exact hmark

theorem atEnd (text : List Char) :
    Marks (· = []) text (text.map (fun _ ↦ false) ++ [true]) := by
  induction text with
  | nil => exact nil_iff.mpr ⟨true, rfl, by simp⟩
  | cons c text ih => exact cons_iff.mpr ⟨false, _, rfl, by simp, ih⟩

theorem anyLater (h : Marks P text ms) :
    Marks (fun rest ↦ ∃ part later, rest = part ++ later ∧ P later) text (anyLater ms) := by
  induction text generalizing ms with
  | nil =>
    obtain ⟨mark, rfl, hmark⟩ := nil_iff.mp h
    refine nil_iff.mpr ⟨mark, by simp [Like.anyLater], hmark.trans ?_⟩
    constructor
    · exact fun hP ↦ ⟨[], [], rfl, hP⟩
    · rintro ⟨part, later, hnil, hP⟩
      rwa [(List.append_eq_nil_iff.mp hnil.symm).2] at hP
  | cons c text ih =>
    obtain ⟨mark, ms, rfl, hmark, hms⟩ := cons_iff.mp h
    refine cons_iff.mpr ⟨_, _, rfl, ?_, ih hms⟩
    rw [Bool.or_eq_true, hmark, (ih hms).headD_iff]
    constructor
    · rintro (hP | ⟨part, later, rfl, hP⟩)
      · exact ⟨[], c :: text, rfl, hP⟩
      · exact ⟨c :: part, later, rfl, hP⟩
    · rintro ⟨part, later, htext, hP⟩
      cases part with
      | nil => exact .inl (htext ▸ hP)
      | cons d part =>
        obtain ⟨-, rfl⟩ := List.cons.inj htext
        exact .inr ⟨part, later, rfl, hP⟩

theorem next (test : Char → Bool) (h : Marks P text ms) :
    Marks (fun rest ↦ ∃ c later, rest = c :: later ∧ test c = true ∧ P later) text
      (List.zipWith (fun c mark ↦ test c && mark) text (ms.drop 1) ++ [false]) := by
  induction text generalizing ms with
  | nil => exact nil_iff.mpr ⟨false, rfl, by simp⟩
  | cons c text ih =>
    obtain ⟨mark, ms, rfl, -, hms⟩ := cons_iff.mp h
    have hrest := ih hms
    cases ms with
    | nil => cases text <;> cases hms
    | cons mark' ms =>
      have hmark' : mark' = true ↔ P text := hms.headD_iff
      refine cons_iff.mpr ⟨_, _, rfl, ?_, hrest⟩
      rw [Bool.and_eq_true, hmark']
      constructor
      · rintro ⟨hc, hP⟩
        exact ⟨c, text, rfl, hc, hP⟩
      · rintro ⟨c', later, htext, hc, hP⟩
        obtain ⟨rfl, rfl⟩ := List.cons.inj htext
        exact ⟨hc, hP⟩

end Marks

theorem zipWith_true_and {l : List Char} {marks : List Bool} (h : marks.length = l.length) :
    List.zipWith (fun _ mark ↦ true && mark) l marks = marks := by
  rw [← List.map_uncurry_zip_eq_zipWith]
  exact List.map_snd_zip h.le

/-- The marks of a list of pieces tell which rests of a folded text can be cut into them. -/
theorem marks_cuts (text : List Char) (pieces : List Piece) :
    Marks (Cuts Piece.Fits pieces) text (marks text pieces) := by
  induction pieces with
  | nil => exact (Marks.atEnd text).congr fun rest ↦ cuts_nil.symm
  | cons piece pieces ih =>
    cases piece with
    | run =>
      refine ih.anyLater.congr fun rest ↦ ?_
      simp only [cuts_cons, Piece.Fits, true_and]
    | one =>
      have hnext := ih.next fun _ ↦ true
      have hdrop : List.zipWith (fun _ mark ↦ true && mark) text ((marks text pieces).drop 1) =
          (marks text pieces).drop 1 := by
        refine zipWith_true_and ?_
        rw [List.length_drop, ← ih.length_eq, List.length_tails, Nat.add_sub_cancel]
      rw [hdrop] at hnext
      refine hnext.congr fun rest ↦ (cuts_cons_of_char fun part ↦ ?_).symm
      simp [Piece.Fits]
    | letter folded =>
      refine (ih.next (· == folded)).congr fun rest ↦ (cuts_cons_of_char fun part ↦ ?_).symm
      simp [Piece.Fits]

theorem isMatch_iff [Compiler] {pattern : String} {compiled : Pattern}
    (h : Pattern.compile? pattern = some compiled) (text : String) :
    compiled.isMatch text = true ↔ Cuts StandsFor pattern.toList text.toList := by
  have hpieces : compiled.pieces = pattern.toList.map Piece.ofChar := by
    rw [Pattern.compile?, Option.ite_none_right_eq_some] at h
    exact congrArg Pattern.pieces (Option.some.inj h.2.symm)
  rw [Pattern.isMatch, hpieces, (marks_cuts _ _).headD_iff, cuts_map]
  exact cuts_congr fun _ _ ↦ fits_ofChar

end TableQuery.Like
