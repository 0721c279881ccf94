import TableQuery.Json.Meaning
import TableQuery.Json.Printer
import TableQuery.Proofs.Value.NumericText
import Mathlib.Algebra.Group.Int.Defs

namespace TableQuery.Json

open Binary64 (readNat spanDigits)

def EndsNumber (rest : List Char) : Prop :=
  ∀ c ∈ rest.head?, c.isDigit = false ∧ c ≠ '.' ∧ c ≠ 'e' ∧ c ≠ 'E'

def Numeral.ofInt (n : Int) : Numeral := ⟨n < 0, Nat.toDigits 10 n.natAbs, [], none⟩

theorem digitChar_ne_zero : ∀ n < 10, n ≠ 0 → n.digitChar ≠ '0' := by decide

theorem exists_head_toDigits {n : Nat} (h : n ≠ 0) :
    ∃ d digits, Nat.toDigits 10 n = d :: digits ∧ d ≠ '0' := by
  induction n using Nat.strong_induction_on with
  | _ n ih =>
    by_cases hn : n < 10
    · exact ⟨n.digitChar, [], Nat.toDigits_of_lt_base hn, digitChar_ne_zero n hn h⟩
    · obtain ⟨d, digits, hdigits, hd⟩ := ih (n / 10) (by omega) (by omega)
      refine ⟨d, digits ++ [(n % 10).digitChar], ?_, hd⟩
      rw [Nat.toDigits_of_base_le (by decide) (by omega), hdigits, List.cons_append]

theorem isWhole_toDigits (n : Nat) : Raw.isWhole (Nat.toDigits 10 n) = true := by
  by_cases h : n = 0
  · rw [h, Nat.toDigits_zero]
    rfl
  · obtain ⟨d, digits, hdigits, hd⟩ := exists_head_toDigits h
    rw [hdigits, Raw.isWhole.eq_def]
    split
    · rename_i heq
      cases heq
    · rfl
    · rename_i heq
      cases heq
      exact bne_iff_ne.mpr hd

theorem isDigit_of_mem_toDigits {n : Nat} {c : Char} (h : c ∈ Nat.toDigits 10 n) :
    c.isDigit = true := Nat.isDigit_of_mem_toDigits (by decide) (by decide) h

theorem exists_head_renderNumber (n : Int) : ∃ c digits,
    renderNumber (.integer n) = c :: digits ∧ (c = '-' ∨ c.isDigit = true) := by
  by_cases hn : n < 0
  · exact ⟨'-', Nat.toDigits 10 n.natAbs, by simp [renderNumber, hn], .inl rfl⟩
  · obtain ⟨d, digits, hdigits⟩ :=
      List.exists_cons_of_ne_nil (Nat.toDigits_ne_nil (n := n.natAbs) (b := 10))
    refine ⟨d, digits, by simp [renderNumber, hn, hdigits], .inr ?_⟩
    exact isDigit_of_mem_toDigits (hdigits ▸ List.mem_cons_self)

variable {rest : List Char}

theorem readFraction?_of_endsNumber (h : EndsNumber rest) :
    Raw.readFraction? rest = some ([], rest) := by
  cases rest with
  | nil => rfl
  | cons c rest =>
    obtain ⟨-, hpoint, -, -⟩ := h c rfl
    rw [Raw.readFraction?.eq_def]
    split
    · rename_i heq
      cases heq
      exact absurd rfl hpoint
    · rfl

theorem readExponent?_of_endsNumber (h : EndsNumber rest) :
    Raw.readExponent? rest = some (none, rest) := by
  cases rest with
  | nil => rfl
  | cons c rest =>
    obtain ⟨-, -, hsmall, hcapital⟩ := h c rfl
    simp [Raw.readExponent?, hsmall, hcapital]

theorem readNumeral?_renderNumber (n : Int) (h : EndsNumber rest) :
    Raw.readNumeral? (renderNumber (.integer n) ++ rest) = some (.ofInt n, rest) := by
  have hspan : spanDigits (Nat.toDigits 10 n.natAbs ++ rest) = (Nat.toDigits 10 n.natAbs, rest) :=
    Binary64.spanDigits_append (fun _ ↦ isDigit_of_mem_toDigits) fun c hc ↦ (h c hc).1
  by_cases hn : n < 0
  · simp [Raw.readNumeral?, renderNumber, Numeral.ofInt, hn, hspan, isWhole_toDigits,
      readFraction?_of_endsNumber h, readExponent?_of_endsNumber h]
  · obtain ⟨d, digits, hdigits⟩ :=
      List.exists_cons_of_ne_nil (Nat.toDigits_ne_nil (n := n.natAbs) (b := 10))
    have hd : d ≠ '-' := by
      rintro rfl
      have hdigit : '-'.isDigit = true := isDigit_of_mem_toDigits (hdigits ▸ List.mem_cons_self)
      exact absurd hdigit (by decide)
    have hwhole := isWhole_toDigits n.natAbs
    rw [hdigits] at hspan hwhole
    rw [List.cons_append] at hspan
    simp [Raw.readNumeral?, renderNumber, Numeral.ofInt, hn, hspan, hwhole, hdigits, hd,
      readFraction?_of_endsNumber h, readExponent?_of_endsNumber h]

theorem number?_ofInt {n : Int} (hlow : -2 ^ 63 ≤ n) (hhigh : n < 2 ^ 64) :
    (Numeral.ofInt n).number? = some (.integer n) := by
  have hsize : readNat (Nat.toDigits 10 n.natAbs) = n.natAbs := Nat.ofDigitChars_ten_toDigits
  by_cases hn : n < 0
  · have hpos : 0 < n.natAbs := by omega
    have hfits : 2 * n.natAbs ≤ Numeral.wordSize := by
      unfold Numeral.wordSize
      omega
    have hnumber : (Numeral.ofInt n).number? = some (.integer (-(n.natAbs : Int))) := by
      simp [Numeral.number?, Numeral.ofInt, hsize, hn, hpos, hfits]
    have hvalue : -(n.natAbs : Int) = n := by omega
    rw [hnumber, hvalue]
  · have hfits : n.natAbs < Numeral.wordSize := by
      unfold Numeral.wordSize
      omega
    have hnumber : (Numeral.ofInt n).number? = some (.integer n.natAbs) := by
      simp [Numeral.number?, Numeral.ofInt, hsize, hn, hfits]
    have hvalue : (n.natAbs : Int) = n := by omega
    rw [hnumber, hvalue]

end TableQuery.Json
