import TableQuery.Value.Order
import TableQuery.Proofs.Binary64.Rounding
import Mathlib.Data.List.TakeWhile

namespace TableQuery

namespace Binary64

theorem spanDigits_append {digits rest : List Char} (hd : ∀ c ∈ digits, c.isDigit = true)
    (hrest : ∀ c ∈ rest.head?, c.isDigit = false) :
    spanDigits (digits ++ rest) = (digits, rest) := by
  rw [spanDigits, List.takeWhile_append_of_pos hd, List.dropWhile_append_of_pos hd]
  cases rest with
  | nil => simp
  | cons c rest =>
    have hc : c.isDigit = false := hrest c rfl
    simp [hc]

theorem spanDigits_of_all {digits : List Char} (hd : ∀ c ∈ digits, c.isDigit = true) :
    spanDigits digits = (digits, []) := by
  have h := spanDigits_append hd (show ∀ c ∈ ([] : List Char).head?, c.isDigit = false by simp)
  rwa [List.append_nil] at h

theorem spanDigits_point {digits : List Char} (hd : ∀ c ∈ digits, c.isDigit = true)
    (rest : List Char) : spanDigits (digits ++ '.' :: rest) = (digits, '.' :: rest) :=
  spanDigits_append hd (by simp)

theorem readNat_append (l m : List Char) :
    readNat (l ++ m) = readNat l * 10 ^ m.length + readNat m := by
  rw [readNat, readNat, readNat, Nat.ofDigitChars_append, Nat.ofDigitChars_eq_ofDigitChars_zero,
    Nat.mul_comm]

theorem readNat_zeros (n : Nat) : readNat (List.replicate n '0') = 0 :=
  Nat.ofDigitChars_replicate_zero

/-- Digits with at most one point, one digit in front of it at least, and the decimal they write. -/
inductive Positional : List Char → Decimal → Prop
  | whole {digits : List Char} (hne : digits ≠ []) (hd : ∀ c ∈ digits, c.isDigit = true) :
      Positional digits ⟨readNat digits, 0⟩
  | point {digits fraction : List Char} (hne : digits ≠ []) (hd : ∀ c ∈ digits, c.isDigit = true)
      (hf : ∀ c ∈ fraction, c.isDigit = true) :
      Positional (digits ++ '.' :: fraction) ⟨readNat (digits ++ fraction), -fraction.length⟩

theorem toLower_of_isDigit {c : Char} (h : c.isDigit = true) : c.toLower = c := by
  refine dif_neg fun hcapital ↦ ?_
  grind [Char.isDigit]

namespace Positional

variable {s : List Char} {d : Decimal}

theorem readDecimal?_eq (h : Positional s d) : readDecimal? s = some d := by
  cases h with
  | whole hne hd => simp [readDecimal?, spanDigits_of_all hd, hne, readExponent?]
  | point hne hd hf =>
    simp [readDecimal?, spanDigits_point hd, spanDigits_of_all hf, hne, readExponent?]

theorem exists_head (h : Positional s d) : ∃ c rest, s = c :: rest ∧ c.isDigit = true := by
  cases h with
  | @whole digits hne hd =>
    obtain ⟨c, rest, rfl⟩ := List.exists_cons_of_ne_nil hne
    exact ⟨c, rest, rfl, hd c List.mem_cons_self⟩
  | @point digits fraction hne hd hf =>
    obtain ⟨c, rest, rfl⟩ := List.exists_cons_of_ne_nil hne
    exact ⟨c, rest ++ '.' :: fraction, rfl, hd c List.mem_cons_self⟩

theorem readSign_eq (h : Positional s d) (negative : Bool) :
    readSign ((if negative then ['-'] else []) ++ s) = (negative, s) := by
  obtain ⟨c, rest, rfl, hc⟩ := h.exists_head
  cases negative with
  | true => rfl
  | false =>
    change readSign (c :: rest) = _
    unfold readSign
    split
    · rename_i heq
      cases heq
      exact absurd hc (by decide)
    · rename_i heq
      cases heq
      exact absurd hc (by decide)
    · rfl

theorem read?_eq (h : Positional s d) (negative : Bool) :
    read? ((if negative then ['-'] else []) ++ s) = some (ofRank negative d.rank) := by
  have hword (first : Char) (word : List Char) (hfirst : first.isDigit = false) :
      s.map Char.toLower ≠ first :: word := by
    obtain ⟨c, rest, rfl, hc⟩ := h.exists_head
    rw [List.map_cons, toLower_of_isDigit hc]
    rintro heq
    obtain ⟨rfl, -⟩ := List.cons.inj heq
    rw [hc] at hfirst
    cases hfirst
  unfold read?
  rw [h.readSign_eq negative]
  dsimp only
  rw [if_neg, if_neg, h.readDecimal?_eq]
  · rfl
  · exact hword 'n' _ rfl
  · exact not_or.mpr ⟨hword 'i' _ rfl, hword 'i' _ rfl⟩

end Positional

theorem positional_toDigits (n : Nat) : Positional (Nat.toDigits 10 n) ⟨n, 0⟩ := by
  have h := Positional.whole (Nat.toDigits_ne_nil (n := n) (b := 10)) fun _ ↦
    Nat.isDigit_of_mem_toDigits (by decide) (by decide)
  rwa [readNat, Nat.ofDigitChars_ten_toDigits] at h

namespace Layout

theorem isDigit_of_mem_significant {d : Decimal} {c : Char} (h : c ∈ significant d) :
    c.isDigit = true := by
  rw [significant, List.mem_reverse] at h
  have hm := List.mem_reverse.mp ((List.dropWhile_sublist _).subset h)
  exact Nat.isDigit_of_mem_toDigits (by decide) (by decide) hm

theorem toDigits_eq_significant (d : Decimal) :
    ∃ n, Nat.toDigits 10 d.digits = significant d ++ List.replicate n '0' := by
  let zeros := (Nat.toDigits 10 d.digits).reverse.takeWhile (· == '0')
  have hzeros : zeros.reverse = List.replicate zeros.length '0' := by
    refine List.eq_replicate_iff.mpr ⟨List.length_reverse, fun c hc ↦ ?_⟩
    have hzero := List.mem_takeWhile_imp (List.mem_reverse.mp hc)
    exact eq_of_beq hzero
  refine ⟨zeros.length, ?_⟩
  rw [← hzeros, significant, ← List.reverse_append, List.takeWhile_append_dropWhile,
    List.reverse_reverse]

theorem rank_significant (d : Decimal) :
    Decimal.rank ⟨readNat (significant d), d.size - (significant d).length⟩ = d.rank := by
  obtain ⟨n, hn⟩ := toDigits_eq_significant d
  have hlength : (Nat.toDigits 10 d.digits).length = (significant d).length + n := by
    rw [hn, List.length_append, List.length_replicate]
  have hdigits : d.digits = readNat (significant d) * 10 ^ n := by
    calc d.digits
      _ = readNat (Nat.toDigits 10 d.digits) := Nat.ofDigitChars_ten_toDigits.symm
      _ = readNat (significant d) * 10 ^ n := by
        rw [hn, readNat_append, readNat_zeros, List.length_replicate, Nat.add_zero]
  have hexponent : d.size - (significant d).length = d.exponent + n := by
    rw [Decimal.size, hlength]
    omega
  rw [hexponent, ← Decimal.rank_mul, ← hdigits]

theorem exists_positional {l : Layout} (hl : l.pointZero = false) {digits : List Char}
    (hd : ∀ c ∈ digits, c.isDigit = true) (point : Int) :
    ∃ d, Positional (l.positional digits point) d ∧
      d.rank = Decimal.rank ⟨readNat digits, point - digits.length⟩ := by
  have hzeros (n : Nat) : ∀ c ∈ List.replicate n '0', c.isDigit = true := by
    intro c hc
    rw [List.eq_of_mem_replicate hc]
    decide
  unfold positional
  split
  · have hzero : ∀ c ∈ ['0'], c.isDigit = true := by simp
    refine ⟨_, .point (List.cons_ne_nil _ _) hzero (List.forall_mem_append.mpr ⟨hzeros _, hd⟩), ?_⟩
    have hfirst : readNat ['0'] = 0 := rfl
    have hexponent : -(List.replicate (-point).toNat '0' ++ digits).length =
        point - digits.length := by
      rw [List.length_append, List.length_replicate]
      omega
    rw [List.append_eq, hexponent, readNat_append, readNat_append, readNat_zeros, hfirst,
      Nat.zero_mul, Nat.zero_add, Nat.zero_mul, Nat.zero_add]
  · rename_i hpoint
    have hpos : point.toNat ≠ 0 := by omega
    split
    · rename_i hlen
      rw [hl]
      refine ⟨_, .whole (fun hnil ↦ ?_) ?_, ?_⟩
      · have hnil := congrArg List.length hnil
        simp only [List.length_append, List.length_replicate, Bool.false_eq_true, if_false,
          List.length_nil] at hnil
        omega
      · simpa using List.forall_mem_append.mpr ⟨hd, hzeros _⟩
      · have hexponent : (0 : Int) + (point.toNat - digits.length : Nat) =
            point - digits.length := by omega
        rw [if_neg Bool.false_ne_true, List.append_nil, readNat_append, readNat_zeros,
          List.length_replicate, Nat.add_zero, Decimal.rank_mul, hexponent]
    · rename_i hlen
      refine ⟨_, .point (fun hnil ↦ ?_) (fun c hc ↦ hd c (List.mem_of_mem_take hc))
        (fun c hc ↦ hd c (List.mem_of_mem_drop hc)), ?_⟩
      · have hnil := congrArg List.length hnil
        simp only [List.length_take, List.length_nil] at hnil
        omega
      · have hexponent : -((digits.drop point.toNat).length : Int) = point - digits.length := by
          rw [List.length_drop]
          omega
        rw [List.take_append_drop, hexponent]

theorem exists_decimal {l : Layout} (hl : l.pointZero = false) {d : Decimal}
    (hplain : l.isPlain (d.size - 1) = true) :
    ∃ d', Positional (l.decimal d) d' ∧ d'.rank = d.rank := by
  rw [decimal, if_pos hplain]
  obtain ⟨d', hd', hrank⟩ := exists_positional hl (fun _ ↦ isDigit_of_mem_significant) d.size
  exact ⟨d', hd', hrank.trans (rank_significant d)⟩

end Layout

theorem ofRank_of_le {negative : Bool} {rank : Nat} (h : rank ≤ top) :
    ofRank negative rank = .signed negative rank h := by
  simp only [ofRank, Nat.min_eq_left h]

end Binary64

open Binary64

namespace Value

/-- The text of a floating-point number is read as this number. -/
theorem read?_write (x : Binary64) : read? (floatLayout.write x) = some x := by
  cases x with
  | nan => rfl
  | signed negative rank h =>
    rw [Layout.write, Layout.magnitude]
    by_cases hzero : rank = 0
    · have hdigits : ∀ c ∈ ['0'], c.isDigit = true := by simp
      obtain ⟨d, hd, hrank⟩ := Layout.exists_positional (l := floatLayout) rfl hdigits 1
      rw [if_pos hzero, hd.read?_eq, hrank]
      subst hzero
      rfl
    by_cases htop : rank = top
    · rw [if_neg hzero, if_pos htop]
      subst htop
      cases negative <;> rfl
    · have hlt : rank < top := Nat.lt_of_le_of_ne h htop
      obtain ⟨d, hd, hrank⟩ := Layout.exists_decimal (l := floatLayout) rfl
        (d := shortest floatLayout.tie rank) rfl
      rw [if_neg hzero, if_neg htop, hd.read?_eq, hrank, Decimal.rank_shortest _ hzero hlt,
        ofRank_of_le h]

theorem read?_integerText (n : Int64) : read? (integerText n) = some (.ofInt n.toInt) := by
  have hread := (positional_toDigits n.toInt.natAbs).read?_eq (n.toInt < 0)
  have hbound : n.toInt.natAbs < 10 ^ 20 := by
    have hlow := n.le_toInt
    have hhigh := n.toInt_lt
    omega
  have hint : ofInt n.toInt =
      ofRank (n.toInt < 0) (nearest (n.toInt.natAbs * one) 1) := rfl
  rw [Decimal.rank_natural hbound] at hread
  simpa [integerText, hint] using hread

theorem numeric?_eq_read? (v : Value) : v.numeric? = read? v.toText.toList := by
  cases v with
  | null => rfl
  | integer n => rw [toText, String.toList_ofList, read?_integerText, numeric?]
  | float x => rw [toText, String.toList_ofList, read?_write, numeric?]
  | text s => rfl
  | boolean b => cases b <;> rfl

theorem numeric?_eq_of_toText_eq {v w : Value} (h : v.toText = w.toText) :
    v.numeric? = w.numeric? := by
  rw [numeric?_eq_read?, h, ← numeric?_eq_read?]

end Value

end TableQuery
