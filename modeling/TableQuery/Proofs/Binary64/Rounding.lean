import TableQuery.Binary64.Decimal
import Mathlib.Tactic.Positivity
import Mathlib.Tactic.Ring

namespace TableQuery

namespace Binary64

variable {num den num' den' : Nat}

theorem compare_mul_left {c : Nat} (hc : 0 < c) (a b : Nat) :
    compare (c * a) (c * b) = compare a b := by
  rcases Nat.lt_trichotomy a b with h | rfl | h
  · rw [Nat.compare_eq_lt.mpr h, Nat.compare_eq_lt.mpr (Nat.mul_lt_mul_of_pos_left h hc)]
  · rw [Nat.compare_eq_eq.mpr rfl, Nat.compare_eq_eq.mpr rfl]
  · rw [Nat.compare_eq_gt.mpr h, Nat.compare_eq_gt.mpr (Nat.mul_lt_mul_of_pos_left h hc)]

theorem roundDiv_mul_left {c : Nat} (hc : 0 < c) (num den : Nat) :
    roundDiv (c * num) (c * den) = roundDiv num den := by
  unfold roundDiv
  rw [Nat.mul_div_mul_left _ _ hc, Nat.mul_mod_mul_left, Nat.mul_left_comm, compare_mul_left hc]

theorem roundDiv_mul_self (hd : 0 < den) (n : Nat) : roundDiv (n * den) den = n := by
  unfold roundDiv
  rw [Nat.mul_mod_left, Nat.mul_div_cancel _ hd, Nat.mul_zero, Nat.compare_eq_lt.mpr hd]

theorem nearest_mul_left {c : Nat} (hc : 0 < c) (num den : Nat) :
    nearest (c * num) (c * den) = nearest num den := by
  simp only [nearest, Nat.mul_div_mul_left _ _ hc, Nat.mul_assoc, roundDiv_mul_left hc]

theorem nearest_congr (hd : 0 < den) (hd' : 0 < den') (h : num * den' = num' * den) :
    nearest num den = nearest num' den' := by
  rw [← nearest_mul_left hd' num den, ← nearest_mul_left hd num' den', Nat.mul_comm den' num, h,
    Nat.mul_comm num' den, Nat.mul_comm den' den]

theorem units_of_lt {rank : Nat} (h : rank < binadeSize) : units rank = rank := by
  simp [units, Nat.div_eq_of_lt h, Nat.mod_eq_of_lt h]

theorem units_add (binade : Nat) {fraction : Nat} (h : fraction < binadeSize) :
    units ((binade + 1) * binadeSize + fraction) = (binadeSize + fraction) * 2 ^ binade := by
  have hpos : 0 < binadeSize := by decide
  have hbinade : ((binade + 1) * binadeSize + fraction) / binadeSize = binade + 1 := by
    rw [Nat.add_comm, Nat.add_mul_div_right _ _ hpos, Nat.div_eq_of_lt h, Nat.zero_add]
  have hfraction : ((binade + 1) * binadeSize + fraction) % binadeSize = fraction := by
    rw [Nat.add_comm, Nat.add_mul_mod_self_right, Nat.mod_eq_of_lt h]
  simp [units, hbinade, hfraction]

theorem exists_binade (rank : Nat) : rank < binadeSize ∨
    ∃ binade fraction, fraction < binadeSize ∧ rank = (binade + 1) * binadeSize + fraction := by
  by_cases h : rank < binadeSize
  · exact .inl h
  · have hpos : 0 < binadeSize := by decide
    have hdiv : 1 ≤ rank / binadeSize := (Nat.one_le_div_iff hpos).mpr (Nat.le_of_not_lt h)
    refine .inr ⟨rank / binadeSize - 1, rank % binadeSize, Nat.mod_lt _ hpos, ?_⟩
    rw [Nat.sub_add_cancel hdiv, Nat.div_add_mod']

theorem units_lt {rank binade : Nat} (h : rank < (binade + 1) * binadeSize) :
    units rank < 2 ^ (52 + binade) := by
  have hsize : binadeSize = 2 ^ 52 := rfl
  rcases exists_binade rank with hsmall | ⟨b, fraction, hf, rfl⟩
  · rw [units_of_lt hsmall]
    exact hsmall.trans_le (Nat.pow_le_pow_right Nat.two_pos (Nat.le_add_right 52 binade))
  · have hb : b + 1 ≤ binade := by
      by_contra hlarge
      have hle : (binade + 1) * binadeSize ≤ (b + 1) * binadeSize :=
        Nat.mul_le_mul_right _ (by omega)
      omega
    calc units ((b + 1) * binadeSize + fraction)
      _ = (binadeSize + fraction) * 2 ^ b := units_add b hf
      _ < 2 ^ 53 * 2 ^ b := Nat.mul_lt_mul_of_pos_right (by omega) (Nat.two_pow_pos b)
      _ = 2 ^ (52 + (b + 1)) := by rw [← Nat.pow_add]; congr 1; omega
      _ ≤ 2 ^ (52 + binade) := Nat.pow_le_pow_right (by decide) (by omega)

theorem units_pos {rank : Nat} (h : rank ≠ 0) : 0 < units rank := by
  rcases exists_binade rank with hsmall | ⟨binade, fraction, hf, rfl⟩
  · rw [units_of_lt hsmall]
    exact Nat.pos_of_ne_zero h
  · rw [units_add _ hf]
    exact Nat.mul_pos (Nat.add_pos_left (by decide) _) (Nat.two_pow_pos binade)

theorem nearest_units (rank : Nat) : nearest (units rank) 1 = rank := by
  rcases exists_binade rank with h | ⟨binade, fraction, hf, rfl⟩
  · have hshift : Nat.log2 rank - 52 = 0 := by
      by_cases hz : rank = 0
      · rw [hz]
        rfl
      · have hlog : Nat.log2 rank < 52 := (Nat.log2_lt hz).mpr h
        omega
    have hround : roundDiv (rank * 1) 1 = rank := roundDiv_mul_self Nat.one_pos rank
    rw [Nat.mul_one] at hround
    simp [nearest, units_of_lt h, hshift, hround]
  · have hlog : Nat.log2 ((binadeSize + fraction) * 2 ^ binade) = 52 + binade := by
      have hsize : binadeSize = 2 ^ 52 := rfl
      have hlow : 2 ^ 52 ≤ binadeSize + fraction := by omega
      have hhigh : binadeSize + fraction < 2 ^ 53 := by omega
      have hne : (binadeSize + fraction) * 2 ^ binade ≠ 0 := by positivity
      rw [Nat.log2_eq_iff hne, Nat.add_right_comm, Nat.pow_add, Nat.pow_add]
      exact ⟨Nat.mul_le_mul_right _ hlow, Nat.mul_lt_mul_of_pos_right hhigh (Nat.two_pow_pos _)⟩
    rw [units_add _ hf]
    simp only [nearest, Nat.div_one, hlog, Nat.add_sub_cancel_left, Nat.one_mul, Nat.pow_eq,
      roundDiv_mul_self (Nat.two_pow_pos binade)]
    ring

end Binary64

namespace Decimal

open Binary64

theorem denominator_pos (d : Decimal) : 0 < d.denominator := by
  unfold denominator
  rw [Nat.pow_eq]
  positivity

theorem length_toDigits_mul {n : Nat} (hn : n ≠ 0) (k : Nat) :
    (Nat.toDigits 10 (n * 10 ^ k)).length = (Nat.toDigits 10 n).length + k := by
  induction k with
  | zero => simp
  | succ k ih =>
    have hle : 10 ≤ n * 10 ^ (k + 1) := by
      rw [Nat.pow_succ, ← Nat.mul_assoc]
      exact Nat.le_mul_of_pos_left 10 (by positivity)
    rw [Nat.toDigits_of_base_le (by decide) hle, Nat.pow_succ, ← Nat.mul_assoc,
      Nat.mul_div_cancel _ (by decide), List.length_append, ih]
    rfl

theorem rank_mul (n k : Nat) (e : Int) : rank ⟨n * 10 ^ k, e⟩ = rank ⟨n, e + k⟩ := by
  by_cases hn : n = 0
  · simp [rank, hn]
  have hsize : size ⟨n * 10 ^ k, e⟩ = size ⟨n, e + k⟩ := by
    simp only [size, length_toDigits_mul hn]
    omega
  have hnearest : nearest (numerator ⟨n * 10 ^ k, e⟩) (denominator ⟨n * 10 ^ k, e⟩) =
      nearest (numerator ⟨n, e + k⟩) (denominator ⟨n, e + k⟩) := by
    refine nearest_congr (denominator_pos _) (denominator_pos _) ?_
    have hexponent : k + e.toNat + (-(e + k)).toNat = (e + k).toNat + (-e).toNat := by omega
    have hpow : 10 ^ k * 10 ^ e.toNat * 10 ^ (-(e + k)).toNat =
        10 ^ (e + k).toNat * 10 ^ (-e).toNat := by
      rw [← Nat.pow_add, ← Nat.pow_add, ← Nat.pow_add, hexponent]
    simp only [numerator, denominator, Nat.pow_eq]
    generalize one = one
    calc n * 10 ^ k * 10 ^ e.toNat * one * 10 ^ (-(e + k)).toNat
      _ = n * one * (10 ^ k * 10 ^ e.toNat * 10 ^ (-(e + k)).toNat) := by ac_rfl
      _ = n * one * (10 ^ (e + k).toNat * 10 ^ (-e).toNat) := by rw [hpow]
      _ = n * 10 ^ (e + k).toNat * one * 10 ^ (-e).toNat := by ac_rfl
  simp [rank, hn, hsize, hnearest]

theorem rank_eq_nearest {d : Decimal} (hlow : -400 ≤ d.size) (hhigh : d.size ≤ 400)
    (h : d.digits ≠ 0) : d.rank = nearest d.numerator d.denominator := by
  unfold rank
  rw [if_neg (by omega), if_neg (by omega)]

theorem rank_natural {n : Nat} (h : n < 10 ^ 20) : rank ⟨n, 0⟩ = nearest (n * one) 1 := by
  by_cases hn : n = 0
  · simp only [rank, hn, true_or, if_true, Nat.zero_mul]
    rfl
  have hpos := Nat.length_toDigits_pos (b := 10) (n := n)
  have hlength := (Nat.length_toDigits_le_iff (by decide) (by decide)).mpr h
  rw [rank_eq_nearest (by simp only [size]; omega) (by simp only [size]; omega) hn]
  simp only [numerator, denominator, Int.neg_zero, Int.toNat_zero, Nat.pow_eq, Nat.pow_zero,
    Nat.mul_one]

/-- A magnitude written out in full, with a name for the exponent that keeps its powers from being
evaluated. -/
theorem exact_eq {p : Nat} (hp : p = 1074) (rank : Nat) :
    exact rank = ⟨units rank * 5 ^ p, -p⟩ := by
  have hexponent : (-1074 : Int) = -p := by omega
  simp only [exact, ← hp, hexponent, Nat.pow_eq]

theorem nearest_exact (rank : Nat) :
    nearest (exact rank).numerator (exact rank).denominator = rank := by
  obtain ⟨p, hp⟩ : ∃ p, p = 1074 := ⟨_, rfl⟩
  have hone : one = 2 ^ p := by
    delta one
    rw [← hp, Nat.pow_eq]
  conv_rhs => rw [← nearest_units rank]
  refine nearest_congr (denominator_pos _) Nat.one_pos ?_
  have hplaces : (-(-p : Int)).toNat = p ∧ (-p : Int).toNat = 0 := by omega
  have hten : (10 : Nat) ^ p = 5 ^ p * 2 ^ p := by rw [← Nat.mul_pow]
  simp only [exact_eq hp, numerator, denominator, hplaces, hone, Nat.pow_eq, hten]
  ring

theorem size_exact {rank : Nat} (hpos : rank ≠ 0) (h : rank < top) :
    -400 ≤ (exact rank).size ∧ (exact rank).size ≤ 400 := by
  obtain ⟨p, hp⟩ : ∃ p, p = 1074 := ⟨_, rfl⟩
  obtain ⟨m, hm⟩ : ∃ m, m = 179 := ⟨_, rfl⟩
  obtain ⟨n, hn⟩ : ∃ n, n = 100 := ⟨_, rfl⟩
  obtain ⟨binade, hbinade⟩ : ∃ binade, binade = 2046 := ⟨_, rfl⟩
  have hlow : 10 ^ (4 * m) ≤ units rank * 5 ^ p := by
    calc 10 ^ (4 * m)
      _ = (10 ^ 4) ^ m := Nat.pow_mul 10 4 m
      _ ≤ (5 ^ 6) ^ m := Nat.pow_le_pow_left (by decide) m
      _ = 5 ^ (6 * m) := (Nat.pow_mul 5 6 m).symm
      _ = 5 ^ p := congrArg (5 ^ ·) (by omega)
      _ ≤ units rank * 5 ^ p := Nat.le_mul_of_pos_left _ (units_pos hpos)
  have hhigh : units rank * 5 ^ p < 10 ^ (p + 4 * n) := by
    calc units rank * 5 ^ p
      _ < 2 ^ (52 + binade) * 5 ^ p :=
        Nat.mul_lt_mul_of_pos_right (units_lt (hbinade ▸ h)) (by positivity)
      _ ≤ 2 ^ (p + 13 * n) * 5 ^ p :=
        Nat.mul_le_mul_right _ (Nat.pow_le_pow_right Nat.two_pos (by omega))
      _ = (2 * 5) ^ p * (2 ^ 13) ^ n := by
        rw [Nat.pow_add, Nat.pow_mul, Nat.mul_pow, Nat.mul_right_comm]
      _ ≤ 10 ^ p * (10 ^ 4) ^ n := Nat.mul_le_mul_left _ (Nat.pow_le_pow_left (by decide) n)
      _ = 10 ^ (p + 4 * n) := by rw [← Nat.pow_mul, ← Nat.pow_add]
  have hlength : 4 * m < (Nat.toDigits 10 (units rank * 5 ^ p)).length := by
    rw [← Nat.not_le, Nat.length_toDigits_le_iff (by decide) (by omega), Nat.not_lt]
    exact hlow
  have hlength' : (Nat.toDigits 10 (units rank * 5 ^ p)).length ≤ p + 4 * n :=
    (Nat.length_toDigits_le_iff (by decide) (by omega)).mpr hhigh
  simp only [exact_eq hp, size]
  omega

theorem rank_exact {rank : Nat} (hpos : rank ≠ 0) (h : rank < top) :
    (exact rank).rank = rank := by
  obtain ⟨hlow, hhigh⟩ := size_exact hpos h
  have hdigits : (exact rank).digits ≠ 0 := by
    rw [exact_eq rfl]
    exact (Nat.mul_pos (units_pos hpos) (by positivity)).ne'
  rw [rank_eq_nearest hlow hhigh hdigits, nearest_exact]

theorem rank_onGrid {tie : Tie} {rank : Nat} {exponent : Int} {d : Decimal}
    (h : onGrid tie rank exponent = some d) : d.rank = rank := by
  have hcloser (low : Nat) :
      closer tie rank exponent low = low ∨ closer tie rank exponent low = low + 1 := by
    unfold closer
    split
    · exact .inl rfl
    · exact .inr rfl
    · exact .inr rfl
    · rcases Nat.mod_two_eq_zero_or_one low with heven | hodd
      · exact .inl (by rw [heven, Nat.add_zero])
      · exact .inr (by rw [hodd])
  unfold onGrid at h
  dsimp only at h
  split at h
  · rename_i hlow hhigh
    rw [← Option.some.inj h]
    rcases hcloser (floorAt rank exponent) with heq | heq
    · rw [heq]
      exact eq_of_beq hlow
    · rw [heq]
      exact eq_of_beq hhigh
  · rename_i hlow _
    rw [← Option.some.inj h]
    exact eq_of_beq hlow
  · rename_i _ hhigh
    rw [← Option.some.inj h]
    exact eq_of_beq hhigh
  · cases h

/-- The shortest decimal of a magnitude has this magnitude for its nearest one. -/
theorem rank_shortest (tie : Tie) {rank : Nat} (hpos : rank ≠ 0) (h : rank < top) :
    (shortest tie rank).rank = rank := by
  unfold shortest
  dsimp only
  cases hfind : (List.range 17).findSome? fun n ↦
      onGrid tie rank (decimalSize rank - (n + 1 : Nat)) with
  | none => exact rank_exact hpos h
  | some d =>
    obtain ⟨n, -, hgrid⟩ := List.exists_of_findSome?_eq_some hfind
    exact rank_onGrid hgrid

end Decimal

end TableQuery
