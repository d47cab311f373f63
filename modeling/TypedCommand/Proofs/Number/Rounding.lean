import Mathlib.Algebra.Order.Field.Power
import Mathlib.Data.Int.Log
import Mathlib.Data.Rat.Floor
import TypedCommand.Number.Binary64

/-!
Rounding of ratios to floating-point numbers. The number nearest to a ratio depends on
the value of the ratio alone, a ratio that is a number is rounded to itself, and a whole
number is rounded to a whole number.
-/

namespace TypedCommand.Binary64

theorem two_zpow_eq (k : ℤ) :
    (2 : ℚ) ^ k = ((2 ^ k.toNat : ℕ) : ℚ) / ((2 ^ (-k).toNat : ℕ) : ℚ) := by
  rcases le_total 0 k with hk | hk
  · obtain ⟨n, rfl⟩ := Int.eq_ofNat_of_zero_le hk
    simp
  · obtain ⟨n, hn⟩ := Int.eq_ofNat_of_zero_le (Int.neg_nonneg_of_nonpos hk)
    obtain rfl : k = -(n : ℤ) := by omega
    simp

/-- A power of two is compared with a ratio in natural numbers. -/
theorem pow_le_ratio_iff {num den : ℕ} (hden : 0 < den) (k : ℤ) :
    den * Nat.pow 2 k.toNat ≤ num * Nat.pow 2 (-k).toNat ↔ (2 : ℚ) ^ k ≤ (num : ℚ) / den := by
  rw [two_zpow_eq, div_le_div_iff₀ (by positivity) (by positivity)]
  rw [← Nat.cast_mul, ← Nat.cast_mul, Nat.cast_le, Nat.mul_comm den]
  exact Iff.rfl

theorem two_zpow_log2_le_ratio {num den : ℕ} (hnum : num ≠ 0) (hden : den ≠ 0) :
    (2 : ℚ) ^ ((Nat.log2 num : ℤ) - Nat.log2 den - 1) ≤ (num : ℚ) / den := by
  have hnum' : (0 : ℚ) < num := by positivity
  have hden' : (0 : ℚ) < den := by positivity
  have h1 : ((2 ^ Nat.log2 num : ℕ) : ℚ) ≤ num := Nat.cast_le.2 (Nat.log2_self_le hnum)
  have h2 : (den : ℚ) ≤ ((2 ^ (Nat.log2 den + 1) : ℕ) : ℚ) :=
    Nat.cast_le.2 (Nat.le_of_lt Nat.lt_log2_self)
  rw [sub_sub, zpow_sub₀ (by norm_num), div_le_div_iff₀ (by positivity) hden']
  push_cast at h1 h2
  calc (2 : ℚ) ^ (Nat.log2 num : ℤ) * den
      ≤ num * 2 ^ (Nat.log2 den + 1) := by
        rw [zpow_natCast]
        exact mul_le_mul h1 h2 hden'.le hnum'.le
    _ = num * 2 ^ ((Nat.log2 den : ℤ) + 1) := by
        rw [← zpow_natCast]
        push_cast
        rfl

theorem ratio_lt_two_zpow_log2 (num : ℕ) {den : ℕ} (hden : den ≠ 0) :
    (num : ℚ) / den < 2 ^ ((Nat.log2 num : ℤ) - Nat.log2 den + 1) := by
  have hden' : (0 : ℚ) < den := by positivity
  have h1 : (num : ℚ) < ((2 ^ (Nat.log2 num + 1) : ℕ) : ℚ) := Nat.cast_lt.2 Nat.lt_log2_self
  have h2 : ((2 ^ Nat.log2 den : ℕ) : ℚ) ≤ den := Nat.cast_le.2 (Nat.log2_self_le hden)
  rw [sub_add_eq_add_sub, zpow_sub₀ (by norm_num), div_lt_div_iff₀ hden' (by positivity)]
  push_cast at h1 h2
  calc (num : ℚ) * 2 ^ (Nat.log2 den : ℤ)
      < 2 ^ (Nat.log2 num + 1) * den := by
        rw [zpow_natCast]
        exact mul_lt_mul h1 h2 (by positivity) (by positivity)
    _ = 2 ^ ((Nat.log2 num : ℤ) + 1) * den := by
        rw [← zpow_natCast]
        push_cast
        rfl

theorem floorLog2_eq_log {num den : ℕ} (hnum : num ≠ 0) (hden : den ≠ 0) :
    floorLog2 num den = Int.log 2 ((num : ℚ) / den) := by
  have hpos : (0 : ℚ) < (num : ℚ) / den := by positivity
  have hlow := two_zpow_log2_le_ratio hnum hden
  have hhigh := ratio_lt_two_zpow_log2 num hden
  unfold floorLog2
  dsimp only
  generalize (Nat.log2 num : ℤ) - Nat.log2 den = k at hlow hhigh ⊢
  -- The logarithm is `k - 1` or `k`, and the comparison says which.
  have hlog := (Int.zpow_le_iff_le_log (b := 2) (by norm_num) hpos).1 (by exact_mod_cast hlow)
  have hlog' := (Int.lt_zpow_iff_log_lt (b := 2) (by norm_num) hpos).1 (by exact_mod_cast hhigh)
  split
  · next h =>
    have hle := (pow_le_ratio_iff (Nat.pos_of_ne_zero hden) _).1 h
    have := (Int.zpow_le_iff_le_log (b := 2) (by norm_num) hpos).1 (by exact_mod_cast hle)
    omega
  · next h =>
    have hlt := not_le.1 (mt (pow_le_ratio_iff (Nat.pos_of_ne_zero hden) _).2 h)
    have := (Int.lt_zpow_iff_log_lt (b := 2) (by norm_num) hpos).1 (by exact_mod_cast hlt)
    omega

/-- The logarithm of a ratio whose denominator is a power of two. -/
theorem floorLog2_scaled {significand : ℕ} (hne : significand ≠ 0) (scale : ℤ) :
    floorLog2 (significand * Nat.pow 2 scale.toNat) (Nat.pow 2 (-scale).toNat) =
      Nat.log2 significand + scale := by
  have hpow : ∀ n : ℕ, Nat.pow 2 n ≠ 0 := fun n => (Nat.pow_pos (by decide)).ne'
  have hvalue : ((significand * Nat.pow 2 scale.toNat : ℕ) : ℚ) / (Nat.pow 2 (-scale).toNat : ℕ) =
      significand * 2 ^ scale := by
    rw [two_zpow_eq, Nat.cast_mul, mul_div_assoc]
    rfl
  have hpos : (0 : ℚ) < significand * 2 ^ scale := by positivity
  rw [floorLog2_eq_log (Nat.mul_ne_zero hne (hpow _)) (hpow _), hvalue]
  apply le_antisymm
  · apply Int.lt_add_one_iff.1
    rw [← Int.lt_zpow_iff_log_lt (by norm_num) hpos, add_right_comm,
      zpow_add₀ (by norm_num)]
    have hlt : (significand : ℚ) < ((2 ^ (Nat.log2 significand + 1) : ℕ) : ℚ) :=
      Nat.cast_lt.2 Nat.lt_log2_self
    push_cast at hlt
    refine mul_lt_mul_of_pos_right ?_ (by positivity)
    exact_mod_cast hlt
  · rw [← Int.zpow_le_iff_le_log (by norm_num) hpos, zpow_add₀ (by norm_num)]
    have hle : ((2 ^ Nat.log2 significand : ℕ) : ℚ) ≤ significand :=
      Nat.cast_le.2 (Nat.log2_self_le hne)
    push_cast at hle
    refine mul_le_mul_of_nonneg_right ?_ (by positivity)
    exact_mod_cast hle

/-- A whole number has the logarithm of its bits. -/
theorem floorLog2_one {n : ℕ} (hn : n ≠ 0) : floorLog2 n 1 = Nat.log2 n := by
  simpa using floorLog2_scaled hn 0

theorem roundQuotient_mul_right (num den : ℕ) {k : ℕ} (hk : 0 < k) :
    roundQuotient (num * k) (den * k) = roundQuotient num den := by
  have hlt : ∀ a b : ℕ, a * k < b * k ↔ a < b := fun a b => Nat.mul_lt_mul_right hk
  unfold roundQuotient
  simp only [Nat.mul_div_mul_right _ _ hk, Nat.mul_mod_mul_right, ← Nat.mul_assoc, hlt]

theorem roundQuotient_mul_self (q : ℕ) {den : ℕ} (hden : 0 < den) :
    roundQuotient (q * den) den = q := by
  simp [roundQuotient, hden]

/-- The nearest number depends on the value of a ratio alone. -/
theorem nearest_mul_right (negative : Bool) (num : ℕ) {den k : ℕ} (hden : 0 < den) (hk : 0 < k) :
    nearest negative (num * k) (den * k) = nearest negative num den := by
  unfold nearest
  by_cases hnum : num = 0
  · simp [hnum]
  · have hlog : floorLog2 (num * k) (den * k) = floorLog2 num den := by
      rw [floorLog2_eq_log (Nat.mul_ne_zero hnum hk.ne') (Nat.mul_ne_zero hden.ne' hk.ne'),
        floorLog2_eq_log hnum hden.ne', Nat.cast_mul, Nat.cast_mul,
        mul_div_mul_right _ _ (by positivity)]
    rw [if_neg hnum, if_neg (Nat.mul_ne_zero hnum hk.ne'), hlog]
    dsimp only
    rw [Nat.mul_right_comm num, Nat.mul_right_comm den, roundQuotient_mul_right _ _ hk]

theorem nearest_congr (negative : Bool) {num den num' den' : ℕ} (hden : 0 < den) (hden' : 0 < den')
    (h : num * den' = num' * den) : nearest negative num den = nearest negative num' den' := by
  rw [← nearest_mul_right negative num hden hden', h, Nat.mul_comm den,
    nearest_mul_right negative num' hden' hden]

/-- A significand and a scale that a number can have: it is normal, or has the least
scale of all. -/
structure IsScaled (significand : ℕ) (scale : ℤ) : Prop where
  lt : significand < 2 ^ 53
  scale_ge : -1074 ≤ scale
  normal : 2 ^ 52 ≤ significand ∨ scale = -1074

/-- A ratio that is a number is rounded to it. -/
theorem nearest_of_isScaled (negative : Bool) {significand : ℕ} {scale : ℤ}
    (h : IsScaled significand scale) (hne : significand ≠ 0) :
    nearest negative (significand * Nat.pow 2 scale.toNat) (Nat.pow 2 (-scale).toNat) =
      ofRank negative ((scale + 1074).toNat * fractions + significand) := by
  have hpow : ∀ n : ℕ, 0 < Nat.pow 2 n := fun n => Nat.pow_pos (by decide)
  have hnum : significand * Nat.pow 2 scale.toNat ≠ 0 := Nat.mul_ne_zero hne (hpow _).ne'
  have hscale : max ((Nat.log2 significand : ℤ) + scale - 52) (-1074) = scale := by
    have hlt : Nat.log2 significand < 53 := (Nat.log2_lt hne).2 h.lt
    have hge := h.scale_ge
    rcases h.normal with hnormal | hleast
    · have := (Nat.le_log2 hne).2 hnormal
      omega
    · omega
  unfold nearest
  rw [if_neg hnum]
  dsimp only
  rw [floorLog2_scaled hne, hscale, Nat.mul_assoc, Nat.mul_comm (Nat.pow 2 scale.toNat),
    roundQuotient_mul_self _ (Nat.mul_pos (hpow _) (hpow _))]

theorem rank_eq (x : Binary64) :
    (x.scale + 1074).toNat * fractions + x.significand = x.rank := by
  unfold scale significand
  generalize (x.rank : ℕ) = r
  unfold fractions
  split
  · omega
  · omega

theorem isScaled_of_isFinite (x : Binary64) : IsScaled x.significand x.scale where
  lt := by
    unfold significand fractions
    split <;> omega
  scale_ge := by
    unfold scale
    omega
  normal := by
    unfold significand scale fractions
    split <;> omega

theorem rank_ofRank {negative : Bool} {r : ℕ} (h : r < infinityRank) :
    ((ofRank negative r).rank : ℕ) = r := by
  rw [ofRank, dif_pos h]

theorem negative_ofRank (negative : Bool) (r : ℕ) : (ofRank negative r).negative = negative := by
  unfold ofRank
  split <;> rfl

theorem ofRank_rank {x : Binary64} (h : x.isFinite = true) : ofRank x.negative x.rank = x := by
  rw [ofRank, dif_pos (by simpa [isFinite] using h)]

theorem isZero_zero (negative : Bool) : (zero negative).isZero = true := rfl

/-- A finite number is the nearest one to its own value. -/
theorem nearest_ratio {x : Binary64} (h : x.isFinite = true) :
    nearest x.negative x.ratio.1 x.ratio.2 = x := by
  by_cases hzero : x.significand = 0
  · have hrank := rank_eq x
    have hnormal := (isScaled_of_isFinite x).normal
    have hnum : x.ratio.1 = 0 := by
      rw [ratio, hzero]
      exact Nat.zero_mul _
    rw [nearest, if_pos hnum, zero]
    have hrank' : (x.rank : ℕ) = 0 := by
      rw [hzero] at hrank hnormal
      rcases hnormal with hnormal | hnormal
      · omega
      · simpa [hnormal] using hrank.symm
    rw [← hrank', ofRank_rank h]
  · rw [ratio, nearest_of_isScaled _ (isScaled_of_isFinite x) hzero, rank_eq, ofRank_rank h]

/-- The parts of a number are read off its rank. -/
theorem parts_ofRank (negative : Bool) {sig : ℕ} {e : ℤ} (h : IsScaled sig e)
    (hfinite : (e + 1074).toNat * fractions + sig < infinityRank) :
    (ofRank negative ((e + 1074).toNat * fractions + sig)).significand = sig ∧
      (ofRank negative ((e + 1074).toNat * fractions + sig)).scale = e := by
  obtain ⟨hlt, hge, hnormal⟩ := h
  unfold significand scale
  rw [rank_ofRank hfinite]
  unfold fractions
  obtain ⟨n, hn⟩ := Int.eq_ofNat_of_zero_le (show 0 ≤ e + 1074 by omega)
  rw [hn]
  constructor
  · split <;> omega
  · omega

theorem isFinite_ofRank {negative : Bool} {r : ℕ} :
    (ofRank negative r).isFinite = true ↔ r < infinityRank := by
  unfold ofRank isFinite
  split <;> simp_all

/-- Dividing a whole number by a power of two and rounding keeps the bits that fit. -/
theorem le_roundQuotient (num : ℕ) {den bound : ℕ} (hden : 0 < den) (h : bound * den ≤ num) :
    bound ≤ roundQuotient num den := by
  have hle : bound ≤ num / den := (Nat.le_div_iff_mul_le hden).2 h
  unfold roundQuotient
  dsimp only
  split
  · exact hle
  · split
    · omega
    · split <;> omega

/-- A number of at most 53 bits, moved up to a full significand. -/
theorem isScaled_of_lt {n : ℕ} (hn : n ≠ 0) (hsmall : n < 2 ^ 53) :
    IsScaled (n * 2 ^ (52 - Nat.log2 n)) (Nat.log2 n - 52 : ℤ) := by
  have hlog : Nat.log2 n ≤ 52 := Nat.le_of_lt_succ ((Nat.log2_lt hn).2 hsmall)
  have hlow : 2 ^ Nat.log2 n ≤ n := Nat.log2_self_le hn
  have hhigh : n < 2 ^ (Nat.log2 n + 1) := Nat.lt_log2_self
  refine ⟨?_, by omega, Or.inl ?_⟩
  · calc n * 2 ^ (52 - Nat.log2 n)
        < 2 ^ (Nat.log2 n + 1) * 2 ^ (52 - Nat.log2 n) :=
          Nat.mul_lt_mul_of_pos_right hhigh (Nat.two_pow_pos _)
      _ = 2 ^ 53 := by
          rw [← Nat.pow_add]
          congr 1
          omega
  · calc 2 ^ 52 = 2 ^ Nat.log2 n * 2 ^ (52 - Nat.log2 n) := by
          rw [← Nat.pow_add]
          congr 1
          omega
      _ ≤ n * 2 ^ (52 - Nat.log2 n) := Nat.mul_le_mul_right _ hlow

theorem mod_ratio_nearest_of_lt {negative : Bool} {n : ℕ} (hn : n ≠ 0) (hsmall : n < 2 ^ 53)
    (h : (nearest negative n 1).isFinite = true) :
    (nearest negative n 1).ratio.1 % (nearest negative n 1).ratio.2 = 0 := by
  have hlog : Nat.log2 n ≤ 52 := Nat.le_of_lt_succ ((Nat.log2_lt hn).2 hsmall)
  have hscaled := isScaled_of_lt hn hsmall
  have hnearest : nearest negative n 1 =
      ofRank negative (((Nat.log2 n - 52 : ℤ) + 1074).toNat * fractions +
        n * 2 ^ (52 - Nat.log2 n)) := by
    rw [← nearest_of_isScaled negative hscaled (Nat.mul_ne_zero hn (Nat.two_pow_pos _).ne'),
      ← nearest_mul_right negative n (by decide) (Nat.two_pow_pos (52 - Nat.log2 n)), Nat.one_mul]
    rw [show (Nat.log2 n - 52 : ℤ).toNat = 0 by omega,
      show (-(Nat.log2 n - 52 : ℤ)).toNat = 52 - Nat.log2 n by omega]
    simp
  rw [hnearest] at h ⊢
  obtain ⟨hsig, hscale⟩ := parts_ofRank negative hscaled (isFinite_ofRank.1 h)
  rw [ratio, hsig, hscale, show (-(Nat.log2 n - 52 : ℤ)).toNat = 52 - Nat.log2 n by omega]
  dsimp only
  rw [Nat.mul_right_comm]
  exact Nat.mul_mod_left _ _

/-- A number of more than 53 bits is rounded to a multiple of a power of two. -/
theorem scale_nearest_nonneg {negative : Bool} {n : ℕ} (hlarge : 2 ^ 53 ≤ n)
    (h : (nearest negative n 1).isFinite = true) : 0 ≤ (nearest negative n 1).scale := by
  have hn : n ≠ 0 := by omega
  have hlog : 53 ≤ Nat.log2 n := (Nat.le_log2 hn).2 hlarge
  have hround : 2 ^ 52 ≤ roundQuotient n (2 ^ (Nat.log2 n - 52)) := by
    apply le_roundQuotient n (Nat.two_pow_pos _)
    calc 2 ^ 52 * 2 ^ (Nat.log2 n - 52) = 2 ^ Nat.log2 n := by
          rw [← Nat.pow_add]
          congr 1
          omega
      _ ≤ n := Nat.log2_self_le hn
  unfold nearest at h ⊢
  rw [if_neg hn] at h ⊢
  dsimp only at h ⊢
  rw [floorLog2_one hn,
    show max ((Nat.log2 n : ℤ) - 52) (-1074) = (Nat.log2 n - 52 : ℕ) by omega] at h ⊢
  simp only [Int.toNat_natCast, Nat.pow_eq, one_mul, Int.toNat_neg_natCast, pow_zero,
    mul_one] at h ⊢
  unfold scale
  rw [rank_ofRank (isFinite_ofRank.1 h)]
  unfold fractions
  omega

/-- A whole number that is rounded gives a whole number. -/
theorem isIntegral_nearest {negative : Bool} {n : ℕ}
    (h : (nearest negative n 1).isFinite = true) : (nearest negative n 1).isIntegral = true := by
  unfold isIntegral
  rw [h, Bool.true_and, beq_iff_eq]
  by_cases hn : n = 0
  · have hsig : (nearest negative n 1).significand = 0 := by
      rw [nearest, if_pos hn, zero, significand, rank_ofRank (by decide)]
      rfl
    rw [ratio, hsig, Nat.zero_mul]
    exact Nat.zero_mod _
  · rcases Nat.lt_or_ge n (2 ^ 53) with hsmall | hlarge
    · exact mod_ratio_nearest_of_lt hn hsmall h
    · have hscale := scale_nearest_nonneg hlarge h
      rw [ratio, show (-(nearest negative n 1).scale).toNat = 0 by omega]
      exact Nat.mod_one _

end TypedCommand.Binary64
