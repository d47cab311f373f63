import TypedCommand.Number.Decimal
import TypedCommand.Proofs.Number.Rounding
import TypedCommand.Proofs.Words

/-!
Decimals and the numbers they round to. A decimal keeps its number when zeros are moved
between its digits and its exponent; the shortest decimal of a number reads back as that
number; and it has a fraction exactly if the number has one.
-/

namespace TypedCommand

namespace Text

theorem isDigit_of_mem_ofNat {n : ℕ} {c : Char} (h : c ∈ ofNat n) : c.isDigit = true :=
  Nat.isDigit_of_mem_toDigits (by decide) (by decide) h

theorem ofNat_ne_nil (n : ℕ) : ofNat n ≠ [] := Nat.toDigits_ne_nil

theorem digitsValue_ofNat (n : ℕ) : digitsValue (ofNat n) = n := Nat.ofDigitChars_ten_toDigits

/-- Zeros behind a number are zeros behind its digits. -/
theorem ofNat_mul_pow {n : ℕ} (hn : 0 < n) (k : ℕ) :
    ofNat (n * 10 ^ k) = ofNat n ++ List.replicate k '0' := by
  induction k with
  | zero => simp
  | succ k ih =>
    have hdigit := Nat.toDigits_append_toDigits (b := 10) (d := 0) (by decide)
      (Nat.mul_pos hn (Nat.pow_pos (n := k) (by decide : 0 < 10))) (by decide)
    rw [Nat.toDigits_zero, Nat.add_zero, Nat.mul_left_comm, ← Nat.pow_succ'] at hdigit
    rw [ofNat, ← hdigit, show Nat.toDigits 10 (n * 10 ^ k) = ofNat (n * 10 ^ k) from rfl, ih,
      List.append_assoc, List.replicate_succ']

theorem lt_pow_length_ofNat (n : ℕ) : n < 10 ^ (ofNat n).length :=
  (Nat.length_toDigits_le_iff (by decide) Nat.length_toDigits_pos).1 (Nat.le_refl _)

theorem length_ofNat_le {n k : ℕ} (hk : 0 < k) (h : n < 10 ^ k) : (ofNat n).length ≤ k :=
  (Nat.length_toDigits_le_iff (by decide) hk).2 h

/-- The first digit of a number is no zero. -/
theorem head?_ofNat {n : ℕ} (hn : n ≠ 0) : (ofNat n).head? ≠ some '0' := by
  induction n using Nat.strongRecOn with
  | ind n ih =>
    unfold ofNat
    rw [Nat.toDigits_eq_if (by decide)]
    split
    · next hlt =>
      have hdigit : ∀ m : ℕ, m < 10 → m ≠ 0 → m.digitChar ≠ '0' := by decide
      simpa using hdigit n hlt hn
    · next hge =>
      rw [List.head?_append_of_ne_nil _ Nat.toDigits_ne_nil]
      exact ih (n / 10) (Nat.div_lt_self (by omega) (by decide)) (by omega)

theorem digitsValue_append_zeros (t : Text) (k : ℕ) :
    digitsValue (t ++ List.replicate k '0') = digitsValue t * 10 ^ k := by
  rw [digitsValue, Nat.ofDigitChars_append, Nat.ofDigitChars_replicate_zero, Nat.mul_comm]
  rfl

theorem digitsValue_zeros_append (k : ℕ) (t : Text) :
    digitsValue (List.replicate k '0' ++ t) = digitsValue t := by
  rw [digitsValue, Nat.ofDigitChars_append, Nat.ofDigitChars_replicate_zero, Nat.mul_zero]
  rfl

/-- The zeros that are trimmed at the end of a text. -/
theorem exists_trimEnd_zeros (t : Text) :
    ∃ k, t = trimEnd (· == '0') t ++ List.replicate k '0' := by
  obtain ⟨zeros, hsplit, hzeros⟩ := exists_trimEnd (· == '0') t
  have hall : ∀ c ∈ zeros, c = '0' := fun c hc => eq_of_beq (hzeros c hc)
  exact ⟨zeros.length, by rwa [← List.eq_replicate_iff.2 ⟨rfl, hall⟩]⟩

end Text

namespace Decimal

open Text Binary64

/-- Zeros can be moved from the exponent of a decimal to its digits. -/
theorem toBinary64_mul_pow (negative : Bool) (digits : ℕ) (exponent : ℤ) (k : ℕ) :
    toBinary64 negative ⟨digits * 10 ^ k, exponent - k⟩ =
      toBinary64 negative ⟨digits, exponent⟩ := by
  by_cases hdigits : digits = 0
  · simp [toBinary64, hdigits]
  · have hpos : 0 < digits := Nat.pos_of_ne_zero hdigits
    have hpow : ∀ n : ℕ, 0 < Nat.pow 10 n := fun n => Nat.pow_pos (by decide)
    have horder : ((Text.ofNat (digits * 10 ^ k)).length : ℤ) + (exponent - k) =
        (Text.ofNat digits).length + exponent := by
      rw [ofNat_mul_pow hpos, List.length_append, List.length_replicate]
      omega
    have hne : digits * 10 ^ k ≠ 0 := (Nat.mul_pos hpos (hpow k)).ne'
    unfold toBinary64
    dsimp only
    simp only [horder, hdigits, hne, false_or]
    congr 2
    apply nearest_congr _ (hpow _) (hpow _)
    simp only [Nat.pow_eq, Nat.mul_assoc, ← Nat.pow_add]
    congr 2
    omega

/-- The decimal of a whole number gives a whole number. -/
theorem isIntegral_toBinary64 {negative : Bool} {n : ℕ}
    (h : (toBinary64 negative ⟨n, 0⟩).isFinite = true) :
    (toBinary64 negative ⟨n, 0⟩).isIntegral = true := by
  have hzero : ∀ negative, (zero negative).isIntegral = true := fun negative => by
    have hfinite : (nearest negative 0 1).isFinite = true := isFinite_ofRank.2 (by decide : 0 < _)
    exact isIntegral_nearest hfinite
  unfold toBinary64 at h ⊢
  dsimp only at h ⊢
  split at h
  · next hsmall =>
    rw [if_pos hsmall]
    exact hzero negative
  · next hsmall =>
    rw [if_neg hsmall]
    split at h
    · have hinfinite := isFinite_ofRank.1 h
      exact absurd hinfinite (lt_irrefl _)
    · next hlarge =>
      rw [if_neg hlarge]
      exact isIntegral_nearest h

theorem ten_pow_lt_two_pow {n k m : ℕ} (hlow : 5 ^ k ≤ n) (h : (Text.ofNat n).length + m ≤ k) :
    10 ^ m < 2 ^ k := by
  have hten : 5 ^ k * 10 ^ m < 5 ^ k * 2 ^ k :=
    calc 5 ^ k * 10 ^ m
        < 10 ^ (Text.ofNat n).length * 10 ^ m :=
          Nat.mul_lt_mul_of_pos_right (Nat.lt_of_le_of_lt hlow (lt_pow_length_ofNat n))
            (Nat.pow_pos (by decide))
      _ = 10 ^ ((Text.ofNat n).length + m) := (Nat.pow_add ..).symm
      _ ≤ 10 ^ k := Nat.pow_le_pow_right (by decide) h
      _ = 5 ^ k * 2 ^ k := by rw [← Nat.mul_pow]
  exact Nat.lt_of_mul_lt_mul_left hten

/-- The order of magnitude of a finite number is far from where decimals are cut off. -/
theorem order_exact {sig : ℕ} {e : ℤ} (hpos : 0 < sig) (hlt : sig < 2 ^ 53) (hge : -1074 ≤ e)
    (hle : e ≤ 972) :
    -330 ≤ ((Text.ofNat (sig * 2 ^ e.toNat * 5 ^ (-e).toNat)).length : ℤ) + -(-e).toNat ∧
      ((Text.ofNat (sig * 2 ^ e.toNat * 5 ^ (-e).toNat)).length : ℤ) + -(-e).toNat ≤ 310 := by
  constructor
  · by_contra hsmall
    have hk : (-e).toNat ≤ 1074 := by omega
    have hfive : 5 ^ (-e).toNat ≤ sig * 2 ^ e.toNat * 5 ^ (-e).toNat :=
      Nat.le_mul_of_pos_left _ (Nat.mul_pos hpos (Nat.two_pow_pos _))
    have hten : 10 ^ 331 < 2 ^ (-e).toNat := ten_pow_lt_two_pow hfive (by omega)
    have htwo := hten.trans_le (Nat.pow_le_pow_right Nat.two_pos hk)
    exact absurd htwo (by decide +kernel)
  · have hbound : sig * 2 ^ e.toNat * 5 ^ (-e).toNat < 10 ^ (310 + (-e).toNat) := by
      rcases le_total 0 e with he | he
      · rw [show (-e).toNat = 0 by omega, Nat.pow_zero, Nat.mul_one, Nat.add_zero]
        calc sig * 2 ^ e.toNat
            < 2 ^ 53 * 2 ^ 972 :=
              Nat.mul_lt_mul_of_lt_of_le hlt (Nat.pow_le_pow_right (by decide) (by omega))
                (by positivity)
          _ ≤ 10 ^ 310 := by decide +kernel
      · rw [show e.toNat = 0 by omega, Nat.pow_zero, Nat.mul_one]
        have hbig : 2 ^ 53 < 10 ^ 310 := by decide +kernel
        calc sig * 5 ^ (-e).toNat
            < 10 ^ 310 * 10 ^ (-e).toNat :=
              Nat.mul_lt_mul_of_lt_of_le (lt_trans hlt hbig) (Nat.pow_le_pow_left (by decide) _)
                (by positivity)
          _ = 10 ^ (310 + (-e).toNat) := (Nat.pow_add ..).symm
    have hlength := length_ofNat_le (by omega) hbound
    omega

/-- The exact decimal of a number reads back as that number. -/
theorem toBinary64_exact {x : Binary64} (h : x.isFinite = true) :
    toBinary64 x.negative (exact x) = x := by
  obtain ⟨hlt, hge, _⟩ := isScaled_of_isFinite x
  have hle : x.scale ≤ 972 := by
    have hrank := rank_eq x
    have hfinite : (x.rank : ℕ) < infinityRank := by simpa [isFinite] using h
    unfold fractions at hrank
    unfold infinityRank at hfinite
    omega
  have hnearest := nearest_ratio h
  unfold ratio at hnearest
  unfold toBinary64 exact
  dsimp only [Nat.pow_eq] at hnearest ⊢
  by_cases hsig : x.significand = 0
  · rw [hsig, Nat.zero_mul] at hnearest
    rw [if_pos (Or.inl (by rw [hsig, Nat.zero_mul, Nat.zero_mul]))]
    exact hnearest
  · obtain ⟨hlow, hhigh⟩ := order_exact (Nat.pos_of_ne_zero hsig) hlt hge hle
    have hne : x.significand * 2 ^ x.scale.toNat * 5 ^ (-x.scale).toNat ≠ 0 := by positivity
    rw [if_neg (by omega), if_neg (by omega)]
    refine (nearest_congr _ (by positivity) (by positivity) ?_).trans hnearest
    rw [show (- -((-x.scale).toNat : ℤ)).toNat = (-x.scale).toNat by omega,
      show (-((-x.scale).toNat : ℤ)).toNat = 0 by omega, Nat.pow_zero, Nat.mul_one, Nat.mul_assoc,
      ← Nat.mul_pow]

theorem withDigits?_eq_some {x : Binary64} {count : ℕ} {d : Decimal}
    (h : withDigits? x count = some d) :
    d.toBinary64 x.negative = x ∧ d.exponent = order x.ratio.1 x.ratio.2 - count := by
  unfold withDigits? at h
  dsimp only at h
  split at h
  · next hlower hupper =>
    rw [beq_iff_eq] at hlower hupper
    obtain rfl := Option.some.inj h
    split
    · exact ⟨hlower, rfl⟩
    · exact ⟨hupper, rfl⟩
  · next hlower _ =>
    rw [beq_iff_eq] at hlower
    exact Option.some.inj h ▸ ⟨hlower, rfl⟩
  · next _ hupper =>
    rw [beq_iff_eq] at hupper
    exact Option.some.inj h ▸ ⟨hupper, rfl⟩
  · simp at h

/-- The shortest decimal is found at the least number of digits at which one reads back;
failing that, it is the exact one. -/
theorem shortest_cases (x : Binary64) :
    (∃ i < 17, withDigits? x (i + 1) = some (shortest x) ∧
        ∀ j < i, withDigits? x (j + 1) = none) ∨
      (shortest x = exact x ∧ ∀ j < 17, withDigits? x (j + 1) = none) := by
  unfold shortest
  cases hfound : (List.range 17).findSome? (fun i => withDigits? x (i + 1)) with
  | none =>
    right
    rw [List.findSome?_eq_none_iff] at hfound
    exact ⟨rfl, fun j hj => hfound j (List.mem_range.2 hj)⟩
  | some d =>
    left
    obtain ⟨before, i, after, hsplit, hi, hbefore⟩ := List.findSome?_eq_some_iff.1 hfound
    have hsorted : (before ++ i :: after).Pairwise (· < ·) := hsplit ▸ List.pairwise_lt_range
    have hmem : ∀ j < 17, j ∈ before ++ i :: after := fun j hj => hsplit ▸ List.mem_range.2 hj
    have hi17 : i < 17 := List.mem_range.1 (hsplit ▸ by simp)
    refine ⟨i, hi17, hi, fun j hj => ?_⟩
    rcases List.mem_append.1 (hmem j (by omega)) with hj' | hj'
    · exact hbefore j hj'
    · have hge : i ≤ j := by
        rcases List.mem_cons.1 hj' with rfl | hj'
        · exact Nat.le_refl _
        · have htail := (List.pairwise_append.1 hsorted).2.1
          exact Nat.le_of_lt ((List.pairwise_cons.1 htail).1 j hj')
      omega

/-- The shortest decimal of a finite number reads back as that number. -/
theorem toBinary64_shortest {x : Binary64} (h : x.isFinite = true) :
    (shortest x).toBinary64 x.negative = x := by
  rcases shortest_cases x with ⟨i, _, hi, _⟩ | ⟨hexact, _⟩
  · exact (withDigits?_eq_some hi).1
  · rw [hexact]
    exact toBinary64_exact h

/-- A whole number other than zero is the quotient of its ratio. -/
theorem exists_whole {x : Binary64} (h : x.isIntegral = true) (hzero : x.isZero = false) :
    ∃ n, 0 < n ∧ x.ratio.1 = n * x.ratio.2 ∧ 0 < x.ratio.2 := by
  simp only [isIntegral, Bool.and_eq_true, beq_iff_eq] at h
  have hden : 0 < x.ratio.2 := Nat.two_pow_pos _
  have hnum : x.ratio.1 ≠ 0 := by
    intro hnum
    have hsame := nearest_ratio h.1
    rw [hnum, nearest, if_pos rfl] at hsame
    rw [← hsame, isZero_zero] at hzero
    simp at hzero
  refine ⟨x.ratio.1 / x.ratio.2, ?_, ?_, hden⟩
  · exact Nat.div_pos (Nat.le_of_dvd (Nat.pos_of_ne_zero hnum) (Nat.dvd_of_mod_eq_zero h.2)) hden
  · exact (Nat.div_mul_cancel (Nat.dvd_of_mod_eq_zero h.2)).symm

theorem order_whole {num den n : ℕ} (hn : 0 < n) (hnum : num = n * den) (hden : 0 < den) :
    order num den = (Text.ofNat n).length := by
  unfold order
  rw [if_pos (hnum ▸ Nat.le_mul_of_pos_left _ hn), hnum, Nat.mul_div_cancel _ hden]

/-- With as many digits as a whole number has, the lower candidate is the number itself. -/
theorem withDigits?_length_ne_none {x : Binary64} (hfinite : x.isFinite = true) {n : ℕ}
    (hn : 0 < n) (hnum : x.ratio.1 = n * x.ratio.2) (hden : 0 < x.ratio.2)
    (hshort : (Text.ofNat n).length ≤ 17) : withDigits? x (Text.ofNat n).length ≠ none := by
  have hreads : toBinary64 x.negative ⟨n, 0⟩ = x := by
    unfold toBinary64
    dsimp only
    rw [if_neg (by omega), if_neg (by omega)]
    refine (nearest_congr _ (by decide) hden ?_).trans (nearest_ratio hfinite)
    simp [hnum]
  unfold withDigits?
  dsimp only
  rw [order_whole hn hnum hden, sub_self, hnum]
  simp only [Int.neg_zero, Int.toNat_zero, Nat.pow_eq, Nat.pow_zero, Nat.mul_one,
    Nat.mul_div_cancel _ hden, hreads, beq_self_eq_true]
  split <;> simp_all

/-- A whole number that needs more than its significand has nothing behind the point. -/
theorem scale_nonneg_of_le {x : Binary64} {n : ℕ} (hnum : x.ratio.1 = n * x.ratio.2)
    (hlarge : 10 ^ 17 ≤ n) : 0 ≤ x.scale := by
  by_contra hneg
  have hsig := (isScaled_of_isFinite x).lt
  have hone : n ≤ x.significand := by
    unfold ratio at hnum
    dsimp only at hnum
    rw [show x.scale.toNat = 0 by omega, Nat.pow_eq, Nat.pow_zero, Nat.mul_one] at hnum
    rw [hnum]
    exact Nat.le_mul_of_pos_right _ (Nat.two_pow_pos _)
  omega

/-- The shortest decimal of a whole number has no fraction: all digits of the number, if
they are seventeen at most, read back, and fewer reach less far behind. -/
theorem exponent_shortest {x : Binary64} (h : x.isIntegral = true) (hzero : x.isZero = false) :
    0 ≤ (shortest x).exponent := by
  obtain ⟨n, hn, hnum, hden⟩ := exists_whole h hzero
  have hfinite : x.isFinite = true := by
    simp only [isIntegral, Bool.and_eq_true] at h
    exact h.1
  have hlength : 0 < (Text.ofNat n).length := List.length_pos_iff.2 (ofNat_ne_nil n)
  have hfull := withDigits?_length_ne_none hfinite hn hnum hden
  rcases shortest_cases x with ⟨i, hi, hd, hnone⟩ | ⟨hexact, hnone⟩
  · rw [(withDigits?_eq_some hd).2, order_whole hn hnum hden]
    by_contra hneg
    have hlt : (Text.ofNat n).length - 1 < i := by omega
    have hmiss := hnone _ hlt
    rw [Nat.sub_add_cancel hlength] at hmiss
    exact hfull (by omega) hmiss
  · -- the search would have found a shorter number, so this one is too great for a fraction
    have hlong : 17 < (Text.ofNat n).length := by
      by_contra hshort
      have hmiss := hnone ((Text.ofNat n).length - 1) (by omega)
      rw [Nat.sub_add_cancel hlength] at hmiss
      exact hfull (by omega) hmiss
    have hlarge : 10 ^ 17 ≤ n := by
      by_contra hsmall
      have := length_ofNat_le (by decide) (Nat.lt_of_not_le hsmall)
      omega
    have hscale := scale_nonneg_of_le hnum hlarge
    rw [hexact]
    unfold exact
    dsimp only
    omega

theorem digits_shortest_ne_zero {x : Binary64} (h : x.isFinite = true) (hzero : x.isZero = false) :
    (shortest x).digits ≠ 0 := by
  intro hdigits
  have hreads := toBinary64_shortest h
  rw [toBinary64, if_pos (Or.inl hdigits)] at hreads
  rw [← hreads, isZero_zero] at hzero
  simp at hzero

/-- No whole number rounds to a number with a fraction. -/
theorem toBinary64_ne_of_not_isIntegral {x : Binary64} (h : x.isFinite = true)
    (hintegral : ¬ x.isIntegral = true) (n : ℕ) : toBinary64 x.negative ⟨n, 0⟩ ≠ x := by
  intro hn
  rw [← hn] at h hintegral
  exact hintegral (isIntegral_toBinary64 h)

/-- The shortest decimal of a number with a fraction has a fraction. -/
theorem exponent_shortest_neg {x : Binary64} (h : x.isFinite = true)
    (hintegral : ¬ x.isIntegral = true) : (shortest x).exponent < 0 := by
  by_contra hexponent
  obtain ⟨k, hk⟩ := Int.eq_ofNat_of_zero_le (Int.not_lt.1 hexponent)
  apply toBinary64_ne_of_not_isIntegral h hintegral ((shortest x).digits * 10 ^ k)
  have hmove := toBinary64_mul_pow x.negative (shortest x).digits k k
  rw [sub_self, ← hk] at hmove
  exact hmove.trans (toBinary64_shortest h)

/-- A text of digits on both sides of a point, as a number is written and read: no zero
stands in front of other digits. -/
structure IsPointed (whole fraction : Text) : Prop where
  whole_digits : ∀ c ∈ whole, c.isDigit = true
  fraction_digits : ∀ c ∈ fraction, c.isDigit = true
  whole_ne_nil : whole ≠ []
  fraction_ne_nil : fraction ≠ []
  no_zero : whole.length = 1 ∨ whole.head? ≠ some '0'

/-- A decimal without a negative exponent is written with zeros behind its digits. -/
theorem positional_of_exponent_nonneg {d : Decimal} (hd : d.digits ≠ 0) (he : 0 ≤ d.exponent)
    (negative : Bool) :
    IsPointed (positional d) ['0'] ∧
      toBinary64 negative ⟨digitsValue (positional d ++ ['0']), -1⟩ = toBinary64 negative d := by
  obtain ⟨digits, exponent⟩ := d
  obtain ⟨k, rfl⟩ := Int.eq_ofNat_of_zero_le he
  have hposition : positional ⟨digits, k⟩ = Text.ofNat digits ++ List.replicate k '0' := by
    simp [positional]
  rw [hposition]
  constructor
  · refine ⟨fun c hc => ?_, List.forall_mem_singleton.2 rfl, by simp [ofNat_ne_nil], by simp,
      Or.inr ?_⟩
    · rcases List.mem_append.1 hc with hc | hc
      · exact isDigit_of_mem_ofNat hc
      · rw [List.eq_of_mem_replicate hc]
        rfl
    · rw [List.head?_append_of_ne_nil _ (ofNat_ne_nil digits)]
      exact head?_ofNat hd
  · have hvalue : digitsValue (Text.ofNat digits ++ List.replicate k '0' ++ ['0']) =
        digits * 10 ^ (k + 1) := by
      rw [List.append_assoc, ← List.replicate_succ', digitsValue_append_zeros, digitsValue_ofNat]
    rw [hvalue, show (-1 : ℤ) = (k : ℤ) - ((k + 1 : ℕ) : ℤ) by omega, toBinary64_mul_pow]

/-- The digits of a decimal with some places behind its point, zeros in front of them. -/
def filled (digits places : ℕ) : Text :=
  List.replicate (places + 1 - (Text.ofNat digits).length) '0' ++ Text.ofNat digits

theorem length_filled (digits places : ℕ) :
    (filled digits places).length = max (places + 1) (Text.ofNat digits).length := by
  rw [filled, List.length_append, List.length_replicate]
  omega

theorem digitsValue_filled (digits places : ℕ) : digitsValue (filled digits places) = digits := by
  rw [filled, digitsValue_zeros_append, digitsValue_ofNat]

theorem isDigit_of_mem_filled {digits places : ℕ} {c : Char} (hc : c ∈ filled digits places) :
    c.isDigit = true := by
  rcases List.mem_append.1 hc with hc | hc
  · rw [List.eq_of_mem_replicate hc]
    rfl
  · exact isDigit_of_mem_ofNat hc

/-- A zero stands alone in front of the places, or a digit of the number does. -/
theorem head?_take_filled (digits : ℕ) {places : ℕ} (hpos : 0 < places) :
    ((filled digits places).take ((filled digits places).length - places)).length = 1 ∨
      ((filled digits places).take ((filled digits places).length - places)).head? ≠
        some '0' := by
  rw [List.length_take, length_filled]
  rcases Nat.lt_or_ge places (Text.ofNat digits).length with hlong | hshort
  · right
    have hno : filled digits places = Text.ofNat digits := by
      rw [filled, show places + 1 - (Text.ofNat digits).length = 0 by omega]
      rfl
    rw [hno, List.head?_take, if_neg (by omega)]
    apply head?_ofNat
    rintro rfl
    rw [show (Text.ofNat 0).length = 1 from rfl] at hlong
    omega
  · left
    omega

theorem positional_neg (digits : ℕ) {places : ℕ} (hpos : 0 < places) :
    positional ⟨digits, -(places : ℤ)⟩ =
      if (trimEnd (· == '0')
          ((filled digits places).drop ((filled digits places).length - places))).isEmpty then
        (filled digits places).take ((filled digits places).length - places)
      else (filled digits places).take ((filled digits places).length - places) ++
        '.' :: trimEnd (· == '0')
          ((filled digits places).drop ((filled digits places).length - places)) := by
  unfold positional
  dsimp only
  rw [if_neg (by omega), Int.neg_neg, Int.toNat_natCast]
  rfl

/-- A decimal with a negative exponent is written around a point, unless nothing but zeros
stands behind it. -/
theorem positional_of_exponent_neg {d : Decimal} (he : d.exponent < 0) (negative : Bool) :
    (∃ whole fraction, positional d = whole ++ '.' :: fraction ∧ IsPointed whole fraction ∧
        toBinary64 negative ⟨digitsValue (whole ++ fraction), -fraction.length⟩ =
          toBinary64 negative d) ∨
      ∃ n, toBinary64 negative d = toBinary64 negative ⟨n, 0⟩ := by
  obtain ⟨digits, exponent⟩ := d
  obtain ⟨places, hplaces⟩ := Int.eq_ofNat_of_zero_le (Int.neg_nonneg_of_nonpos he.le)
  obtain rfl : exponent = -(places : ℤ) := by
    dsimp only at hplaces
    omega
  have hpos : 0 < places := by
    dsimp only at he
    omega
  have hposition := positional_neg digits hpos
  have hlength := length_filled digits places
  have hhead := head?_take_filled digits hpos
  obtain ⟨zeros, hzeros⟩ := exists_trimEnd_zeros
    ((filled digits places).drop ((filled digits places).length - places))
  generalize hwhole : (filled digits places).take ((filled digits places).length - places) = whole
    at hposition hhead
  generalize hfraction : trimEnd (· == '0')
    ((filled digits places).drop ((filled digits places).length - places)) = fraction
    at hposition hzeros
  have hsplit : filled digits places = whole ++ fraction ++ List.replicate zeros '0' := by
    rw [List.append_assoc, ← hzeros, ← hwhole, List.take_append_drop]
  have hcount : fraction.length + zeros = places := by
    have hlen := congrArg List.length hzeros
    rw [List.length_drop, List.length_append, List.length_replicate] at hlen
    omega
  have hsame : toBinary64 negative ⟨digitsValue (whole ++ fraction), -fraction.length⟩ =
      toBinary64 negative ⟨digits, -(places : ℤ)⟩ := by
    rw [← toBinary64_mul_pow _ _ _ zeros, ← digitsValue_append_zeros, ← hsplit,
      digitsValue_filled]
    congr 2
    omega
  by_cases hnil : fraction = []
  · right
    refine ⟨digitsValue whole, ?_⟩
    rw [← hsame, hnil]
    simp
  · left
    rw [List.isEmpty_eq_false_iff.2 hnil] at hposition
    refine ⟨whole, fraction, hposition, ⟨fun c hc => ?_, fun c hc => ?_, ?_, hnil, hhead⟩, hsame⟩
    · have hmem : c ∈ filled digits places :=
        hsplit ▸ List.mem_append_left _ (List.mem_append_left _ hc)
      exact isDigit_of_mem_filled hmem
    · have hmem : c ∈ filled digits places :=
        hsplit ▸ List.mem_append_left _ (List.mem_append_right _ hc)
      exact isDigit_of_mem_filled hmem
    · rw [← hwhole, ← List.length_pos_iff, List.length_take]
      omega

end Decimal
end TypedCommand
