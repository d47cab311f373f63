import Mathlib.Data.List.Induction
import TypedCommand.Number.Integer
import TypedCommand.Proofs.Number.Decimal

/-!
Integers in decimal. The sign and the digits that an integer is written with give it back, and
one that 64 bits hold is read back as it was. What is read as an integer is a numeral, with
zeros in front or a plus where it has them, of a number in the range of 64 bits.
-/

namespace TypedCommand.Text

theorem splitSign_of_digits {t : Text} (h : ∀ c, t.head? = some c → c.isDigit = true) :
    splitSign t = (false, t) := by
  unfold splitSign
  split
  · exact absurd (h _ rfl) (by decide)
  · exact absurd (h _ rfl) (by decide)
  · rfl

theorem splitSign_ofInt (n : ℤ) : splitSign (ofInt n) = (decide (n < 0), ofNat n.natAbs) := by
  unfold ofInt
  by_cases hn : n < 0
  · rw [if_pos hn, decide_eq_true hn]
    rfl
  · have hdigits : ∀ c, (ofNat n.natAbs).head? = some c → c.isDigit = true :=
      fun c hc => isDigit_of_mem_ofNat (List.mem_of_mem_head? hc)
    rw [if_neg hn, decide_eq_false hn, splitSign_of_digits hdigits]

/-- The digits behind the sign have the size of the integer as their value. -/
theorem signed_digitsValue (n : ℤ) :
    (if decide (n < 0) = true then -(digitsValue (ofNat n.natAbs) : ℤ)
      else digitsValue (ofNat n.natAbs)) = n := by
  rw [digitsValue_ofNat]
  by_cases hn : n < 0
  · rw [if_pos (decide_eq_true hn)]
    omega
  · rw [if_neg (by simpa using hn)]
    omega

theorem isDigits_iff {t : Text} : isDigits t = true ↔ t ≠ [] ∧ ∀ c ∈ t, c.isDigit = true := by
  rw [isDigits, Bool.and_eq_true, Bool.not_eq_true', List.isEmpty_eq_false_iff, List.all_eq_true]

theorem isDigits_ofNat (n : ℕ) : isDigits (ofNat n) = true :=
  isDigits_iff.2 ⟨ofNat_ne_nil n, fun _ => isDigit_of_mem_ofNat⟩

theorem isInt64_iff {n : ℤ} : isInt64 n = true ↔ -2 ^ 63 ≤ n ∧ n ≤ 2 ^ 63 - 1 := by
  unfold isInt64
  rw [Bool.and_eq_true, decide_eq_true_eq, decide_eq_true_eq]
  omega

theorem isInt64_toInt (n : Int64) : isInt64 n.toInt = true := by
  have hlower := n.le_toInt
  have hupper := n.toInt_lt
  rw [isInt64_iff]
  omega

/-- Decimal digits and the number they stand for: what stands before the last digit counts ten
times as much. -/
inductive Digits : Text → ℕ → Prop
  | single {c : Char} (hc : c.isDigit = true) : Digits [c] (c.toNat - '0'.toNat)
  | snoc {t : Text} {n : ℕ} {c : Char} (h : Digits t n) (hc : c.isDigit = true) :
      Digits (t ++ [c]) (10 * n + (c.toNat - '0'.toNat))

/-- Decimal digits, alone or behind one sign, and the integer they stand for. -/
inductive Numeral : Text → ℤ → Prop
  | unsigned {t : Text} {n : ℕ} (h : Digits t n) : Numeral t n
  | plus {t : Text} {n : ℕ} (h : Digits t n) : Numeral ('+' :: t) n
  | minus {t : Text} {n : ℕ} (h : Digits t n) : Numeral ('-' :: t) (-n)

variable {t : Text}

theorem splitSign_cases (t : Text) : (∃ rest, t = '-' :: rest ∧ splitSign t = (true, rest)) ∨
    (∃ rest, t = '+' :: rest ∧ splitSign t = (false, rest)) ∨ splitSign t = (false, t) := by
  unfold splitSign
  split
  · exact Or.inl ⟨_, rfl, rfl⟩
  · exact Or.inr (Or.inl ⟨_, rfl, rfl⟩)
  · exact Or.inr (Or.inr rfl)

theorem digitsValue_singleton (c : Char) : digitsValue [c] = c.toNat - '0'.toNat := by
  rw [digitsValue, Nat.ofDigitChars_cons, Nat.mul_zero, Nat.zero_add, Nat.ofDigitChars_nil]

theorem digitsValue_concat (t : Text) (c : Char) :
    digitsValue (t ++ [c]) = 10 * digitsValue t + (c.toNat - '0'.toNat) := by
  rw [digitsValue, Nat.ofDigitChars_append, Nat.ofDigitChars_cons, Nat.ofDigitChars_nil]
  rfl

theorem digits_iff {n : ℕ} : Digits t n ↔ isDigits t = true ∧ digitsValue t = n := by
  rw [isDigits_iff]
  constructor
  · intro h
    induction h with
    | single hc =>
      exact ⟨⟨List.cons_ne_nil _ _, List.forall_mem_singleton.2 hc⟩, digitsValue_singleton _⟩
    | @snoc t n c _ hc ih =>
      obtain ⟨⟨_, hdigits⟩, hvalue⟩ := ih
      have hdigits' : ∀ d ∈ t ++ [c], d.isDigit = true :=
        List.forall_mem_append.2 ⟨hdigits, List.forall_mem_singleton.2 hc⟩
      exact ⟨⟨by simp, hdigits'⟩, by rw [digitsValue_concat, hvalue]⟩
  · rintro ⟨⟨hne, hdigits⟩, rfl⟩
    induction t using List.reverseRecOn with
    | nil => exact absurd rfl hne
    | append_singleton t c ih =>
      obtain ⟨hdigits, hc⟩ := List.forall_mem_append.1 hdigits
      have hc' : c.isDigit = true := hc c (List.mem_singleton_self c)
      cases t with
      | nil =>
        rw [List.nil_append, digitsValue_singleton]
        exact .single hc'
      | cons d t =>
        rw [digitsValue_concat]
        exact .snoc (ih (List.cons_ne_nil d t) hdigits) hc'

theorem Digits.splitSign_eq {n : ℕ} (h : Digits t n) : splitSign t = (false, t) := by
  have hdigits := (isDigits_iff.1 (digits_iff.1 h).1).2
  exact splitSign_of_digits fun c hc => hdigits c (List.mem_of_mem_head? hc)

/-- A numeral is what has digits behind the sign that is split off. -/
theorem numeral_iff {n : ℤ} : Numeral t n ↔ isDigits (splitSign t).2 = true ∧
    (if (splitSign t).1 = true then -(digitsValue (splitSign t).2 : ℤ)
      else digitsValue (splitSign t).2) = n := by
  constructor
  · intro h
    cases h with
    | unsigned h =>
      obtain ⟨hdigits, hvalue⟩ := digits_iff.1 h
      rw [h.splitSign_eq]
      exact ⟨hdigits, congrArg Nat.cast hvalue⟩
    | plus h =>
      obtain ⟨hdigits, hvalue⟩ := digits_iff.1 h
      exact ⟨hdigits, congrArg Nat.cast hvalue⟩
    | minus h =>
      obtain ⟨hdigits, hvalue⟩ := digits_iff.1 h
      exact ⟨hdigits, congrArg (fun n : ℕ => -(n : ℤ)) hvalue⟩
  · rintro ⟨hdigits, rfl⟩
    have hdenoted := digits_iff.2 ⟨hdigits, rfl⟩
    rcases splitSign_cases t with ⟨rest, rfl, hsplit⟩ | ⟨rest, rfl, hsplit⟩ | hsplit
    · rw [hsplit] at hdenoted ⊢
      exact .minus hdenoted
    · rw [hsplit] at hdenoted ⊢
      exact .plus hdenoted
    · rw [hsplit] at hdenoted ⊢
      exact .unsigned hdenoted

theorem numeral_ofInt (n : ℤ) : Numeral (ofInt n) n := by
  rw [numeral_iff, splitSign_ofInt]
  exact ⟨isDigits_ofNat n.natAbs, signed_digitsValue n⟩

theorem toInt_ofInt_of_isInt64 {n : ℤ} (h : isInt64 n = true) : (Int64.ofInt n).toInt = n := by
  obtain ⟨hlower, hupper⟩ := isInt64_iff.1 h
  exact Int64.toInt_ofInt_of_le hlower (by omega)

/-- The numerals in the range of 64 bits are read, each as its number. -/
theorem toInt64?_eq_some_iff {n : Int64} : toInt64? t = some n ↔ Numeral t n.toInt := by
  rw [numeral_iff]
  unfold toInt64?
  dsimp only
  cases hdigits : isDigits (splitSign t).2 with
  | false => simp
  | true =>
    generalize (if (splitSign t).1 = true then -(digitsValue (splitSign t).2 : ℤ)
      else digitsValue (splitSign t).2) = value
    simp only [Bool.not_true, Bool.false_eq_true, if_false, true_and]
    cases hrange : isInt64 value with
    | true =>
      rw [if_pos rfl, Option.some.injEq, ← Int64.toInt_inj, toInt_ofInt_of_isInt64 hrange]
    | false =>
      -- what no 64 bits hold is not the value of any of them
      have hne : value ≠ n.toInt := by
        rintro rfl
        exact absurd ((isInt64_toInt n).symm.trans hrange) nofun
      simp [hne]

/-- An integer of 64 bits is read back, at the limits of its range too. -/
theorem toInt64?_ofInt (n : Int64) : toInt64? (ofInt n.toInt) = some n :=
  toInt64?_eq_some_iff.2 (numeral_ofInt n.toInt)

theorem exists_toInt64?_iff : (∃ n, toInt64? t = some n) ↔
    ∃ n : ℤ, Numeral t n ∧ -2 ^ 63 ≤ n ∧ n ≤ 2 ^ 63 - 1 := by
  simp only [toInt64?_eq_some_iff]
  constructor
  · rintro ⟨n, h⟩
    exact ⟨n.toInt, h, isInt64_iff.1 (isInt64_toInt n)⟩
  · rintro ⟨n, h, hrange⟩
    exact ⟨Int64.ofInt n, by rwa [toInt_ofInt_of_isInt64 (isInt64_iff.2 hrange)]⟩

end TypedCommand.Text
