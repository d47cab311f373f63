import TypedCommand.Proofs.Number.Integer
import TypedCommand.Proofs.Toml.Quoted
import TypedCommand.Toml.Scalar

/-!
Single values are read back from the end of a line. Only one thing is lost in writing: a
value that is not a number has no sign, and settles on the one without a minus.
-/

namespace TypedCommand

def Binary64.settle (x : Binary64) : Binary64 := if x.isNaN then notANumber false else x

namespace Toml

open Text Decimal

def Scalar.settle : Scalar → Scalar
  | float x => .float x.settle
  | s => s

def Scalar.IsWritten : Scalar → Prop
  | integer n => isIntegerInRange n = true
  | dateTime => False
  | outOfRange => False
  | _ => True

theorem splitOn_of_not_mem {t : Text} (h : '_' ∉ t) : t.splitOn '_' = [t] := by
  have hsplit := List.splitOn_intercalate '_' (show ∀ g ∈ [t], '_' ∉ g by simpa using h) (by simp)
  rwa [List.intercalate_singleton] at hsplit

/-- A text without underscores is one group of digits, or none. -/
theorem ungroup?_of_not_mem {isDigit : Char → Bool} {t : Text} (h : '_' ∉ t) :
    ungroup? isDigit t = if !t.isEmpty && t.all isDigit then some t else none := by
  simp [ungroup?, splitOn_of_not_mem h]

theorem ne_of_isDigit {c d : Char} (hc : c.isDigit = true) (hd : d.isDigit = false) : c ≠ d :=
  fun h => by simp [h, hd] at hc

theorem not_mem_of_digits {t : Text} (h : ∀ c ∈ t, c.isDigit = true) {d : Char}
    (hd : d.isDigit = false) : d ∉ t := fun hmem => ne_of_isDigit (h d hmem) hd rfl

theorem wholeDigits?_of_digits {t : Text} (h : ∀ c ∈ t, c.isDigit = true) (hne : t ≠ [])
    (hzero : t.length = 1 ∨ t.head? ≠ some '0') : wholeDigits? t = some t := by
  have hgroup : ungroup? Char.isDigit t = some t := by
    rw [ungroup?_of_not_mem (not_mem_of_digits h rfl), if_pos]
    simpa [hne] using h
  rw [wholeDigits?, hgroup]
  dsimp only
  rw [if_pos hzero]

/-- A text in which no letter marks a base is an integer if it is one in decimal. -/
theorem toInteger?_of_plain {t : Text} (hx : 'x' ∉ t) (ho : 'o' ∉ t) (hb : 'b' ∉ t) :
    toInteger? t = (wholeDigits? (splitSign t).2).map fun ds =>
      if (splitSign t).1 then -(digitsValue ds : Int) else digitsValue ds := by
  unfold toInteger?
  split
  · simp at hx
  · simp at ho
  · simp at hb
  · rfl

theorem mem_ofInt {n : ℤ} {c : Char} (h : c ∈ ofInt n) : c = '-' ∨ c.isDigit = true := by
  unfold ofInt at h
  split at h
  · exact (List.mem_cons.1 h).imp_right isDigit_of_mem_ofNat
  · exact Or.inr (isDigit_of_mem_ofNat h)

theorem not_mem_ofInt (n : ℤ) {c : Char} (hdigit : c.isDigit = false) (hminus : c ≠ '-') :
    c ∉ ofInt n := by
  intro hmem
  rcases mem_ofInt hmem with h | h
  · exact hminus h
  · exact ne_of_isDigit h hdigit rfl

theorem toInteger?_ofInt (n : ℤ) : toInteger? (ofInt n) = some n := by
  have hdigits : ∀ c ∈ ofNat n.natAbs, c.isDigit = true := fun c => isDigit_of_mem_ofNat
  have hwhole : wholeDigits? (ofNat n.natAbs) = some (ofNat n.natAbs) := by
    refine wholeDigits?_of_digits hdigits (ofNat_ne_nil _) ?_
    by_cases hn : n.natAbs = 0
    · rw [hn]
      exact Or.inl rfl
    · exact Or.inr (head?_ofNat hn)
  rw [toInteger?_of_plain (not_mem_ofInt n rfl (by decide)) (not_mem_ofInt n rfl (by decide))
    (not_mem_ofInt n rfl (by decide)), splitSign_ofInt, hwhole, Option.map_some,
    signed_digitsValue]

theorem ofAtom?_ofInt {n : ℤ} (h : isIntegerInRange n = true) :
    Scalar.ofAtom? (ofInt n) = some (.integer n) := by
  have htrue : ofInt n ≠ "true".toList := fun heq =>
    not_mem_ofInt n (c := 't') rfl (by decide) (heq ▸ by decide)
  have hfalse : ofInt n ≠ "false".toList := fun heq =>
    not_mem_ofInt n (c := 'f') rfl (by decide) (heq ▸ by decide)
  unfold Scalar.ofAtom?
  rw [if_neg htrue, if_neg hfalse, toInteger?_ofInt]
  dsimp only
  rw [if_pos h]

/-- A number with a point, and a minus in front of it if it is negative. -/
def pointed (negative : Bool) (whole fraction : Text) : Text :=
  (if negative then ['-'] else []) ++ (whole ++ '.' :: fraction)

section Pointed

variable {whole fraction : Text} (h : IsPointed whole fraction)

include h

theorem plainTail?_of_isPointed : plainTail? ('.' :: fraction) = some ('.' :: fraction) := by
  have hmark : ∀ c ∈ fraction, (!(c == 'e' || c == 'E')) = true := by
    intro c hc
    have hdigit := h.fraction_digits c hc
    simp [ne_of_isDigit hdigit (d := 'e') rfl, ne_of_isDigit hdigit (d := 'E') rfl]
  have htake : fraction.takeWhile (fun c => !(c == 'e' || c == 'E')) = fraction :=
    List.takeWhile_eq_self_iff.2 hmark
  have hdrop : fraction.dropWhile (fun c => !(c == 'e' || c == 'E')) = [] :=
    List.dropWhile_eq_nil_iff.2 hmark
  have hgroup : ungroup? Char.isDigit fraction = some fraction := by
    rw [ungroup?_of_not_mem (not_mem_of_digits h.fraction_digits rfl), if_pos]
    simpa [h.fraction_ne_nil] using h.fraction_digits
  rw [plainTail?]
  dsimp only
  rw [htake, hdrop, hgroup]
  simp [plainExponent?]

theorem read?_of_isPointed : Decimal.read? (whole ++ '.' :: fraction) =
    some ⟨digitsValue (whole ++ fraction), -fraction.length⟩ := by
  have htake : (whole ++ '.' :: fraction).takeWhile Char.isDigit = whole := by
    rw [List.takeWhile_append_of_pos h.whole_digits, List.takeWhile_cons_of_neg (by decide),
      List.append_nil]
  have hdrop : (whole ++ '.' :: fraction).dropWhile Char.isDigit = '.' :: fraction := by
    rw [List.dropWhile_append_of_pos h.whole_digits, List.dropWhile_cons_of_neg (by decide)]
  simp only [Decimal.read?, htake, hdrop]
  rw [List.takeWhile_eq_self_iff.2 h.fraction_digits, List.dropWhile_eq_nil_iff.2 h.fraction_digits,
    if_neg (by simp [h.whole_ne_nil])]
  simp [readExponent?]

theorem isDigit_of_head? {c : Char} (hc : (whole ++ '.' :: fraction).head? = some c) :
    c.isDigit = true := by
  rw [List.head?_append_of_ne_nil _ h.whole_ne_nil] at hc
  exact h.whole_digits c (List.mem_of_mem_head? hc)

theorem splitSign_pointed (negative : Bool) :
    splitSign (pointed negative whole fraction) = (negative, whole ++ '.' :: fraction) := by
  cases negative with
  | true => rfl
  | false => exact splitSign_of_digits fun c hc => isDigit_of_head? h hc

theorem mem_pointed {negative : Bool} {c : Char} (hc : c ∈ pointed negative whole fraction) :
    c = '-' ∨ c = '.' ∨ c.isDigit = true := by
  rcases List.mem_append.1 hc with hc | hc
  · cases negative with
    | true => exact Or.inl (List.mem_singleton.1 hc)
    | false => simp at hc
  · rcases List.mem_append.1 hc with hc | hc
    · exact Or.inr (Or.inr (h.whole_digits c hc))
    · exact Or.inr ((List.mem_cons.1 hc).imp_right (h.fraction_digits c))

theorem not_mem_pointed (negative : Bool) {c : Char} (hdigit : c.isDigit = false)
    (hminus : c ≠ '-') (hpoint : c ≠ '.') : c ∉ pointed negative whole fraction := by
  intro hmem
  rcases mem_pointed h hmem with hc | hc | hc
  · exact hminus hc
  · exact hpoint hc
  · exact ne_of_isDigit hc hdigit rfl

/-- A point makes a text no integer. -/
theorem toInteger?_pointed (negative : Bool) :
    toInteger? (pointed negative whole fraction) = none := by
  have hgroup : '_' ∉ whole ++ '.' :: fraction :=
    not_mem_pointed h false rfl (by decide) (by decide)
  have hnone : ungroup? Char.isDigit (whole ++ '.' :: fraction) = none := by
    rw [ungroup?_of_not_mem hgroup, if_neg]
    simp
  rw [toInteger?_of_plain (not_mem_pointed h negative rfl (by decide) (by decide))
    (not_mem_pointed h negative rfl (by decide) (by decide))
    (not_mem_pointed h negative rfl (by decide) (by decide)), splitSign_pointed h, wholeDigits?,
    hnone]
  rfl

/-- A number with a point is read as the number that its decimal rounds to. -/
theorem toFloat?_pointed (negative : Bool) {x : Binary64} (hx : x.isInfinite = false)
    (hvalue : toBinary64 negative ⟨digitsValue (whole ++ fraction), -fraction.length⟩ = x) :
    toFloat? (pointed negative whole fraction) = some (.float x) := by
  have hisWhole : ∀ c ∈ whole, (c.isDigit || c == '_') = true := fun c hc => by
    simp [h.whole_digits c hc]
  have htake : (whole ++ '.' :: fraction).takeWhile (fun c => c.isDigit || c == '_') = whole := by
    rw [List.takeWhile_append_of_pos hisWhole, List.takeWhile_cons_of_neg (by decide),
      List.append_nil]
  have hdrop : (whole ++ '.' :: fraction).dropWhile (fun c => c.isDigit || c == '_') =
      '.' :: fraction := by
    rw [List.dropWhile_append_of_pos hisWhole, List.dropWhile_cons_of_neg (by decide)]
  have hletter : 'n' ∉ whole ++ '.' :: fraction :=
    not_mem_pointed h false rfl (by decide) (by decide)
  have hinf : whole ++ '.' :: fraction ≠ "inf".toList := fun heq =>
    hletter (heq ▸ by decide)
  have hnan : whole ++ '.' :: fraction ≠ "nan".toList := fun heq =>
    hletter (heq ▸ by decide)
  unfold toFloat?
  rw [splitSign_pointed h]
  dsimp only
  rw [if_neg hinf, if_neg hnan, htake, hdrop,
    wholeDigits?_of_digits h.whole_digits h.whole_ne_nil h.no_zero, plainTail?_of_isPointed h]
  dsimp only
  rw [read?_of_isPointed h, Option.map_some, hvalue, hx]
  rfl

theorem ofAtom?_pointed (negative : Bool) {x : Binary64} (hx : x.isInfinite = false)
    (hvalue : toBinary64 negative ⟨digitsValue (whole ++ fraction), -fraction.length⟩ = x) :
    Scalar.ofAtom? (pointed negative whole fraction) = some (.float x) := by
  have htrue : pointed negative whole fraction ≠ "true".toList := fun heq =>
    not_mem_pointed h negative (c := 't') rfl (by decide) (by decide) (heq ▸ by decide)
  have hfalse : pointed negative whole fraction ≠ "false".toList := fun heq =>
    not_mem_pointed h negative (c := 'f') rfl (by decide) (by decide) (heq ▸ by decide)
  unfold Scalar.ofAtom?
  rw [if_neg htrue, if_neg hfalse, toInteger?_pointed h]
  dsimp only
  rw [toFloat?_pointed h negative hx hvalue]

end Pointed

theorem isNaN_of_isFinite {x : Binary64} (h : x.isFinite = true) : x.isNaN = false := by
  simp only [Binary64.isFinite, decide_eq_true_eq] at h
  simp only [Binary64.isNaN, decide_eq_false_iff_not]
  omega

theorem isInfinite_of_isFinite {x : Binary64} (h : x.isFinite = true) : x.isInfinite = false := by
  simp only [Binary64.isFinite, decide_eq_true_eq] at h
  simp only [Binary64.isInfinite, beq_eq_false_iff_ne]
  omega

/-- A finite number is written around a point, in digits that read back as it. -/
theorem writeFloat_of_isFinite {x : Binary64} (h : x.isFinite = true) :
    ∃ whole fraction, IsPointed whole fraction ∧
      writeFloat x = pointed x.negative whole fraction ∧
      toBinary64 x.negative ⟨digitsValue (whole ++ fraction), -fraction.length⟩ = x := by
  unfold writeFloat
  simp only [isNaN_of_isFinite h, isInfinite_of_isFinite h, Bool.false_eq_true, if_false]
  by_cases hzero : x.isZero = true
  · rw [if_pos hzero]
    refine ⟨['0'], ['0'], ⟨List.forall_mem_singleton.2 rfl,
      List.forall_mem_singleton.2 rfl, by simp, by simp, Or.inl rfl⟩, rfl, ?_⟩
    have hrank : (x.rank : ℕ) = 0 := by simpa [Binary64.isZero] using hzero
    rw [← Binary64.ofRank_rank h, hrank, Binary64.negative_ofRank]
    rfl
  · rw [if_neg hzero]
    rw [Bool.not_eq_true] at hzero
    have hreads := toBinary64_shortest h
    by_cases hintegral : x.isIntegral = true
    · rw [if_pos hintegral]
      obtain ⟨hpointed, hvalue⟩ := positional_of_exponent_nonneg (digits_shortest_ne_zero h hzero)
        (exponent_shortest hintegral hzero) x.negative
      exact ⟨_, _, hpointed, rfl, hvalue.trans hreads⟩
    · rw [if_neg hintegral]
      rcases positional_of_exponent_neg (exponent_shortest_neg h hintegral) x.negative with
        ⟨whole, fraction, hposition, hpointed, hvalue⟩ | ⟨n, hn⟩
      · exact ⟨whole, fraction, hpointed, by rw [hposition, pointed], hvalue.trans hreads⟩
      · exact absurd (hn.symm.trans hreads) (toBinary64_ne_of_not_isIntegral h hintegral n)

theorem isAtomChar_of_isDigit {c : Char} (h : c.isDigit = true) : isAtomChar c = true := by
  simp [isAtomChar, isAlnum, h]

/-- An unbroken stretch of characters at the end of a line is read as a whole. -/
theorem read_of_atomChars {t : Text} (h : ∀ c ∈ t, isAtomChar c = true) (rest : Text) :
    Scalar.read (t ++ '\n' :: rest) = (Scalar.ofAtom? t).map fun v => (v, '\n' :: rest) := by
  have hhead : ∀ c : Char, isAtomChar c = false → c ≠ '\n' →
      (t ++ '\n' :: rest).head? ≠ some c := by
    intro c hc hn hhead
    cases t with
    | nil => exact hn (Option.some.inj hhead).symm
    | cons d t =>
      rw [← Option.some.inj hhead, h d List.mem_cons_self] at hc
      simp at hc
  have htake : (t ++ '\n' :: rest).takeWhile isAtomChar = t := by
    rw [List.takeWhile_append_of_pos h, List.takeWhile_cons_of_neg (by decide), List.append_nil]
  have hdrop : (t ++ '\n' :: rest).dropWhile isAtomChar = '\n' :: rest := by
    rw [List.dropWhile_append_of_pos h, List.dropWhile_cons_of_neg (by decide)]
  unfold Scalar.read
  rw [if_neg, htake, hdrop]
  · dsimp only
    rw [if_neg (by simp)]
  · rintro (hquote | hquote)
    · exact hhead '"' (by decide) (by decide) hquote
    · exact hhead '\'' (by decide) (by decide) hquote

theorem ofAtom?_writeFloat (x : Binary64) :
    Scalar.ofAtom? (writeFloat x) = some (.float x.settle) := by
  by_cases hnan : x.isNaN = true
  · rw [writeFloat, if_pos hnan, Binary64.settle, if_pos hnan]
    rfl
  · rw [Binary64.settle, if_neg hnan]
    rw [Binary64.isNaN, decide_eq_true_eq, not_lt] at hnan
    rcases Nat.lt_or_eq_of_le hnan with hlt | heq
    · have hfinite : x.isFinite = true := by simpa [Binary64.isFinite] using hlt
      obtain ⟨whole, fraction, hpointed, hwrite, hvalue⟩ := writeFloat_of_isFinite hfinite
      rw [hwrite]
      exact ofAtom?_pointed hpointed x.negative (isInfinite_of_isFinite hfinite) hvalue
    · have hx : x = Binary64.infinity x.negative := by
        obtain ⟨negative, rank⟩ := x
        rw [Binary64.infinity, Binary64.ofRank, dif_neg (lt_irrefl _)]
        congr 1
        exact Fin.ext heq
      rw [hx]
      cases x.negative <;> rfl

theorem isAtomChar_of_mem_ofInt {n : ℤ} {c : Char} (h : c ∈ ofInt n) : isAtomChar c = true := by
  rcases mem_ofInt h with rfl | h
  · rfl
  · exact isAtomChar_of_isDigit h

theorem isAtomChar_of_mem_writeFloat {x : Binary64} {c : Char} (h : c ∈ writeFloat x) :
    isAtomChar c = true := by
  by_cases hfinite : x.isFinite = true
  · obtain ⟨whole, fraction, hpointed, hwrite, _⟩ := writeFloat_of_isFinite hfinite
    rcases mem_pointed hpointed (hwrite ▸ h) with rfl | rfl | h
    · rfl
    · rfl
    · exact isAtomChar_of_isDigit h
  · have hname : writeFloat x ∈ ["nan".toList, "inf".toList, "-inf".toList] := by
      unfold writeFloat
      by_cases hnan : x.isNaN = true
      · simp [hnan]
      · have hinfinite : x.isInfinite = true := by
          simp only [Binary64.isNaN, Binary64.isFinite, Binary64.isInfinite, decide_eq_true_eq,
            beq_iff_eq] at *
          omega
        cases hneg : x.negative <;> simp [hnan, hinfinite]
    have hall : ["nan".toList, "inf".toList, "-inf".toList].all (·.all isAtomChar) = true := by
      decide
    exact List.all_eq_true.1 (List.all_eq_true.1 hall _ hname) c h

/-- A text begins with a quote wherever a string is read from it. -/
theorem head?_of_readString {t : Text} {result : Text × Text} (h : readString t = some result) :
    t.head? = some '"' ∨ t.head? = some '\'' := by
  unfold readString at h
  split at h
  · exact Or.inl rfl
  · exact Or.inl rfl
  · exact Or.inr rfl
  · exact Or.inr rfl
  · simp at h

/-- A single value at the end of a line is read back, settled. -/
theorem read_write {s : Scalar} (h : s.IsWritten) (rest : Text) :
    Scalar.read (s.write ++ '\n' :: rest) = some (s.settle, '\n' :: rest) := by
  cases s with
  | string t =>
    have hread := readString_writeString t (show ('\n' :: rest).head? ≠ some '"' by simp) (by simp)
    rw [Scalar.write, Scalar.read, if_pos (head?_of_readString hread), hread]
    rfl
  | integer n =>
    rw [Scalar.write, read_of_atomChars (fun c => isAtomChar_of_mem_ofInt), ofAtom?_ofInt h]
    rfl
  | float x =>
    rw [Scalar.write, read_of_atomChars (fun c => isAtomChar_of_mem_writeFloat),
      ofAtom?_writeFloat]
    rfl
  | boolean b =>
    cases b with
    | true =>
      rw [show Scalar.write (.boolean true) = "true".toList from rfl,
        read_of_atomChars (List.all_eq_true.1 (by decide))]
      rfl
    | false =>
      rw [show Scalar.write (.boolean false) = "false".toList from rfl,
        read_of_atomChars (List.all_eq_true.1 (by decide))]
      rfl
  | dateTime => exact h.elim
  | outOfRange => exact h.elim

/-- A value has the text of what is left of it. -/
theorem write_settle (s : Scalar) : s.settle.write = s.write := by
  cases s with
  | float x =>
    change writeFloat x.settle = writeFloat x
    unfold Binary64.settle
    split
    · next hnan =>
      rw [writeFloat, writeFloat, if_pos hnan]
      rfl
    · rfl
  | string | integer | boolean | dateTime | outOfRange => rfl

end Toml
end TypedCommand
