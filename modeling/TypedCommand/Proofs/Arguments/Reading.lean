import Mathlib.Data.List.TakeWhile
import TypedCommand.Arguments

/-!
What one word of a call is read as. The cases say all that reading a word can come to, and
when; what holds of the reading of a whole call follows from them word by word.
-/

namespace TypedCommand.Arguments

/-- A word that begins with a dash, where flags are still read. -/
structure IsFlagWord (p : Progress) (word : Text) : Prop where
  terminated : p.terminated = false
  ne_terminator : word ≠ "--".toList
  dash : word.head? = some '-'
  length : 1 < word.length

/-- A word that stands for itself: behind the terminator any word, before it one that is
neither the terminator nor the flag of an option. -/
def IsPlainWord (s : Specification) (p : Progress) (word : Text) : Prop :=
  p.terminated = false → word ≠ "--".toList ∧
    (word.head? = some '-' → word = ['-'] ∨ s.option? (splitFlag word).1 = none)

inductive Reads (s : Specification) (p : Progress) (word : Text) : Except Stop Progress → Prop
  | value {flag : Text} {option : Parameter} (hawaiting : p.awaiting = some (flag, option)) :
      Reads s p word (.ok { p with given := p.given.give option word, awaiting := none })
  | terminator (hawaiting : p.awaiting = none) (hterminated : p.terminated = false)
      (hword : word = "--".toList) : Reads s p word (.ok { p with terminated := true })
  | inline {flag value : Text} {option : Parameter} (hawaiting : p.awaiting = none)
      (hflag : IsFlagWord p word) (hsplit : splitFlag word = (flag, some value))
      (hoption : s.option? flag = some option) :
      Reads s p word (.ok { p with given := p.given.give option value })
  | switch {option : Parameter} (hawaiting : p.awaiting = none) (hflag : IsFlagWord p word)
      (hoption : s.option? word = some option) (hkind : option.kind = .bool) :
      Reads s p word (.ok { p with given := p.given.give option "true" })
  | flag {option : Parameter} (hawaiting : p.awaiting = none) (hflag : IsFlagWord p word)
      (hoption : s.option? word = some option) (hkind : option.kind ≠ .bool) :
      Reads s p word (.ok { p with awaiting := some (word, option) })
  | positional {next : Parameter} {waiting : List Parameter} (hawaiting : p.awaiting = none)
      (hplain : IsPlainWord s p word) (hwaiting : p.waiting = next :: waiting) :
      Reads s p word (.ok { p with given := p.given.give next word, waiting })
  | leftover (hawaiting : p.awaiting = none) (hplain : IsPlainWord s p word)
      (hwaiting : p.waiting = [] ∨ IsFlagWord p word ∧ isNegativeNumber word = false)
      (hvariadic : s.hasVariadic = true) :
      Reads s p word (.ok { p with given := p.given.leave word })
  | help (hawaiting : p.awaiting = none) (hflag : IsFlagWord p word)
      (hoption : s.option? (splitFlag word).1 = none)
      (hhelp : (splitFlag word).1 = "-h".toList ∨ (splitFlag word).1 = "--help".toList) :
      Reads s p word (.error .help)
  | unknownOption (hawaiting : p.awaiting = none) (hflag : IsFlagWord p word)
      (hoption : s.option? (splitFlag word).1 = none) (hvariadic : s.hasVariadic = false) :
      Reads s p word (.error (.failure (.unknownOption (splitFlag word).1)))
  | unexpectedArgument (hawaiting : p.awaiting = none) (hplain : IsPlainWord s p word)
      (hwaiting : p.waiting = []) (hvariadic : s.hasVariadic = false) :
      Reads s p word (.error (.failure (.unexpectedArgument word)))

/-- A word with a value in it is cut at its first equals sign. -/
theorem splitFlag_eq_some {word flag value : Text} (h : splitFlag word = (flag, some value)) :
    word = flag ++ '=' :: value ∧ "--".toList <+: flag ∧ '=' ∉ flag := by
  unfold splitFlag at h
  split at h
  · next hdashes =>
    have hsplit := List.takeWhile_append_dropWhile (p := (· != '=')) (l := word)
    have hfront : '=' ∉ word.takeWhile (· != '=') := by
      intro hmem
      have hne := List.mem_takeWhile_imp hmem
      simp at hne
    split at h
    · next c value' hdrop =>
      obtain ⟨rfl, hvalue⟩ := Prod.mk.inj h
      obtain rfl := Option.some.inj hvalue
      have hc : c = '=' := by
        have hnot := List.head?_dropWhile_not (· != '=') word
        rw [hdrop] at hnot
        simpa using hnot
      rw [hdrop, hc] at hsplit
      refine ⟨hsplit.symm, ?_, hfront⟩
      obtain ⟨rest, rfl⟩ := List.isPrefixOf_iff_prefix.1 hdashes
      exact ⟨rest.takeWhile (· != '='), rfl⟩
    · simp at h
  · simp at h

theorem splitFlag_eq_none {word flag : Text} (h : splitFlag word = (flag, none)) :
    flag = word := by
  unfold splitFlag at h
  split at h
  · split at h
    · simp at h
    · exact (Prod.mk.inj h).1.symm
  · exact (Prod.mk.inj h).1.symm

variable {s : Specification} {p : Progress} {word : Text}

theorem reads_takePlain (hawaiting : p.awaiting = none) (hplain : IsPlainWord s p word) :
    Reads s p word (takePlain s word p) := by
  unfold takePlain
  split
  · next next waiting hwaiting => exact .positional hawaiting hplain hwaiting
  · next hwaiting =>
    split
    · next hvariadic => exact .leftover hawaiting hplain (Or.inl hwaiting) hvariadic
    · next hvariadic =>
      exact .unexpectedArgument hawaiting hplain hwaiting (Bool.not_eq_true _ ▸ hvariadic)

theorem reads_takeFlag (hawaiting : p.awaiting = none) (hflag : IsFlagWord p word) :
    Reads s p word (takeFlag s word p) := by
  unfold takeFlag
  split
  next flag inline hsplit =>
  split
  · next option value hoption => exact .inline hawaiting hflag hsplit hoption
  · next option hoption =>
    obtain rfl := splitFlag_eq_none hsplit
    split
    · next hkind => exact .switch hawaiting hflag hoption hkind
    · next hkind => exact .flag hawaiting hflag hoption hkind
  · next hoption =>
    obtain rfl : (splitFlag word).1 = flag := by rw [hsplit]
    have hplain : IsPlainWord s p word := fun _ => ⟨hflag.ne_terminator, fun _ => Or.inr hoption⟩
    split
    · exact reads_takePlain hawaiting hplain
    · next hnumber =>
      rw [Bool.not_eq_true] at hnumber
      split
      · next hhelp => exact .help hawaiting hflag hoption hhelp
      · split
        · next hvariadic => exact .leftover hawaiting hplain (Or.inr ⟨hflag, hnumber⟩) hvariadic
        · next hvariadic =>
          exact .unknownOption hawaiting hflag hoption (Bool.not_eq_true _ ▸ hvariadic)

/-- The cases are all there are. -/
theorem reads_take (s : Specification) (p : Progress) (word : Text) :
    Reads s p word (take s p word) := by
  unfold take
  split
  · next hawaiting => exact .value hawaiting
  · next hawaiting =>
    split
    · next hterminated =>
      exact reads_takePlain hawaiting fun hfalse => by simp [hterminated] at hfalse
    · next hterminated =>
      rw [Bool.not_eq_true] at hterminated
      split
      · next hword => exact .terminator hawaiting hterminated hword
      · next hne =>
        split
        · next hdash => exact reads_takeFlag hawaiting ⟨hterminated, hne, hdash.1, hdash.2⟩
        · next hdash =>
          refine reads_takePlain hawaiting fun _ => ⟨hne, fun hhead => Or.inl ?_⟩
          obtain ⟨rest, rfl⟩ := List.head?_eq_some_iff.1 hhead
          have hrest : rest = [] := by
            by_contra hrest
            exact hdash ⟨rfl, by simpa using List.length_pos_iff.2 hrest⟩
          rw [hrest]

end TypedCommand.Arguments
