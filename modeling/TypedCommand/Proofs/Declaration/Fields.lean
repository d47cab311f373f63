import Mathlib.Data.List.TakeWhile
import TypedCommand.Proofs.Declaration.Accepted

/-!
The fields between the brackets of an annotation. Each but the head can be left out and
begins with a sign of its own, and the signs that can follow a field have no place in it
outside quotes: what is read as the fields is what is written as them, and nothing else.
-/

namespace TypedCommand

open Text

theorem Kind.ofName?_eq_some {t : Text} {kind : Kind} :
    Kind.ofName? t = some kind ↔ t = kind.name := by
  constructor
  · intro h
    unfold Kind.ofName? at h
    have hname := List.find?_some h
    exact (eq_of_beq hname).symm
  · rintro rfl
    cases kind <;> rfl

theorem Kind.name_ne_nil (kind : Kind) : kind.name ≠ [] := by
  cases kind <;> decide

namespace Annotation

/-- The kind, behind a colon. It is `str` where it is left out. -/
inductive KindField : Kind → Text → Prop
  | absent : KindField .str []
  | named (kind : Kind) : KindField kind (':' :: kind.name)

/-- The default, behind an equals sign: between quotes, which it does not hold, or without
them, and then with no quote in front, no blank and no number sign. -/
inductive DefaultField : Option Text → Text → Prop
  | absent : DefaultField none []
  | quoted {quote : Char} {value : Text} (isQuote : quote = '"' ∨ quote = '\'')
      (free : quote ∉ value) : DefaultField (some value) ('=' :: quote :: (value ++ [quote]))
  | plain {value : Text} (no_quote : ∀ c ∈ value.head?, c ≠ '"' ∧ c ≠ '\'')
      (chars : ∀ c ∈ value, isBlank c = false ∧ c ≠ '#') :
      DefaultField (some value) ('=' :: value)

/-- The help text, behind a number sign. It holds no equals sign. -/
inductive HelpField : Option Text → Text → Prop
  | absent : HelpField none []
  | given {help : Text} (free : '=' ∉ help) : HelpField (some help) ('#' :: help)

inductive Body.Writing (b : Body) : Text → Prop
  | fields {kind default help : Text} (head : ∀ c ∈ b.head, c ≠ ':' ∧ c ≠ '=' ∧ c ≠ '#')
      (hkind : KindField b.kind kind) (hdefault : DefaultField b.default default)
      (hhelp : HelpField b.help help) : b.Writing (b.head ++ (kind ++ (default ++ help)))

/-! No field begins with a sign of an earlier one. -/

theorem HelpField.head? {help : Option Text} {t : Text} (h : HelpField help t) :
    ∀ c ∈ t.head?, c = '#' := by
  cases h <;> simp

theorem DefaultField.head?_append {default : Option Text} {t rest : Text}
    (h : DefaultField default t) (hrest : ∀ c ∈ rest.head?, c = '#') :
    ∀ c ∈ (t ++ rest).head?, c = '=' ∨ c = '#' := by
  cases h with
  | absent => exact fun c hc => Or.inr (hrest c hc)
  | quoted => simp
  | plain => simp

theorem KindField.head?_append {kind : Kind} {t rest : Text} (h : KindField kind t)
    (hrest : ∀ c ∈ rest.head?, c = '=' ∨ c = '#') :
    ∀ c ∈ (t ++ rest).head?, c = ':' ∨ c = '=' ∨ c = '#' := by
  cases h with
  | absent => exact fun c hc => Or.inr (hrest c hc)
  | named => simp

/-- The fields begin with the head or with a sign. -/
theorem Body.Writing.head? {b : Body} {t : Text} (h : b.Writing t) :
    ∀ c ∈ t.head?, c ∈ b.head.head? ∨ c = ':' ∨ c = '=' ∨ c = '#' := by
  obtain ⟨_, hkind, hdefault, hhelp⟩ := h
  intro c hc
  cases hhead : b.head with
  | nil =>
    rw [hhead] at hc
    exact Or.inr (hkind.head?_append (hdefault.head?_append hhelp.head?) c hc)
  | cons d head =>
    rw [hhead] at hc
    exact Or.inl hc

/-! Each field is read exactly from its writing, up to where the next one can begin. -/

/-- A text is split at the first character of a class. -/
theorem splitBefore_eq {p : Char → Bool} {t before rest : Text} :
    splitBefore p t = (before, rest) ↔
      t = before ++ rest ∧ (∀ c ∈ before, p c = false) ∧ ∀ c ∈ rest.head?, p c = true := by
  constructor
  · intro h
    obtain ⟨rfl, rfl⟩ := Prod.mk.inj h
    refine ⟨List.takeWhile_append_dropWhile.symm, fun c hc => ?_, fun c hc => ?_⟩
    · simpa using List.mem_takeWhile_imp hc
    · have hstop := List.head?_dropWhile_not (fun c => !p c) t
      rw [Option.mem_def.1 hc] at hstop
      simpa using hstop
  · rintro ⟨rfl, hbefore, hrest⟩
    have hkeep : ∀ c ∈ before, (!p c) = true := by
      intro c hc
      simp [hbefore c hc]
    unfold splitBefore
    rw [List.takeWhile_append_of_pos hkeep, List.dropWhile_append_of_pos hkeep]
    cases rest with
    | nil => simp
    | cons c rest =>
      have hc : p c = true := hrest c rfl
      simp [hc]

/-- A text is split at the first place of a character. -/
theorem splitBefore_of_not_mem {quote : Char} {value : Text} (h : quote ∉ value) (rest : Text) :
    splitBefore (· == quote) (value ++ quote :: rest) = (value, quote :: rest) := by
  refine splitBefore_eq.2 ⟨rfl, fun c hc => ?_, by simp⟩
  rw [beq_eq_false_iff_ne]
  rintro rfl
  exact h hc

/-- A text has one first place of a character. -/
theorem eq_of_splits {c : Char} {before before' rest rest' : Text} (h : c ∉ before)
    (h' : c ∉ before') (heq : before ++ c :: rest = before' ++ c :: rest') :
    before = before' ∧ rest = rest' := by
  have hboth := (splitBefore_of_not_mem h rest).symm.trans (heq ▸ splitBefore_of_not_mem h' rest')
  obtain ⟨hbefore, hrest⟩ := Prod.mk.inj hboth
  exact ⟨hbefore, (List.cons.inj hrest).2⟩

theorem mem_kindName {kind : Kind} {c : Char} (h : c ∈ kind.name) : isWordChar c = true := by
  have hall : kind.name.all isWordChar = true := by cases kind <;> rfl
  exact List.all_eq_true.1 hall c h

theorem KindField.not_mem {kind : Kind} {t : Text} (h : KindField kind t) : '=' ∉ t := by
  cases h with
  | absent => simp
  | named =>
    intro hmem
    have hname := (List.mem_cons.1 hmem).resolve_left (by decide)
    exact absurd (mem_kindName hname) (by decide)

theorem ends_iff {t : Text} :
    (t.isEmpty || t.head? == some '#') = true ↔ ∀ c ∈ t.head?, c = '#' := by
  cases t <;> simp

variable (fragment : Text)

theorem KindField.read {kind : Kind} {written rest : Text} (h : KindField kind written)
    (hrest : ∀ c ∈ rest.head?, c = '=' ∨ c = '#') :
    readKind fragment (written ++ rest) = .ok (kind, rest) := by
  cases h with
  | absent =>
    cases rest with
    | nil => rfl
    | cons c rest =>
      rcases hrest c rfl with rfl | rfl
      · rfl
      · rfl
  | named =>
    have hsplit : splitBefore (fun c => c == '=' || c == '#') (kind.name ++ rest) =
        (kind.name, rest) := by
      refine splitBefore_eq.2 ⟨rfl, fun c hc => ?_, fun c hc => by simpa using hrest c hc⟩
      have hword := mem_kindName hc
      simp only [Bool.or_eq_false_iff, beq_eq_false_iff_ne]
      refine ⟨?_, ?_⟩
      all_goals
        rintro rfl
        exact absurd hword (by decide)
    have hname : kind.name.isEmpty = false := by simpa using kind.name_ne_nil
    rw [List.cons_append, readKind, hsplit]
    simp [hname, Kind.ofName?_eq_some.2 rfl]

theorem KindField.of_read {kind : Kind} {t rest : Text}
    (ht : ∀ c ∈ t.head?, c = ':' ∨ c = '=' ∨ c = '#')
    (h : readKind fragment t = .ok (kind, rest)) :
    ∃ written, t = written ++ rest ∧ KindField kind written ∧
      ∀ c ∈ rest.head?, c = '=' ∨ c = '#' := by
  unfold readKind at h
  split at h
  · next behind =>
    cases hsplit : splitBefore (fun c => c == '=' || c == '#') behind with
    | mk name after =>
      rw [hsplit] at h
      obtain ⟨rfl, _, hafter⟩ := splitBefore_eq.1 hsplit
      dsimp only at h
      split at h
      · simp at h
      · split at h
        · next kind' hkind =>
          obtain ⟨rfl, rfl⟩ := Prod.mk.inj (Except.ok.inj h)
          obtain rfl := Kind.ofName?_eq_some.1 hkind
          exact ⟨_, rfl, .named kind', fun c hc => by simpa using hafter c hc⟩
        · simp at h
  · next hcolon =>
    obtain ⟨rfl, rfl⟩ := Prod.mk.inj (Except.ok.inj h)
    refine ⟨[], rfl, .absent, fun c hc => (ht c hc).resolve_left ?_⟩
    rintro rfl
    obtain ⟨behind, rfl⟩ := List.head?_eq_some_iff.1 hc
    exact hcolon behind rfl

theorem readDefault_plain {behind : Text} (hquote : ∀ c ∈ behind.head?, c ≠ '"' ∧ c ≠ '\'') :
    readDefault fragment ('=' :: behind) =
      if (splitBefore (· == '#') behind).1.any isBlank then
        .error (.malformed fragment .defaultWithBlank)
      else .ok (some (splitBefore (· == '#') behind).1, (splitBefore (· == '#') behind).2) := by
  cases behind with
  | nil => rfl
  | cons c behind =>
    simp only [readDefault]
    exact if_neg (not_or.2 (hquote c rfl))

theorem DefaultField.read {default : Option Text} {written rest : Text}
    (h : DefaultField default written) (hrest : ∀ c ∈ rest.head?, c = '#') :
    readDefault fragment (written ++ rest) = .ok (default, rest) := by
  cases h with
  | absent =>
    cases rest with
    | nil => rfl
    | cons c rest =>
      obtain rfl : c = '#' := hrest c rfl
      rfl
  | @quoted quote value hquote hfree =>
    have hsplit := splitBefore_of_not_mem hfree rest
    change readDefault fragment ('=' :: quote :: (value ++ [quote] ++ rest)) = _
    rw [List.append_assoc, List.singleton_append]
    simp only [readDefault]
    rw [if_pos hquote, hsplit]
    exact if_pos (ends_iff.2 hrest)
  | @plain value hquote hchars =>
    have hsplit : splitBefore (· == '#') (value ++ rest) = (value, rest) :=
      splitBefore_eq.2 ⟨rfl, fun c hc => by simpa using (hchars c hc).2,
        fun c hc => by simpa using hrest c hc⟩
    have hblank : ¬ value.any isBlank = true := by simpa using fun c hc => (hchars c hc).1
    have hfirst : ∀ c ∈ (value ++ rest).head?, c ≠ '"' ∧ c ≠ '\'' := by
      intro c hc
      cases value with
      | nil => simp [hrest c hc]
      | cons d value => exact hquote c hc
    rw [List.cons_append, readDefault_plain fragment hfirst, hsplit]
    exact if_neg hblank

theorem DefaultField.quoted_of_read {default : Option Text} {quote : Char} {inner rest : Text}
    (hquote : quote = '"' ∨ quote = '\'')
    (h : readDefault fragment ('=' :: quote :: inner) = .ok (default, rest)) :
    ∃ written, '=' :: quote :: inner = written ++ rest ∧ DefaultField default written ∧
      ∀ c ∈ rest.head?, c = '#' := by
  simp only [readDefault, if_pos hquote] at h
  -- the default ends at the next quote of its sort
  split at h
  · simp at h
  · next value closing after hsplit =>
    obtain ⟨rfl, hfree, hclosing⟩ := splitBefore_eq.1 hsplit
    obtain rfl : closing = quote := by simpa using hclosing
    split at h
    · next hend =>
      obtain ⟨rfl, rfl⟩ := Prod.mk.inj (Except.ok.inj h)
      have hvalue : closing ∉ value := fun hmem => by simpa using hfree _ hmem
      exact ⟨_, by simp, .quoted hquote hvalue, ends_iff.1 hend⟩
    · simp at h

theorem DefaultField.plain_of_read {default : Option Text} {behind rest : Text}
    (hquote : ∀ c ∈ behind.head?, c ≠ '"' ∧ c ≠ '\'')
    (h : readDefault fragment ('=' :: behind) = .ok (default, rest)) :
    ∃ written, '=' :: behind = written ++ rest ∧ DefaultField default written ∧
      ∀ c ∈ rest.head?, c = '#' := by
  rw [readDefault_plain fragment hquote] at h
  cases hsplit : splitBefore (· == '#') behind with
  | mk value after =>
    rw [hsplit] at h
    obtain ⟨rfl, hfree, hafter⟩ := splitBefore_eq.1 hsplit
    split at h
    · simp at h
    · next hblank =>
      obtain ⟨rfl, rfl⟩ := Prod.mk.inj (Except.ok.inj h)
      have hbare : ∀ c ∈ value, isBlank c = false := by simpa using hblank
      refine ⟨_, rfl, .plain (fun c hc => hquote c ?_) fun c hc => ⟨hbare c hc, ?_⟩, fun c hc => ?_⟩
      · rw [List.head?_append, Option.mem_def.1 hc]
        rfl
      · simpa using hfree c hc
      · simpa using hafter c hc

theorem DefaultField.of_read {default : Option Text} {t rest : Text}
    (ht : ∀ c ∈ t.head?, c = '=' ∨ c = '#')
    (h : readDefault fragment t = .ok (default, rest)) :
    ∃ written, t = written ++ rest ∧ DefaultField default written ∧
      ∀ c ∈ rest.head?, c = '#' := by
  cases t with
  | nil =>
    obtain ⟨rfl, rfl⟩ := Prod.mk.inj (Except.ok.inj h)
    exact ⟨[], rfl, .absent, by simp⟩
  | cons c behind =>
    rcases ht c rfl with rfl | rfl
    · cases behind with
      | nil => exact plain_of_read fragment (by simp) h
      | cons quote inner =>
        by_cases hquote : quote = '"' ∨ quote = '\''
        · exact quoted_of_read fragment hquote h
        · exact plain_of_read fragment (fun c hc => Option.some.inj hc ▸ not_or.1 hquote) h
    · obtain ⟨rfl, rfl⟩ := Prod.mk.inj (Except.ok.inj h)
      exact ⟨[], rfl, .absent, by simp⟩

theorem HelpField.read {help : Option Text} {t : Text} (h : HelpField help t) :
    readHelp fragment t = .ok help := by
  cases h with
  | absent => rfl
  | given hfree => exact if_neg fun hmem => hfree (List.contains_iff_mem.1 hmem)

theorem HelpField.of_read {help : Option Text} {t : Text} (ht : ∀ c ∈ t.head?, c = '#')
    (h : readHelp fragment t = .ok help) : HelpField help t := by
  cases t with
  | nil => exact Except.ok.inj h ▸ .absent
  | cons c behind =>
    obtain rfl : c = '#' := ht c rfl
    rw [readHelp] at h
    split at h
    · simp at h
    · next hequals =>
      exact Except.ok.inj h ▸ .given fun hmem => hequals (List.contains_iff_mem.2 hmem)

/-- The fields that are read from a text are those that it is a writing of. -/
theorem Body.read_eq_ok {b : Body} {t : Text} :
    Body.read fragment t = .ok b ↔ b.Writing t := by
  constructor
  · intro h
    unfold Body.read at h
    cases hsplit : splitBefore (fun c => c == ':' || c == '=' || c == '#') t with
    | mk head rest =>
      rw [hsplit] at h
      obtain ⟨rfl, hhead, hrest⟩ := splitBefore_eq.1 hsplit
      obtain ⟨⟨kind, afterKind⟩, hkind, h⟩ := bind_eq_ok.1 h
      obtain ⟨⟨default, afterDefault⟩, hdefault, h⟩ := bind_eq_ok.1 h
      obtain ⟨help, hhelp, h⟩ := bind_eq_ok.1 h
      obtain rfl := Except.ok.inj h
      have hsigns : ∀ c ∈ rest.head?, c = ':' ∨ c = '=' ∨ c = '#' := by
        intro c hc
        simpa [or_assoc] using hrest c hc
      obtain ⟨_, rfl, hkindField, hafterKind⟩ := KindField.of_read fragment hsigns hkind
      obtain ⟨_, rfl, hdefaultField, hafter⟩ := DefaultField.of_read fragment hafterKind hdefault
      exact .fields (fun c hc => by simpa [and_assoc] using hhead c hc) hkindField hdefaultField
        (.of_read fragment hafter hhelp)
  · rintro ⟨hhead, hkind, hdefault, hhelp⟩
    have hafterKind := hdefault.head?_append hhelp.head?
    have hsigns := hkind.head?_append hafterKind
    unfold Body.read
    rw [splitBefore_eq.2 ⟨rfl, fun c hc => by simpa [and_assoc] using hhead c hc,
      fun c hc => by simpa [or_assoc] using hsigns c hc⟩]
    refine bind_eq_ok.2 ⟨_, hkind.read fragment hafterKind, ?_⟩
    refine bind_eq_ok.2 ⟨_, hdefault.read fragment hhelp.head?, ?_⟩
    exact bind_eq_ok.2 ⟨_, hhelp.read fragment, rfl⟩

end Annotation

end TypedCommand
