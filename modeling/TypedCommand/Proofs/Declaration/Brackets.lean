import TypedCommand.Proofs.Declaration.Grammar

/-!
Where brackets can stand in an accepted declaration. Two rules for quotes are at work. A word
goes on to the end of every run that a quote directly behind an equals sign opens; of its
fields only the default is quoted, and only where the quote is its first character. Where the
default is quoted both rules mean the same run, and no bracket stands outside it. They part at
a quote behind an equals sign that stands in an unquoted default or in the help text of a
variadic word: there alone brackets come into a field that does not end at them.
-/

namespace TypedCommand

open Text

def BracketFree (t : Text) : Prop := ∀ c ∈ t, c ≠ '[' ∧ c ≠ ']'

instance (t : Text) : Decidable (BracketFree t) := List.decidableBAll _ t

def OpensQuote (t : Text) : Prop :=
  ∃ front quote rest, (quote = '"' ∨ quote = '\'') ∧ t = front ++ '=' :: quote :: rest

theorem OpensQuote.append_left {t : Text} (h : OpensQuote t) (front : Text) :
    OpensQuote (front ++ t) := by
  obtain ⟨before, quote, rest, hquote, rfl⟩ := h
  exact ⟨front ++ before, quote, rest, hquote, (List.append_assoc ..).symm⟩

theorem opensQuote_cons_iff {c : Char} {t : Text} : OpensQuote (c :: t) ↔
    (c = '=' ∧ ∃ quote ∈ t.head?, quote = '"' ∨ quote = '\'') ∨ OpensQuote t := by
  constructor
  · rintro ⟨front, quote, rest, hquote, heq⟩
    cases front with
    | nil =>
      obtain ⟨rfl, rfl⟩ := List.cons.inj heq
      exact Or.inl ⟨rfl, quote, rfl, hquote⟩
    | cons d front =>
      obtain ⟨_, rfl⟩ := List.cons.inj heq
      exact Or.inr ⟨front, quote, rest, hquote, rfl⟩
  · rintro (⟨rfl, quote, hhead, hquote⟩ | h)
    · obtain ⟨rest, rfl⟩ := List.head?_eq_some_iff.1 hhead
      exact ⟨[], quote, rest, hquote, rfl⟩
    · exact h.append_left [c]

theorem not_opensQuote_of_not_mem {t : Text} (h : '=' ∉ t) : ¬ OpensQuote t := by
  rintro ⟨front, quote, rest, _, rfl⟩
  simp at h

namespace Token

/-- A character between the brackets of a word is kept as it is, or it opens a run. -/
theorem Enclosed.cons_cases {last : Option Char} {c : Char} {t : Text} (h : Enclosed last (c :: t)) :
    ((c ≠ '[' ∧ c ≠ ']') ∧ ¬ ((c = '"' ∨ c = '\'') ∧ last = some '=') ∧ Enclosed (some c) t) ∨
      ∃ value rest, (c = '"' ∨ c = '\'') ∧ last = some '=' ∧ t = value ++ c :: rest ∧
        c ∉ value ∧ Enclosed (some c) rest := by
  cases h with
  | plain hbracket hquote h => exact Or.inl ⟨hbracket, hquote, h⟩
  | quoted hquote hvalue h => exact Or.inr ⟨_, _, hquote, rfl, rfl, hvalue, h⟩

/-- Where no quote is behind an equals sign no run is opened, and there are no brackets. -/
theorem Enclosed.split {last : Option Char} {t rest : Text} (h : Enclosed last (t ++ rest))
    (hopens : ¬ OpensQuote (last.toList ++ t)) :
    BracketFree t ∧ Enclosed (t.getLast?.or last) rest := by
  induction t generalizing last with
  | nil => exact ⟨by simp [BracketFree], h⟩
  | cons c t ih =>
    rcases h.cons_cases with ⟨hbracket, _, h⟩ | ⟨value, t', hquote, rfl, _⟩
    · obtain ⟨hfree, hrest⟩ := ih h fun hquote => hopens (hquote.append_left last.toList)
      refine ⟨List.forall_mem_cons.2 ⟨hbracket, hfree⟩, ?_⟩
      rwa [List.getLast?_cons, Option.some_or, ← Option.or_some]
    · exact absurd ⟨[], c, t, hquote, rfl⟩ hopens

theorem Enclosed.bracketFree {last : Option Char} {t : Text} (h : Enclosed last t)
    (hopens : ¬ OpensQuote (last.toList ++ t)) : BracketFree t := by
  rw [← List.append_nil t] at h
  exact (h.split hopens).1

/-- The run that a quote opens ends at the next such quote. -/
theorem Enclosed.behind_quote {quote : Char} {value rest : Text}
    (h : Enclosed (some '=') (quote :: (value ++ quote :: rest)))
    (hquote : quote = '"' ∨ quote = '\'') (hvalue : quote ∉ value) :
    Enclosed (some quote) rest := by
  rcases h.cons_cases with ⟨_, hplain, _⟩ | ⟨value', rest', _, _, heq, hvalue', h⟩
  · exact absurd ⟨hquote, rfl⟩ hplain
  · -- both ends are the first quote of that sort
    obtain ⟨_, rfl⟩ := Annotation.eq_of_splits hvalue hvalue' heq
    exact h

/-- A character that is no quote opens no run. -/
theorem Enclosed.behind {last : Option Char} {c : Char} {rest : Text} (h : Enclosed last (c :: rest))
    (hc : c ≠ '"' ∧ c ≠ '\'') : Enclosed (some c) rest := by
  rcases h.cons_cases with ⟨_, _, h⟩ | ⟨_, _, hquote, _⟩
  · exact h
  · exact absurd hquote (not_or.2 hc)

end Token

namespace Annotation

open Token (Enclosed IsMarker)

def QuotedDefault (body value : Text) : Prop :=
  ∃ front quote rest, body = front ++ '=' :: quote :: (value ++ quote :: rest) ∧ '=' ∉ front ∧
    (quote = '"' ∨ quote = '\'')

def headOf (body : Text) : Text := (splitBefore (fun c => c == ':' || c == '=' || c == '#') body).1

/-- Brackets stand between the brackets of an annotation only in a default that is read as
quoted. -/
structure BracketsQuoted (a : Annotation) (body : Text) : Prop where
  head : BracketFree (headOf body)
  default : ∀ value, a.default = some value → QuotedDefault body value ∨ BracketFree value
  help : ∀ help, a.help = some help → BracketFree help

/-- A quote behind an equals sign that stands in a field without quotes. -/
inductive HidesQuote (a : Annotation) (body : Text) : Prop
  | default {value : Text} (hdefault : a.default = some value)
      (hplain : ¬ QuotedDefault body value) (hopens : OpensQuote value)
  | help {help : Text} (hvariadic : a.pattern = .variadic) (hhelp : a.help = some help)
      (hopens : OpensQuote help)

/-- What the text between the brackets of an annotation is, by what is read of it. -/
inductive MadeUp (a : Annotation) (body : Text) : Prop
  | dots {rest : Text} (hbody : body = '.' :: '.' :: '.' :: rest) (hvariadic : a.pattern = .variadic)
      (hdefault : a.default = none) (hhelp : ∀ help, a.help = some help → rest = '#' :: help)
  | fields {b : Body} (writing : b.Writing body) (hdefault : a.default = b.default)
      (hhelp : a.help = b.help)

theorem madeUp_of_read {fragment marker body : Text} {flags : Option Flags} {a : Annotation}
    (h : read fragment marker body flags = .ok a) : a.fragment = fragment ∧ a.MadeUp body := by
  unfold read at h
  split at h
  · next rest =>
    unfold readVariadic at h
    split at h
    · simp at h
    · split at h
      · obtain rfl := Except.ok.inj h
        exact ⟨rfl, .dots rfl rfl rfl nofun⟩
      · obtain rfl := Except.ok.inj h
        exact ⟨rfl, .dots rfl rfl rfl fun help hhelp => by rw [Option.some.inj hhelp]⟩
      · simp at h
  · obtain ⟨b, hb, h⟩ := bind_eq_ok.1 h
    have hwriting := (Body.read_eq_ok fragment).1 hb
    split at h
    · unfold readForwarded at h
      split at h
      · simp at h
      · obtain ⟨own, _, h⟩ := bind_eq_ok.1 h
        obtain ⟨named, _, h⟩ := bind_eq_ok.1 h
        obtain rfl := Except.ok.inj h
        exact ⟨rfl, .fields hwriting rfl rfl⟩
    · unfold readReplaced at h
      split at h
      · simp at h
      · obtain ⟨_, _, rfl⟩ := map_eq_ok.1 h
        exact ⟨rfl, .fields hwriting rfl rfl⟩

/-- The fields in front of the default hold no equals sign. -/
theorem Body.Writing.exists_front {b : Body} {body : Text} (h : b.Writing body) :
    ∃ front default help, body = front ++ (default ++ help) ∧ '=' ∉ front ∧
      DefaultField b.default default ∧ HelpField b.help help := by
  obtain @⟨kind, default, help, hhead, hkind, hdefault, hhelp⟩ := h
  refine ⟨b.head ++ kind, default, help, by simp, fun hmem => ?_, hdefault, hhelp⟩
  rcases List.mem_append.1 hmem with hmem | hmem
  · exact (hhead _ hmem).2.1 rfl
  · exact hkind.not_mem hmem

/-- A help text without an equals sign opens no run, so it has no brackets. -/
theorem HelpField.bracketFree {help : Option Text} {last : Option Char} {t : Text}
    (h : HelpField help t) (hlast : Enclosed last t) :
    ∀ text, help = some text → BracketFree text := by
  cases h with
  | absent => exact nofun
  | @given text free =>
    intro text' htext
    obtain rfl := Option.some.inj htext
    have hopens : ¬ OpensQuote (last.toList ++ '#' :: text) := by
      cases last <;> simp [opensQuote_cons_iff, not_opensQuote_of_not_mem free]
    exact (List.forall_mem_cons.1 (hlast.bracketFree hopens)).2

/-- The head has no brackets, whatever the other fields are. -/
theorem bracketFree_headOf {body : Text} (h : Enclosed none body) : BracketFree (headOf body) := by
  obtain ⟨hbody, hhead, _⟩ := splitBefore_eq.1 (rfl : splitBefore _ body = (headOf body, _))
  rw [hbody] at h
  refine (h.split (not_opensQuote_of_not_mem fun hmem => ?_)).1
  exact absurd (hhead _ hmem) (by decide)

/-- A default that does not begin with a quote is not read as quoted. -/
theorem not_quotedDefault {front value help : Text} (hfront : '=' ∉ front) (hne : value ≠ [])
    (hquote : ∀ c ∈ value.head?, c ≠ '"' ∧ c ≠ '\'') :
    ¬ QuotedDefault (front ++ ('=' :: value ++ help)) value := by
  rintro ⟨front', quote, rest, heq, hfront', hquote'⟩
  obtain ⟨_, htail⟩ := eq_of_splits hfront hfront' heq
  cases value with
  | nil => exact hne rfl
  | cons c value =>
    obtain ⟨rfl, _⟩ := List.cons.inj htail
    obtain ⟨hdouble, hsingle⟩ := hquote c rfl
    rcases hquote' with rfl | rfl
    · exact hdouble rfl
    · exact hsingle rfl

/-- Of fields, an unquoted default alone can open a run that is none of its own. -/
theorem Body.Writing.bracketsQuoted {b : Body} {body : Text} {a : Annotation}
    (h : b.Writing body) (hbody : Enclosed none body) (hdefault : a.default = b.default)
    (hhelp : a.help = b.help) : a.BracketsQuoted body ∨ a.HidesQuote body := by
  have hhead := bracketFree_headOf hbody
  obtain ⟨front, default, help, rfl, hfront, hdefaultField, hhelpField⟩ := h.exists_front
  obtain ⟨_, hrest⟩ := hbody.split (not_opensQuote_of_not_mem hfront)
  rw [← hdefault] at hdefaultField
  rw [← hhelp] at hhelpField
  generalize hgiven : a.default = given at hdefaultField
  cases hdefaultField with
  | absent =>
    have hfree := hhelpField.bracketFree hrest
    exact Or.inl ⟨hhead, fun value hvalue => absurd (hgiven.symm.trans hvalue) nofun, hfree⟩
  | @quoted quote value hquote hvalue =>
    -- the run of the word is the one of the default
    have hopened : Enclosed (some '=') (quote :: (value ++ quote :: help)) := by
      simpa using hrest.behind (by decide)
    have hrun := hopened.behind_quote hquote hvalue
    refine Or.inl ⟨hhead, fun value' hvalue' => Or.inl ?_, hhelpField.bracketFree hrun⟩
    obtain rfl := Option.some.inj (hgiven.symm.trans hvalue')
    exact ⟨front, quote, help, by simp, hfront, hquote⟩
  | @plain value hquote hchars =>
    by_cases hopens : OpensQuote value
    · have hne : value ≠ [] := by
        rintro rfl
        exact not_opensQuote_of_not_mem (by simp) hopens
      exact Or.inr (.default hgiven (not_quotedDefault hfront hne hquote) hopens)
    · have hbehind : ¬ OpensQuote ((some '=').toList ++ value) := by
        change ¬ OpensQuote ('=' :: value)
        rw [opensQuote_cons_iff]
        rintro (⟨_, c, hc, hcquote⟩ | h)
        · exact (not_or.2 (hquote c hc)) hcquote
        · exact hopens h
      obtain ⟨hfree, hrun⟩ := Enclosed.split (hrest.behind (by decide)) hbehind
      refine Or.inl ⟨hhead, fun value' hvalue' => Or.inr ?_, hhelpField.bracketFree hrun⟩
      rwa [← Option.some.inj (hgiven.symm.trans hvalue')]

theorem MadeUp.bracketsQuoted {a : Annotation} {body : Text} (h : a.MadeUp body)
    (hbody : Enclosed none body) : a.BracketsQuoted body ∨ a.HidesQuote body := by
  cases h with
  | fields writing hdefault hhelp => exact writing.bracketsQuoted hbody hdefault hhelp
  | @dots rest hdots hvariadic hdefault hhelp =>
    subst hdots
    have hhead := bracketFree_headOf hbody
    have hnone : ∀ value, a.default = some value →
        QuotedDefault ('.' :: '.' :: '.' :: rest) value ∨ BracketFree value :=
      fun value hvalue => absurd (hdefault.symm.trans hvalue) nofun
    cases hgiven : a.help with
    | none => exact Or.inl ⟨hhead, hnone, by simp [hgiven]⟩
    | some help =>
      obtain rfl := hhelp help hgiven
      by_cases hopens : OpensQuote help
      · exact Or.inr (.help hvariadic hgiven hopens)
      · have hwhole : ¬ OpensQuote ('.' :: '.' :: '.' :: '#' :: help) := by
          simp [opensQuote_cons_iff, hopens]
        refine Or.inl ⟨hhead, hnone, fun help' hhelp' c hc => hbody.bracketFree hwhole c ?_⟩
        obtain rfl := Option.some.inj (hgiven.symm.trans hhelp')
        simp [hc]

end Annotation

namespace Declaration

open Annotation (headOf)
open Token (Enclosed IsMarker)

/-- Each annotation is read from a word of its own. -/
theorem exists_token_of_readAnnotations {collected : Bool} {pending : Option (Flags × Text)}
    {tokens : List Token} {annotations : List Annotation}
    (h : readAnnotations collected pending tokens = .ok annotations) :
    ∀ a ∈ annotations, ∃ token ∈ tokens, ∃ body flags, token.body = some body ∧
      Annotation.read token.raw token.marker body flags = .ok a := by
  induction tokens generalizing collected pending annotations with
  | nil =>
    unfold readAnnotations at h
    split at h
    · simp at h
    · simp [← Except.ok.inj h]
  | cons token tokens ih =>
    rcases readAnnotations_cons_eq_ok h with
      ⟨_, _, _, _, _, h⟩ | ⟨body, a, later, hbody, ha, _, hlater, rfl⟩
    · intro a ha
      obtain ⟨token', hmem, hread⟩ := ih h a ha
      exact ⟨token', List.mem_cons_of_mem _ hmem, hread⟩
    · refine List.forall_mem_cons.2 ⟨⟨token, List.mem_cons_self, body, _, hbody, ha⟩, ?_⟩
      intro a' ha'
      obtain ⟨token', hmem, hread⟩ := ih hlater a' ha'
      exact ⟨token', List.mem_cons_of_mem _ hmem, hread⟩

/-- An annotation is read from a word of the text. -/
theorem exists_annotation_read {text : Text} {d : Declaration} (h : read text = .ok d) :
    ∀ a ∈ d.annotations, ∃ marker body flags, IsMarker marker ∧ Enclosed none body ∧
      Annotation.read (marker ++ '[' :: body ++ [']']) marker body flags = .ok a := by
  obtain ⟨tokens, htokens, h⟩ := bind_eq_ok.1 h
  obtain ⟨⟨path, rest⟩, hpath, h⟩ := bind_eq_ok.1 h
  obtain ⟨annotations, hannotations, h⟩ := bind_eq_ok.1 h
  split at h
  · simp at h
  · obtain rfl := Except.ok.inj h
    intro a ha
    obtain ⟨⟨marker, _⟩, hmem, body, flags, rfl, hread⟩ :=
      exists_token_of_readAnnotations hannotations a ha
    have htoken : { marker, body := some body } ∈ tokens := by
      refine mem_of_mem_dropRootWord ?_
      rw [eq_append_of_readPath hpath]
      exact List.mem_append_right _ hmem
    have hform := Token.wellFormed_of_read htokens _ htoken
    exact ⟨marker, body, flags, hform.marker, hform.body body rfl, hread⟩

theorem exists_word_of_read {text : Text} {d : Declaration} (h : read text = .ok d) :
    ∀ a ∈ d.annotations, ∃ marker body, a.fragment = marker ++ '[' :: body ++ [']'] ∧
      IsMarker marker ∧ Enclosed none body ∧ a.MadeUp body := by
  intro a ha
  obtain ⟨marker, body, flags, hmarker, hbody, hread⟩ := exists_annotation_read h a ha
  obtain ⟨hfragment, hmade⟩ := Annotation.madeUp_of_read hread
  exact ⟨marker, body, hfragment, hmarker, hbody, hmade⟩

/-- In an accepted declaration the brackets between the brackets of a word stand in runs that a
quote directly behind an equals sign opens, and never in the head. Where no such quote stands in
an unquoted default or in the help text of a variadic word, the one such run is the default that
is read as quoted, and there are no brackets outside it. -/
theorem bracketsQuoted_of_read {text : Text} {d : Declaration} (h : read text = .ok d) :
    ∀ a ∈ d.annotations, ∃ marker body, a.fragment = marker ++ '[' :: body ++ [']'] ∧
      IsMarker marker ∧ Enclosed none body ∧ BracketFree (headOf body) ∧
      (a.BracketsQuoted body ∨ a.HidesQuote body) := by
  intro a ha
  obtain ⟨marker, body, hfragment, hmarker, hbody, hmade⟩ := exists_word_of_read h a ha
  exact ⟨marker, body, hfragment, hmarker, hbody, Annotation.bracketFree_headOf hbody,
    hmade.bracketsQuoted hbody⟩

/-- A bracket in a quoted default, one in an unquoted default, and one in a help text. -/
def bracketed : Text := "t X[x=\"a]b\"#h] Y[y=c=']'] [...#d='[']"

theorem bracketsQuoted_of_read_bracketed : ∃ d, read bracketed = .ok d ∧ d.annotations.length = 3 ∧
    ∀ a ∈ d.annotations, ∃ marker body, a.fragment = marker ++ '[' :: body ++ [']'] ∧
      IsMarker marker ∧ Enclosed none body ∧ BracketFree (headOf body) ∧
      (a.BracketsQuoted body ∨ a.HidesQuote body) := by
  have hlength : (read bracketed).toOption.map (·.annotations.length) = some 3 := by decide
  cases hread : read bracketed with
  | error error =>
    rw [hread] at hlength
    exact absurd hlength nofun
  | ok d =>
    rw [hread] at hlength
    exact ⟨d, rfl, Option.some.inj hlength, bracketsQuoted_of_read hread⟩

def overrun : Annotation :=
  ⟨"X", some "x", .str, some "a=\"]\"", none, .positional, "X[x=a=\"]\"]"⟩

/-- The two rules for quotes part: the bracket does not end the default. -/
theorem not_bracketsQuoted : ¬ ∀ (text : Text) (d : Declaration), read text = .ok d →
    ∀ a ∈ d.annotations, ∀ marker body : Text, IsMarker marker →
      a.fragment = marker ++ '[' :: body ++ [']'] → a.BracketsQuoted body := by
  intro h
  have hquoted := h "just t X[x=a=\"]\"]" ⟨["t".toList], [overrun]⟩ (by decide) overrun
    List.mem_cons_self "X" "x=a=\"]\"" (by decide) (by decide)
  have hplain : ¬ Annotation.QuotedDefault (['x'] ++ ('=' :: "a=\"]\"" ++ [])) "a=\"]\"" := by
    refine Annotation.not_quotedDefault (by decide) (by decide) fun c hc => ?_
    obtain rfl := Option.some.inj hc
    decide
  rcases hquoted.default _ rfl with hread | hfree
  · exact hplain hread
  · exact absurd hfree (by decide)

end Declaration

end TypedCommand
