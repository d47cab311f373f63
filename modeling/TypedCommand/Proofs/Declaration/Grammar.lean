import TypedCommand.Proofs.Declaration.Fields
import TypedCommand.Proofs.Declaration.Flags

/-!
The grammar of declarations. Behind the word that calls the program come the words of a
command name, and then groups: an annotated word each, with a flag specification before
it or none. The grammar is stated for the words of a declaration, and it is the whole of
what reading asks of them.
-/

namespace TypedCommand

open Text

namespace Annotation

/-- Three dots between the brackets, and a help text behind them or nothing. -/
def isVariadicBody : Text → Bool
  | ['.', '.', '.'] => true
  | '.' :: '.' :: '.' :: '#' :: _ => true
  | _ => false

/-- The grammar of an annotated word, by its marker and the text between its brackets.
`flagged` says that flags stand before it. -/
inductive Grammatical (flagged : Bool) (marker body : Text) : Prop
  | variadic (unflagged : flagged = false) (dots : isVariadicBody body = true)
  | forwarded {fields : Body} (writing : fields.Writing body) (unflagged : flagged = false)
      (dash : marker.head? = some '-') (isFlags : (Flags.ofText? marker).isSome)
      (head : fields.head = [] ∨ IsIdentifier fields.head ∨ (Flags.ofText? fields.head).isSome)
  | replaced {fields : Body} (writing : fields.Writing body) (no_dash : marker.head? ≠ some '-')
      (ne_nil : marker ≠ []) (head : fields.head = [] ∨ IsIdentifier fields.head)

theorem exists_dots {body : Text} (h : isVariadicBody body = true) :
    ∃ rest, body = '.' :: '.' :: '.' :: rest := by
  unfold isVariadicBody at h
  split at h
  · exact ⟨[], rfl⟩
  · exact ⟨_, rfl⟩
  · simp at h

/-- Dots are no head that an annotation can have. -/
theorem Body.Writing.head?_ne_dot {fields : Body} {body : Text} (h : fields.Writing body)
    (hhead : fields.head = [] ∨ IsIdentifier fields.head ∨ (Flags.ofText? fields.head).isSome) :
    body.head? ≠ some '.' := by
  intro hdot
  rcases h.head? '.' hdot with hfirst | hsign
  · rcases hhead with hnil | hname | hflags
    · simp [hnil] at hfirst
    · exact absurd (hname.chars '.' (List.mem_of_mem_head? hfirst)) (by decide)
    · obtain ⟨flags, hflags⟩ := Option.isSome_iff_exists.1 hflags
      rw [Flags.head?_of_ofText? hflags] at hfirst
      exact absurd hfirst (by decide)
  · exact absurd hsign (by decide)

variable (fragment : Text)

theorem exists_readFlags (reason : Reason) {t : Text} :
    (∃ flags, readFlags fragment reason t = .ok flags) ↔ (Flags.ofText? t).isSome := by
  unfold readFlags
  cases Flags.ofText? t <;> simp

theorem exists_checkName {name : Text} :
    (∃ u, checkName fragment name = .ok u) ↔ name = [] ∨ IsIdentifier name := by
  constructor
  · rintro ⟨u, hu⟩
    by_cases hne : name = []
    · exact Or.inl hne
    · exact Or.inr (isIdentifier_of_checkName hne hu)
  · rintro (rfl | hname)
    · exact ⟨(), rfl⟩
    · exact ⟨(), if_pos (List.all_eq_true.2 hname.chars)⟩

theorem exists_readVariadic {marker rest : Text} {flags : Option Flags} :
    (∃ a, readVariadic fragment marker flags rest = .ok a) ↔
      flags.isSome = false ∧ isVariadicBody ('.' :: '.' :: '.' :: rest) = true := by
  unfold readVariadic isVariadicBody
  cases flags with
  | some flags => simp
  | none =>
    cases rest with
    | nil => simp
    | cons c rest =>
      by_cases hc : c = '#'
      · simp [hc]
      · simp [hc]

theorem exists_readForwardedHead (own : Flags) {head : Text} :
    (∃ named, readForwardedHead fragment own head = .ok named) ↔
      head = [] ∨ IsIdentifier head ∨ (Flags.ofText? head).isSome := by
  unfold readForwardedHead
  split
  · next hdash =>
    rw [exists_map_eq_ok, exists_readFlags]
    constructor
    · exact fun h => Or.inr (Or.inr h)
    · rintro (rfl | hname | hflags)
      · simp at hdash
      · exact absurd hdash hname.isName.no_dash
      · exact hflags
  · next hdash =>
    have hflags : ¬ (Flags.ofText? head).isSome := by
      intro h
      obtain ⟨flags, hflags⟩ := Option.isSome_iff_exists.1 h
      exact hdash (Flags.head?_of_ofText? hflags)
    split
    · next hempty => simp [List.isEmpty_iff.1 hempty]
    · rw [exists_map_eq_ok, exists_checkName]
      simp [hflags]

theorem exists_readForwarded {marker : Text} {flags : Option Flags} {fields : Body} :
    (∃ a, readForwarded fragment marker flags fields = .ok a) ↔
      flags.isSome = false ∧ (Flags.ofText? marker).isSome ∧
        (fields.head = [] ∨ IsIdentifier fields.head ∨ (Flags.ofText? fields.head).isSome) := by
  unfold readForwarded
  cases flags with
  | some flags => simp
  | none =>
    simp only [Option.isSome_none, Bool.false_eq_true, if_false, true_and]
    rw [exists_bind_eq_ok, ← exists_readFlags fragment .markerFlagInvalid]
    constructor
    · rintro ⟨own, hown, h⟩
      obtain ⟨named, hnamed, _⟩ := exists_bind_eq_ok.1 h
      exact ⟨⟨own, hown⟩, (exists_readForwardedHead fragment own).1 ⟨named, hnamed⟩⟩
    · rintro ⟨⟨own, hown⟩, hhead⟩
      obtain ⟨named, hnamed⟩ := (exists_readForwardedHead fragment own).2 hhead
      exact ⟨own, hown, exists_bind_eq_ok.2 ⟨named, hnamed, _, rfl⟩⟩

theorem exists_readReplaced {marker : Text} {flags : Option Flags} {fields : Body} :
    (∃ a, readReplaced fragment marker flags fields = .ok a) ↔
      marker ≠ [] ∧ (fields.head = [] ∨ IsIdentifier fields.head) := by
  unfold readReplaced
  cases marker with
  | nil => simp
  | cons c marker =>
    simp only [List.isEmpty_cons, Bool.false_eq_true, if_false]
    rw [exists_map_eq_ok, exists_checkName]
    simp

/-- Fields are not taken for dots, and the marker decides which pattern they are read for. -/
theorem read_of_writing {marker body : Text} {fields : Body} (h : fields.Writing body)
    (hdot : body.head? ≠ some '.') (flags : Option Flags) :
    read fragment marker body flags =
      if marker.head? = some '-' then readForwarded fragment marker flags fields
      else readReplaced fragment marker flags fields := by
  unfold read
  split
  · exact absurd rfl hdot
  · rw [(Body.read_eq_ok fragment).2 h]
    rfl

/-- The annotated words that are read are those of the grammar. -/
theorem exists_read_eq_ok {marker body : Text} {flags : Option Flags} :
    (∃ a, read fragment marker body flags = .ok a) ↔ Grammatical flags.isSome marker body := by
  constructor
  · intro h
    unfold read at h
    split at h
    · obtain ⟨hunflagged, hdots⟩ := (exists_readVariadic fragment).1 h
      exact .variadic hunflagged hdots
    · obtain ⟨fields, hfields, h⟩ := exists_bind_eq_ok.1 h
      have hwriting := (Body.read_eq_ok fragment).1 hfields
      split at h
      · next hdash =>
        obtain ⟨hunflagged, hmarker, hhead⟩ := (exists_readForwarded fragment).1 h
        exact .forwarded hwriting hunflagged hdash hmarker hhead
      · next hdash =>
        obtain ⟨hne, hhead⟩ := (exists_readReplaced fragment).1 h
        exact .replaced hwriting hdash hne hhead
  · intro h
    cases h with
    | variadic unflagged dots =>
      obtain ⟨rest, rfl⟩ := exists_dots dots
      exact (exists_readVariadic fragment).2 ⟨unflagged, dots⟩
    | forwarded writing unflagged dash isFlags head =>
      rw [read_of_writing fragment writing (writing.head?_ne_dot head), if_pos dash]
      exact (exists_readForwarded fragment).2 ⟨unflagged, isFlags, head⟩
    | replaced writing no_dash ne_nil head =>
      have hdot := writing.head?_ne_dot (head.imp_right Or.inl)
      rw [read_of_writing fragment writing hdot, if_neg no_dash]
      exact (exists_readReplaced fragment).2 ⟨ne_nil, head⟩

theorem isVariadic_of_read {marker body : Text} {flags : Option Flags} {a : Annotation}
    (h : read fragment marker body flags = .ok a) :
    a.pattern.isVariadic = isVariadicBody body := by
  unfold read at h
  split at h
  · obtain ⟨help, rfl⟩ := readVariadic_eq_ok h
    exact (((exists_readVariadic fragment).1 ⟨_, h⟩).2).symm
  · next hdots =>
    have hbody : isVariadicBody body = false := by
      rw [Bool.eq_false_iff]
      intro hvariadic
      obtain ⟨rest, hrest⟩ := exists_dots hvariadic
      exact hdots rest hrest
    obtain ⟨fields, _, h⟩ := bind_eq_ok.1 h
    rw [hbody]
    split at h
    · unfold readForwarded at h
      split at h
      · simp at h
      · obtain ⟨own, _, h⟩ := bind_eq_ok.1 h
        obtain ⟨named, _, h⟩ := bind_eq_ok.1 h
        rw [← Except.ok.inj h]
        rfl
    · unfold readReplaced at h
      split at h
      · simp at h
      · obtain ⟨_, _, rfl⟩ := map_eq_ok.1 h
        cases flags <;> rfl

end Annotation

namespace Declaration

open Annotation (isVariadicBody exists_read_eq_ok isVariadic_of_read)

/-- An annotated word, and the flag specification before it where there is one. -/
structure Group where
  flags : Option Text
  marker : Text
  body : Text

namespace Group

def tokens (g : Group) : List Token :=
  g.flags.toList.map (fun t => { marker := t }) ++ [{ marker := g.marker, body := some g.body }]

def isVariadic (g : Group) : Bool := isVariadicBody g.body

structure Grammatical (g : Group) : Prop where
  flags : ∀ t, g.flags = some t → (Flags.ofText? t).isSome
  annotation : Annotation.Grammatical g.flags.isSome g.marker g.body

end Group

/-- The grammar of a declaration by its words, without the word that calls the program. -/
inductive Grammatical : List Token → Prop
  | words {path : List Text} {groups : List Group} (path_ne_nil : path ≠ [])
      (path_names : ∀ w ∈ path, IsName w) (grammatical : ∀ g ∈ groups, g.Grammatical)
      (one_variadic : (groups.filter Group.isVariadic).length ≤ 1) :
      Grammatical (path.map (fun w => { marker := w }) ++ groups.flatMap Group.tokens)

/-! What is read of the command name. -/

theorem eq_append_of_readPath {tokens rest : List Token} {path : List Text}
    (h : readPath tokens = .ok (path, rest)) :
    tokens = path.map (fun w => { marker := w }) ++ rest := by
  induction tokens generalizing path rest with
  | nil =>
    obtain ⟨rfl, rfl⟩ := Prod.mk.inj (Except.ok.inj h)
    rfl
  | cons token tokens ih =>
    rw [readPath] at h
    split at h
    · next hword =>
      split at h
      · obtain ⟨⟨path', rest'⟩, hpath, heq⟩ := map_eq_ok.1 h
        obtain ⟨rfl, rfl⟩ := Prod.mk.inj heq
        obtain ⟨marker, body⟩ := token
        obtain rfl : body = none := by
          simpa [Token.isBare] using (Bool.and_eq_true_iff.1 hword).1
        rw [ih hpath]
        rfl
      · simp at h
    · obtain ⟨rfl, rfl⟩ := Prod.mk.inj (Except.ok.inj h)
      rfl

theorem readPath_append {path : List Text} (hpath : ∀ w ∈ path, IsName w) {rest : List Token}
    (hrest : ∀ token ∈ rest.head?, (token.isBare && !isFlagWord token) = false) :
    readPath (path.map (fun w => { marker := w }) ++ rest) = .ok (path, rest) := by
  induction path with
  | nil =>
    cases rest with
    | nil => rfl
    | cons token rest =>
      have htoken := hrest token rfl
      change readPath (token :: rest) = _
      rw [readPath, htoken]
      rfl
  | cons w path ih =>
    have hw := hpath w List.mem_cons_self
    have hplain : (Token.isBare { marker := w } && !isFlagWord { marker := w }) = true := by
      simpa [Token.isBare, isFlagWord] using hw.no_dash
    have hchars : w.all isWordChar = true := List.all_eq_true.2 hw.chars
    rw [List.map_cons, List.cons_append, readPath, if_pos hplain, if_pos hchars,
      ih fun w' hw' => hpath w' (List.mem_cons_of_mem _ hw')]
    rfl

/-! What is read of the groups: flags are kept until the annotated word, which comes next. -/

theorem readAnnotations_flags {t : Text} {flags : Flags} (h : Flags.ofText? t = some flags)
    (collected : Bool) (rest : List Token) :
    readAnnotations collected none ({ marker := t } :: rest) =
      readAnnotations collected (some (flags, t)) rest := by
  have hflag : isFlagWord { marker := t } = true := by
    simp [isFlagWord, Token.isBare, Flags.head?_of_ofText? h]
  rw [readAnnotations.eq_def]
  simp only [hflag, if_true, h]
  rfl

theorem readAnnotations_annotated {token : Token} {body : Text} (hbody : token.body = some body)
    {collected : Bool} {pending : Option (Flags × Text)} {a : Annotation}
    (hread : Annotation.read token.raw token.marker body (pending.map Prod.fst) = .ok a)
    (hfree : (a.pattern.isVariadic && collected) = false) (rest : List Token) :
    readAnnotations collected pending (token :: rest) =
      (a :: ·) <$> readAnnotations (collected || a.pattern.isVariadic) none rest := by
  rw [readAnnotations.eq_def]
  simp only [hbody, hread]
  change (if (a.pattern.isVariadic && collected) = true then _ else _) = _
  rw [hfree]
  rfl

/-- An annotated word of the grammar is read as an annotation, which is variadic if the word
is; what follows is read on its own. -/
theorem exists_readAnnotations_annotated {pending : Option (Flags × Text)} {marker body : Text}
    (h : Annotation.Grammatical pending.isSome marker body) {collected : Bool}
    (hfree : (isVariadicBody body && collected) = false) (rest : List Token) :
    ∃ a, readAnnotations collected pending ({ marker, body := some body } :: rest) =
      (a :: ·) <$> readAnnotations (collected || isVariadicBody body) none rest := by
  rw [← Option.isSome_map (f := Prod.fst)] at h
  let token : Token := { marker, body := some body }
  obtain ⟨a, ha⟩ := (exists_read_eq_ok token.raw).2 h
  rw [← isVariadic_of_read _ ha] at hfree ⊢
  exact ⟨a, readAnnotations_annotated rfl ha hfree rest⟩

theorem Group.Grammatical.exists_readAnnotations {g : Group} (h : g.Grammatical)
    {collected : Bool} (hfree : (g.isVariadic && collected) = false) (rest : List Token) :
    ∃ a, readAnnotations collected none (g.tokens ++ rest) =
      (a :: ·) <$> readAnnotations (collected || g.isVariadic) none rest := by
  obtain ⟨flags, marker, body⟩ := g
  cases flags with
  | none => exact exists_readAnnotations_annotated h.annotation hfree rest
  | some t =>
    obtain ⟨flags, hflags⟩ := Option.isSome_iff_exists.1 (h.flags t rfl)
    have hword : Annotation.Grammatical (some (flags, t)).isSome marker body := h.annotation
    obtain ⟨a, ha⟩ := exists_readAnnotations_annotated hword hfree rest
    exact ⟨a, (readAnnotations_flags hflags collected _).trans ha⟩

theorem exists_readAnnotations_flatMap {groups : List Group} (h : ∀ g ∈ groups, g.Grammatical)
    {collected : Bool} (hvariadic : (groups.filter Group.isVariadic).length ≤
      if collected then 0 else 1) :
    ∃ annotations,
      readAnnotations collected none (groups.flatMap Group.tokens) = .ok annotations := by
  induction groups generalizing collected with
  | nil => exact ⟨[], rfl⟩
  | cons g groups ih =>
    obtain ⟨hg, hgroups⟩ := List.forall_mem_cons.1 h
    obtain ⟨hfree, hcount⟩ := length_filter_cons_le.1 hvariadic
    obtain ⟨a, ha⟩ := hg.exists_readAnnotations hfree (groups.flatMap Group.tokens)
    obtain ⟨annotations, hannotations⟩ := ih hgroups hcount
    rw [List.flatMap_cons, ha, hannotations]
    exact ⟨a :: annotations, rfl⟩

/-- What is read as annotations is a row of groups, the first of which begins with the
flags that are kept. -/
theorem exists_groups {collected : Bool} {pending : Option (Flags × Text)}
    {tokens : List Token} {annotations : List Annotation}
    (hpending : ∀ flags t, pending = some (flags, t) → Flags.ofText? t = some flags)
    (h : readAnnotations collected pending tokens = .ok annotations) :
    ∃ groups : List Group,
      pending.toList.map (fun kept => { marker := kept.2 }) ++ tokens =
        groups.flatMap Group.tokens ∧
      (∀ g ∈ groups, g.Grammatical) ∧
      (groups.filter Group.isVariadic).length ≤ if collected then 0 else 1 := by
  induction tokens generalizing collected pending annotations with
  | nil =>
    unfold readAnnotations at h
    split at h
    · simp at h
    · exact ⟨[], rfl, by simp, by simp⟩
  | cons token tokens ih =>
    rcases readAnnotations_cons_eq_ok h with
      ⟨t, flags, rfl, rfl, hflags, h⟩ | ⟨body, a, later, hbody, ha, hfree, hlater, rfl⟩
    · refine ih (fun flags' t' heq => ?_) h
      obtain ⟨rfl, rfl⟩ := Prod.mk.inj (Option.some.inj heq)
      exact hflags
    · obtain ⟨marker, _⟩ := token
      obtain rfl := hbody
      let g : Group := ⟨pending.map Prod.snd, marker, body⟩
      have hg : g.Grammatical := by
        refine ⟨fun t ht => ?_, ?_⟩
        · obtain ⟨⟨flags, t⟩, hkept, rfl⟩ := Option.map_eq_some_iff.1 ht
          exact Option.isSome_iff_exists.2 ⟨flags, hpending flags t hkept⟩
        · have hword := (exists_read_eq_ok _).1 ⟨a, ha⟩
          rw [Option.isSome_map] at hword
          change Annotation.Grammatical (pending.map Prod.snd).isSome marker body
          rwa [Option.isSome_map]
      have hvariadic : a.pattern.isVariadic = g.isVariadic := isVariadic_of_read _ ha
      rw [hvariadic] at hfree hlater
      obtain ⟨groups, htokens, hgroups, hcount⟩ := ih (by simp) hlater
      have hrest : tokens = groups.flatMap Group.tokens := htokens
      refine ⟨g :: groups, ?_, List.forall_mem_cons.2 ⟨hg, hgroups⟩,
        length_filter_cons_le.2 ⟨hfree, hcount⟩⟩
      rw [List.flatMap_cons, ← hrest, Group.tokens, List.append_assoc]
      cases pending <;> rfl

/-- No word of a group can be taken for one of the command name. -/
theorem head?_flatMap_tokens {groups : List Group} (h : ∀ g ∈ groups, g.Grammatical) :
    ∀ token ∈ (groups.flatMap Group.tokens).head?,
      (token.isBare && !isFlagWord token) = false := by
  cases groups with
  | nil => simp
  | cons g groups =>
    intro token htoken
    obtain ⟨flags, marker, body⟩ := g
    cases flags with
    | none =>
      obtain rfl := Option.some.inj htoken
      rfl
    | some t =>
      obtain rfl := Option.some.inj htoken
      obtain ⟨flags, hflags⟩ :=
        Option.isSome_iff_exists.1 ((h _ List.mem_cons_self).flags t rfl)
      simp [isFlagWord, Token.isBare, Flags.head?_of_ofText? hflags]

/-- A declaration is accepted if it has words and these are in the grammar, where one bare word
in front that calls the program is left out. -/
theorem accepts_iff_grammatical (t : Text) :
    (∃ d, read t = .ok d) ↔
      ∃ tokens words, Token.read t = .ok tokens ∧
        (tokens = { marker := rootWord } :: words ∨
          tokens = words ∧ tokens.head? ≠ some { marker := rootWord }) ∧
        Grammatical words := by
  have hwords : ∀ tokens, (∃ words, (tokens = { marker := rootWord } :: words ∨
      tokens = words ∧ tokens.head? ≠ some { marker := rootWord }) ∧ Grammatical words) ↔
        Grammatical (dropRootWord tokens) := by
    intro tokens
    simp only [← dropRootWord_eq_iff, exists_eq_left']
  simp only [exists_and_left, hwords]
  unfold read
  rw [exists_bind_eq_ok]
  refine exists_congr fun tokens => and_congr_right fun htokens => ?_
  constructor
  · rintro ⟨d, h⟩
    obtain ⟨⟨path, rest⟩, hpath, h⟩ := bind_eq_ok.1 h
    obtain ⟨annotations, hannotations, h⟩ := bind_eq_ok.1 h
    split at h
    · simp at h
    · next hne =>
      have hnames : ∀ w ∈ path, IsName w := by
        refine readPath_eq_ok (fun token hmem hbare => ?_) hpath
        exact Token.marker_ne_nil_of_readFrom htokens token (mem_of_mem_dropRootWord hmem) hbare
      obtain ⟨groups, hrest, hgroups, hcount⟩ := exists_groups (by simp) hannotations
      obtain rfl : rest = groups.flatMap Group.tokens := hrest
      rw [eq_append_of_readPath hpath]
      exact .words (by simpa using hne) hnames hgroups hcount
  · intro h
    generalize dropRootWord tokens = words at h
    obtain @⟨path, groups, hne, hnames, hgroups, hcount⟩ := h
    have hpath := readPath_append hnames (head?_flatMap_tokens hgroups)
    have hread : ∃ annotations,
        readAnnotations false none (groups.flatMap Group.tokens) = .ok annotations :=
      exists_readAnnotations_flatMap hgroups hcount
    obtain ⟨annotations, hannotations⟩ := hread
    refine ⟨{ path, annotations }, bind_eq_ok.2 ⟨_, hpath, ?_⟩⟩
    exact bind_eq_ok.2 ⟨annotations, hannotations, if_neg (by simpa using hne)⟩

end Declaration

end TypedCommand
