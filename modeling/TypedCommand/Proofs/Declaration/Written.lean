import TypedCommand.Proofs.Declaration.Grammar

/-!
Declarations as they are written. The fields of an annotation stand between its brackets
in a fixed order, and each but the head begins with a sign of its own; a default is put
between quotes of a sort that it does not hold. What is written in this way is read back
field by field: quotes hide the signs and the brackets in a default, and no sign has a
meaning behind the one that opens the help text.
-/

namespace TypedCommand

open Text

namespace Annotation

open Token (IsMarker IsPlain)

/-- What is open in the writing of an annotation: the quotes around the default, and
whether the kind `str` is written although it can be left out. -/
structure Style where
  quote : Char
  showsKind : Bool

/-- The head: the name, or the flags of a forwarded option that has none. -/
def headText (a : Annotation) : Text :=
  match a.pattern with
  | .forwarded flags => a.name.getD flags.text
  | _ => a.name.getD []

def kindText (style : Style) (a : Annotation) : Text :=
  if a.kind = .str ∧ style.showsKind = false then [] else ':' :: a.kind.name

def defaultText (style : Style) (a : Annotation) : Text :=
  match a.default with
  | some value => '=' :: style.quote :: (value ++ [style.quote])
  | none => []

def helpText (a : Annotation) : Text :=
  match a.help with
  | some help => '#' :: help
  | none => []

def fieldsText (style : Style) (a : Annotation) : Text :=
  a.headText ++ (a.kindText style ++ (a.defaultText style ++ a.helpText))

def bodyText (style : Style) (a : Annotation) : Text :=
  match a.pattern with
  | .variadic => "..." ++ a.helpText
  | _ => a.fieldsText style

def word (style : Style) (a : Annotation) : Token :=
  { marker := a.marker, body := some (a.bodyText style) }

def flagsBefore (a : Annotation) : Option Flags :=
  match a.pattern with
  | .option flags => some flags
  | _ => none

def tokens (style : Style) (a : Annotation) : List Token :=
  a.flagsBefore.toList.map (fun flags => { marker := flags.text }) ++ [a.word style]

def written (style : Style) (a : Annotation) : Annotation :=
  { a with fragment := (a.word style).raw }

/-- What the pattern of an annotation asks of its marker and of its other fields. -/
inductive Form (a : Annotation) : Prop
  | positional (pattern : a.pattern = .positional) (marker : IsMarker a.marker)
      (ne_nil : a.marker ≠ []) (no_dash : a.marker.head? ≠ some '-')
  | option {flags : Flags} (pattern : a.pattern = .option flags) (hflags : flags.WellFormed)
      (marker : IsMarker a.marker) (ne_nil : a.marker ≠ [])
      (no_dash : a.marker.head? ≠ some '-')
  | forwarded {flags : Flags} (pattern : a.pattern = .forwarded flags)
      (hflags : flags.WellFormed) (marker : Flags.IsFlag a.marker)
      (name : ∀ n, a.name = some n → flags = Flags.ofName n)
  | variadic (pattern : a.pattern = .variadic) (marker : IsMarker a.marker)
      (name : a.name = none) (kind : a.kind = .str) (default : a.default = none)

structure Printable (a : Annotation) : Prop where
  form : a.Form
  name : ∀ n, a.name = some n → IsIdentifier n
  default : ∀ value, a.default = some value → '"' ∉ value ∨ '\'' ∉ value
  help : ∀ help, a.help = some help → IsPlain help

/-- The quotes of a style do not stand in the default. -/
structure Style.Fits (style : Style) (a : Annotation) : Prop where
  isQuote : style.quote = '"' ∨ style.quote = '\''
  default : ∀ value, a.default = some value → style.quote ∉ value

theorem Printable.exists_fits {a : Annotation} (h : a.Printable) :
    ∃ style : Style, style.Fits a := by
  cases hdefault : a.default with
  | none => exact ⟨⟨'"', false⟩, Or.inl rfl, by simp [hdefault]⟩
  | some value =>
    rcases h.default value hdefault with hfree | hfree
    · refine ⟨⟨'"', false⟩, Or.inl rfl, fun value' hvalue => ?_⟩
      rwa [← Option.some.inj (hdefault.symm.trans hvalue)]
    · refine ⟨⟨'\'', false⟩, Or.inr rfl, fun value' hvalue => ?_⟩
      rwa [← Option.some.inj (hdefault.symm.trans hvalue)]

/-! What each field reads from what is written. -/

section Fields

variable {style : Style} {a : Annotation} (fragment : Text)

theorem kindField_kindText (style : Style) (a : Annotation) :
    KindField a.kind (a.kindText style) := by
  unfold kindText
  split
  · next hkind => exact hkind.1 ▸ .absent
  · exact .named a.kind

theorem defaultField_defaultText (h : style.Fits a) :
    DefaultField a.default (a.defaultText style) := by
  unfold defaultText
  cases hdefault : a.default with
  | none => exact .absent
  | some value => exact .quoted h.isQuote (h.default value hdefault)

theorem helpField_helpText (h : a.Printable) : HelpField a.help a.helpText := by
  unfold helpText
  cases hhelp : a.help with
  | none => exact .absent
  | some help => exact .given fun hmem => (h.help help hhelp '=' hmem).2.2 rfl

theorem mem_headText (h : a.Printable) {c : Char} (hc : c ∈ a.headText) :
    isWordChar c = true ∨ c = '/' := by
  have hname : c ∈ a.name.getD [] → isWordChar c = true := by
    intro hc
    cases hn : a.name with
    | none => simp [hn] at hc
    | some n =>
      rw [hn, Option.getD_some] at hc
      exact isWordChar_of_isIdentifierChar ((h.name n hn).chars c hc)
  unfold headText at hc
  cases h.form with
  | positional pattern => exact Or.inl (hname (by simpa [pattern] using hc))
  | option pattern => exact Or.inl (hname (by simpa [pattern] using hc))
  | variadic pattern => exact Or.inl (hname (by simpa [pattern] using hc))
  | forwarded pattern hflags =>
    rw [pattern] at hc
    dsimp only at hc
    cases hn : a.name with
    | none => exact hflags.mem_text (by simpa [hn] using hc)
    | some n => exact Or.inl (hname (by simpa [hn] using hc))

theorem writing_fieldsText (h : a.Printable) (hfits : style.Fits a) :
    Body.Writing ⟨a.headText, a.kind, a.default, a.help⟩ (a.fieldsText style) := by
  refine .fields (fun c hc => ?_) (kindField_kindText style a) (defaultField_defaultText hfits)
    (helpField_helpText h)
  have hclass := mem_headText h hc
  refine ⟨?_, ?_, ?_⟩
  all_goals
    rintro rfl
    exact absurd hclass (by decide)

theorem checkName_name (h : a.Printable) {n : Text} (hn : a.name = some n) :
    checkName fragment n = .ok () := by
  have hchars : n.all isIdentifierChar = true := List.all_eq_true.2 (h.name n hn).chars
  rw [checkName, if_pos hchars]

theorem readReplaced_name (h : a.Printable) (hmarker : a.marker ≠ []) (flags : Option Flags) :
    readReplaced fragment a.marker flags ⟨a.name.getD [], a.kind, a.default, a.help⟩ =
      .ok { a with
        pattern := match flags with
          | some flags => .option flags
          | none => .positional
        fragment } := by
  have hne : ¬ a.marker.isEmpty = true := by simpa using hmarker
  unfold readReplaced
  rw [if_neg hne]
  cases hn : a.name with
  | none => rfl
  | some n =>
    have hempty : n.isEmpty = false := by simpa using (h.name n hn).ne_nil
    rw [Option.getD_some, checkName_name fragment h hn]
    simp only [Except.map, hempty]
    rfl

theorem readForwardedHead_headText (h : a.Printable) {flags : Flags} (hflags : flags.WellFormed)
    (hname : ∀ n, a.name = some n → flags = Flags.ofName n) (own : Flags) :
    readForwardedHead fragment own (a.name.getD flags.text) = .ok (a.name, flags) := by
  cases hn : a.name with
  | none =>
    rw [Option.getD_none, readForwardedHead, if_pos hflags.head?_text, readFlags,
      Flags.ofText?_text hflags]
    rfl
  | some n =>
    have hdash : n.head? ≠ some '-' := (h.name n hn).isName.no_dash
    have hempty : ¬ n.isEmpty = true := by simpa using (h.name n hn).ne_nil
    rw [Option.getD_some, readForwardedHead, if_neg hdash, if_neg hempty,
      checkName_name fragment h hn, hname n hn]
    rfl

theorem head?_fieldsText (h : a.Printable) (hfits : style.Fits a) :
    (a.fieldsText style).head? ≠ some '.' := by
  intro hdot
  rcases (writing_fieldsText h hfits).head? '.' hdot with hhead | hsign
  · exact absurd (mem_headText h (List.mem_of_mem_head? hhead)) (by decide)
  · exact absurd hsign (by decide)

theorem read_of_fieldsText (h : a.Printable) (hfits : style.Fits a) (flags : Option Flags) :
    read fragment a.marker (a.fieldsText style) flags =
      if a.marker.head? = some '-' then
        readForwarded fragment a.marker flags ⟨a.headText, a.kind, a.default, a.help⟩
      else readReplaced fragment a.marker flags ⟨a.headText, a.kind, a.default, a.help⟩ :=
  read_of_writing fragment (writing_fieldsText h hfits) (head?_fieldsText h hfits) flags

/-- An annotated word is read as the annotation that it was written for. -/
theorem read_bodyText (h : a.Printable) (hfits : style.Fits a) :
    read fragment a.marker (a.bodyText style) a.flagsBefore = .ok { a with fragment } := by
  obtain ⟨marker, name, kind, default, help, pattern, fragment'⟩ := a
  cases h.form with
  | positional hpattern _ hne hdash =>
    obtain rfl : pattern = .positional := hpattern
    exact (read_of_fieldsText fragment h hfits none).trans
      ((if_neg hdash).trans (readReplaced_name fragment h hne none))
  | @option flags hpattern _ _ hne hdash =>
    obtain rfl : pattern = .option flags := hpattern
    exact (read_of_fieldsText fragment h hfits (some flags)).trans
      ((if_neg hdash).trans (readReplaced_name fragment h hne (some flags)))
  | @forwarded flags hpattern hflags hmarker hname =>
    obtain rfl : pattern = .forwarded flags := hpattern
    change Flags.IsFlag marker at hmarker
    obtain ⟨own, hown, htext, hprimary⟩ := Flags.exists_of_isFlag hmarker
    have hdash : marker.head? = some '-' := htext ▸ hown.head?_text
    have hread : readFlags fragment .markerFlagInvalid marker = .ok own := by
      rw [readFlags, ← htext, Flags.ofText?_text hown]
    refine (read_of_fieldsText fragment h hfits none).trans ((if_pos hdash).trans ?_)
    change (readFlags fragment .markerFlagInvalid marker >>= _) = _
    rw [hread]
    change (readForwardedHead fragment own (name.getD flags.text) >>= _) = _
    rw [readForwardedHead_headText fragment h hflags hname]
    change Except.ok _ = _
    rw [hprimary]
  | variadic hpattern _ hname hkind hdefault =>
    obtain rfl : pattern = .variadic := hpattern
    obtain rfl : name = none := hname
    obtain rfl : kind = .str := hkind
    obtain rfl : default = none := hdefault
    cases help with
    | none => rfl
    | some help => rfl

end Fields

/-! The words of an annotation end where they are meant to. -/

theorem plain_of_isWordChar {c : Char} (h : isWordChar c = true) :
    c ≠ '[' ∧ c ≠ ']' ∧ c ≠ '=' := by
  refine ⟨?_, ?_, ?_⟩
  all_goals
    rintro rfl
    exact absurd h (by decide)

theorem isPlain_headText {a : Annotation} (h : a.Printable) : IsPlain a.headText := by
  intro c hc
  rcases mem_headText h hc with hword | rfl
  · exact plain_of_isWordChar hword
  · decide

theorem isPlain_kindText (style : Style) (a : Annotation) : IsPlain (a.kindText style) := by
  unfold kindText
  split
  · simp [IsPlain]
  · intro c hc
    rcases List.mem_cons.1 hc with rfl | hc
    · decide
    · exact plain_of_isWordChar (mem_kindName hc)

theorem isPlain_helpText {a : Annotation} (h : a.Printable) : IsPlain a.helpText := by
  unfold helpText
  cases hhelp : a.help with
  | none => simp [IsPlain]
  | some help => exact List.forall_mem_cons.2 ⟨by decide, h.help help hhelp⟩

theorem enclosed_defaultText {style : Style} {a : Annotation} (h : a.Printable)
    (hfits : style.Fits a) {last : Option Char} (hlast : last ≠ some '=') :
    Token.Enclosed last (a.defaultText style ++ a.helpText) := by
  unfold defaultText
  cases hdefault : a.default with
  | none => exact (isPlain_helpText h).enclosed hlast
  | some value =>
    have hquote : some style.quote ≠ some '=' := by
      rcases hfits.isQuote with hq | hq <;> simp [hq]
    have hhelp := (isPlain_helpText h).enclosed hquote
    have hquoted := Token.Enclosed.quoted hfits.isQuote (hfits.default value hdefault) hhelp
    refine .plain (by decide) (by simp) ?_
    simpa using hquoted

theorem enclosed_bodyText {style : Style} {a : Annotation} (h : a.Printable)
    (hfits : style.Fits a) : Token.Enclosed none (a.bodyText style) := by
  have hnone : (none : Option Char) ≠ some '=' := nofun
  have hfront : IsPlain (a.headText ++ a.kindText style) := by
    intro c hc
    rcases List.mem_append.1 hc with hc | hc
    · exact isPlain_headText h c hc
    · exact isPlain_kindText style a c hc
  have hlast : (a.headText ++ a.kindText style).getLast?.or none ≠ some '=' := by
    rw [Option.or_none]
    intro heq
    exact (hfront '=' (List.mem_of_getLast? heq)).2.2 rfl
  -- nothing is quoted before the default, and behind it only the help text stands
  have hfields := (hfront.enclosed hnone).append (enclosed_defaultText h hfits hlast)
  rw [List.append_assoc] at hfields
  have hdots : IsPlain "..." := by decide
  unfold bodyText
  split
  · refine IsPlain.enclosed (fun c hc => ?_) hnone
    rcases List.mem_append.1 hc with hc | hc
    · exact hdots c hc
    · exact isPlain_helpText h c hc
  · exact hfields

theorem isMarker_of_forall {t : Text} (h : ∀ c ∈ t, isWordChar c = true ∨ c = '/') :
    IsMarker t := by
  intro c hc
  rcases h c hc with hword | rfl
  · obtain ⟨hopen, hclose, _⟩ := plain_of_isWordChar hword
    exact ⟨isBlank_eq_false_of_isWordChar hword, hopen, hclose⟩
  · decide

theorem Form.isMarker {a : Annotation} (h : a.Form) : IsMarker a.marker := by
  cases h with
  | positional _ hmarker => exact hmarker
  | option _ _ hmarker => exact hmarker
  | variadic _ hmarker => exact hmarker
  | forwarded _ _ hmarker =>
    obtain ⟨own, hown, htext, _⟩ := Flags.exists_of_isFlag hmarker
    rw [← htext]
    exact isMarker_of_forall fun c hc => hown.mem_text hc

theorem Form.wellFormed_flagsBefore {a : Annotation} (h : a.Form) {flags : Flags}
    (hflags : a.flagsBefore = some flags) : flags.WellFormed := by
  unfold flagsBefore at hflags
  cases h with
  | option hpattern hform =>
    rw [hpattern] at hflags
    exact Option.some.inj hflags ▸ hform
  | positional hpattern => simp [hpattern] at hflags
  | forwarded hpattern => simp [hpattern] at hflags
  | variadic hpattern => simp [hpattern] at hflags

theorem wellFormed_of_mem_tokens {style : Style} {a : Annotation} (h : a.Printable)
    (hfits : style.Fits a) : ∀ token ∈ a.tokens style, token.WellFormed := by
  intro token htoken
  rcases List.mem_append.1 htoken with htoken | htoken
  · obtain ⟨flags, hmem, rfl⟩ := List.mem_map.1 htoken
    have hflags := h.form.wellFormed_flagsBefore (Option.mem_toList.1 hmem)
    refine ⟨isMarker_of_forall fun c hc => hflags.mem_text hc, fun _ hempty => ?_, nofun⟩
    have hhead := hflags.head?_text
    rw [show flags.text = [] from hempty] at hhead
    simp at hhead
  · obtain rfl := List.mem_singleton.1 htoken
    refine ⟨h.form.isMarker, nofun, fun body hbody => ?_⟩
    exact Option.some.inj hbody ▸ enclosed_bodyText h hfits

end Annotation

structure Declaration.Printable (d : Declaration) : Prop where
  path_ne_nil : d.path ≠ []
  path_names : ∀ w ∈ d.path, IsName w
  annotations : ∀ a ∈ d.annotations, a.Printable
  one_variadic : (d.annotations.filter (·.pattern.isVariadic)).length ≤ 1

namespace Declaration

open Annotation (Style)

def tokens (styles : List Style) (d : Declaration) : List Token :=
  d.path.map (fun w => { marker := w }) ++
    (List.zipWith Annotation.tokens styles d.annotations).flatten

def text (styles : List Style) (d : Declaration) : Text :=
  [' '].intercalate (rootWord :: (d.tokens styles).map Token.raw)

def written (styles : List Style) (d : Declaration) : Declaration :=
  { d with annotations := List.zipWith Annotation.written styles d.annotations }

/-- The words of one annotation are read as it; what follows is read on its own. -/
theorem readAnnotations_tokens {style : Style} {a : Annotation} (h : a.Printable)
    (hfits : style.Fits a) {collected : Bool}
    (hfree : (a.pattern.isVariadic && collected) = false) (rest : List Token) :
    readAnnotations collected none (a.tokens style ++ rest) =
      (a.written style :: ·) <$>
        readAnnotations (collected || a.pattern.isVariadic) none rest := by
  have hread : Annotation.read (a.word style).raw a.marker (a.bodyText style) a.flagsBefore =
      .ok (a.written style) := Annotation.read_bodyText _ h hfits
  unfold Annotation.tokens
  cases hflags : a.flagsBefore with
  | none =>
    rw [hflags] at hread
    exact readAnnotations_annotated (a := a.written style) rfl hread hfree rest
  | some flags =>
    rw [hflags] at hread
    have htext := Flags.ofText?_text (h.form.wellFormed_flagsBefore hflags)
    refine (readAnnotations_flags htext collected (a.word style :: rest)).trans ?_
    exact readAnnotations_annotated (a := a.written style) rfl hread hfree rest

theorem readAnnotations_flatten {styles : List Style} {annotations : List Annotation}
    (h : ∀ a ∈ annotations, a.Printable) (hfits : List.Forall₂ Style.Fits styles annotations)
    {collected : Bool} (hvariadic : (annotations.filter (·.pattern.isVariadic)).length ≤
      if collected then 0 else 1) :
    readAnnotations collected none
        (List.zipWith Annotation.tokens styles annotations).flatten =
      .ok (List.zipWith Annotation.written styles annotations) := by
  induction hfits generalizing collected with
  | nil => rfl
  | @cons style a styles annotations hstyle _ ih =>
    have hlater : ∀ b ∈ annotations, b.Printable := fun b hb => h b (List.mem_cons_of_mem _ hb)
    -- once a variadic annotation has been read, none is left among the later ones
    obtain ⟨hfree, hcount⟩ := length_filter_cons_le.1 hvariadic
    rw [List.zipWith_cons_cons, List.flatten_cons,
      readAnnotations_tokens (h a List.mem_cons_self) hstyle hfree, ih hlater hcount]
    rfl

/-- No word of an annotation can be taken for one of the command name. -/
theorem head?_flatten {styles : List Style} {d : Declaration} (h : d.Printable) :
    ∀ token ∈ (List.zipWith Annotation.tokens styles d.annotations).flatten.head?,
      (token.isBare && !isFlagWord token) = false := by
  obtain ⟨path, annotations⟩ := d
  cases styles with
  | nil => simp
  | cons style styles =>
    cases annotations with
    | nil => simp
    | cons a annotations =>
      intro token htoken
      have hform := (h.annotations a List.mem_cons_self).form
      simp only [List.zipWith_cons_cons, List.flatten_cons, Annotation.tokens] at htoken
      cases hflags : a.flagsBefore with
      | none =>
        rw [hflags] at htoken
        obtain rfl := Option.some.inj htoken
        rfl
      | some flags =>
        rw [hflags] at htoken
        obtain rfl := Option.some.inj htoken
        simp [isFlagWord, Token.isBare, (hform.wellFormed_flagsBefore hflags).head?_text]

theorem wellFormed_of_mem_flatten {styles : List Style} {annotations : List Annotation}
    (h : ∀ a ∈ annotations, a.Printable) (hfits : List.Forall₂ Style.Fits styles annotations) :
    ∀ token ∈ (List.zipWith Annotation.tokens styles annotations).flatten,
      token.WellFormed := by
  induction hfits with
  | nil => simp
  | @cons style a styles annotations hstyle _ ih =>
    intro token htoken
    rw [List.zipWith_cons_cons, List.flatten_cons] at htoken
    rcases List.mem_append.1 htoken with htoken | htoken
    · exact Annotation.wellFormed_of_mem_tokens (h a List.mem_cons_self) hstyle token htoken
    · exact ih (fun b hb => h b (List.mem_cons_of_mem _ hb)) token htoken

theorem wellFormed_of_mem_tokens {styles : List Style} {d : Declaration} (h : d.Printable)
    (hfits : List.Forall₂ Style.Fits styles d.annotations) :
    ∀ token ∈ d.tokens styles, token.WellFormed := by
  intro token htoken
  rcases List.mem_append.1 htoken with htoken | htoken
  · obtain ⟨w, hw, rfl⟩ := List.mem_map.1 htoken
    have hname := h.path_names w hw
    have hmarker := Annotation.isMarker_of_forall fun c hc => Or.inl (hname.chars c hc)
    exact ⟨hmarker, fun _ => hname.ne_nil, nofun⟩
  · exact wellFormed_of_mem_flatten h.annotations hfits token htoken

theorem Printable.exists_fits {d : Declaration} (h : d.Printable) :
    ∃ styles, List.Forall₂ Style.Fits styles d.annotations := by
  obtain ⟨styles, hstyles⟩ := exists_results fun a ha => (h.annotations a ha).exists_fits
  exact ⟨styles, hstyles.flip⟩

/-- Every declaration that can be written can be written in some style, and in whatever
style it is written, it is read back: its command name, and of each annotation all fields,
with the annotated word for the fragment. -/
theorem read_text (d : Declaration) (h : d.Printable) :
    (∃ styles, List.Forall₂ Style.Fits styles d.annotations) ∧
      ∀ styles, List.Forall₂ Style.Fits styles d.annotations →
        read (d.text styles) = .ok (d.written styles) := by
  refine ⟨h.exists_fits, fun styles hfits => ?_⟩
  have hmarker : Token.IsMarker rootWord := by decide
  have hroot : Token.WellFormed { marker := rootWord } := ⟨hmarker, fun _ => by decide, nofun⟩
  -- the first word alone is dropped, so the command name itself can begin with it
  have htext : Token.read (d.text styles) = .ok ({ marker := rootWord } :: d.tokens styles) :=
    Token.read_intercalate (List.forall_mem_cons.2 ⟨hroot, wellFormed_of_mem_tokens h hfits⟩)
  let words := (List.zipWith Annotation.tokens styles d.annotations).flatten
  have hpath : readPath (d.tokens styles) = .ok (d.path, words) :=
    readPath_append h.path_names (head?_flatten h)
  have hannotations : readAnnotations false none words = .ok (d.written styles).annotations :=
    readAnnotations_flatten h.annotations hfits h.one_variadic
  have hne : ¬ d.path.isEmpty = true := by simpa using h.path_ne_nil
  unfold read
  rw [htext]
  change (readPath (d.tokens styles) >>= _) = _
  rw [hpath]
  change (readAnnotations false none words >>= _) = _
  rw [hannotations]
  exact if_neg hne

set_option maxRecDepth 4000 in
/-- All four patterns, with signs, brackets, blanks and the other quotes in the defaults, with
quotes and number signs in the help texts, and with a command name that begins with the word
that calls the program. -/
theorem read_text_adverse : ∃ (d : Declaration) (styles : List Style), d.Printable ∧
    read ("just just run-2 -m/--msg a='\"#:[msg:int=\"] [='# \"#say \"it\" #1's] " ++
      "é[:str='\"'] --silent[-q/--quiet=\"\"#] [...#rest: a 'b]") = .ok (d.written styles) ∧
    d.path = ["just".toList, "run-2".toList] ∧
    d.annotations.map (fun a => (a.default, a.help)) =
      [(some "] [='# ".toList, some "say \"it\" #1's".toList), (some "\"".toList, none),
        (some [], some []), (none, some "rest: a 'b".toList)] := by
  let option : Annotation := ⟨"a='\"#:", some "msg", .int, some "] [='# ",
    some "say \"it\" #1's", .option ⟨some "-m", some "--msg"⟩, []⟩
  let positional : Annotation := ⟨"é", none, .str, some "\"", none, .positional, []⟩
  let forwarded : Annotation :=
    ⟨"--silent", none, .str, some [], some [], .forwarded ⟨some "-q", some "--quiet"⟩, []⟩
  let variadic : Annotation := ⟨[], none, .str, none, some "rest: a 'b", .variadic, []⟩
  let d : Declaration := ⟨["just", "run-2"], [option, positional, forwarded, variadic]⟩
  let styles : List Style := [⟨'"', false⟩, ⟨'\'', true⟩, ⟨'"', false⟩, ⟨'"', false⟩]
  have hname : ∀ t ∈ ["just".toList, "run-2".toList, "m".toList, "msg".toList,
      "silent".toList, "q".toList, "quiet".toList], IsName t := by
    intro t ht
    exact isName_iff.1 (List.all_eq_true.1 (by decide) t ht)
  have hflags : ∀ short long : Text, IsName short → IsName long →
      (Flags.mk (some ('-' :: short)) (some ('-' :: '-' :: long))).WellFormed :=
    fun short long hshort hlong =>
      ⟨nofun, fun _ h => ⟨short, (Option.some.inj h).symm, hshort⟩,
        fun _ h => ⟨long, (Option.some.inj h).symm, hlong⟩⟩
  have hoption : option.Printable := {
    form := .option rfl (hflags "m" "msg" (hname _ (by decide)) (hname _ (by decide)))
      (by decide) (by decide) (by decide)
    name := fun _ h => Option.some.inj h ▸ ⟨by decide, List.all_eq_true.1 (by decide)⟩
    default := fun _ h => Option.some.inj h ▸ by decide
    help := fun _ h => Option.some.inj h ▸ by decide }
  have hpositional : positional.Printable := {
    form := .positional rfl (by decide) (by decide) (by decide)
    name := nofun
    default := fun _ h => Option.some.inj h ▸ by decide
    help := nofun }
  have hforwarded : forwarded.Printable := {
    form := .forwarded rfl (hflags "q" "quiet" (hname _ (by decide)) (hname _ (by decide)))
      ⟨"silent", hname _ (by decide), Or.inr rfl⟩ nofun
    name := nofun
    default := fun _ h => Option.some.inj h ▸ by decide
    help := fun _ h => Option.some.inj h ▸ by decide }
  have hvariadic : variadic.Printable := {
    form := .variadic rfl (by decide) rfl rfl rfl
    name := nofun
    default := nofun
    help := fun _ h => Option.some.inj h ▸ by decide }
  have hd : d.Printable := {
    path_ne_nil := by decide
    path_names := fun w hw => hname w (List.mem_append_left _ hw)
    annotations := by simp [d, hoption, hpositional, hforwarded, hvariadic]
    one_variadic := by decide }
  have hfits : List.Forall₂ Style.Fits styles d.annotations :=
    .cons ⟨Or.inl rfl, fun _ h => Option.some.inj h ▸ by decide⟩
      (.cons ⟨Or.inr rfl, fun _ h => Option.some.inj h ▸ by decide⟩
        (.cons ⟨Or.inl rfl, fun _ h => Option.some.inj h ▸ by decide⟩
          (.cons ⟨Or.inl rfl, nofun⟩ .nil)))
  have htext : d.text styles =
      "just just run-2 -m/--msg a='\"#:[msg:int=\"] [='# \"#say \"it\" #1's] " ++
        "é[:str='\"'] --silent[-q/--quiet=\"\"#] [...#rest: a 'b]" := by decide
  exact ⟨d, styles, hd, htext ▸ (read_text d hd).2 styles hfits, rfl, rfl⟩

end Declaration

end TypedCommand
