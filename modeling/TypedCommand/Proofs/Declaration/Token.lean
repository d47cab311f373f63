import TypedCommand.Declaration.Token

/-!
Words of a declaration that are written one after the other. Between brackets a quote
directly behind an equals sign opens a run that ends at the next such quote. Where no
bracket stands outside these runs and none of them is left open, reading gives the words
back, however many blanks there are between them.
-/

namespace TypedCommand.Token

/-- What can follow the character `last` between the brackets of a word: no bracket stands
outside the quoted runs, and each of them ends. -/
inductive Enclosed : Option Char → Text → Prop
  | nil {last : Option Char} : Enclosed last []
  | plain {last : Option Char} {c : Char} {t : Text} (hbracket : c ≠ '[' ∧ c ≠ ']')
      (hquote : ¬ ((c = '"' ∨ c = '\'') ∧ last = some '=')) (h : Enclosed (some c) t) :
      Enclosed last (c :: t)
  | quoted {quote : Char} {value t : Text} (hquote : quote = '"' ∨ quote = '\'')
      (hvalue : quote ∉ value) (h : Enclosed (some quote) t) :
      Enclosed (some '=') (quote :: (value ++ quote :: t))

def IsMarker (t : Text) : Prop := ∀ c ∈ t, Text.isBlank c = false ∧ c ≠ '[' ∧ c ≠ ']'

instance (t : Text) : Decidable (IsMarker t) := List.decidableBAll _ t

def IsPlain (t : Text) : Prop := ∀ c ∈ t, c ≠ '[' ∧ c ≠ ']' ∧ c ≠ '='

instance (t : Text) : Decidable (IsPlain t) := List.decidableBAll _ t

structure WellFormed (token : Token) : Prop where
  marker : IsMarker token.marker
  bare : token.body = none → token.marker ≠ []
  body : ∀ body, token.body = some body → Enclosed none body

theorem IsPlain.enclosed {last : Option Char} {t : Text} (h : IsPlain t)
    (hlast : last ≠ some '=') : Enclosed last t := by
  induction t generalizing last with
  | nil => exact .nil
  | cons c t ih =>
    obtain ⟨hopen, hclose, hequals⟩ := h c List.mem_cons_self
    have hc : some c ≠ some '=' := fun heq => hequals (Option.some.inj heq)
    exact .plain ⟨hopen, hclose⟩ (fun hquote => hlast hquote.2)
      (ih (fun d hd => h d (List.mem_cons_of_mem _ hd)) hc)

theorem Enclosed.append {last : Option Char} {t rest : Text} (h : Enclosed last t)
    (hrest : Enclosed (t.getLast?.or last) rest) : Enclosed last (t ++ rest) := by
  -- what stands before `rest` is the last character of `t`, or `last` where `t` is empty
  induction h with
  | nil => exact hrest
  | @plain last c t hbracket hquote _ ih =>
    rw [List.getLast?_cons, Option.some_or, ← Option.or_some] at hrest
    exact .plain hbracket hquote (ih hrest)
  | @quoted quote value t hquote hvalue _ ih =>
    rw [← List.cons_append, List.getLast?_append, List.getLast?_cons, Option.or_assoc,
      Option.some_or, ← Option.or_some] at hrest
    have hquoted := Enclosed.quoted hquote hvalue (ih hrest)
    rwa [List.cons_append, List.append_assoc, List.cons_append]

/-! What one more character does in each state of reading. -/

section Step

variable (marker body rest : Text) (c : Char)

theorem readFrom_quoted_cons (quote : Char) :
    readFrom (.quoted marker body quote) (c :: rest) =
      if c = quote then readFrom (.inside marker (body ++ [c])) rest
      else readFrom (.quoted marker (body ++ [c]) quote) rest := by
  rw [readFrom.eq_def]

theorem readFrom_inside_cons :
    readFrom (.inside marker body) (c :: rest) =
      if c = ']' then readFrom (.closed marker body) rest
      else if c = '[' then
        .error (.malformed ((Reading.inside marker body).raw ++ [c]) .nestedBracket)
      else if (c = '"' ∨ c = '\'') ∧ body.getLast? = some '=' then
        readFrom (.quoted marker (body ++ [c]) c) rest
      else readFrom (.inside marker (body ++ [c])) rest := by
  rw [readFrom.eq_def]

theorem readFrom_outside_cons :
    readFrom (.outside marker) (c :: rest) =
      if Text.isBlank c then
        if marker.isEmpty then readFrom (.outside []) rest
        else (readFrom (.outside []) rest).map ({ marker } :: ·)
      else if c = '[' then readFrom (.inside marker []) rest
      else if c = ']' then .error (.malformed (marker ++ [c]) .bracketNotOpened)
      else readFrom (.outside (marker ++ [c])) rest := by
  rw [readFrom.eq_def]
  cases marker <;> rfl

end Step

/-- The characters of a quoted run are kept up to its end. -/
theorem readFrom_quoted {quote : Char} {value : Text} (hvalue : quote ∉ value)
    (marker body rest : Text) :
    readFrom (.quoted marker body quote) (value ++ quote :: rest) =
      readFrom (.inside marker (body ++ value ++ [quote])) rest := by
  induction value generalizing body with
  | nil => rw [List.nil_append, readFrom_quoted_cons, if_pos rfl, List.append_nil]
  | cons c value ih =>
    have hc : c ≠ quote := fun heq => hvalue (heq ▸ List.mem_cons_self)
    have hvalue' : quote ∉ value := fun hmem => hvalue (List.mem_cons_of_mem _ hmem)
    rw [List.cons_append, readFrom_quoted_cons, if_neg hc, ih hvalue']
    simp

/-- Enclosed text is kept up to the bracket that ends it. -/
theorem readFrom_inside {last : Option Char} {t : Text} (h : Enclosed last t) {body : Text}
    (hlast : body.getLast? = last) (marker rest : Text) :
    readFrom (.inside marker body) (t ++ ']' :: rest) =
      readFrom (.closed marker (body ++ t)) rest := by
  induction h generalizing body with
  | nil => rw [List.nil_append, readFrom_inside_cons, if_pos rfl, List.append_nil]
  | @plain last c t hbracket hquote _ ih =>
    rw [← hlast] at hquote
    rw [List.cons_append, readFrom_inside_cons, if_neg hbracket.2, if_neg hbracket.1,
      if_neg hquote, ih List.getLast?_concat, List.append_assoc, List.singleton_append]
  | @quoted quote value t hquote hvalue _ ih =>
    have hbracket : quote ≠ '[' ∧ quote ≠ ']' := by
      rcases hquote with rfl | rfl <;> decide
    rw [List.cons_append, List.append_assoc, List.cons_append, readFrom_inside_cons,
      if_neg hbracket.2, if_neg hbracket.1, if_pos ⟨hquote, hlast⟩, readFrom_quoted hvalue,
      ih List.getLast?_concat]
    simp

theorem readFrom_outside {t : Text} (h : IsMarker t) (marker rest : Text) :
    readFrom (.outside marker) (t ++ rest) = readFrom (.outside (marker ++ t)) rest := by
  induction t generalizing marker with
  | nil => simp
  | cons c t ih =>
    obtain ⟨hblank, hopen, hclose⟩ := h c List.mem_cons_self
    have hblank' : ¬ Text.isBlank c = true := by simp [hblank]
    rw [List.cons_append, readFrom_outside_cons, if_neg hblank', if_neg hopen, if_neg hclose,
      ih fun d hd => h d (List.mem_cons_of_mem _ hd)]
    simp

def atEnd (token : Token) : Reading :=
  match token.body with
  | none => .outside token.marker
  | some body => .closed token.marker body

theorem readFrom_raw {token : Token} (h : token.WellFormed) (rest : Text) :
    readFrom (.outside []) (token.raw ++ rest) = readFrom token.atEnd rest := by
  obtain ⟨marker, body⟩ := token
  cases body with
  | none => exact readFrom_outside h.marker [] rest
  | some body =>
    have hblank : ¬ Text.isBlank '[' = true := by decide
    change readFrom (.outside []) ((marker ++ '[' :: body ++ [']']) ++ rest) = _
    rw [List.append_assoc, List.append_assoc, readFrom_outside h.marker, List.cons_append,
      readFrom_outside_cons, if_neg hblank, if_pos rfl, List.singleton_append,
      readFrom_inside (h.body body rfl) rfl]
    rfl

theorem readFrom_atEnd_nil {token : Token} (h : token.WellFormed) :
    readFrom token.atEnd [] = .ok [token] := by
  obtain ⟨marker, body⟩ := token
  cases body with
  | none =>
    cases marker with
    | nil => exact absurd rfl (h.bare rfl)
    | cons c marker => rfl
  | some body => rfl

/-- A blank behind a word ends it. -/
theorem readFrom_atEnd_cons {token : Token} (h : token.WellFormed) {c : Char}
    (hc : Text.isBlank c = true) (rest : Text) :
    readFrom token.atEnd (c :: rest) = (readFrom (.outside []) rest).map (token :: ·) := by
  obtain ⟨marker, body⟩ := token
  cases body with
  | none =>
    have hne : ¬ marker.isEmpty = true := by simpa using h.bare rfl
    change readFrom (.outside marker) (c :: rest) = _
    rw [readFrom_outside_cons, if_pos hc, if_neg hne]
  | some body => exact if_pos hc

/-! Words with gaps between them. -/

def IsGap (t : Text) : Prop := ∀ c ∈ t, Text.isBlank c = true

instance (t : Text) : Decidable (IsGap t) := List.decidableBAll _ t

/-- What stands behind a word: each of the later words behind a gap that is not empty, and a
gap at the end. -/
inductive Behind : List Token → Text → Prop
  | nil {gap : Text} (hgap : IsGap gap) : Behind [] gap
  | cons {gap rest : Text} {token : Token} {tokens : List Token} (hgap : IsGap gap)
      (hne : gap ≠ []) (htoken : token.WellFormed) (h : Behind tokens rest) :
      Behind (token :: tokens) (gap ++ (token.raw ++ rest))

/-- A text of these words, each of which can stand in a declaration, in their order, with gaps
between neighbours and perhaps at the two ends. Nothing else is in it. -/
inductive Layout : List Token → Text → Prop
  | nil {gap : Text} (hgap : IsGap gap) : Layout [] gap
  | cons {gap rest : Text} {token : Token} {tokens : List Token} (hgap : IsGap gap)
      (htoken : token.WellFormed) (h : Behind tokens rest) :
      Layout (token :: tokens) (gap ++ (token.raw ++ rest))

theorem isGap_nil : IsGap [] := List.forall_mem_nil _

section Layout

variable {token : Token} {tokens : List Token} {rest t : Text} {c : Char}

/-- A word with no gap in front of it. -/
theorem Layout.word (htoken : token.WellFormed) (h : Behind tokens rest) :
    Layout (token :: tokens) (token.raw ++ rest) := by
  have hword : Layout (token :: tokens) ([] ++ (token.raw ++ rest)) := .cons isGap_nil htoken h
  rwa [List.nil_append] at hword

/-- A blank in front of words parts them from a word before them. -/
theorem Layout.behind (h : Layout tokens t) (hc : Text.isBlank c = true) :
    Behind tokens (c :: t) := by
  cases h with
  | nil hgap => exact .nil (List.forall_mem_cons.2 ⟨hc, hgap⟩)
  | @cons gap rest token tokens hgap htoken h =>
    have hgap' : IsGap (c :: gap) := List.forall_mem_cons.2 ⟨hc, hgap⟩
    exact .cons hgap' (List.cons_ne_nil c gap) htoken h

theorem Behind.layout (h : Behind tokens t) : Layout tokens t := by
  cases h with
  | nil hgap => exact .nil hgap
  | cons hgap _ htoken h => exact .cons hgap htoken h

theorem Layout.blank (h : Layout tokens t) (hc : Text.isBlank c = true) :
    Layout tokens (c :: t) := (h.behind hc).layout

end Layout

/-- A gap in front of a word is passed over. -/
theorem readFrom_gap {gap : Text} (hgap : IsGap gap) (rest : Text) :
    readFrom (.outside []) (gap ++ rest) = readFrom (.outside []) rest := by
  induction gap with
  | nil => rfl
  | cons c gap ih =>
    obtain ⟨hc, hgap⟩ := List.forall_mem_cons.1 hgap
    rw [List.cons_append, readFrom_outside_cons, if_pos hc, if_pos List.isEmpty_nil]
    exact ih hgap

theorem readFrom_behind {tokens : List Token} {rest : Text} (h : Behind tokens rest)
    {token : Token} (htoken : token.WellFormed) :
    readFrom token.atEnd rest = .ok (token :: tokens) := by
  -- a gap that is not empty ends the word before it; what is left of the gap is passed over
  induction h generalizing token with
  | @nil gap hgap =>
    cases gap with
    | nil => exact readFrom_atEnd_nil htoken
    | cons c gap =>
      obtain ⟨hc, hgap⟩ := List.forall_mem_cons.1 hgap
      have hrest := readFrom_gap hgap []
      rw [List.append_nil] at hrest
      rw [readFrom_atEnd_cons htoken hc, hrest]
      rfl
  | @cons gap rest token' tokens hgap hne htoken' _ ih =>
    cases gap with
    | nil => exact absurd rfl hne
    | cons c gap =>
      obtain ⟨hc, hgap⟩ := List.forall_mem_cons.1 hgap
      rw [List.cons_append, readFrom_atEnd_cons htoken hc, readFrom_gap hgap,
        readFrom_raw htoken', ih htoken']
      rfl

/-- The words of a layout are read back, whatever the gaps are. -/
theorem Layout.read {tokens : List Token} {t : Text} (h : Layout tokens t) :
    read t = .ok tokens := by
  unfold Token.read
  cases h with
  | nil hgap =>
    have hread := readFrom_gap hgap []
    rw [List.append_nil] at hread
    exact hread
  | cons hgap htoken h =>
    rw [readFrom_gap hgap, readFrom_raw htoken]
    exact readFrom_behind h htoken

theorem layout_intercalate {tokens : List Token} (h : ∀ token ∈ tokens, token.WellFormed) :
    Layout tokens ([' '].intercalate (tokens.map raw)) := by
  induction tokens with
  | nil => exact .nil isGap_nil
  | cons token tokens ih =>
    obtain ⟨htoken, htokens⟩ := List.forall_mem_cons.1 h
    cases tokens with
    | nil =>
      have hlast : Layout [token] (token.raw ++ []) := .word htoken (.nil isGap_nil)
      rw [List.append_nil] at hlast
      rwa [List.map_singleton, List.intercalate_singleton]
    | cons token' tokens =>
      rw [List.map_cons, List.map_cons, List.intercalate_cons_cons, List.append_assoc,
        List.singleton_append, ← List.map_cons]
      exact .word htoken ((ih htokens).behind rfl)

/-- Words with a space between neighbours are read back. -/
theorem read_intercalate {tokens : List Token} (h : ∀ token ∈ tokens, token.WellFormed) :
    read ([' '].intercalate (tokens.map raw)) = .ok tokens :=
  (layout_intercalate h).read

end TypedCommand.Token
