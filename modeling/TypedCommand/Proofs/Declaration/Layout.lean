import TypedCommand.Proofs.Checked
import TypedCommand.Proofs.Declaration.Token

/-!
Which texts are read as which words. Reading keeps every character: what has been read of a
word, with the rest of the text behind it, is at each step the layout of the words that are
still to come. So a text is read exactly if it is a layout of words that can stand in a
declaration, and then as these.
-/

namespace TypedCommand.Token

/-- What has been read of a word is the front of one that can stand in a declaration. -/
def Reading.Sound : Reading → Prop
  | .outside marker => IsMarker marker
  | .inside marker body => IsMarker marker ∧ Enclosed none body
  | .quoted marker body quote => IsMarker marker ∧ ∃ front value, body = front ++ quote :: value ∧
      (quote = '"' ∨ quote = '\'') ∧ quote ∉ value ∧ front.getLast? = some '=' ∧
      Enclosed none front
  | .closed marker body => IsMarker marker ∧ Enclosed none body

theorem Reading.Sound.start : (Reading.outside []).Sound := List.forall_mem_nil _

section Sound

variable {marker body : Text} {quote c : Char}

theorem Reading.Sound.lengthened (h : (Reading.outside marker).Sound) (hblank : Text.isBlank c = false)
    (hopen : c ≠ '[') (hclose : c ≠ ']') : (Reading.outside (marker ++ [c])).Sound := by
  intro d hd
  rcases List.mem_append.1 hd with hd | hd
  · exact h d hd
  · exact List.mem_singleton.1 hd ▸ ⟨hblank, hopen, hclose⟩

theorem Reading.Sound.plain (h : (Reading.inside marker body).Sound) (hclose : c ≠ ']')
    (hopen : c ≠ '[') (hquote : ¬ ((c = '"' ∨ c = '\'') ∧ body.getLast? = some '=')) :
    (Reading.inside marker (body ++ [c])).Sound := by
  refine ⟨h.1, h.2.append (.plain ⟨hopen, hclose⟩ ?_ .nil)⟩
  rwa [Option.or_none]

theorem Reading.Sound.opened (h : (Reading.inside marker body).Sound)
    (hquote : c = '"' ∨ c = '\'') (hlast : body.getLast? = some '=') :
    (Reading.quoted marker (body ++ [c]) c).Sound :=
  ⟨h.1, body, [], rfl, hquote, by simp, hlast, h.2⟩

theorem Reading.Sound.kept (h : (Reading.quoted marker body quote).Sound) (hc : c ≠ quote) :
    (Reading.quoted marker (body ++ [c]) quote).Sound := by
  obtain ⟨hmarker, front, value, rfl, hquote, hvalue, hlast, hfront⟩ := h
  refine ⟨hmarker, front, value ++ [c], by simp, hquote, ?_, hlast, hfront⟩
  simpa [hc.symm] using hvalue

theorem Reading.Sound.ended (h : (Reading.quoted marker body quote).Sound) :
    (Reading.inside marker (body ++ [quote])).Sound := by
  obtain ⟨hmarker, front, value, rfl, hquote, hvalue, hlast, hfront⟩ := h
  have hrun : Enclosed (some '=') (quote :: (value ++ [quote])) := .quoted hquote hvalue .nil
  refine ⟨hmarker, ?_⟩
  rw [List.append_assoc]
  exact hfront.append (by rwa [hlast, Option.some_or])

end Sound

section Layout

variable {marker body rest : Text} {c : Char} {tokens : List Token} {reading : Reading} {t : Text}

/-- A character that is added to a word is taken from the text behind it. -/
theorem raw_outside_concat :
    (Reading.outside (marker ++ [c])).raw ++ rest = (Reading.outside marker).raw ++ c :: rest :=
  List.append_assoc marker [c] rest

theorem raw_inside_concat :
    (Reading.inside marker (body ++ [c])).raw ++ rest =
      (Reading.inside marker body).raw ++ c :: rest := by
  simp [Reading.raw]

/-- Where a word can end, it is one that can stand in a declaration. -/
theorem finish_eq_ok {token : Token} (hsound : reading.Sound) (hne : reading ≠ .outside [])
    (h : reading.finish = .ok token) : token.WellFormed ∧ token.raw = reading.raw := by
  cases reading with
  | outside marker =>
    obtain rfl := Except.ok.inj h
    exact ⟨⟨hsound, fun _ hmarker => hne (congrArg _ hmarker), nofun⟩, rfl⟩
  | closed marker body =>
    obtain rfl := Except.ok.inj h
    exact ⟨⟨hsound.1, nofun, fun body' hbody => Option.some.inj hbody ▸ hsound.2⟩, rfl⟩
  | inside marker body => exact absurd h nofun
  | quoted marker body quote => exact absurd h nofun

/-- Nothing of a text that is read is lost, doubled or moved to another word. -/
theorem layout_of_readFrom (hsound : reading.Sound) (h : readFrom reading t = .ok tokens) :
    Layout tokens (reading.raw ++ t) := by
  fun_induction readFrom reading t generalizing tokens with
  | case1 =>
    obtain rfl := Except.ok.inj h
    exact .nil isGap_nil
  | case2 reading hne =>
    obtain ⟨token, htoken, rfl⟩ := map_eq_ok.1 h
    obtain ⟨hform, hraw⟩ := finish_eq_ok hsound hne htoken
    rw [← hraw]
    exact .word hform (.nil isGap_nil)
  | case3 marker body c rest ih =>
    have hrest := ih hsound.ended h
    rwa [raw_inside_concat] at hrest
  | case4 marker body quote c rest hc ih =>
    have hrest := ih (hsound.kept hc) h
    change Layout tokens ((Reading.inside marker (body ++ [c])).raw ++ rest) at hrest
    rwa [raw_inside_concat] at hrest
  | case5 marker body rest ih =>
    have hrest := ih hsound h
    rwa [show (Reading.closed marker body).raw ++ rest =
      (Reading.inside marker body).raw ++ ']' :: rest by simp [Reading.raw]] at hrest
  | case6 => simp at h
  | case7 marker body c rest _ _ hquote ih =>
    have hrest := ih (hsound.opened hquote.1 hquote.2) h
    change Layout tokens ((Reading.inside marker (body ++ [c])).raw ++ rest) at hrest
    rwa [raw_inside_concat] at hrest
  | case8 marker body c rest hclose hopen hquote ih =>
    have hrest := ih (hsound.plain hclose hopen hquote) h
    rwa [raw_inside_concat] at hrest
  | case9 marker c rest hblank hempty ih =>
    obtain rfl := List.isEmpty_iff.1 hempty
    exact (ih .start h).blank hblank
  | case10 marker c rest hblank hne ih =>
    obtain ⟨later, hlater, rfl⟩ := map_eq_ok.1 h
    have hform : ({ marker } : Token).WellFormed :=
      ⟨hsound, fun _ => by simpa using hne, nofun⟩
    exact .word hform ((ih .start hlater).behind hblank)
  | case11 marker rest _ ih =>
    have hrest := ih ⟨hsound, .nil⟩ h
    rwa [show (Reading.inside marker []).raw ++ rest =
      (Reading.outside marker).raw ++ '[' :: rest by simp [Reading.raw]] at hrest
  | case12 => simp at h
  | case13 marker c rest hblank hopen hclose ih =>
    have hrest := ih (hsound.lengthened (by simpa using hblank) hopen hclose) h
    rwa [raw_outside_concat] at hrest
  | case14 marker body c rest hblank ih =>
    obtain ⟨later, hlater, rfl⟩ := map_eq_ok.1 h
    have hform : ({ marker, body := some body } : Token).WellFormed :=
      ⟨hsound.1, nofun, fun body' hbody => Option.some.inj hbody ▸ hsound.2⟩
    exact .word hform ((ih .start hlater).behind hblank)
  | case15 => simp at h

end Layout

theorem Behind.wellFormed {tokens : List Token} {rest : Text} (h : Behind tokens rest) :
    ∀ token ∈ tokens, token.WellFormed := by
  induction h with
  | nil => exact List.forall_mem_nil _
  | cons _ _ htoken _ ih => exact List.forall_mem_cons.2 ⟨htoken, ih⟩

theorem Layout.wellFormed {tokens : List Token} {t : Text} (h : Layout tokens t) :
    ∀ token ∈ tokens, token.WellFormed := by
  cases h with
  | nil => exact List.forall_mem_nil _
  | cons _ htoken h => exact List.forall_mem_cons.2 ⟨htoken, h.wellFormed⟩

/-- Words that are read can stand in a declaration. -/
theorem wellFormed_of_read {t : Text} {tokens : List Token} (h : read t = .ok tokens) :
    ∀ token ∈ tokens, token.WellFormed :=
  (layout_of_readFrom .start h).wellFormed

/-- A text is read exactly if it is made up of words that can stand in a declaration, as they
are written, with blanks between neighbours and perhaps around them all; it is read as these
words and as no others. -/
theorem read_eq_ok_iff_layout (t : Text) (tokens : List Token) :
    read t = .ok tokens ↔ Layout tokens t :=
  ⟨layout_of_readFrom .start, Layout.read⟩

end TypedCommand.Token
