import TypedCommand.Proofs.Declaration.Brackets

/-!
The help texts of accepted annotations. Behind the fields of an annotation the help text is
checked for an equals sign, which may have been meant for a default. Behind the dots of a
variadic annotation it is not: there everything up to the closing bracket is help, and an
equals sign in it is kept.
-/

namespace TypedCommand

open Text

namespace Annotation

def dotsText (help : Text) : Text := "...#" ++ help

theorem enclosed_dotsText {help : Text} (h : Token.Enclosed (some '#') help) :
    Token.Enclosed none (dotsText help) := by
  have hdots : Token.Enclosed none "...#".toList := Token.IsPlain.enclosed (by decide) (by decide)
  exact hdots.append h

/-- With an equals sign in it, a help text is what stands behind the dots. -/
theorem MadeUp.eq_dotsText {a : Annotation} {body help : Text} (h : a.MadeUp body)
    (hhelp : a.help = some help) (hequals : '=' ∈ help) :
    a.pattern = .variadic ∧ body = dotsText help := by
  cases h with
  | @dots rest hbody hvariadic _ hrest =>
    rw [hrest help hhelp] at hbody
    exact ⟨hvariadic, hbody⟩
  | @fields b writing _ hfield =>
    obtain ⟨_, _, written, _, _, _, hwritten⟩ := writing.exists_front
    rw [← hfield, hhelp] at hwritten
    cases hwritten with
    | given free => exact absurd hequals free

theorem help_of_read_dotsText {fragment marker help : Text} {flags : Option Flags} {a : Annotation}
    (h : read fragment marker (dotsText help) flags = .ok a) : a.help = some help := by
  change readVariadic fragment marker flags ('#' :: help) = .ok a at h
  unfold readVariadic at h
  split at h
  · simp at h
  · obtain rfl := Except.ok.inj h
    rfl

end Annotation

namespace Declaration

open Annotation (dotsText enclosed_dotsText)
open Token (Enclosed IsMarker)

/-- A text with an equals sign is the help text of the annotations that are written with it
behind three dots. -/
theorem help_eq_some_iff_of_read {text help : Text} {d : Declaration} (h : read text = .ok d)
    (hequals : '=' ∈ help) {a : Annotation} (ha : a ∈ d.annotations) :
    a.help = some help ↔ a.pattern = .variadic ∧
      ∃ marker, IsMarker marker ∧ a.fragment = marker ++ '[' :: dotsText help ++ [']'] := by
  obtain ⟨marker, body, flags, hmarker, _, hread⟩ := exists_annotation_read h a ha
  obtain ⟨hfragment, hmade⟩ := Annotation.madeUp_of_read hread
  constructor
  · intro hhelp
    obtain ⟨hvariadic, rfl⟩ := hmade.eq_dotsText hhelp hequals
    exact ⟨hvariadic, marker, hmarker, hfragment⟩
  · rintro ⟨_, marker', hmarker', hfragment'⟩
    -- a marker ends at the first bracket, so that the fragment has one body only
    have hwords :
        marker ++ '[' :: (body ++ [']']) = marker' ++ '[' :: (dotsText help ++ [']']) := by
      rw [← List.cons_append, ← List.append_assoc, ← List.cons_append, ← List.append_assoc,
        ← hfragment, ← hfragment']
    have hopening : ∀ {m : Text}, IsMarker m → '[' ∉ m := fun hm hmem => (hm _ hmem).2.1 rfl
    obtain ⟨_, hbodies⟩ := Annotation.eq_of_splits (hopening hmarker) (hopening hmarker') hwords
    obtain rfl := List.append_cancel_right hbodies
    exact Annotation.help_of_read_dotsText hread

/-- What a variadic word with help is read as, behind a command name of one word. -/
theorem read_dotsText {marker help : Text} (hmarker : IsMarker marker)
    (hhelp : Enclosed (some '#') help) :
    read ("t " ++ (marker ++ '[' :: dotsText help ++ [']'])) = .ok ⟨["t".toList], [
      ⟨marker, none, .str, none, some help, .variadic,
        marker ++ '[' :: dotsText help ++ [']']⟩]⟩ := by
  let word : Token := { marker, body := some (dotsText help) }
  have hname : Token.WellFormed { marker := "t" } := ⟨by decide, fun _ => by decide, nofun⟩
  have hword : word.WellFormed := by
    refine ⟨hmarker, nofun, fun body hbody => ?_⟩
    obtain rfl := Option.some.inj hbody
    exact enclosed_dotsText hhelp
  have htokens : Token.read ("t " ++ word.raw) = .ok [{ marker := "t" }, word] := by
    have hwords := Token.read_intercalate
      (List.forall_mem_cons.2 ⟨hname, List.forall_mem_singleton.2 hword⟩)
    rwa [List.map_cons, List.map_singleton, List.intercalate_cons_cons,
      List.intercalate_singleton] at hwords
  change read ("t " ++ word.raw) = _
  rw [read, htokens]
  rfl

/-- A help text with an equals sign in it is found in an accepted declaration only where an
annotation is variadic and is written with this text behind its dots. There the equals sign is not
refused: whatever brackets can enclose behind the dots is accepted, and is the help text. -/
theorem help_of_read (help : Text) (hequals : '=' ∈ help) :
    (∀ (text : Text) (d : Declaration), read text = .ok d → ∀ a ∈ d.annotations,
      (a.help = some help ↔ a.pattern = .variadic ∧
        ∃ marker, IsMarker marker ∧ a.fragment = marker ++ '[' :: dotsText help ++ [']'])) ∧
    ∀ marker : Text, IsMarker marker → Enclosed (some '#') help →
      read ("t " ++ (marker ++ '[' :: dotsText help ++ [']'])) = .ok ⟨["t".toList], [
        ⟨marker, none, .str, none, some help, .variadic,
          marker ++ '[' :: dotsText help ++ [']']⟩]⟩ :=
  ⟨fun _ _ h _ ha => help_eq_some_iff_of_read h hequals ha, fun _ => read_dotsText⟩

def explained : Annotation :=
  ⟨"X", none, .str, none, some "a=\"]\" b", .variadic, "X[...#a=\"]\" b]"⟩

theorem help_of_read_explained :
    '=' ∈ "a=\"]\" b".toList ∧ read "t X[...#a=\"]\" b]" = .ok ⟨["t".toList], [explained]⟩ ∧
      ∃ marker, IsMarker marker ∧
        explained.fragment = marker ++ '[' :: dotsText "a=\"]\" b" ++ [']'] := by
  have hequals : '=' ∈ "a=\"]\" b".toList := by decide
  have hread : read "t X[...#a=\"]\" b]" = .ok ⟨["t".toList], [explained]⟩ := by decide
  obtain ⟨_, hfragment⟩ :=
    ((help_of_read _ hequals).1 _ _ hread explained List.mem_cons_self).1 rfl
  exact ⟨hequals, hread, hfragment⟩

/-- The help text of a variadic annotation is not checked for an equals sign. -/
theorem not_helpWithoutEquals : ¬ ∀ (text : Text) (d : Declaration), read text = .ok d →
    ∀ a ∈ d.annotations, ∀ help, a.help = some help → '=' ∉ help := by
  intro h
  refine h "just t [...#a=b]" ⟨["t".toList], [
    ⟨[], none, .str, none, some "a=b".toList, .variadic, "[...#a=b]"⟩]⟩ (by decide) _
    List.mem_cons_self "a=b" rfl (by decide)

end Declaration

end TypedCommand
