import TypedCommand.Proofs.Checked
import TypedCommand.Proofs.Shell.Reader
import TypedCommand.Shell.Evaluation

/-!
Quoted words come to themselves whatever the variables and the files are: nothing in them is
replaced, splits them or stands for a path. So the arguments of a command that is read from
quoted words are these words.
-/

namespace TypedCommand.Shell

/-- A mark that is neither split at nor gives a pattern its meaning. -/
def Glyph.IsPlain : Glyph → Prop
  | .char c quoted replaced => replaced = false ∧ (quoted = true ∨ isSafe c = true)
  | .quotation => True
  | .border => False

section Glyphs

variable {separators : Text} {gs : List Glyph} {g : Glyph} {s : Splitting}

theorem take_of_isPlain (h : g.IsPlain) :
    s.take separators g = { s with piece := g :: s.piece, afterBlank := false } := by
  cases g with
  | char c quoted replaced =>
    obtain ⟨rfl, _⟩ := h
    rw [Splitting.take, Bool.not_false, Bool.or_true, Bool.true_or, if_pos rfl]
  | quotation => rfl
  | border => exact absurd h id

theorem foldl_take_of_isPlain (h : ∀ g ∈ gs, g.IsPlain) :
    gs.foldl (Splitting.take separators) { s with afterBlank := false } =
      { s with piece := gs.reverse ++ s.piece, afterBlank := false } := by
  induction gs generalizing s with
  | nil => rfl
  | cons g gs ih =>
    obtain ⟨hg, hgs⟩ := List.forall_mem_cons.1 h
    rw [List.foldl_cons, take_of_isPlain hg, ih (s := { s with piece := g :: s.piece }) hgs,
      List.reverse_cons, List.append_assoc, List.singleton_append]

theorem split_of_isPlain (hne : gs ≠ []) (h : ∀ g ∈ gs, g.IsPlain) :
    split separators gs = [gs] := by
  have hpiece : gs.reverse.isEmpty = false := by simpa using hne
  rw [split, foldl_take_of_isPlain (s := {}) h, List.append_nil, Splitting.finish, hpiece]
  simp

theorem isActive_of_isPlain (dialect : Dialect) (h : ∀ g ∈ gs, g.IsPlain) :
    (Glyph.pattern dialect gs).isActive = false := by
  induction gs with
  | nil => rfl
  | cons g gs ih =>
    obtain ⟨hg, hgs⟩ := List.forall_mem_cons.1 h
    cases g with
    | char c quoted replaced =>
      rw [Glyph.pattern, Pattern.isActive, ih hgs]
      rcases hg.2 with rfl | hsafe
      · rfl
      · have hstar : c ≠ '*' := isSafe_ne hsafe rfl
        have hmark : c ≠ '?' := isSafe_ne hsafe rfl
        have hbracket : c ≠ '[' := isSafe_ne hsafe rfl
        simp [hstar, hmark, hbracket]
    | quotation => exact ih hgs
    | border => exact absurd hg id

theorem text_ofText (quoted replaced : Bool) (t : Text) :
    Glyph.text (Glyph.ofText quoted replaced t) = t := by
  have hchars : ∀ t : Text, Glyph.text (t.map fun c => .char c quoted replaced) = t := by
    intro t
    induction t with
    | nil => rfl
    | cons c t ih => rw [List.map_cons, Glyph.text, ih]
  cases quoted with
  | false => exact hchars t
  | true => exact hchars t

end Glyphs

namespace Act

section Words

variable {run : Text → Act Text} {m : Manner} {word : Text}

/-- Without a tilde no directory stands in the text, not even behind a colon. -/
theorem tildeText_eq_pure (isFront isLast : Bool) (h : '~' ∉ word) :
    tildeText m isFront isLast word = pure (Glyph.ofText false m.replaced word) := by
  unfold tildeText
  extract_lets plain segment
  have hsegment : ∀ s starts ends, '~' ∉ s → segment s starts ends = pure (plain s) := by
    intro s starts ends hs
    dsimp only [segment]
    split
    · exact absurd List.mem_cons_self hs
    · rfl
  cases m.tildes with
  | nowhere => rfl
  | front => exact hsegment word _ _ h
  | colons =>
    have hsegments : ∀ x ∈ (word.splitOn ':').zipIdx, '~' ∉ x.1 := by
      intro x hx hmem
      have hpart : x.1 <:+: [':'].intercalate (word.splitOn ':') :=
        Text.infix_intercalate (List.fst_mem_of_mem_zipIdx hx)
      rw [List.intercalate_splitOn] at hpart
      exact h (hpart.mem hmem)
    have hmap : (word.splitOn ':').zipIdx.map (fun x => plain x.1) =
        (word.splitOn ':').map plain := by
      conv_rhs => rw [← List.zipIdx_map_fst 0 (word.splitOn ':'), List.map_map]
      rfl
    have hplain : (plain [':']).intercalate ((word.splitOn ':').map plain) = plain word := by
      have hjoin : plain ([':'].intercalate (word.splitOn ':')) = _ := Text.map_intercalate ..
      rw [List.intercalate_splitOn] at hjoin
      exact hjoin.symm
    dsimp only
    rw [mapM_eq_pure fun x hx => hsegment x.1 _ _ (hsegments x hx), pure_bind, hmap, hplain]

theorem glyphs_ofQuoted (run : Text → Act Text) (isFront : Bool) (word : Text)
    (hm : m.replaced = false) : ∃ gs, gs ≠ [] ∧ (∀ g ∈ gs, Glyph.IsPlain g) ∧ Glyph.text gs = word ∧
      glyphs run m isFront (.ofQuoted word) = pure gs := by
  rcases quote_cases word with ⟨hne, hsafe, _, hword⟩ | ⟨_, hword⟩
  · have htilde : '~' ∉ word := fun hmem => absurd (hsafe _ hmem) (by decide)
    refine ⟨Glyph.ofText false false word, ?_, ?_, text_ofText _ _ _, ?_⟩
    · simpa [Glyph.ofText] using hne
    · simpa [Glyph.ofText, Glyph.IsPlain] using hsafe
    · rw [hword, glyphs, glyphs]
      simp [tildeText_eq_pure _ _ htilde, hm]
  · -- a quotation counts even if nothing is in it
    refine ⟨Glyph.ofText true false word, List.cons_ne_nil _ _, ?_, text_ofText _ _ _, ?_⟩
    · simp [Glyph.ofText, Glyph.IsPlain]
    · rw [hword, glyphs, glyphs]
      simp [hm]

theorem wordText_ofQuoted (tildes : Tildes) :
    wordText run tildes (.ofQuoted word) = pure word := by
  obtain ⟨gs, _, _, htext, hglyphs⟩ := glyphs_ofQuoted (m := { tildes }) run true word rfl
  rw [wordText, hglyphs, pure_bind, htext]

theorem wordsOf_ofQuoted : wordsOf run (.ofQuoted word) = pure [word] := by
  obtain ⟨gs, hne, hplain, htext, hglyphs⟩ :=
    glyphs_ofQuoted (m := { several := true, tildes := .front }) run true word rfl
  have hinactive : ∀ dialect, (!(Glyph.pattern dialect gs).isActive) = true := by
    intro dialect
    rw [isActive_of_isPlain dialect hplain]
    rfl
  unfold wordsOf
  rw [hglyphs]
  simp only [pure_bind, split_of_isPlain hne hplain]
  -- the separators, the process and the files are looked at, and make no difference
  funext s
  show (Except.ok _, s) = _
  simp only [List.flatMap_singleton, hinactive, Bool.or_true, ↓reduceIte, htext]
  rfl

/-- The arguments of a command are the words that were quoted, also where it declares
variables and some of them look like assignments. -/
theorem argumentsOf_ofQuoted (g : Engine) (words : List Text) :
    argumentsOf g (words.map .ofQuoted) = pure words := by
  unfold argumentsOf
  extract_lets declaration
  rw [List.mapM_map, mapM_eq_pure (g := fun word => [word])]
  · rw [pure_bind, ← List.flatMap_def, List.flatMap_singleton']
  · intro word _
    dsimp only [Function.comp_apply]
    split
    · rw [wordText_ofQuoted, pure_bind]
    · exact wordsOf_ofQuoted

end Words

end Act

end TypedCommand.Shell
