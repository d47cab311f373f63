import Mathlib.Data.List.Basic
import TypedCommand.Template

/-!
The cut of a text by markers, as a rule on its own: at each place the longest marker
that begins there is one piece, and a character at which none begins is another. The
rule leaves no choice, `pieces` follows it, and a marker that the cut never picks can be
left out of the set without changing it.
-/

namespace TypedCommand.Template

/-- A marker of the set that is the longest of those that a text begins with. -/
structure IsLongest (markers : List Text) (t m : Text) : Prop where
  mem : m ∈ markers
  ne_nil : m ≠ []
  begins : m <+: t
  longest : ∀ m' ∈ markers, m' <+: t → m'.length ≤ m.length

/-- No marker of the set begins a text; the empty one does not count. -/
def NoneBegins (markers : List Text) (t : Text) : Prop := ∀ m ∈ markers, m <+: t → m = []

inductive Cut (markers : List Text) : Text → List Piece → Prop
  | nil : Cut markers [] []
  | literal {c : Char} {rest : Text} {ps : List Piece}
      (none : NoneBegins markers (c :: rest)) (tail : Cut markers rest ps) :
      Cut markers (c :: rest) (.literal c :: ps)
  | marker {t m : Text} {ps : List Piece}
      (longest : IsLongest markers t m) (tail : Cut markers (t.drop m.length) ps) :
      Cut markers t (.marker m :: ps)

theorem IsLongest.unique {markers : List Text} {t m m' : Text}
    (h : IsLongest markers t m) (h' : IsLongest markers t m') : m = m' := by
  have hle := h.longest m' h'.mem h'.begins
  have hge := h'.longest m h.mem h.begins
  exact (List.prefix_of_prefix_length_le h.begins h'.begins hge).eq_of_length (by omega)

theorem IsLongest.not_noneBegins {markers : List Text} {t m : Text}
    (h : IsLongest markers t m) : ¬ NoneBegins markers t :=
  fun hn => h.ne_nil (hn m h.mem h.begins)

/-- What a search for the longest marker has found among the markers seen so far. -/
def Found (seen : List Text) (t : Text) : Option Text → Prop
  | none => NoneBegins seen t
  | some m => IsLongest seen t m

/-- One more marker takes the place of the best so far only if it is longer. -/
theorem found_step {seen : List Text} {t : Text} {best : Option Text} (m : Text)
    (h : Found seen t best) :
    Found (seen ++ [m]) t
      (if !m.isEmpty && m.isPrefixOf t && decide ((best.getD []).length < m.length) then some m
        else best) := by
  have hlast : ∀ {P : Text → Prop}, (∀ m' ∈ seen, P m') → P m → ∀ m' ∈ seen ++ [m], P m' := by
    intro P hseen hm m' hmem
    rcases List.mem_append.1 hmem with h' | h'
    · exact hseen m' h'
    · exact List.mem_singleton.1 h' ▸ hm
  split
  · next htaken =>
    simp only [Bool.and_eq_true, Bool.not_eq_true', List.isEmpty_eq_false_iff,
      List.isPrefixOf_iff_prefix, decide_eq_true_eq] at htaken
    obtain ⟨⟨hne, hbegins⟩, hlonger⟩ := htaken
    refine ⟨List.mem_append_right _ (List.mem_singleton_self m), hne, hbegins, ?_⟩
    refine hlast (fun m' hmem hb => ?_) (fun _ => Nat.le_refl _)
    cases best with
    | none => simp [h m' hmem hb]
    | some b =>
      have := h.longest m' hmem hb
      simp only [Option.getD_some] at hlonger
      omega
  · next hleft =>
    simp only [Bool.and_eq_true, Bool.not_eq_true', List.isEmpty_eq_false_iff,
      List.isPrefixOf_iff_prefix, decide_eq_true_eq] at hleft
    cases best with
    | none =>
      refine hlast h (fun hb => ?_)
      by_cases hne : m = []
      · exact hne
      · exact absurd ⟨⟨hne, hb⟩, List.length_pos_iff.2 hne⟩ hleft
    | some b =>
      refine ⟨List.mem_append_left _ h.mem, h.ne_nil, h.begins, hlast h.longest (fun hb => ?_)⟩
      by_cases hne : m = []
      · simp [hne]
      · exact Nat.le_of_not_lt fun hlt => hleft ⟨⟨hne, hb⟩, hlt⟩

theorem found_longestAt (markers : List Text) (t : Text) :
    Found markers t (longestAt markers t) := by
  have run : ∀ (later seen : List Text) (best : Option Text), Found seen t best →
      Found (seen ++ later) t (later.foldl (fun best m =>
        if !m.isEmpty && m.isPrefixOf t && decide ((best.getD []).length < m.length) then some m
        else best) best) := by
    intro later
    induction later with
    | nil => intro seen best h; simpa using h
    | cons m later ih =>
      intro seen best h
      simpa using ih (seen ++ [m]) _ (found_step m h)
  exact run markers [] none (fun m hm => absurd hm List.not_mem_nil)

theorem longestAt_eq_some_iff {markers : List Text} {t m : Text} :
    longestAt markers t = some m ↔ IsLongest markers t m := by
  have h := found_longestAt markers t
  cases hl : longestAt markers t with
  | none =>
    rw [hl] at h
    exact ⟨nofun, fun hm => absurd h hm.not_noneBegins⟩
  | some b =>
    rw [hl] at h
    exact ⟨fun he => Option.some.inj he ▸ h, fun hm => congrArg some (h.unique hm)⟩

theorem noneBegins_of_longestAt {markers : List Text} {t : Text}
    (h : longestAt markers t = none) : NoneBegins markers t := by
  have hfound := found_longestAt markers t
  rwa [h] at hfound

theorem piecesFrom_eq_drop (markers : List Text) (skip : ℕ) (t : Text) :
    piecesFrom markers skip t = piecesFrom markers 0 (t.drop skip) := by
  induction skip generalizing t with
  | zero => rfl
  | succ skip ih =>
    cases t with
    | nil => rfl
    | cons c rest => exact ih rest

/-- The pieces of a text are its leftmost-longest cut. -/
theorem cut_pieces (markers : List Text) (t : Text) : Cut markers t (pieces markers t) := by
  -- on the length, since a marker is stepped over as a whole
  induction hn : t.length using Nat.strongRecOn generalizing t with
  | ind n ih =>
    cases t with
    | nil => exact .nil
    | cons c rest =>
      unfold pieces piecesFrom
      split
      · next m hm =>
        have hlong := longestAt_eq_some_iff.1 hm
        have hpos : 0 < m.length := List.length_pos_iff.2 hlong.ne_nil
        rw [piecesFrom_eq_drop]
        have hdrop : rest.drop (m.length - 1) = (c :: rest).drop m.length := by
          rw [show m.length = m.length - 1 + 1 by omega, List.drop_succ_cons]
          simp
        rw [hdrop]
        refine .marker hlong (ih _ ?_ _ rfl)
        rw [← hn, List.length_drop, List.length_cons]
        omega
      · next hm =>
        exact .literal (noneBegins_of_longestAt hm) (ih _ (by simp [← hn]) _ rfl)

/-- A text has one cut. -/
theorem Cut.unique {markers : List Text} {t : Text} {ps qs : List Piece}
    (hp : Cut markers t ps) (hq : Cut markers t qs) : ps = qs := by
  induction hp generalizing qs with
  | nil =>
    cases hq with
    | nil => rfl
    | marker longest _ => exact absurd (List.prefix_nil.1 longest.begins) longest.ne_nil
  | literal none _ ih =>
    cases hq with
    | literal _ tail => rw [ih tail]
    | marker longest _ => exact absurd none longest.not_noneBegins
  | @marker t m ps longest _ ih =>
    cases hq with
    | nil => exact absurd (List.prefix_nil.1 longest.begins) longest.ne_nil
    | literal none _ => exact absurd none longest.not_noneBegins
    | marker longest' tail =>
      obtain rfl := longest.unique longest'
      rw [ih tail]

/-- The cut stays the same when markers that it does not pick are left out. -/
theorem Cut.restrict {markers fewer : List Text} {t : Text} {ps : List Piece}
    (h : Cut markers t ps) (hsub : fewer ⊆ markers)
    (hkept : ∀ m, Piece.marker m ∈ ps → m ∈ fewer) : Cut fewer t ps := by
  induction h with
  | nil => exact .nil
  | literal none _ ih =>
    exact .literal (fun m hm => none m (hsub hm))
      (ih fun m hm => hkept m (List.mem_cons_of_mem _ hm))
  | marker longest _ ih =>
    refine .marker ⟨hkept _ List.mem_cons_self, longest.ne_nil, longest.begins,
      fun m' hm' => longest.longest m' (hsub hm')⟩ ?_
    exact ih fun m hm => hkept m (List.mem_cons_of_mem _ hm)

theorem pieces_restrict {markers fewer : List Text} {t : Text} (hsub : fewer ⊆ markers)
    (hkept : ∀ m, Piece.marker m ∈ pieces markers t → m ∈ fewer) :
    pieces fewer t = pieces markers t :=
  (cut_pieces fewer t).unique ((cut_pieces markers t).restrict hsub hkept)

/-- The pieces of a text, put together again, are the text. -/
theorem Cut.flatMap_text {markers : List Text} {t : Text} {ps : List Piece}
    (h : Cut markers t ps) : ps.flatMap Piece.text = t := by
  induction h with
  | nil => rfl
  | literal _ _ ih => simp [Piece.text, ih]
  | marker longest _ ih =>
    rw [List.flatMap_cons, ih, Piece.text]
    obtain ⟨rest, rfl⟩ := longest.begins
    simp

theorem Cut.mem_of_picked {markers : List Text} {t m : Text} {ps : List Piece}
    (h : Cut markers t ps) (hm : Piece.marker m ∈ ps) : m ∈ markers ∧ m ≠ [] := by
  induction h with
  | nil => simp at hm
  | literal _ _ ih => exact ih (by simpa using hm)
  | marker longest _ ih =>
    rcases List.mem_cons.1 hm with heq | hm
    · obtain rfl := Piece.marker.inj heq
      exact ⟨longest.mem, longest.ne_nil⟩
    · exact ih hm

theorem mem_occurrencesFrom (start : ℕ) (ps : List Piece) (m : Text) :
    (∃ o ∈ occurrencesFrom start ps, o.marker = m) ↔ Piece.marker m ∈ ps := by
  induction ps generalizing start with
  | nil => simp [occurrencesFrom]
  | cons p ps ih =>
    cases p with
    | literal c => simp [occurrencesFrom, ih]
    | marker m' =>
      have htail := ih (start + Text.byteSize m')
      simp only [occurrencesFrom, List.mem_cons, Piece.marker.injEq, ← htail]
      constructor
      · rintro ⟨o, rfl | ho, rfl⟩
        · exact Or.inl rfl
        · exact Or.inr ⟨o, ho, rfl⟩
      · rintro (rfl | ⟨o, ho, rfl⟩)
        · exact ⟨_, Or.inl rfl, rfl⟩
        · exact ⟨o, Or.inr ho, rfl⟩

/-- A marker is picked when the scan of the text finds it. -/
theorem picks_iff_scan (markers : List Text) (t m : Text) :
    picks markers t m = true ↔ ∃ o ∈ scan markers t, o.marker = m := by
  rw [scan, mem_occurrencesFrom, picks, List.contains_iff_mem]

end TypedCommand.Template
