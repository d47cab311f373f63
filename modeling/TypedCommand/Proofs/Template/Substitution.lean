import TypedCommand.Proofs.Template.Scan

/-!
What a substitution makes of a text: each occurrence that the scan finds is replaced by the value
that stands beside its marker first, and the text between the occurrences is kept. Hence only the
first value of each non-empty marker matters.
-/

namespace TypedCommand.Template

open Text

/-- The value beside the first of the pairs that have this marker. -/
def FirstValue (rs : List (Text × Text)) (m v : Text) : Prop :=
  ∃ before after, rs = before ++ (m, v) :: after ∧ m ∉ before.map Prod.fst

/-- A text that stands behind `start` bytes, and what it becomes when its occurrences of markers
are replaced by their values: the stretches between the occurrences are kept. -/
inductive Spliced (Value : Text → Text → Prop) : ℕ → Text → List Occurrence → Text → Prop
  | rest {start : ℕ} {t : Text} : Spliced Value start t [] t
  | replaced {start : ℕ} {t rest v u : Text} {o : Occurrence} {os : List Occurrence} (gap : Text)
      (text : t = gap ++ (o.marker ++ rest)) (place : o.start = start + byteSize gap)
      (value : Value o.marker v) (tail : Spliced Value o.stop rest os u) :
      Spliced Value start t (o :: os) (gap ++ (v ++ u))

section FirstValue

variable {rs rs' : List (Text × Text)} {m v v' : Text}

theorem firstValue_iff_find? :
    FirstValue rs m v ↔ rs.find? (fun r => r.1 == m) = some (m, v) := by
  rw [List.find?_eq_some_iff_append]
  constructor
  · rintro ⟨before, after, rfl, hnew⟩
    refine ⟨beq_self_eq_true m, before, after, rfl, fun r hr => ?_⟩
    have hne : r.1 ≠ m := fun heq => hnew (List.mem_map.2 ⟨r, hr, heq⟩)
    simpa using hne
  · rintro ⟨_, before, after, rfl, hbefore⟩
    refine ⟨before, after, rfl, fun hmem => ?_⟩
    obtain ⟨r, hr, heq⟩ := List.mem_map.1 hmem
    simpa [heq] using hbefore r hr

theorem FirstValue.unique (h : FirstValue rs m v) (h' : FirstValue rs m v') : v = v' := by
  have heq := (firstValue_iff_find?.1 h).symm.trans (firstValue_iff_find?.1 h')
  exact (Prod.mk.inj (Option.some.inj heq)).2

theorem FirstValue.mem (h : FirstValue rs m v) : (m, v) ∈ rs :=
  List.mem_of_find?_eq_some (firstValue_iff_find?.1 h)

theorem exists_firstValue (h : m ∈ rs.map Prod.fst) : ∃ v, FirstValue rs m v := by
  obtain ⟨r, hr, hm⟩ := List.mem_map.1 h
  have hsome : (rs.find? (fun r => r.1 == m)).isSome = true :=
    List.find?_isSome.2 ⟨r, hr, by simpa using hm⟩
  obtain ⟨⟨k, v⟩, hfind⟩ := Option.isSome_iff_exists.1 hsome
  obtain rfl : k = m := by simpa using List.find?_some hfind
  exact ⟨v, firstValue_iff_find?.2 hfind⟩

theorem mem_map_fst_iff : m ∈ rs.map Prod.fst ↔ ∃ v, FirstValue rs m v :=
  ⟨exists_firstValue, fun ⟨_, h⟩ => List.mem_map_of_mem h.mem⟩

/-- Among pairs with different markers each one is the first with its marker. -/
theorem firstValue_iff_mem (hnodup : (rs.map Prod.fst).Nodup) :
    FirstValue rs m v ↔ (m, v) ∈ rs := by
  refine ⟨FirstValue.mem, fun hmem => ?_⟩
  obtain ⟨before, after, rfl⟩ := List.append_of_mem hmem
  refine ⟨before, after, rfl, fun hbefore => ?_⟩
  rw [List.map_append, List.map_cons, List.nodup_append] at hnodup
  exact hnodup.2.2 m hbefore m List.mem_cons_self rfl

/-- A pair whose marker stands in an earlier pair gives no marker its first value. -/
theorem firstValue_remove {before after : List (Text × Text)} {k w : Text}
    (h : k ≠ m ∨ k ∈ before.map Prod.fst) :
    FirstValue (before ++ (k, w) :: after) m v ↔ FirstValue (before ++ after) m v := by
  rw [firstValue_iff_find?, firstValue_iff_find?, List.find?_append, List.find?_append]
  by_cases hk : k = m
  · obtain ⟨w', hfirst⟩ := exists_firstValue (h.resolve_left (not_not_intro hk))
    rw [← hk, firstValue_iff_find?.1 hfirst]
    rfl
  · rw [List.find?_cons_of_neg (by simpa using hk)]

theorem replacePiece_of_firstValue (h : FirstValue rs m v) : replacePiece rs (.marker m) = v := by
  rw [replacePiece, firstValue_iff_find?.1 h]
  rfl

end FirstValue

section Spliced

variable {Value : Text → Text → Prop} {start : ℕ} {t u u' : Text} {os : List Occurrence}

/-- The places of the occurrences leave no choice of what is kept. -/
theorem Spliced.unique (hvalue : ∀ m v v', Value m v → Value m v' → v = v')
    (h : Spliced Value start t os u) (h' : Spliced Value start t os u') : u = u' := by
  induction h generalizing u' with
  | rest =>
    cases h'
    rfl
  | @replaced start t rest v u o os gap text place value _ ih =>
    cases h' with
    | @replaced _ _ rest' v' u' _ _ gap' text' place' value' tail' =>
      have hsize : byteSize gap = byteSize gap' := by omega
      have hprefix : gap <+: t := ⟨o.marker ++ rest, text.symm⟩
      have hprefix' : gap' <+: t := ⟨o.marker ++ rest', text'.symm⟩
      -- Both gaps are fronts of the same text, and the place fixes their size.
      have hgap : gap = gap' := by
        have hle := prefix_of_byteSize_le hprefix hprefix' (Nat.le_of_eq hsize)
        have hge := prefix_of_byteSize_le hprefix' hprefix (Nat.le_of_eq hsize.symm)
        exact hle.eq_of_length_le hge.length_le
      subst hgap
      have hrest : rest = rest' :=
        List.append_cancel_left (List.append_cancel_left (text.symm.trans text'))
      subst hrest
      rw [hvalue o.marker v v' value value', ih tail']

/-- A character in front of the first occurrence is kept. -/
theorem Spliced.literal {c : Char} (h : Spliced Value (start + c.utf8Size) t os u) :
    Spliced Value start (c :: t) os (c :: u) := by
  cases h with
  | rest => exact .rest
  | @replaced _ _ _ _ _ o _ gap text place value tail =>
    have hplace : o.start = start + byteSize (c :: gap) := by
      rw [byteSize_cons]
      omega
    exact .replaced (c :: gap) (congrArg (c :: ·) text) hplace value tail

/-- The pieces of a cut, each marker replaced by its value, are the text with its occurrences
replaced. -/
theorem Cut.spliced {markers : List Text} {ps : List Piece} {rs : List (Text × Text)}
    (h : Cut markers t ps) (start : ℕ)
    (hvalue : ∀ m, Piece.marker m ∈ ps → Value m (replacePiece rs (.marker m))) :
    Spliced Value start t (occurrencesFrom start ps) (ps.flatMap (replacePiece rs)) := by
  induction h generalizing start with
  | nil => exact .rest
  | literal _ _ ih => exact (ih _ fun m hm => hvalue m (List.mem_cons_of_mem _ hm)).literal
  | @marker t m ps longest _ ih =>
    obtain ⟨rest, rfl⟩ := longest.begins
    rw [List.drop_left] at ih
    have htail := ih (start + byteSize m) fun m' hm' => hvalue m' (List.mem_cons_of_mem _ hm')
    exact .replaced [] rfl rfl (hvalue m List.mem_cons_self) htail

end Spliced

theorem Cut.infix_of_picked {markers : List Text} {t m : Text} {ps : List Piece}
    (h : Cut markers t ps) (hm : Piece.marker m ∈ ps) : m <:+: t := by
  induction h with
  | nil => exact absurd hm List.not_mem_nil
  | literal _ _ ih => exact (ih (by simpa using hm)).trans (List.suffix_cons _ _).isInfix
  | @marker t m' ps longest _ ih =>
    rcases List.mem_cons.1 hm with heq | hm
    · exact Piece.marker.inj heq ▸ longest.begins.isInfix
    · exact (ih hm).trans (List.drop_suffix _ t).isInfix

section Substitute

variable {rs rs' : List (Text × Text)} {t : Text}

/-- A marker that is picked is replaced by its first value. -/
theorem firstValue_of_picked {m : Text} (hm : Piece.marker m ∈ pieces (rs.map Prod.fst) t) :
    FirstValue rs m (replacePiece rs (.marker m)) := by
  obtain ⟨v, hv⟩ := exists_firstValue ((cut_pieces _ _).mem_of_picked hm).1
  exact replacePiece_of_firstValue hv ▸ hv

/-- Only the first values of the non-empty markers matter. -/
theorem substitute_congr
    (h : ∀ m, m ≠ [] → ∀ v, FirstValue rs' m v ↔ FirstValue rs m v) (t : Text) :
    substitute rs' t = substitute rs t := by
  have hpieces : pieces (rs'.map Prod.fst) t = pieces (rs.map Prod.fst) t := by
    refine pieces_congr (fun m hne => ?_) t
    rw [mem_map_fst_iff, mem_map_fst_iff]
    exact exists_congr (h m hne)
  rw [substitute, substitute, hpieces]
  refine List.flatMap_congr fun piece hpiece => ?_
  cases piece with
  | literal c => rfl
  | marker m =>
    have hne := ((cut_pieces _ _).mem_of_picked hpiece).2
    exact replacePiece_of_firstValue ((h m hne _).2 (firstValue_of_picked hpiece))

/-- Markers that are put in for themselves leave the text as it is. -/
theorem substitute_eq_self
    (h : ∀ m v, Piece.marker m ∈ pieces (rs.map Prod.fst) t → FirstValue rs m v → v = m) :
    substitute rs t = t := by
  have htext : ∀ piece ∈ pieces (rs.map Prod.fst) t, replacePiece rs piece = piece.text := by
    intro piece hpiece
    cases piece with
    | literal c => rfl
    | marker m => exact h m _ hpiece (firstValue_of_picked hpiece)
  rw [substitute, List.flatMap_congr htext]
  exact (cut_pieces _ _).flatMap_text

/-- Substitution replaces the occurrences that a scan finds, each by the first value of its
marker, and keeps everything else. So markers that are their own values change nothing, the order
of pairs with different markers does not matter, a pair with an empty marker or with one of an
earlier pair has no effect, and a text in which no marker occurs is kept. -/
theorem substitute_splices_scanned (rs : List (Text × Text)) (t : Text) :
    (∀ u, Spliced (FirstValue rs) 0 t (scan (rs.map Prod.fst) t) u ↔ u = substitute rs t) ∧
    ((∀ r ∈ rs, r.2 = r.1) → substitute rs t = t) ∧
    (∀ rs' : List (Text × Text), (rs.map Prod.fst).Nodup → rs'.Perm rs →
      substitute rs' t = substitute rs t) ∧
    (∀ before m v after, rs = before ++ (m, v) :: after → m = [] ∨ m ∈ before.map Prod.fst →
      substitute (before ++ after) t = substitute rs t) ∧
    ((∀ r ∈ rs, r.1 <:+: t → r.1 = []) → substitute rs t = t) := by
  refine ⟨fun u => ?_, fun hself => ?_, fun rs' hnodup hperm => ?_,
    fun before m v after hrs hm => ?_, fun habsent => ?_⟩
  · have hspliced : Spliced (FirstValue rs) 0 t (scan (rs.map Prod.fst) t) (substitute rs t) :=
      (cut_pieces _ t).spliced 0 fun _ => firstValue_of_picked
    have hone : ∀ m v v', FirstValue rs m v → FirstValue rs m v' → v = v' :=
      fun _ _ _ hv hv' => hv.unique hv'
    constructor
    · exact fun hu => hu.unique hone hspliced
    · rintro rfl
      exact hspliced
  · exact substitute_eq_self fun m v _ hv => hself (m, v) hv.mem
  · have hnodup' : (rs'.map Prod.fst).Nodup := (hperm.map Prod.fst).nodup_iff.2 hnodup
    refine substitute_congr (fun m _ v => ?_) t
    rw [firstValue_iff_mem hnodup', firstValue_iff_mem hnodup, hperm.mem_iff]
  · subst hrs
    refine substitute_congr (fun k hk w => (firstValue_remove ?_).symm) t
    exact hm.imp_left fun hnil heq => hk (heq ▸ hnil)
  · refine substitute_eq_self fun m v hm hv => ?_
    obtain ⟨_, hne⟩ := (cut_pieces _ _).mem_of_picked hm
    exact absurd (habsent (m, v) hv.mem ((cut_pieces _ _).infix_of_picked hm)) hne

/-- Each value is a marker or holds one, one marker begins with the other, and a second value of a
marker is not used. -/
theorem substitute_crossed_values :
    (∀ u, Spliced (FirstValue [("ab", "a"), ("a", "ñab")]) 0 "ñaab" [⟨2, "a"⟩, ⟨3, "ab"⟩] u ↔
      u = "ññaba".toList) ∧
    substitute [("a", "ñab"), ("ab", "a")] "ñaab" = "ññaba".toList ∧
    substitute [("ab", "a"), ("a", "ñab"), ("ab", "c"), ("", "d")] "ñaab" = "ññaba".toList ∧
    substitute [("ab", "ab"), ("a", "a"), ("ab", "ab")] "ñaab" = "ñaab".toList ∧
    substitute [("ac", "d"), ("", "d")] "ñaab" = "ñaab".toList := by
  have hscan : scan ["ab", "a"] "ñaab" = [⟨2, "a"⟩, ⟨3, "ab"⟩] := by decide
  have hvalue : substitute [("ab", "a"), ("a", "ñab")] "ñaab" = "ññaba".toList := by decide
  obtain ⟨hspliced, _, hperm, _, _⟩ :=
    substitute_splices_scanned [("ab", "a"), ("a", "ñab")] "ñaab"
  obtain ⟨_, _, _, hsecond, _⟩ :=
    substitute_splices_scanned [("ab", "a"), ("a", "ñab"), ("ab", "c")] "ñaab"
  obtain ⟨_, _, _, hempty, _⟩ :=
    substitute_splices_scanned [("ab", "a"), ("a", "ñab"), ("ab", "c"), ("", "d")] "ñaab"
  obtain ⟨_, hself, _, _, _⟩ :=
    substitute_splices_scanned [("ab", "ab"), ("a", "a"), ("ab", "ab")] "ñaab"
  obtain ⟨_, _, _, _, habsent⟩ := substitute_splices_scanned [("ac", "d"), ("", "d")] "ñaab"
  refine ⟨?_, ?_, ?_, hself (by decide), habsent (by decide)⟩
  · rw [← hvalue, ← hscan]
    exact hspliced
  · rw [← hvalue]
    exact hperm _ (by decide) (List.Perm.swap _ _ _)
  · rw [← hvalue]
    have hlast := hempty [("ab", "a"), ("a", "ñab"), ("ab", "c")] [] "d" [] rfl (.inl rfl)
    have hthird := hsecond [("ab", "a"), ("a", "ñab")] "ab" "c" [] rfl (.inr (by decide))
    exact hlast.symm.trans hthird.symm

end Substitute

end TypedCommand.Template
