import TypedCommand.Proofs.Template

/-!
Where markers occur in a text. The occurrences that a scan finds are described by their places
alone: no two of them overlap, each is the longest marker at its place, and where none of them
lies no marker begins. There is one list of such occurrences, and it depends on the markers only
as a set, and of this set only on those that are found.
-/

namespace TypedCommand

namespace Text

theorem foldl_utf8Size (n : ℕ) (t : Text) :
    t.foldl (fun n c => n + c.utf8Size) n = n + byteSize t := by
  unfold byteSize
  induction t generalizing n with
  | nil => rfl
  | cons c t ih =>
    rw [List.foldl_cons, List.foldl_cons, ih, ih (0 + c.utf8Size)]
    omega

theorem byteSize_cons (c : Char) (t : Text) : byteSize (c :: t) = c.utf8Size + byteSize t := by
  rw [byteSize, List.foldl_cons, foldl_utf8Size, Nat.zero_add]

theorem byteSize_append (t u : Text) : byteSize (t ++ u) = byteSize t + byteSize u := by
  rw [byteSize, List.foldl_append, foldl_utf8Size]
  rfl

theorem byteSize_pos {t : Text} (h : t ≠ []) : 0 < byteSize t := by
  cases t with
  | nil => exact absurd rfl h
  | cons c t =>
    have hc := c.utf8Size_pos
    rw [byteSize_cons]
    omega

/-- Of two fronts of a text the one with fewer bytes is a front of the other. -/
theorem prefix_of_byteSize_le {t u v : Text} (hu : u <+: t) (hv : v <+: t)
    (hle : byteSize u ≤ byteSize v) : u <+: v := by
  rcases List.prefix_or_prefix_of_prefix hu hv with h | ⟨rest, rfl⟩
  · exact h
  · have hrest : rest = [] := by
      by_contra hne
      have hpos := byteSize_pos hne
      rw [byteSize_append] at hle
      omega
    simp [hrest]

/-- A text that is cut in two ways is cut in the second part of the way that takes fewer bytes. -/
theorem exists_of_append_eq_append {m rest front rest' : Text} (h : m ++ rest = front ++ rest')
    (hle : byteSize m ≤ byteSize front) : ∃ middle, front = m ++ middle ∧ rest = middle ++ rest' := by
  obtain ⟨middle, rfl⟩ :=
    prefix_of_byteSize_le (List.prefix_append m rest) (h ▸ List.prefix_append front rest') hle
  rw [List.append_assoc] at h
  exact ⟨middle, rfl, List.append_cancel_left h⟩

end Text

namespace Occurrence

def stop (o : Occurrence) : ℕ := o.start + Text.byteSize o.marker

def Covers (o : Occurrence) (place : ℕ) : Prop := o.start ≤ place ∧ place < o.stop

end Occurrence

namespace Template

open Text

/-- The occurrences of markers in a text that stands behind `start` bytes: they come one behind
the other, each is the longest marker at its place, and where none of them lies no marker
begins. -/
structure IsScan (markers : List Text) (start : ℕ) (t : Text) (os : List Occurrence) : Prop where
  apart : os.Pairwise fun o o' => o.start < o'.start ∧ o.stop ≤ o'.start
  longest : ∀ o ∈ os, ∃ front rest, t = front ++ rest ∧ o.start = start + byteSize front ∧
    IsLongest markers rest o.marker
  complete : ∀ front rest, t = front ++ rest →
    (∀ o ∈ os, ¬ o.Covers (start + byteSize front)) → NoneBegins markers rest

section Step

variable {markers : List Text} {start : ℕ} {os : List Occurrence}

theorem isScan_nil : IsScan markers start [] os ↔ os = [] := by
  constructor
  · intro h
    by_contra hne
    obtain ⟨o, later, rfl⟩ := List.exists_cons_of_ne_nil hne
    obtain ⟨front, rest, hsplit, _, hlongest⟩ := h.longest o List.mem_cons_self
    have hrest : rest = [] := (List.append_eq_nil_iff.1 hsplit.symm).2
    rw [hrest] at hlongest
    exact hlongest.ne_nil (List.prefix_nil.1 hlongest.begins)
  · rintro rfl
    refine ⟨.nil, by simp, ?_⟩
    intro front rest hsplit _ m _ hbegins
    have hrest : rest = [] := (List.append_eq_nil_iff.1 hsplit.symm).2
    rw [hrest] at hbegins
    exact List.prefix_nil.1 hbegins

/-- A character at which no marker begins moves the places by its bytes. -/
theorem isScan_literal {c : Char} {rest : Text} (hnone : NoneBegins markers (c :: rest)) :
    IsScan markers start (c :: rest) os ↔ IsScan markers (start + c.utf8Size) rest os := by
  have hplace : ∀ front,
      start + byteSize (c :: front) = start + c.utf8Size + byteSize front := by
    intro front
    rw [byteSize_cons, Nat.add_assoc]
  constructor
  · intro h
    refine ⟨h.apart, fun o ho => ?_, fun front rest' hsplit hcovers => ?_⟩
    · obtain ⟨front, rest', hsplit, hstart, hlongest⟩ := h.longest o ho
      cases front with
      | nil =>
        rw [List.nil_append] at hsplit
        rw [← hsplit] at hlongest
        exact absurd hnone hlongest.not_noneBegins
      | cons d front =>
        obtain ⟨rfl, hrest⟩ := List.cons.inj hsplit
        exact ⟨front, rest', hrest, hstart.trans (hplace front), hlongest⟩
    · apply h.complete (c :: front) rest' (congrArg _ hsplit)
      rwa [hplace]
  · intro h
    refine ⟨h.apart, fun o ho => ?_, fun front rest' hsplit hcovers => ?_⟩
    · obtain ⟨front, rest', hsplit, hstart, hlongest⟩ := h.longest o ho
      exact ⟨c :: front, rest', congrArg _ hsplit, hstart.trans (hplace front).symm, hlongest⟩
    · cases front with
      | nil =>
        rw [List.nil_append] at hsplit
        rwa [← hsplit]
      | cons d front =>
        obtain ⟨rfl, hrest⟩ := List.cons.inj hsplit
        apply h.complete front rest' hrest
        rwa [← hplace]

section Marker

variable {m rest : Text}

theorem place_behind_marker (start : ℕ) (m front : Text) :
    start + byteSize (m ++ front) = start + byteSize m + byteSize front := by
  rw [byteSize_append, Nat.add_assoc]

/-- Where a marker begins, the longest one is the first occurrence. -/
theorem IsScan.exists_eq_cons (h : IsScan markers start (m ++ rest) os)
    (hm : IsLongest markers (m ++ rest) m) : ∃ later, os = ⟨start, m⟩ :: later := by
  -- the front of the text is not left out, so an occurrence lies there
  have hcovered : ∃ o ∈ os, o.Covers start := by
    by_contra hno
    have hnone := h.complete [] (m ++ rest) rfl fun o ho hcovers => hno ⟨o, ho, hcovers⟩
    exact hm.not_noneBegins hnone
  obtain ⟨o, ho, hcovers⟩ := hcovered
  have hfirst : o = ⟨start, m⟩ := by
    obtain ⟨front, rest', hsplit, hstart, hlongest⟩ := h.longest o ho
    have hfront : front = [] := by
      by_contra hne
      have hpos := byteSize_pos hne
      have hle := hcovers.1
      omega
    subst hfront
    rw [List.nil_append] at hsplit
    rw [← hsplit] at hlongest
    obtain ⟨place, marker⟩ := o
    have hmarker : marker = m := hlongest.unique hm
    have hplace : place = start := hstart
    rw [hmarker, hplace]
  obtain ⟨first, later, rfl⟩ := List.exists_cons_of_ne_nil (List.ne_nil_of_mem ho)
  have hhead : o = first := by
    rcases List.mem_cons.1 ho with heq | hlater
    · exact heq
    · have hlt := ((List.pairwise_cons.1 h.apart).1 o hlater).1
      obtain ⟨_, _, _, hstart, _⟩ := h.longest first List.mem_cons_self
      have hle := hcovers.1
      omega
  exact ⟨later, by rw [← hhead, hfirst]⟩

/-- The occurrences behind the first one lie in the text behind its marker. -/
theorem IsScan.behind {later : List Occurrence}
    (h : IsScan markers start (m ++ rest) (⟨start, m⟩ :: later)) :
    IsScan markers (start + byteSize m) rest later := by
  obtain ⟨hbehind, hapart⟩ := List.pairwise_cons.1 h.apart
  refine ⟨hapart, fun o ho => ?_, fun front rest' hsplit hcovers => ?_⟩
  · obtain ⟨front, rest', hsplit, hstart, hlongest⟩ := h.longest o (List.mem_cons_of_mem _ ho)
    have hstop : start + byteSize m ≤ o.start := (hbehind o ho).2
    have hle : byteSize m ≤ byteSize front := by omega
    obtain ⟨middle, rfl, hrest⟩ := exists_of_append_eq_append hsplit hle
    exact ⟨middle, rest', hrest, hstart.trans (place_behind_marker start m middle), hlongest⟩
  · apply h.complete (m ++ front) rest' (by rw [hsplit, List.append_assoc])
    rw [place_behind_marker]
    intro o ho
    rcases List.mem_cons.1 ho with rfl | ho
    · rintro ⟨_, hlt⟩
      have hstop : start + byteSize m + byteSize front < start + byteSize m := hlt
      omega
    · exact hcovers o ho

theorem IsScan.cons {later : List Occurrence} (hm : IsLongest markers (m ++ rest) m)
    (h : IsScan markers (start + byteSize m) rest later) :
    IsScan markers start (m ++ rest) (⟨start, m⟩ :: later) := by
  have hpos : 0 < byteSize m := byteSize_pos hm.ne_nil
  refine ⟨List.pairwise_cons.2 ⟨fun o ho => ?_, h.apart⟩, fun o ho => ?_,
    fun front rest' hsplit hcovers => ?_⟩
  · obtain ⟨_, _, _, hstart, _⟩ := h.longest o ho
    have hstop : start + byteSize m ≤ o.start := by omega
    exact ⟨show start < o.start by omega, hstop⟩
  · rcases List.mem_cons.1 ho with rfl | ho
    · exact ⟨[], m ++ rest, rfl, rfl, hm⟩
    · obtain ⟨front, rest', hsplit, hstart, hlongest⟩ := h.longest o ho
      refine ⟨m ++ front, rest', ?_, hstart.trans (place_behind_marker start m front).symm,
        hlongest⟩
      rw [hsplit, List.append_assoc]
  · have hle : byteSize m ≤ byteSize front := by
      by_contra hlt
      apply hcovers ⟨start, m⟩ List.mem_cons_self
      have hstop : start + byteSize front < start + byteSize m := by omega
      exact ⟨Nat.le_add_right start _, hstop⟩
    obtain ⟨middle, rfl, hrest⟩ := exists_of_append_eq_append hsplit hle
    rw [place_behind_marker] at hcovers
    exact h.complete middle rest' hrest fun o ho => hcovers o (List.mem_cons_of_mem _ ho)

theorem isScan_marker (hm : IsLongest markers (m ++ rest) m) :
    IsScan markers start (m ++ rest) os ↔
      ∃ later, os = ⟨start, m⟩ :: later ∧ IsScan markers (start + byteSize m) rest later := by
  constructor
  · intro h
    obtain ⟨later, rfl⟩ := h.exists_eq_cons hm
    exact ⟨later, rfl, h.behind⟩
  · rintro ⟨later, rfl, h⟩
    exact h.cons hm

end Marker

/-- The occurrences of a cut are the only ones. -/
theorem Cut.isScan_iff {t : Text} {ps : List Piece} (h : Cut markers t ps) :
    IsScan markers start t os ↔ os = occurrencesFrom start ps := by
  induction h generalizing start os with
  | nil => exact isScan_nil
  | literal none _ ih =>
    rw [isScan_literal none, ih]
    rfl
  | @marker t m ps longest _ ih =>
    obtain ⟨rest, rfl⟩ := longest.begins
    rw [List.drop_left] at ih
    rw [isScan_marker longest]
    constructor
    · rintro ⟨later, rfl, hlater⟩
      rw [ih.1 hlater]
      rfl
    · rintro rfl
      exact ⟨_, rfl, ih.2 rfl⟩

end Step

/-- A cut depends on the markers only as a set, and an empty one does not count. -/
theorem pieces_congr {markers markers' : List Text}
    (h : ∀ m, m ≠ [] → (m ∈ markers' ↔ m ∈ markers)) (t : Text) :
    pieces markers' t = pieces markers t := by
  have hcommon : ∀ ms : List Text, (∀ m, m ≠ [] → (m ∈ ms ↔ m ∈ markers)) →
      pieces (markers.filter (fun m => !m.isEmpty)) t = pieces ms t := by
    intro ms hms
    have hne : ∀ m ∈ markers.filter (fun m => !m.isEmpty), m ∈ markers ∧ m ≠ [] := by
      intro m hm
      obtain ⟨hmem, hnonempty⟩ := List.mem_filter.1 hm
      exact ⟨hmem, by simpa using hnonempty⟩
    apply pieces_restrict
    · intro m hm
      obtain ⟨hmem, hnonempty⟩ := hne m hm
      exact (hms m hnonempty).2 hmem
    · intro m hm
      obtain ⟨hmem, hnonempty⟩ := (cut_pieces ms t).mem_of_picked hm
      exact List.mem_filter.2 ⟨(hms m hnonempty).1 hmem, by simpa using hnonempty⟩
  exact (hcommon markers' h).symm.trans (hcommon markers fun m _ => Iff.rfl)

/-- A scan finds the leftmost and longest occurrences of the markers, which are determined by the
text and the markers. The order of the markers, repetitions among them and empty ones do not
matter, and a marker that is not found can be left out. -/
theorem scan_leftmost_longest (markers : List Text) (t : Text) :
    (∀ os, IsScan markers 0 t os ↔ os = scan markers t) ∧
    (∀ markers' : List Text, (∀ m, m ≠ [] → (m ∈ markers' ↔ m ∈ markers)) →
      scan markers' t = scan markers t) ∧
    ∀ fewer : List Text, fewer ⊆ markers → (∀ o ∈ scan markers t, o.marker ∈ fewer) →
      scan fewer t = scan markers t := by
  refine ⟨fun os => (cut_pieces markers t).isScan_iff, fun markers' h => ?_,
    fun fewer hsub hkept => ?_⟩
  · rw [scan, pieces_congr h t, scan]
  · have hpicked : ∀ m, Piece.marker m ∈ pieces markers t → m ∈ fewer := by
      intro m hm
      obtain ⟨o, ho, rfl⟩ := (mem_occurrencesFrom 0 _ m).2 hm
      exact hkept o ho
    rw [scan, pieces_restrict hsub hpicked, scan]

/-- The marker in the middle of the three is covered wherever it occurs. -/
theorem scan_of_rearranged :
    scan ["a", "ab", "aab"] "ñaaab" = [⟨2, "a"⟩, ⟨3, "aab"⟩] ∧
    scan ["aab", "", "ab", "a", "ab"] "ñaaab" = [⟨2, "a"⟩, ⟨3, "aab"⟩] ∧
    scan ["aab", "a"] "ñaaab" = [⟨2, "a"⟩, ⟨3, "aab"⟩] := by
  obtain ⟨_, hset, hfewer⟩ := scan_leftmost_longest ["a", "ab", "aab"] "ñaaab"
  have hscan : scan ["a", "ab", "aab"] "ñaaab" = [⟨2, "a"⟩, ⟨3, "aab"⟩] := by decide
  refine ⟨hscan, (hset _ ?_).trans hscan, (hfewer _ (by decide) ?_).trans hscan⟩
  · intro m hm
    have hempty : m ≠ "".toList := hm
    simp only [List.mem_cons, List.not_mem_nil, or_false]
    tauto
  · rw [hscan]
    decide

end Template
end TypedCommand
