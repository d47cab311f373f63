import Mathlib.Algebra.Order.BigOperators.Group.List
import Mathlib.Algebra.Order.Group.Nat
import Mathlib.Data.List.Nodup
import TypedCommand.Proofs.Interpolation

/-!
Every parameter shows in the command. Two calls that differ in one parameter make their
commands of the same parts in the same order, and a part is another one only where that
parameter stands. All these places hold the same text in one call, so none of the places is
longer in the one command while another is longer in the other: if the commands were equal,
they would be so part by part.
-/

namespace TypedCommand

open Template Parameter Specification

namespace Invocation

variable {α β : Type} {f g : α → List β} {l : List α}

/-- Lists that are put together of parts, each at most as long as its counterpart, are equal
only part by part. -/
theorem eq_of_flatMap_eq (hle : ∀ a ∈ l, (f a).length ≤ (g a).length)
    (h : l.flatMap f = l.flatMap g) : ∀ a ∈ l, f a = g a := by
  induction l with
  | nil => exact List.forall_mem_nil _
  | cons a l ih =>
    obtain ⟨ha, hle⟩ := List.forall_mem_cons.1 hle
    have hrest : (l.flatMap f).length ≤ (l.flatMap g).length := by
      rw [List.length_flatMap, List.length_flatMap]
      exact List.sum_le_sum hle
    rw [List.flatMap_cons, List.flatMap_cons] at h
    have hlength := congrArg List.length h
    rw [List.length_append, List.length_append] at hlength
    obtain ⟨heq, hrest⟩ := List.append_inj h (by omega)
    exact List.forall_mem_cons.2 ⟨heq, ih hle hrest⟩

/-- Where the parts differ in one item at most, however often it occurs, equal lists have the
same part for it. -/
theorem part_eq_of_flatMap_eq {a : α} (ha : a ∈ l) (hothers : ∀ b ∈ l, b ≠ a → f b = g b)
    (h : l.flatMap f = l.flatMap g) : f a = g a := by
  have hlengths : ∀ {f g : α → List β}, (∀ b ∈ l, b ≠ a → f b = g b) →
      (f a).length ≤ (g a).length → ∀ b ∈ l, (f b).length ≤ (g b).length := by
    intro f g hothers hle b hb
    by_cases hba : b = a
    · exact hba ▸ hle
    · exact (congrArg List.length (hothers b hb hba)).le
  rcases Nat.le_total (f a).length (g a).length with hle | hle
  · exact eq_of_flatMap_eq (hlengths hothers hle) h a ha
  · have hothers' : ∀ b ∈ l, b ≠ a → g b = f b := fun b hb hba => (hothers b hb hba).symm
    exact (eq_of_flatMap_eq (hlengths hothers' hle) h.symm a ha).symm

/-- Contexts that give a parameter two values of its kind with different texts, and are alike in
all else. -/
structure DifferAt (p : Parameter) (context context' : Context) : Prop where
  leftovers : context.leftovers = context'.leftovers
  others : ∀ name, name ≠ p.name → context.values.get? name = context'.values.get? name
  values : ∃ v w, context.values.get? p.name = some v ∧ context'.values.get? p.name = some w ∧
    v.kind = p.kind ∧ w.kind = p.kind ∧ v.text ≠ w.text

variable {context context' : Context} {s : Specification} {p q : Parameter}

theorem DifferAt.value?_eq (h : DifferAt p context context')
    (hnames : (s.parameters.map (·.name)).Nodup) (hp : p ∈ s.parameters) (hq : q ∈ s.parameters)
    (hne : q ≠ p) : value? context q = value? context' q := by
  have hname : q.name ≠ p.name := by
    intro hname
    exact hne (List.inj_on_of_nodup_map hnames hq hp hname)
  rw [value?, value?, h.others q.name hname]

/-- In a segment the calls differ only where the parameter stands. -/
theorem DifferAt.segmentText_eq (h : DifferAt p context context')
    (hnames : (s.parameters.map (·.name)).Nodup) (hp : p ∈ s.parameters) {segment : Segment}
    (hsegment : segment ∈ s.segments) (hne : segment ≠ .reference p) :
    segmentText context segment = segmentText context' segment := by
  cases segment with
  | literal c => rfl
  | reference q =>
    have hqp : q ≠ p := fun hqp => hne (congrArg Segment.reference hqp)
    have hvalue := h.value?_eq hnames hp (mem_of_reference hsegment).1 hqp
    rw [segmentText, segmentText, insertedText, insertedText, joinedLeftovers, joinedLeftovers,
      h.leftovers, hvalue]

theorem DifferAt.forwardedText_eq (h : DifferAt p context context')
    (hnames : (s.parameters.map (·.name)).Nodup) (hp : p ∈ s.parameters) (hq : q ∈ s.parameters)
    (hne : q ≠ p) : forwardedText context q = forwardedText context' q := by
  rw [forwardedText, forwardedText, h.value?_eq hnames hp hq hne]

theorem forwardedText_of_isInline (hinline : p.isInline = true) (context : Context) :
    forwardedText context p = [] := by
  unfold forwardedText
  cases hpattern : p.pattern <;> simp [isInline, hpattern] at hinline ⊢

/-- A parameter whose value replaces a marker has a place among the segments. -/
theorem reference_mem_segments {template declaration : Text}
    (h : ofText template declaration = .ok s) (hp : p ∈ s.parameters)
    (hreplaced : isReplaced p = true) : Segment.reference p ∈ s.segments := by
  have hpicked : Piece.marker p.marker ∈ pieces (inlineMarkers s.parameters) s.template :=
    List.contains_iff_mem.1 (picks_of_ofText h hp hreplaced)
  obtain ⟨segment, hsegment, hpiece, hparameter⟩ := exists_ofPiece? hpicked
  have hmem : segment ∈ s.segments := List.mem_filterMap.2 ⟨_, hpicked, hsegment⟩
  have hne : p.marker ≠ [] := ((cut_pieces _ _).mem_of_picked hpicked).2
  have hinline : p.isInline = true := by
    rw [isReplaced, Bool.and_eq_true] at hreplaced
    exact hreplaced.1
  cases segment with
  | literal c => simp [Segment.piece] at hpiece
  | reference q =>
    obtain ⟨hq, hqinline⟩ := hparameter q rfl
    have hmarker : q.marker = p.marker := Piece.marker.inj hpiece
    have hplace : p.place? = some p.marker := place?_eq_some.2 ⟨hinline, rfl, hne⟩
    have hqplace : q.place? = some p.marker := place?_eq_some.2 ⟨hqinline, hmarker, hne⟩
    rwa [(parameters_of_ofText h).2.1.eq_of_place? hp hq hplace hqplace]

/-- What is appended for an option tells the texts of its values apart. -/
theorem text_eq_of_forwardedText_eq (hinline : p.isInline = false) {v w : Value}
    (hv : value? context p = some v) (hw : value? context' p = some w) (hkind : v.kind = w.kind)
    (h : forwardedText context p = forwardedText context' p) : v.text = w.text := by
  unfold forwardedText at h
  rw [hv, hw] at h
  cases hpattern : p.pattern with
  | positional | option | variadic => simp [isInline, hpattern] at hinline
  | forwarded flags =>
    rw [hpattern] at h
    cases v with
    | bool b =>
      cases w with
      | bool b' => cases b <;> cases b' <;> simp at h ⊢
      | str | int | float => simp [Value.kind] at hkind
    | str | int | float =>
      cases w with
      | bool b' => simp [Value.kind] at hkind
      | str | int | float => simpa using h

/-- No parameter is ignored: calls that differ in one parameter alone, by values of its kind with
different texts, give different commands. -/
theorem command_ne_of_differAt {template declaration : Text}
    (h : ofText template declaration = .ok s) (hp : p ∈ s.parameters)
    (hvariadic : p.isVariadic = false) (hdiffer : DifferAt p context context') {text text' : Text}
    (htext : interpolate s context = .ok text) (htext' : interpolate s context' = .ok text') :
    text ≠ text' := by
  have hnames := (parameters_of_ofText h).2.1.names
  obtain ⟨v, w, hgiven, hgiven', hv, hw, hne⟩ := hdiffer.values
  have hvalue : value? context p = some v := by simp [value?, hgiven]
  have hvalue' : value? context' p = some w := by simp [value?, hgiven']
  have hsegment : ∀ segment ∈ s.segments, segment ≠ .reference p →
      segmentText context segment = segmentText context' segment :=
    fun segment hsegment hother => hdiffer.segmentText_eq hnames hp hsegment hother
  have hforwarded : ∀ q ∈ s.parameters, q ≠ p →
      forwardedText context q = forwardedText context' q :=
    fun q hq hqp => hdiffer.forwardedText_eq hnames hp hq hqp
  have htrailing : trailingText s context = trailingText s context' := by
    rw [trailingText, trailingText, joinedLeftovers, joinedLeftovers, hdiffer.leftovers]
  intro heq
  rw [(interpolate_eq_ok h htext).2, (interpolate_eq_ok h htext').2, htrailing] at heq
  have hparts := List.append_cancel_right heq
  cases hinline : p.isInline with
  | true =>
    -- the value stands in the template alone, and at least once
    have hoptions : s.parameters.flatMap (forwardedText context) =
        s.parameters.flatMap (forwardedText context') := by
      refine List.flatMap_congr fun q hq => ?_
      by_cases hqp : q = p
      · rw [hqp, forwardedText_of_isInline hinline, forwardedText_of_isInline hinline]
      · exact hforwarded q hq hqp
    rw [hoptions] at hparts
    have hsegments := List.append_cancel_right hparts
    have hplace := reference_mem_segments h hp (by simp [isReplaced, hinline, hvariadic])
    have hsame := part_eq_of_flatMap_eq hplace hsegment hsegments
    simp only [segmentText, insertedText, hvariadic, hvalue, hvalue'] at hsame
    exact hne hsame
  | false =>
    -- the value is appended, behind a template that is the same in both
    have hsegments : s.segments.flatMap (segmentText context) =
        s.segments.flatMap (segmentText context') := by
      refine List.flatMap_congr fun segment hmem => hsegment segment hmem ?_
      rintro rfl
      exact absurd (hinline.symm.trans (mem_of_reference hmem).2) Bool.false_ne_true
    rw [hsegments] at hparts
    have hoptions := List.append_cancel_left hparts
    have hsame := part_eq_of_flatMap_eq hp hforwarded hoptions
    exact hne (text_eq_of_forwardedText_eq hinline hvalue hvalue' (hv.trans hw.symm) hsame)

/-- A marker that begins another and occurs twice; one value is the other marker, and one is
empty. -/
theorem command_ne_of_repeated_marker : ∃ s p context context',
    ofText "cp A AB A" "just cp A[first] AB[second]" = .ok s ∧ p ∈ s.parameters ∧
      p.isVariadic = false ∧ DifferAt p context context' ∧
      interpolate s context = .ok "cp AB A AB" ∧ interpolate s context' = .ok "cp  A " ∧
      "cp AB A AB".toList ≠ "cp  A ".toList := by
  let first : Parameter := ⟨"first", "A", .str, none, none, .positional⟩
  let context (text : Text) : Context :=
    { values := (SortedMap.empty.insert "second" (.str "A")).insert "first" (.str text) }
  let s : Specification := {
    commandName := "cp"
    template := "cp A AB A"
    parameters := [first, ⟨"second", "AB", .str, none, none, .positional⟩]
    plan := [.replace "A" "first", .replace "AB" "second"] }
  have h : ofText "cp A AB A" "just cp A[first] AB[second]" = .ok s := by decide +kernel
  have hdiffer : DifferAt first (context "AB") (context "") := by
    refine ⟨rfl, fun name hname => ?_, .str "AB", .str "", rfl, rfl, rfl, rfl, by decide⟩
    change name ≠ "first".toList at hname
    simp only [context, SortedMap.get?_insert, if_neg hname]
  have htext : interpolate s (context "AB") = .ok "cp AB A AB" := by decide +kernel
  have htext' : interpolate s (context "") = .ok "cp  A " := by decide +kernel
  exact ⟨s, first, _, _, h, List.mem_cons_self, rfl, hdiffer, htext, htext',
    command_ne_of_differAt h List.mem_cons_self rfl hdiffer htext htext'⟩

end Invocation
end TypedCommand
