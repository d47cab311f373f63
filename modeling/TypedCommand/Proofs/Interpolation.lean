import TypedCommand.Invocation
import TypedCommand.Proofs.Specification

/-!
A command as a fixed row of segments. The template of a compiled specification is cut
once, by the markers of all parameters that compete for it; each piece is text or stands
for a parameter, and a call puts the values in their places. The scan of a call knows the
markers of the plan alone, but those that it lacks are never picked.
-/

namespace TypedCommand

open Template Parameter Specification

/-- A segment of a command: a character of the template or the value of a parameter. -/
inductive Segment
  | literal (c : Char)
  | reference (p : Parameter)

namespace Segment

def piece : Segment → Piece
  | literal c => .literal c
  | reference p => .marker p.marker

/-- The segment of a piece; a marker stands for the parameter that has its place there. -/
def ofPiece? (ps : List Parameter) : Piece → Option Segment
  | .literal c => some (.literal c)
  | .marker m => (ps.find? (fun p => p.place? == some m)).map .reference

end Segment

/-- The segments of the commands of a specification, whatever the values are. -/
def Specification.segments (s : Specification) : List Segment :=
  (pieces (inlineMarkers s.parameters) s.template).filterMap (Segment.ofPiece? s.parameters)

namespace Invocation

/-- The value of a parameter in a call: the one given, or else its default. -/
def value? (context : Context) (p : Parameter) : Option Value :=
  context.values.get? p.name <|> p.default

def insertedText (context : Context) (p : Parameter) : Text :=
  if p.isVariadic then joinedLeftovers context else ((value? context p).map Value.text).getD []

def segmentText (context : Context) : Segment → Text
  | .literal c => [c]
  | .reference p => insertedText context p

def forwardedText (context : Context) (p : Parameter) : Text :=
  match p.pattern, value? context p with
  | .forwarded _, some (.bool true) => ' ' :: p.marker
  | .forwarded _, some (.bool false) => []
  | .forwarded _, some value => ' ' :: p.marker ++ ' ' :: value.text
  | _, _ => []

/-- The words left over, where the plan has no marker for them. -/
def trailingText (s : Specification) (context : Context) : Text :=
  if s.parameters.any (fun p => p.isVariadic && s.plan.contains (.captureRemaining none p.name)) ∧
      context.leftovers ≠ [] then
    ' ' :: joinedLeftovers context
  else []

theorem place?_eq_some {p : Parameter} {m : Text} :
    p.place? = some m ↔ p.isInline = true ∧ p.marker = m ∧ m ≠ [] := by
  unfold place?
  split
  · next h =>
    simp only [Bool.and_eq_true, Bool.not_eq_true', List.isEmpty_eq_false_iff] at h
    constructor
    · intro hm
      obtain rfl := Option.some.inj hm
      exact ⟨h.1, rfl, h.2⟩
    · rintro ⟨_, rfl, _⟩
      rfl
  · next h =>
    simp only [Bool.and_eq_true, Bool.not_eq_true', List.isEmpty_eq_false_iff] at h
    refine ⟨by simp, ?_⟩
    rintro ⟨hi, rfl, hne⟩
    exact absurd ⟨hi, hne⟩ h

theorem mem_inlineMarkers {ps : List Parameter} {m : Text} :
    m ∈ inlineMarkers ps ↔ ∃ p ∈ ps, p.isInline = true ∧ p.marker = m := by
  simp [inlineMarkers, and_assoc]

/-- Each marker that is picked stands for a parameter. -/
theorem exists_ofPiece? {ps : List Parameter} {t : Text} {piece : Piece}
    (h : piece ∈ pieces (inlineMarkers ps) t) :
    ∃ segment, Segment.ofPiece? ps piece = some segment ∧ segment.piece = piece ∧
      ∀ p, segment = .reference p → p ∈ ps ∧ p.isInline = true := by
  cases piece with
  | literal c => exact ⟨.literal c, rfl, rfl, by simp⟩
  | marker m =>
    obtain ⟨hmem, hne⟩ := (cut_pieces _ _).mem_of_picked h
    obtain ⟨p, hp, hinline, hmarker⟩ := mem_inlineMarkers.1 hmem
    have hfound : (ps.find? (fun p => p.place? == some m)).isSome = true := by
      rw [List.find?_isSome]
      exact ⟨p, hp, by simp [place?_eq_some, hinline, hmarker, hne]⟩
    obtain ⟨q, hq⟩ := Option.isSome_iff_exists.1 hfound
    have hplace := place?_eq_some.1 (by simpa using List.find?_some hq)
    refine ⟨.reference q, ?_, ?_, ?_⟩
    · rw [Segment.ofPiece?, hq]
      rfl
    · rw [Segment.piece, hplace.2.1]
    · intro p' hp'
      obtain rfl := Segment.reference.inj hp'
      exact ⟨List.mem_of_find?_eq_some hq, hplace.1⟩

theorem map_filterMap {α β γ : Type} {f : α → Option β} {g : β → γ} {k : α → γ} {l : List α}
    (h : ∀ a ∈ l, ∃ b, f a = some b ∧ g b = k a) : (l.filterMap f).map g = l.map k := by
  induction l with
  | nil => rfl
  | cons a l ih =>
    obtain ⟨b, hb, hg⟩ := h a List.mem_cons_self
    rw [List.filterMap_cons_some hb, List.map_cons, List.map_cons, hg,
      ih fun a' ha' => h a' (List.mem_cons_of_mem _ ha')]

/-- The segments are the leftmost-longest cut of the template by all markers. -/
theorem cut_segments (s : Specification) :
    Cut (inlineMarkers s.parameters) s.template (s.segments.map Segment.piece) := by
  have hmap : s.segments.map Segment.piece =
      (pieces (inlineMarkers s.parameters) s.template).map id :=
    map_filterMap fun piece hpiece =>
      let ⟨segment, hsegment, heq, _⟩ := exists_ofPiece? hpiece
      ⟨segment, hsegment, heq⟩
  rw [hmap, List.map_id]
  exact cut_pieces _ _

theorem mem_of_reference {s : Specification} {p : Parameter}
    (h : Segment.reference p ∈ s.segments) : p ∈ s.parameters ∧ p.isInline = true := by
  obtain ⟨piece, hpiece, hsegment⟩ := List.mem_filterMap.1 h
  obtain ⟨segment, hsegment', _, hmem⟩ := exists_ofPiece? hpiece
  rw [hsegment] at hsegment'
  exact hmem p (Option.some.inj hsegment').symm

/-- A parameter is found again by its name. -/
theorem parameter?_of_mem {s : Specification} (hnames : (s.parameters.map (·.name)).Nodup)
    {p : Parameter} (hp : p ∈ s.parameters) : s.parameter? p.name = some p :=
  (find?_eq_some_of_nodup hnames).2 ⟨hp, rfl⟩

/-- A parameter has its value, given or by default, if that is of its kind. -/
theorem valueOf_eq_ok {s : Specification} (hnames : (s.parameters.map (·.name)).Nodup)
    {context : Context} {p : Parameter} (hp : p ∈ s.parameters) {v : Value} :
    valueOf s context p.name = .ok v ↔ value? context p = some v ∧ v.kind = p.kind := by
  unfold valueOf
  rw [parameter?_of_mem hnames hp]
  dsimp only
  rw [show (context.values.get? p.name <|> p.default) = value? context p from rfl]
  cases hv : value? context p with
  | none => simp
  | some w =>
    dsimp only
    split
    · next hk => exact ⟨fun h => Except.ok.inj h ▸ ⟨rfl, hk⟩, fun h => by rw [Option.some.inj h.1]⟩
    · next hk => exact ⟨by simp, fun h => absurd (Option.some.inj h.1 ▸ h.2) hk⟩

section Compiled

variable {template declaration : Text} {s : Specification}
  (h : ofText template declaration = .ok s)

/-- What a parameter replaces: its marker, if that is picked in the template. -/
def replacements (s : Specification) (context : Context) (p : Parameter) : List (Text × Text) :=
  if p.isInline && picks (inlineMarkers s.parameters) s.template p.marker then
    [(p.marker, insertedText context p)]
  else []

include h

theorem replacementOf_eq_ok {context : Context} {p : Parameter} (hp : p ∈ s.parameters)
    {rs : List (Text × Text)}
    (hrs : replacementOf s context (plannedStep s.template s.parameters p) = .ok rs) :
    rs = replacements s context p ∧
      (isReplaced p = true → ∃ v, value? context p = some v ∧ v.kind = p.kind) := by
  have hnames := (parameters_of_ofText h).2.1.names
  have hpicked := picks_of_ofText h hp
  unfold plannedStep at hrs
  unfold replacements insertedText
  cases hpattern : p.pattern with
  | forwarded flags =>
    have hi : p.isInline = false := by simp [isInline, hpattern]
    simp only [hpattern, replacementOf, Except.ok.injEq] at hrs
    simp [← hrs, isReplaced, hi]
  | variadic =>
    have hi : p.isInline = true := by simp [isInline, hpattern]
    have hv : p.isVariadic = true := by simp [isVariadic, hpattern, Pattern.isVariadic]
    simp only [hpattern] at hrs
    simp only [hi, hv, Bool.true_and, if_true, isReplaced, Bool.not_true, Bool.and_false,
      Bool.false_eq_true, false_implies, and_true]
    split at hrs
    · next hpick =>
      rw [if_pos hpick]
      exact (Except.ok.inj hrs).symm
    · next hpick =>
      rw [if_neg hpick]
      exact (Except.ok.inj hrs).symm
  | positional | option =>
    have hi : p.isInline = true := by simp [isInline, hpattern]
    have hv : p.isVariadic = false := by simp [isVariadic, hpattern, Pattern.isVariadic]
    have hreplaced : isReplaced p = true := by simp [isReplaced, hi, hv]
    simp only [hpattern, replacementOf] at hrs
    obtain ⟨v, hvalue, hrs⟩ := bind_eq_ok.1 hrs
    have hval := (valueOf_eq_ok hnames hp).1 hvalue
    refine ⟨?_, fun _ => ⟨v, hval⟩⟩
    rw [hi, hpicked hreplaced, hv, hval.1, ← Except.ok.inj hrs]
    rfl

theorem optionText_eq_ok {context : Context} {p : Parameter} (hp : p ∈ s.parameters) {t : Text}
    (ht : optionText s context (plannedStep s.template s.parameters p) = .ok t) :
    t = forwardedText context p ∧
      (p.isInline = false → ∃ v, value? context p = some v ∧ v.kind = p.kind) := by
  have hnames := (parameters_of_ofText h).2.1.names
  unfold plannedStep at ht
  unfold forwardedText
  cases hpattern : p.pattern with
  | forwarded flags =>
    simp only [hpattern, optionText] at ht
    obtain ⟨v, hvalue, ht⟩ := bind_eq_ok.1 ht
    have hval := (valueOf_eq_ok hnames hp).1 hvalue
    refine ⟨?_, fun _ => ⟨v, hval⟩⟩
    rw [hval.1]
    cases v with
    | bool b => cases b <;> exact (Except.ok.inj ht).symm
    | str | int | float => exact (Except.ok.inj ht).symm
  | positional | option | variadic =>
    simp only [hpattern, optionText, Except.ok.injEq] at ht
    exact ⟨ht.symm, by simp [isInline, hpattern]⟩

theorem remainingText_eq_trailingText (context : Context) :
    remainingText s context = trailingText s context := by
  have happends : appendsLeftovers s = true ↔ ∃ p ∈ s.parameters,
      p.isVariadic = true ∧ .captureRemaining none p.name ∈ s.plan := by
    simp only [appendsLeftovers, List.any_eq_true]
    constructor
    · rintro ⟨step, hstep, hcapture⟩
      split at hcapture
      · next name =>
        obtain ⟨p, hp, hplanned⟩ := List.mem_map.1 (plan_of_ofText h ▸ hstep)
        have hp' : p.isVariadic = true ∧ p.name = name := by
          unfold plannedStep at hplanned
          split at hplanned
          · simp at hplanned
          · next hpattern =>
            simp only [Step.captureRemaining.injEq] at hplanned
            exact ⟨by simp [isVariadic, hpattern, Pattern.isVariadic], hplanned.2⟩
          · simp at hplanned
        exact ⟨p, hp, hp'.1, hp'.2 ▸ hstep⟩
      · simp at hcapture
    · rintro ⟨p, _, _, hstep⟩
      exact ⟨_, hstep, rfl⟩
  unfold remainingText trailingText
  simp only [Bool.and_eq_true, happends, List.any_eq_true, List.contains_iff_mem,
    Bool.not_eq_true', List.isEmpty_eq_false_iff]

end Compiled

section Scan

variable (s : Specification) (context : Context)

/-- A call scans for the markers that the cut of the template picks, and so finds the
same cut. -/
theorem pieces_replacements :
    pieces ((s.parameters.flatMap (replacements s context)).map Prod.fst) s.template =
      pieces (inlineMarkers s.parameters) s.template := by
  apply pieces_restrict
  · intro m hm
    obtain ⟨r, hr, rfl⟩ := List.mem_map.1 hm
    obtain ⟨p, hp, hr⟩ := List.mem_flatMap.1 hr
    unfold replacements at hr
    split at hr
    · next hpick =>
      rw [Bool.and_eq_true] at hpick
      obtain rfl := List.mem_singleton.1 hr
      exact mem_inlineMarkers.2 ⟨p, hp, hpick.1, rfl⟩
    · simp at hr
  · intro m hm
    obtain ⟨hmem, _⟩ := (cut_pieces _ _).mem_of_picked hm
    obtain ⟨p, hp, hinline, rfl⟩ := mem_inlineMarkers.1 hmem
    have hpick : picks (inlineMarkers s.parameters) s.template p.marker = true :=
      List.contains_iff_mem.2 hm
    refine List.mem_map.2 ⟨(p.marker, insertedText context p), List.mem_flatMap.2 ⟨p, hp, ?_⟩, rfl⟩
    simp [replacements, hinline, hpick]

/-- The replacement of a picked marker is that of the parameter it stands for. -/
theorem find?_replacements {m : Text} (hne : m ≠ [])
    (hpick : picks (inlineMarkers s.parameters) s.template m = true) (ps : List Parameter) :
    (ps.flatMap (replacements s context)).find? (fun r => r.1 == m) =
      (ps.find? (fun p => p.place? == some m)).map (fun p => (m, insertedText context p)) := by
  induction ps with
  | nil => rfl
  | cons p ps ih =>
    rw [List.flatMap_cons, List.find?_append, ih, List.find?_cons]
    by_cases hplace : p.place? = some m
    · obtain ⟨hinline, rfl, _⟩ := place?_eq_some.1 hplace
      simp [replacements, hinline, hpick, hplace]
    · have hnone : (replacements s context p).find? (fun r => r.1 == m) = none := by
        rw [List.find?_eq_none]
        intro r hr
        unfold replacements at hr
        split at hr
        · next hp =>
          rw [Bool.and_eq_true] at hp
          obtain rfl := List.mem_singleton.1 hr
          simpa using fun hm => hplace (place?_eq_some.2 ⟨hp.1, hm, hne⟩)
        · simp at hr
      rw [hnone, beq_eq_false_iff_ne.2 hplace]
      rfl

/-- One pass over the template puts the value of each segment in its place. -/
theorem substitute_replacements :
    substitute (s.parameters.flatMap (replacements s context)) s.template =
      s.segments.flatMap (segmentText context) := by
  have hmap : s.segments.map (segmentText context) =
      (pieces (inlineMarkers s.parameters) s.template).map
        (replacePiece (s.parameters.flatMap (replacements s context))) := by
    refine map_filterMap fun piece hpiece => ?_
    obtain ⟨segment, hsegment, _, _⟩ := exists_ofPiece? hpiece
    refine ⟨segment, hsegment, ?_⟩
    cases piece with
    | literal c =>
      obtain rfl := Option.some.inj hsegment
      rfl
    | marker m =>
      obtain ⟨q, hq, rfl⟩ := Option.map_eq_some_iff.1 hsegment
      have hpick := List.contains_iff_mem.2 hpiece
      rw [replacePiece,
        find?_replacements s context ((cut_pieces _ _).mem_of_picked hpiece).2 hpick, hq]
      rfl
  rw [substitute, pieces_replacements]
  generalize s.parameters.flatMap (replacements s context) = rs at hmap ⊢
  rw [List.flatMap_def, List.flatMap_def, hmap]

end Scan

/-- Without parameters every segment is text of the template. -/
theorem segments_of_isStaticAlias {s : Specification} (hs : s.isStaticAlias = true)
    (context : Context) : s.segments.flatMap (segmentText context) = s.template := by
  have hmap : s.segments.map (segmentText context) =
      (s.segments.map Segment.piece).map Piece.text := by
    rw [List.map_map]
    refine List.map_congr_left fun segment hsegment => ?_
    cases segment with
    | literal c => rfl
    | reference p =>
      have hp := (mem_of_reference hsegment).1
      rw [List.isEmpty_iff.1 hs] at hp
      simp at hp
  rw [List.flatMap_def, hmap, ← List.flatMap_def]
  exact (cut_segments s).flatMap_text

theorem flatten_results {α β : Type} {P : α → List β → Prop} {f : α → List β} {l : List α}
    {out : List (List β)} (h : List.Forall₂ P l out) (hf : ∀ a ∈ l, ∀ b, P a b → b = f a) :
    out.flatten = l.flatMap f := by
  induction h with
  | nil => rfl
  | @cons a b l out hab _ ih =>
    rw [List.flatten_cons, List.flatMap_cons, hf a List.mem_cons_self b hab,
      ih fun a' ha' => hf a' (List.mem_cons_of_mem _ ha')]

/-- What a command is put together of, where there is one: all that can fail has not. -/
theorem interpolate_eq_ok {template declaration : Text} {s : Specification}
    (h : ofText template declaration = .ok s) {context : Context} {text : Text}
    (htext : interpolate s context = .ok text) :
    (∀ p ∈ s.parameters, p.isVariadic = false →
      ∃ v, value? context p = some v ∧ v.kind = p.kind) ∧
    text = s.segments.flatMap (segmentText context) ++
      s.parameters.flatMap (forwardedText context) ++ trailingText s context := by
  have hplan := plan_of_ofText h
  unfold interpolate at htext
  split at htext
  · next hs =>
    have hnil : s.parameters = [] := List.isEmpty_iff.1 hs
    obtain rfl := Except.ok.inj htext
    simp [hnil, trailingText, segments_of_isStaticAlias hs context]
  · obtain ⟨rs, hrs, htext⟩ := bind_eq_ok.1 htext
    obtain ⟨os, hos, htext⟩ := bind_eq_ok.1 htext
    rw [hplan] at hrs hos
    have hreplaced := List.forall₂_map_left_iff.1 (mapM_eq_ok.1 hrs)
    have hoptions := List.forall₂_map_left_iff.1 (mapM_eq_ok.1 hos)
    have hrsflat : rs.flatten = s.parameters.flatMap (replacements s context) :=
      flatten_results hreplaced fun p hp r hr => (replacementOf_eq_ok h hp hr).1
    have hosflat : os.flatten = s.parameters.flatMap (forwardedText context) :=
      flatten_results hoptions fun p hp t ht => (optionText_eq_ok h hp ht).1
    constructor
    · intro p hp hvariadic
      cases hinline : p.isInline with
      | true =>
        obtain ⟨r, _, hr⟩ := exists_of_mem_results hreplaced.flip hp
        exact (replacementOf_eq_ok h hp hr).2 (by simp [isReplaced, hinline, hvariadic])
      | false =>
        obtain ⟨t, _, ht⟩ := exists_of_mem_results hoptions.flip hp
        exact (optionText_eq_ok h hp ht).2 hinline
    · rw [← Except.ok.inj htext, hrsflat, hosflat, substitute_replacements,
        remainingText_eq_trailingText h]

/-- A command is the segments of its specification with the values in their places, then
the forwarded options in the order of the parameters, then the words left over if they
have no place. The segments do not depend on the values. -/
theorem interpolate_eq_segments {template declaration : Text} {s : Specification}
    (h : ofText template declaration = .ok s) :
    Cut (inlineMarkers s.parameters) s.template (s.segments.map Segment.piece) ∧
      (∀ p, Segment.reference p ∈ s.segments → p ∈ s.parameters ∧ p.isInline = true) ∧
      ∀ context text, interpolate s context = .ok text →
        (∀ p ∈ s.parameters, p.isVariadic = false →
          ∃ v, value? context p = some v ∧ v.kind = p.kind) ∧
        text = s.segments.flatMap (segmentText context) ++
          s.parameters.flatMap (forwardedText context) ++ trailingText s context := by
  refine ⟨cut_segments s, fun p => mem_of_reference, fun context text htext => ?_⟩
  exact interpolate_eq_ok h htext

/-- One marker begins another, and each value is the other's marker. -/
theorem interpolate_crossed_markers : ∃ s context,
    ofText "cp A AB REST" "just cp A[first] AB[second] --keep[:bool=true] REST[...]" = .ok s ∧
      interpolate s context = .ok "cp AB A x y --keep" ∧
      "cp AB A x y --keep".toList = s.segments.flatMap (segmentText context) ++
        s.parameters.flatMap (forwardedText context) ++ trailingText s context := by
  let context : Context := {
    values := (SortedMap.empty.insert "first" (.str "AB")).insert "second" (.str "A")
    leftovers := ["x", "y"] }
  have h : ofText "cp A AB REST" "just cp A[first] AB[second] --keep[:bool=true] REST[...]" =
      .ok {
        commandName := "cp"
        template := "cp A AB REST"
        parameters := [
          ⟨"first", "A", .str, none, none, .positional⟩,
          ⟨"second", "AB", .str, none, none, .positional⟩,
          ⟨"keep", "--keep", .bool, some (.bool true), none, .forwarded ⟨none, some "--keep"⟩⟩,
          ⟨"rest", "REST", .str, none, none, .variadic⟩]
        plan := [.replace "A" "first", .replace "AB" "second", .appendFlag "--keep" "keep",
          .captureRemaining (some "REST") "rest"] } := by
    decide +kernel
  refine ⟨_, context, h, ?_, ?_⟩
  · decide +kernel
  · exact ((interpolate_eq_segments h).2.2 context _ (by decide +kernel)).2

end Invocation
end TypedCommand
