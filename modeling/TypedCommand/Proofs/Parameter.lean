import Mathlib.Data.List.Pairwise
import Mathlib.Data.List.Perm.Basic
import TypedCommand.Parameter
import TypedCommand.Proofs.Declaration.Accepted
import TypedCommand.Proofs.Parameter.Identifier
import TypedCommand.Proofs.Value

/-!
The parameters made of annotations. Each annotation gives one parameter, no two of them
share a name, a flag or a marker that stands in the template, and the calling order is a
rearrangement: required parameters, then optional ones, then the variadic one.
-/

namespace TypedCommand

open Text

/-- What holds of every parameter that is made of an annotation. -/
structure Parameter.WellFormed (p : Parameter) : Prop where
  name : IsIdentifier p.name
  flags : ∀ f, p.flags? = some f → f.WellFormed
  marker : p.marker = [] → p.isVariadic = true
  default_kind : ∀ v, p.default = some v → v.kind = p.kind
  truth_default : p.isOption = true → p.kind = .bool → p.default ≠ none
  variadic_default : p.isVariadic = true → p.default = none

namespace Parameter

def flagList (p : Parameter) : List Text := (p.flags?.map Flags.toList).getD []

def place? (p : Parameter) : Option Text :=
  if p.isInline && !p.marker.isEmpty then some p.marker else none

/-- Parameters by which a command can be called: none is confused with another. -/
structure Distinct (ps : List Parameter) : Prop where
  names : (ps.map (·.name)).Nodup
  flags : (ps.flatMap flagList).Nodup
  places : (ps.filterMap place?).Nodup

/-- Two parameters do not stand for one marker. -/
theorem Distinct.eq_of_place? {ps : List Parameter} (h : Distinct ps) {p q : Parameter}
    (hp : p ∈ ps) (hq : q ∈ ps) {m : Text} (hpm : p.place? = some m) (hqm : q.place? = some m) :
    p = q := by
  by_contra hne
  have hplaces := List.pairwise_filterMap.1 h.places
  have hsymm : Std.Symm fun p q : Parameter =>
      ∀ m, p.place? = some m → ∀ m', q.place? = some m' → m ≠ m' :=
    ⟨fun p q h m hm m' hm' heq => h m' hm' m hm heq.symm⟩
  exact hplaces.forall hp hq hne m hpm m hqm rfl

structure Fresh (taken : Taken) (ps : List Parameter) : Prop where
  names : ∀ p ∈ ps, p.name ∉ taken.names
  places : ∀ m ∈ ps.filterMap place?, m ∉ taken.markers
  flags : ∀ f ∈ ps.flatMap flagList, f ∉ taken.flags

structure Claims (taken : Taken) (p : Parameter) (later : Taken) : Prop where
  names : later.names = p.name :: taken.names
  markers : later.markers = p.place?.toList ++ taken.markers
  flags : ∀ f, f ∈ later.flags ↔ f ∈ p.flagList ∨ f ∈ taken.flags

/-- Required parameters, then optional ones, then a variadic one if there is any. -/
def InCallingOrder (ps : List Parameter) : Prop :=
  ∃ required optional variadic, ps = required ++ optional ++ variadic ∧
    (∀ p ∈ required, p.isRequired = true) ∧
    (∀ p ∈ optional, p.isRequired = false ∧ p.isVariadic = false) ∧
    (∀ p ∈ variadic, p.isVariadic = true) ∧ variadic.length ≤ 1

/-- A parameter has the fields of its annotation, the name that is given or derived, and
the default as a value. -/
def MadeOf (a : Annotation) (p : Parameter) : Prop :=
  ∃ name default, nameOf a = .ok name ∧ defaultOf name a = .ok default ∧
    p = ⟨name, a.marker, a.kind, default, a.help, a.pattern⟩

theorem isIdentifier_of_nameOf {a : Annotation} {name : Text} (ha : a.WellFormed)
    (h : nameOf a = .ok name) : IsIdentifier name := by
  unfold nameOf at h
  split at h
  · next n hn => exact Except.ok.inj h ▸ ha.name n hn
  · split at h
    · next n hn => exact Except.ok.inj h ▸ isIdentifier_of_identifier? hn
    · simp at h

theorem defaultOf_eq_ok {name : Text} {a : Annotation} {default : Option Value}
    (h : defaultOf name a = .ok default) :
    (∀ v, default = some v → v.kind = a.kind) ∧
      (a.pattern.flags?.isSome = true → a.kind = .bool → default ≠ none) ∧
      (a.default = none → a.kind = .str → default = none) := by
  unfold defaultOf at h
  split at h
  · next text htext =>
    split at h
    · next value hvalue =>
      obtain rfl := Except.ok.inj h
      refine ⟨fun v hv => ?_, by simp, by simp [htext]⟩
      exact Option.some.inj hv ▸ Kind.kind_of_read hvalue
    · simp at h
  · obtain rfl := Except.ok.inj h
    refine ⟨fun v hv => ?_, fun hflags hkind => by simp [hflags, hkind], fun _ hkind => ?_⟩
    · split at hv
      · next hcond =>
        simp only [Bool.and_eq_true, decide_eq_true_eq] at hcond
        exact Option.some.inj hv ▸ hcond.1.symm
      · simp at hv
    · simp [hkind]

theorem MadeOf.wellFormed {a : Annotation} {p : Parameter} (ha : a.WellFormed)
    (h : MadeOf a p) : p.WellFormed := by
  obtain ⟨name, default, hname, hdefault, rfl⟩ := h
  obtain ⟨hkind, htruth, hnone⟩ := defaultOf_eq_ok hdefault
  have hvariadic : a.pattern.isVariadic = true → a.pattern = .variadic := by
    simp [Pattern.isVariadic]
  refine ⟨isIdentifier_of_nameOf ha hname, ha.flags, fun hm => ?_, hkind, htruth, fun hv => ?_⟩
  · simp [isVariadic, Pattern.isVariadic, ha.marker hm]
  · obtain ⟨hstr, hno⟩ := ha.variadic (hvariadic hv)
    exact hnone hno hstr

/-- Flags are claimed only if none of them is taken, and then all of them are. -/
theorem claimFlags_eq_ok {taken flags later : List Text} (h : claimFlags taken flags = .ok later) :
    flags.Nodup ∧ (∀ f ∈ flags, f ∉ taken) ∧ ∀ f, f ∈ later ↔ f ∈ flags ∨ f ∈ taken := by
  induction flags generalizing taken with
  | nil =>
    obtain rfl := Except.ok.inj h
    simp
  | cons flag flags ih =>
    rw [claimFlags] at h
    split at h
    · simp at h
    · next hfree =>
      obtain ⟨hnodup, hnew, hlater⟩ := ih h
      have hfree : flag ∉ taken := by simpa using hfree
      refine ⟨List.nodup_cons.2 ⟨fun hmem => ?_, hnodup⟩, fun f hf => ?_, fun f => ?_⟩
      · exact hnew flag hmem List.mem_cons_self
      · rcases List.mem_cons.1 hf with rfl | hf
        · exact hfree
        · exact fun htaken => hnew f hf (List.mem_cons_of_mem _ htaken)
      · rw [hlater, List.mem_cons, List.mem_cons]
        tauto

theorem MadeOf.place?_eq {a : Annotation} {p : Parameter} (h : MadeOf a p) :
    p.place? = placeOf a := by
  obtain ⟨name, default, _, _, rfl⟩ := h
  unfold place? isInline placeOf
  cases a.pattern <;> cases a.marker <;> simp

/-- A parameter is made only of what is free, and then takes it. -/
theorem ofAnnotation_eq_ok {taken later : Taken} {a : Annotation} {p : Parameter}
    (h : ofAnnotation taken a = .ok (p, later)) :
    MadeOf a p ∧ p.flagList.Nodup ∧ Fresh taken [p] ∧ Claims taken p later := by
  unfold ofAnnotation at h
  obtain ⟨name, hname, h⟩ := bind_eq_ok.1 h
  split at h
  · simp at h
  · next hnew =>
    split at h
    · simp at h
    · next hplace =>
      obtain ⟨default, hdefault, h⟩ := bind_eq_ok.1 h
      obtain ⟨flags, hflags, h⟩ := bind_eq_ok.1 h
      obtain ⟨rfl, rfl⟩ := Prod.mk.inj (Except.ok.inj h)
      obtain ⟨hnodup, hfree, hlater⟩ := claimFlags_eq_ok hflags
      have hmade : MadeOf a ⟨name, a.marker, a.kind, default, a.help, a.pattern⟩ :=
        ⟨name, default, hname, hdefault, rfl⟩
      refine ⟨hmade, hnodup, ⟨?_, fun m hm => ?_, fun f hf => ?_⟩, ⟨rfl, ?_, hlater⟩⟩
      · simpa using hnew
      · rw [List.filterMap_cons, List.filterMap_nil, hmade.place?_eq] at hm
        cases hof : placeOf a with
        | none => simp [hof] at hm
        | some m' =>
          rw [hof, List.mem_singleton] at hm
          simpa [hm, hof] using hplace
      · rw [List.flatMap_singleton] at hf
        exact hfree f hf
      · rw [hmade.place?_eq]

theorem Fresh.cons {taken later : Taken} {p : Parameter} {ps : List Parameter}
    (hp : Fresh taken [p]) (hclaims : Claims taken p later) (h : Fresh later ps) :
    Fresh taken (p :: ps) where
  names q hq := by
    rcases List.mem_cons.1 hq with rfl | hq
    · exact hp.names q List.mem_cons_self
    · exact fun htaken => h.names q hq (hclaims.names ▸ List.mem_cons_of_mem _ htaken)
  places m hm := by
    obtain ⟨q, hq, hqm⟩ := List.mem_filterMap.1 hm
    rcases List.mem_cons.1 hq with rfl | hq
    · exact hp.places m (List.mem_filterMap.2 ⟨q, List.mem_cons_self, hqm⟩)
    · intro htaken
      refine h.places m (List.mem_filterMap.2 ⟨q, hq, hqm⟩) ?_
      rw [hclaims.markers]
      exact List.mem_append_right _ htaken
  flags f hf := by
    rw [List.flatMap_cons, List.mem_append] at hf
    rcases hf with hf | hf
    · exact hp.flags f (by rwa [List.flatMap_singleton])
    · exact fun htaken => h.flags f hf ((hclaims.flags f).2 (Or.inr htaken))

theorem Distinct.cons {taken later : Taken} {p : Parameter} {ps : List Parameter}
    (hnodup : p.flagList.Nodup) (hclaims : Claims taken p later) (hfresh : Fresh later ps)
    (h : Distinct ps) : Distinct (p :: ps) where
  names := by
    rw [List.map_cons, List.nodup_cons]
    refine ⟨fun hmem => ?_, h.names⟩
    obtain ⟨q, hq, heq⟩ := List.mem_map.1 hmem
    exact hfresh.names q hq (hclaims.names ▸ heq ▸ List.mem_cons_self)
  flags := by
    rw [List.flatMap_cons, List.nodup_append]
    refine ⟨hnodup, h.flags, fun f hf g hg heq => ?_⟩
    exact hfresh.flags g hg ((hclaims.flags g).2 (Or.inl (heq ▸ hf)))
  places := by
    rw [List.filterMap_cons]
    split
    · exact h.places
    · next m hm =>
      refine List.nodup_cons.2 ⟨fun hmem => hfresh.places m hmem ?_, h.places⟩
      rw [hclaims.markers, hm]
      exact List.mem_cons_self

/-- The parameters in the order of writing: one for each annotation, and nothing that is
taken is taken again. -/
theorem inOrder_eq_ok {taken : Taken} {annotations : List Annotation} {ps : List Parameter}
    (h : inOrder taken annotations = .ok ps) :
    List.Forall₂ MadeOf annotations ps ∧ Distinct ps ∧ Fresh taken ps := by
  induction annotations generalizing taken ps with
  | nil =>
    obtain rfl := Except.ok.inj h
    exact ⟨.nil, ⟨by simp, by simp, by simp⟩, ⟨by simp, by simp, by simp⟩⟩
  | cons a annotations ih =>
    obtain ⟨⟨p, later⟩, hp, h⟩ := bind_eq_ok.1 h
    obtain ⟨rest, hrest, h⟩ := bind_eq_ok.1 h
    obtain rfl := Except.ok.inj h
    obtain ⟨hmade, hnodup, hfree, hclaims⟩ := ofAnnotation_eq_ok hp
    obtain ⟨hrestMade, hdistinct, hfresh⟩ := ih hrest
    exact ⟨.cons hmade hrestMade, hdistinct.cons hnodup hclaims hfresh, hfree.cons hclaims hfresh⟩

theorem isVariadic_of_isRequired {p : Parameter} (h : p.isRequired = true) :
    p.isVariadic = false := by
  rw [isRequired, Bool.and_eq_true, Bool.not_eq_true'] at h
  exact h.2

/-- The calling order is a rearrangement. -/
theorem reorder_perm (ps : List Parameter) : (reorder ps).Perm ps := by
  have hoptional : ps.filter (fun p => !p.isRequired && !p.isVariadic) =
      (ps.filter (fun p => !p.isVariadic)).filter (fun p => !p.isRequired) := by
    rw [List.filter_filter]
  have hrequired : ps.filter (·.isRequired) =
      (ps.filter (fun p => !p.isVariadic)).filter (·.isRequired) := by
    rw [List.filter_filter]
    refine List.filter_congr fun p _ => ?_
    cases hv : p.isVariadic <;> simp [isRequired, hv]
  unfold reorder
  rw [hrequired, hoptional]
  refine (List.Perm.append_right _ (List.filter_append_perm _ _)).trans ?_
  refine List.perm_append_comm.trans ?_
  exact List.filter_append_perm (fun p : Parameter => p.isVariadic) ps

theorem inCallingOrder_reorder {ps : List Parameter}
    (h : (ps.filter (·.isVariadic)).length ≤ 1) : InCallingOrder (reorder ps) := by
  refine ⟨_, _, _, rfl, fun p hp => ?_, fun p hp => ?_, fun p hp => ?_, h⟩
  · exact (List.mem_filter.1 hp).2
  · simpa using (List.mem_filter.1 hp).2
  · exact (List.mem_filter.1 hp).2

theorem Distinct.perm {ps qs : List Parameter} (h : Distinct ps) (hperm : qs.Perm ps) :
    Distinct qs :=
  ⟨(hperm.map _).nodup_iff.2 h.names, (hperm.flatMap_right _).nodup_iff.2 h.flags,
    (hperm.filterMap _).nodup_iff.2 h.places⟩

theorem countVariadic_of_madeOf {annotations : List Annotation} {ps : List Parameter}
    (h : List.Forall₂ MadeOf annotations ps) :
    (ps.filter (·.isVariadic)).length =
      (annotations.filter (·.pattern.isVariadic)).length := by
  induction h with
  | nil => rfl
  | @cons a p annotations ps hmade _ ih =>
    obtain ⟨name, default, _, _, rfl⟩ := hmade
    rw [List.filter_cons, List.filter_cons]
    change (if a.pattern.isVariadic then _ else _ : List Parameter).length = _
    split
    · rw [List.length_cons, List.length_cons, ih]
    · exact ih

/-- The parameters of a declaration that is well formed. -/
theorem ofAnnotations_eq_ok {d : Declaration} {ps : List Parameter} (hd : d.WellFormed)
    (h : ofAnnotations d.annotations = .ok ps) :
    (∀ p ∈ ps, p.WellFormed) ∧ Distinct ps ∧ InCallingOrder ps := by
  obtain ⟨written, hwritten, rfl⟩ := map_eq_ok.1 h
  obtain ⟨hmade, hdistinct, _⟩ := inOrder_eq_ok hwritten
  have hperm := reorder_perm written
  refine ⟨fun p hp => ?_, hdistinct.perm hperm, inCallingOrder_reorder ?_⟩
  · obtain ⟨a, ha, hap⟩ := exists_of_mem_results hmade (hperm.mem_iff.1 hp)
    exact hap.wellFormed (hd.annotations a ha)
  · exact countVariadic_of_madeOf hmade ▸ hd.one_variadic

end Parameter
end TypedCommand
