import Mathlib.Data.List.Nodup
import TypedCommand.Proofs.Parameter

/-!
When annotations have parameters, and which ones. The checks that are made one annotation after
the other ask for a name of each annotation, for defaults that convert, and for names, markers and
flags that are all different; nothing else is refused. The calling order is the only rearrangement
that puts the three groups one after the other and keeps the order inside each of them.
-/

namespace TypedCommand.Parameter

/-- The name that an annotation gives, or else the identifier made of what it is named after. -/
def chosenName? (a : Annotation) : Option Text :=
  match a.name with
  | some name => some name
  | none => identifier? (nameSource a)

def declaredFlags (a : Annotation) : List Text := (a.pattern.flags?.map Flags.toList).getD []

structure Buildable (annotations : List Annotation) : Prop where
  named : ∀ a ∈ annotations, a.name = none → identifier? (nameSource a) ≠ none
  names : (annotations.map chosenName?).Nodup
  places : annotations.Pairwise fun a b =>
    (∀ flags, a.pattern ≠ .forwarded flags) → (∀ flags, b.pattern ≠ .forwarded flags) →
      a.marker ≠ [] → a.marker ≠ b.marker
  defaults : ∀ a ∈ annotations, ∀ text, a.default = some text → ∃ v, a.kind.read text = .ok v
  flags : (annotations.flatMap declaredFlags).Nodup

/-- The default of an annotation as a value: its text converted to its kind, and without a text
false for a truth option. -/
def DefaultValue (a : Annotation) (default : Option Value) : Prop :=
  match a.default with
  | some text => ∃ v, a.kind.read text = .ok v ∧ default = some v
  | none => default = if a.kind = .bool ∧ a.pattern.flags? ≠ none then some (.bool false) else none

structure Carries (a : Annotation) (p : Parameter) : Prop where
  name : chosenName? a = some p.name
  marker : p.marker = a.marker
  kind : p.kind = a.kind
  default : DefaultValue a p.default
  help : p.help = a.help
  pattern : p.pattern = a.pattern

/-- Three groups of parameters: required ones, optional ones and variadic ones. -/
structure Grouped (required optional variadic : List Parameter) : Prop where
  required : ∀ p ∈ required, p.isRequired = true
  optional : ∀ p ∈ optional, p.isRequired = false ∧ p.isVariadic = false
  variadic : ∀ p ∈ variadic, p.isVariadic = true

/-- A rearrangement that puts the required parameters before the optional ones and these before
the variadic ones, and keeps the order inside each of the three groups. -/
def Rearranged (ps qs : List Parameter) : Prop :=
  qs.Perm ps ∧ ∃ required optional variadic, qs = required ++ optional ++ variadic ∧
    Grouped required optional variadic ∧
    required.Sublist ps ∧ optional.Sublist ps ∧ variadic.Sublist ps

section Single

variable {a : Annotation} {p : Parameter} {name : Text} {default : Option Value}

theorem nameOf_eq_ok_iff : nameOf a = .ok name ↔ chosenName? a = some name := by
  unfold nameOf chosenName?
  cases a.name with
  | some given => simp
  | none => cases identifier? (nameSource a) <;> simp

theorem defaultOf_eq_ok_iff : defaultOf name a = .ok default ↔ DefaultValue a default := by
  unfold defaultOf DefaultValue
  cases a.default with
  | none =>
    have hcond : (decide (a.kind = .bool) && a.pattern.flags?.isSome) = true ↔
        a.kind = .bool ∧ a.pattern.flags? ≠ none := by
      rw [Bool.and_eq_true, decide_eq_true_eq, Option.isSome_iff_ne_none]
    simp only [hcond]
    exact ⟨fun h => (Except.ok.inj h).symm, fun h => congrArg _ h.symm⟩
  | some text =>
    dsimp only
    cases a.kind.read text with
    | error failure => exact ⟨nofun, fun ⟨_, hv, _⟩ => absurd hv nofun⟩
    | ok value =>
      constructor
      · exact fun h => ⟨value, rfl, (Except.ok.inj h).symm⟩
      · rintro ⟨v, hv, rfl⟩
        rw [Except.ok.inj hv]

theorem madeOf_iff_carries : MadeOf a p ↔ Carries a p := by
  constructor
  · rintro ⟨name, default, hname, hdefault, rfl⟩
    exact ⟨nameOf_eq_ok_iff.1 hname, rfl, rfl, defaultOf_eq_ok_iff.1 hdefault, rfl, rfl⟩
  · intro h
    refine ⟨p.name, p.default, nameOf_eq_ok_iff.2 h.name, defaultOf_eq_ok_iff.2 h.default, ?_⟩
    rw [← h.marker, ← h.kind, ← h.help, ← h.pattern]

theorem exists_chosenName? (h : a.name = none → identifier? (nameSource a) ≠ none) :
    ∃ name, chosenName? a = some name := by
  unfold chosenName?
  cases hgiven : a.name with
  | some given => exact ⟨given, rfl⟩
  | none => exact Option.ne_none_iff_exists'.1 (h hgiven)

theorem exists_defaultValue (h : ∀ text, a.default = some text → ∃ v, a.kind.read text = .ok v) :
    ∃ default, DefaultValue a default := by
  unfold DefaultValue
  cases htext : a.default with
  | none => exact ⟨_, rfl⟩
  | some text =>
    obtain ⟨v, hv⟩ := h text htext
    exact ⟨some v, v, hv, rfl⟩

/-- An annotation is carried by some parameter if it has a name and its default converts. -/
theorem exists_carries_iff : (∃ p, Carries a p) ↔
    (a.name = none → identifier? (nameSource a) ≠ none) ∧
      ∀ text, a.default = some text → ∃ v, a.kind.read text = .ok v := by
  constructor
  · rintro ⟨p, hp⟩
    constructor
    · intro hnone hidentifier
      have hname := hp.name
      rw [chosenName?, hnone] at hname
      exact absurd (hidentifier.symm.trans hname) nofun
    · intro text htext
      have hdefault := hp.default
      rw [DefaultValue, htext] at hdefault
      obtain ⟨v, hv, _⟩ := hdefault
      exact ⟨v, hv⟩
  · rintro ⟨hnamed, hconverts⟩
    obtain ⟨name, hname⟩ := exists_chosenName? hnamed
    obtain ⟨default, hdefault⟩ := exists_defaultValue hconverts
    exact ⟨⟨name, a.marker, a.kind, default, a.help, a.pattern⟩, hname, rfl, rfl, hdefault, rfl, rfl⟩

end Single

section Checks

variable {taken later : Taken} {a : Annotation} {p : Parameter} {ps : List Parameter}

/-- Flags that differ from each other and from those taken can be claimed. -/
theorem exists_claimFlags {taken flags : List Text} (hnodup : flags.Nodup)
    (hfree : ∀ f ∈ flags, f ∉ taken) : ∃ later, claimFlags taken flags = .ok later := by
  induction flags generalizing taken with
  | nil => exact ⟨taken, rfl⟩
  | cons flag flags ih =>
    obtain ⟨hnew, hnodup⟩ := List.nodup_cons.1 hnodup
    obtain ⟨hflag, hfree⟩ := List.forall_mem_cons.1 hfree
    have hfree' : ∀ f ∈ flags, f ∉ flag :: taken := by
      intro f hf hmem
      rcases List.mem_cons.1 hmem with rfl | htaken
      · exact hnew hf
      · exact hfree f hf htaken
    obtain ⟨later, hlater⟩ := ih hnodup hfree'
    exact ⟨later, by rw [claimFlags, if_neg (by simpa using hflag), hlater]⟩

/-- An annotation is refused only for what it takes twice or what is taken. -/
theorem exists_ofAnnotation (hmade : MadeOf a p) (hnodup : p.flagList.Nodup)
    (hfresh : Fresh taken [p]) : ∃ later, ofAnnotation taken a = .ok (p, later) := by
  have hplace := hmade.place?_eq
  obtain ⟨name, default, hname, hdefault, rfl⟩ := hmade
  have hfree : ∀ f ∈ flagList ⟨name, a.marker, a.kind, default, a.help, a.pattern⟩,
      f ∉ taken.flags := by
    intro f hf
    exact hfresh.flags f (by rwa [List.flatMap_singleton])
  obtain ⟨flags, hflags⟩ := exists_claimFlags hnodup hfree
  have hnew : ¬ taken.names.contains name = true := by
    simpa using hfresh.names _ List.mem_cons_self
  have hunplaced : ¬ (placeOf a).any taken.markers.contains = true := by
    rw [← hplace]
    cases hm : place? ⟨name, a.marker, a.kind, default, a.help, a.pattern⟩ with
    | none => simp
    | some m => simpa using hfresh.places m (by simp [hm])
  refine ⟨⟨name :: taken.names, (placeOf a).toList ++ taken.markers, flags⟩,
    bind_eq_ok.2 ⟨name, hname, ?_⟩⟩
  rw [if_neg hnew, if_neg hunplaced]
  exact bind_eq_ok.2 ⟨default, hdefault, bind_eq_ok.2 ⟨flags, hflags, rfl⟩⟩

theorem Fresh.head (h : Fresh taken (p :: ps)) : Fresh taken [p] where
  names q hq := h.names q (List.mem_singleton.1 hq ▸ List.mem_cons_self)
  places m hm := h.places m (List.Sublist.mem hm (List.Sublist.filterMap _ (by simp)))
  flags f hf := h.flags f (by
    rw [List.flatMap_singleton] at hf
    exact List.mem_flatMap.2 ⟨p, List.mem_cons_self, hf⟩)

/-- What is free before a parameter, and is none of its own, is free after it. -/
theorem Fresh.tail (h : Fresh taken (p :: ps)) (hdistinct : Distinct (p :: ps))
    (hclaims : Claims taken p later) : Fresh later ps where
  names q hq hmem := by
    rw [hclaims.names] at hmem
    rcases List.mem_cons.1 hmem with heq | htaken
    · have hnew := (List.nodup_cons.1 hdistinct.names).1
      exact hnew (List.mem_map.2 ⟨q, hq, heq⟩)
    · exact h.names q (List.mem_cons_of_mem _ hq) htaken
  places m hm hmem := by
    rw [hclaims.markers, List.mem_append, Option.mem_toList] at hmem
    have hplaces := hdistinct.places
    rcases hmem with hown | htaken
    · rw [List.filterMap_cons_some hown] at hplaces
      exact (List.nodup_cons.1 hplaces).1 hm
    · obtain ⟨q, hq, hqm⟩ := List.mem_filterMap.1 hm
      exact h.places m (List.mem_filterMap.2 ⟨q, List.mem_cons_of_mem _ hq, hqm⟩) htaken
  flags f hf hmem := by
    rcases (hclaims.flags f).1 hmem with hown | htaken
    · have hflags := hdistinct.flags
      rw [List.flatMap_cons, List.nodup_append] at hflags
      exact hflags.2.2 f hown f hf rfl
    · refine h.flags f ?_ htaken
      rw [List.flatMap_cons]
      exact List.mem_append_right _ hf

theorem Distinct.tail (h : Distinct (p :: ps)) : Distinct ps where
  names := (List.nodup_cons.1 h.names).2
  flags := by
    have hflags := h.flags
    rw [List.flatMap_cons, List.nodup_append] at hflags
    exact hflags.2.1
  places := h.places.sublist (List.Sublist.filterMap _ (List.sublist_cons_self p ps))

/-- Annotations are made into the parameters that carry them, if these are distinct and take
nothing that is taken. -/
theorem inOrder_of_distinct {annotations : List Annotation}
    (hmade : List.Forall₂ MadeOf annotations ps) (hdistinct : Distinct ps)
    (hfresh : Fresh taken ps) : inOrder taken annotations = .ok ps := by
  induction hmade generalizing taken with
  | nil => rfl
  | @cons a p annotations ps hp _ ih =>
    have hflags := hdistinct.flags
    rw [List.flatMap_cons, List.nodup_append] at hflags
    obtain ⟨later, hlater⟩ := exists_ofAnnotation hp hflags.1 hfresh.head
    obtain ⟨_, _, _, hclaims⟩ := ofAnnotation_eq_ok hlater
    have hrest := ih hdistinct.tail (hfresh.tail hdistinct hclaims)
    exact bind_eq_ok.2 ⟨(p, later), hlater, bind_eq_ok.2 ⟨ps, hrest, rfl⟩⟩

theorem fresh_start (ps : List Parameter) : Fresh {} ps :=
  ⟨fun _ _ => List.not_mem_nil, fun _ _ => List.not_mem_nil, fun _ _ => List.not_mem_nil⟩

theorem placeOf_eq_some {m : Text} : placeOf a = some m ↔
    (∀ flags, a.pattern ≠ .forwarded flags) ∧ a.marker ≠ [] ∧ a.marker = m := by
  unfold placeOf
  cases a.pattern <;> cases a.marker <;> simp

/-- Parameters are distinct if their annotations name, place and flag them apart. -/
theorem distinct_iff {annotations : List Annotation} (h : List.Forall₂ Carries annotations ps) :
    Distinct ps ↔ (annotations.map chosenName?).Nodup ∧
      (annotations.Pairwise fun a b =>
        (∀ flags, a.pattern ≠ .forwarded flags) → (∀ flags, b.pattern ≠ .forwarded flags) →
          a.marker ≠ [] → a.marker ≠ b.marker) ∧
      (annotations.flatMap declaredFlags).Nodup := by
  have hnames : (ps.map (·.name)).map some = annotations.map chosenName? := by
    rw [List.map_map]
    exact map_eq_of_results h fun a p hp => hp.name.symm
  have hplaces : ps.map place? = annotations.map placeOf :=
    map_eq_of_results h fun a p hp => (madeOf_iff_carries.2 hp).place?_eq
  have hflags : ps.map flagList = annotations.map declaredFlags := by
    refine map_eq_of_results h fun a p hp => ?_
    rw [flagList, declaredFlags, flags?, hp.pattern]
  have hplacesIff : (ps.filterMap place?).Nodup ↔ annotations.Pairwise fun a b =>
      (∀ flags, a.pattern ≠ .forwarded flags) → (∀ flags, b.pattern ≠ .forwarded flags) →
        a.marker ≠ [] → a.marker ≠ b.marker := by
    have hfilter : ps.filterMap place? = annotations.filterMap placeOf := by
      have hsame := congrArg (List.filterMap id) hplaces
      rwa [List.filterMap_map, List.filterMap_map] at hsame
    rw [hfilter, List.Nodup, List.pairwise_filterMap]
    refine List.Pairwise.iff fun a b => ?_
    simp only [placeOf_eq_some]
    constructor
    · rintro h ha hb hne heq
      exact h _ ⟨ha, hne, rfl⟩ _ ⟨hb, heq ▸ hne, rfl⟩ heq
    · rintro h _ ⟨ha, hne, rfl⟩ _ ⟨hb, _, rfl⟩
      exact h ha hb hne
  constructor
  · rintro ⟨hn, hf, hp⟩
    refine ⟨?_, hplacesIff.1 hp, ?_⟩
    · rw [← hnames]
      exact hn.map fun _ _ => Option.some.inj
    · rw [List.flatMap_def] at hf ⊢
      rwa [← hflags]
  · rintro ⟨hn, hp, hf⟩
    refine ⟨?_, ?_, hplacesIff.2 hp⟩
    · rw [← hnames] at hn
      exact hn.of_map
    · rw [List.flatMap_def] at hf ⊢
      rwa [hflags]

end Checks

section Order

variable {ps qs required optional variadic : List Parameter}

theorem isRequired_of_isVariadic {p : Parameter} (h : p.isVariadic = true) :
    p.isRequired = false := by
  rw [isRequired, h, Bool.not_true, Bool.and_false]

section Grouped

variable (h : Grouped required optional variadic)

include h

theorem Grouped.filter_required :
    (required ++ optional ++ variadic).filter (·.isRequired) = required := by
  have hoptional : optional.filter (·.isRequired) = [] :=
    List.filter_eq_nil_iff.2 fun p hp => ne_true_of_eq_false (h.optional p hp).1
  have hvariadic : variadic.filter (·.isRequired) = [] :=
    List.filter_eq_nil_iff.2 fun p hp =>
      ne_true_of_eq_false (isRequired_of_isVariadic (h.variadic p hp))
  rw [List.filter_append, List.filter_append, List.filter_eq_self.2 h.required, hoptional,
    hvariadic, List.append_nil, List.append_nil]

theorem Grouped.filter_optional :
    (required ++ optional ++ variadic).filter (fun p => !p.isRequired && !p.isVariadic) =
      optional := by
  have hrequired : required.filter (fun p => !p.isRequired && !p.isVariadic) = [] :=
    List.filter_eq_nil_iff.2 fun p hp => by simp [h.required p hp]
  have hoptional : ∀ p ∈ optional, (!p.isRequired && !p.isVariadic) = true := by
    intro p hp
    rw [(h.optional p hp).1, (h.optional p hp).2]
    rfl
  have hvariadic : variadic.filter (fun p => !p.isRequired && !p.isVariadic) = [] :=
    List.filter_eq_nil_iff.2 fun p hp => by simp [h.variadic p hp]
  rw [List.filter_append, List.filter_append, hrequired, List.filter_eq_self.2 hoptional,
    hvariadic, List.nil_append, List.append_nil]

theorem Grouped.filter_variadic :
    (required ++ optional ++ variadic).filter (·.isVariadic) = variadic := by
  have hrequired : required.filter (·.isVariadic) = [] :=
    List.filter_eq_nil_iff.2 fun p hp =>
      ne_true_of_eq_false (isVariadic_of_isRequired (h.required p hp))
  have hoptional : optional.filter (·.isVariadic) = [] :=
    List.filter_eq_nil_iff.2 fun p hp => ne_true_of_eq_false (h.optional p hp).2
  rw [List.filter_append, List.filter_append, hrequired, hoptional,
    List.filter_eq_self.2 h.variadic, List.nil_append, List.nil_append]

/-- Groups in calling order are not moved. -/
theorem Grouped.reorder_eq :
    reorder (required ++ optional ++ variadic) = required ++ optional ++ variadic := by
  rw [reorder, h.filter_required, h.filter_optional, h.filter_variadic]

end Grouped

/-- The elements of a rearrangement that pass a test are in their first order if they are a
sublist of the first order. -/
theorem filter_eq_of_perm {test : Parameter → Bool} {group : List Parameter} (hperm : qs.Perm ps)
    (hgroup : qs.filter test = group) (hsub : group.Sublist ps) : ps.filter test = group := by
  have hpass : group.filter test = group := by rw [← hgroup, List.filter_filter]; simp
  have hsub' : group.Sublist (ps.filter test) := hpass ▸ hsub.filter test
  have hlength : (ps.filter test).length = group.length := by
    rw [← hgroup, (hperm.filter test).length_eq]
  exact (hsub'.eq_of_length hlength.symm).symm

theorem grouped_reorder (ps : List Parameter) :
    Grouped (ps.filter (·.isRequired)) (ps.filter (fun p => !p.isRequired && !p.isVariadic))
      (ps.filter (·.isVariadic)) where
  required p hp := (List.mem_filter.1 hp).2
  optional p hp := by simpa using (List.mem_filter.1 hp).2
  variadic p hp := (List.mem_filter.1 hp).2

/-- The calling order is the one rearrangement that keeps the order inside the groups. -/
theorem rearranged_iff : Rearranged ps qs ↔ qs = reorder ps := by
  constructor
  · rintro ⟨hperm, required, optional, variadic, rfl, hgroups, hrequired, hoptional, hvariadic⟩
    rw [reorder, filter_eq_of_perm hperm hgroups.filter_required hrequired,
      filter_eq_of_perm hperm hgroups.filter_optional hoptional,
      filter_eq_of_perm hperm hgroups.filter_variadic hvariadic]
  · rintro rfl
    exact ⟨reorder_perm ps, _, _, _, rfl, grouped_reorder ps, List.filter_sublist,
      List.filter_sublist, List.filter_sublist⟩

end Order

section Outcome

variable {annotations : List Annotation} {written ps : List Parameter}

theorem Buildable.distinct (h : Buildable annotations)
    (hcarries : List.Forall₂ Carries annotations written) : Distinct written :=
  (distinct_iff hcarries).2 ⟨h.names, h.places, h.flags⟩

/-- Annotations can be built together if distinct parameters carry them. -/
theorem buildable_iff : Buildable annotations ↔
    ∃ written, List.Forall₂ Carries annotations written ∧ Distinct written := by
  constructor
  · intro h
    obtain ⟨written, hcarries⟩ := exists_results fun a ha =>
      exists_carries_iff.2 ⟨h.named a ha, h.defaults a ha⟩
    exact ⟨written, hcarries, h.distinct hcarries⟩
  · rintro ⟨written, hcarries, hdistinct⟩
    have hforms : ∀ a ∈ annotations, ∃ p, Carries a p := by
      intro a ha
      obtain ⟨p, _, hp⟩ := exists_of_mem_results hcarries.flip ha
      exact ⟨p, hp⟩
    obtain ⟨hnames, hplaces, hflags⟩ := (distinct_iff hcarries).1 hdistinct
    exact ⟨fun a ha => (exists_carries_iff.1 (hforms a ha)).1, hnames, hplaces,
      fun a ha => (exists_carries_iff.1 (hforms a ha)).2, hflags⟩

theorem ofAnnotations_eq_ok_iff_carries : ofAnnotations annotations = .ok ps ↔
    ∃ written, List.Forall₂ Carries annotations written ∧ Distinct written ∧
      Rearranged written ps := by
  have hforms : ∀ written, List.Forall₂ MadeOf annotations written ↔
      List.Forall₂ Carries annotations written := by
    intro written
    exact ⟨fun h => h.imp fun _ _ => madeOf_iff_carries.1,
      fun h => h.imp fun _ _ => madeOf_iff_carries.2⟩
  constructor
  · intro h
    obtain ⟨written, hwritten, rfl⟩ := map_eq_ok.1 h
    obtain ⟨hmade, hdistinct, _⟩ := inOrder_eq_ok hwritten
    exact ⟨written, (hforms written).1 hmade, hdistinct, rearranged_iff.2 rfl⟩
  · rintro ⟨written, hcarries, hdistinct, hrearranged⟩
    have hwritten : inOrder {} annotations = .ok written :=
      inOrder_of_distinct ((hforms written).2 hcarries) hdistinct (fresh_start written)
    exact map_eq_ok.2 ⟨written, hwritten, (rearranged_iff.1 hrearranged).symm⟩

end Outcome

/-- Parameters are made of annotations exactly if each one has a name and a default that converts,
and names, markers in the template and flags are all different. They are then the parameters that
carry the annotations one by one, put into calling order: the only rearrangement with the required
ones first, then the optional ones, then the variadic ones, each group in the order of writing. -/
theorem ofAnnotations_eq_ok_iff_buildable (annotations : List Annotation) :
    ((∃ ps, ofAnnotations annotations = .ok ps) ↔ Buildable annotations) ∧
    (∀ ps, ofAnnotations annotations = .ok ps ↔ Buildable annotations ∧
      ∃ written, List.Forall₂ Carries annotations written ∧ Rearranged written ps) ∧
    ∀ ps : List Parameter, (∀ qs, Rearranged ps qs ↔ qs = reorder ps) ∧
      reorder (reorder ps) = reorder ps := by
  refine ⟨?_, fun ps => ?_, fun ps => ⟨fun qs => rearranged_iff, (grouped_reorder ps).reorder_eq⟩⟩
  · rw [buildable_iff]
    constructor
    · rintro ⟨ps, h⟩
      obtain ⟨written, hcarries, hdistinct, _⟩ := ofAnnotations_eq_ok_iff_carries.1 h
      exact ⟨written, hcarries, hdistinct⟩
    · rintro ⟨written, hcarries, hdistinct⟩
      exact ⟨reorder written, ofAnnotations_eq_ok_iff_carries.2
        ⟨written, hcarries, hdistinct, rearranged_iff.2 rfl⟩⟩
  · rw [ofAnnotations_eq_ok_iff_carries]
    constructor
    · rintro ⟨written, hcarries, hdistinct, hrearranged⟩
      exact ⟨buildable_iff.2 ⟨written, hcarries, hdistinct⟩, written, hcarries, hrearranged⟩
    · rintro ⟨hbuildable, written, hcarries, hrearranged⟩
      exact ⟨written, hcarries, hbuildable.distinct hcarries, hrearranged⟩

end TypedCommand.Parameter
