import TypedCommand.Proofs.Parameter
import TypedCommand.Proofs.Template
import TypedCommand.Specification

/-!
Compiled specifications. What compiling gives is read off once, in `ofText_eq_ok`; from
it follow the form of the name and the template, the form of the parameters, and the
plan, which has the step of each parameter in its place.
-/

namespace TypedCommand.Specification

open Text Parameter

/-- The step by which the value of a parameter goes into a template. -/
def plannedStep (template : Text) (ps : List Parameter) (p : Parameter) : Step :=
  match p.pattern with
  | .forwarded _ => .appendFlag p.marker p.name
  | .variadic =>
    .captureRemaining
      (if Template.picks (inlineMarkers ps) template p.marker then some p.marker else none) p.name
  | _ => .replace p.marker p.name

def isReplaced (p : Parameter) : Bool := p.isInline && !p.isVariadic

theorem stepOf_eq_ok {template : Text} {ps : List Parameter} {p : Parameter} {step : Step}
    (h : stepOf template (Template.picks (inlineMarkers ps) template) p = .ok step) :
    step = plannedStep template ps p ∧
      (isReplaced p = true → Template.picks (inlineMarkers ps) template p.marker = true) := by
  have hreplaced : (if Template.picks (inlineMarkers ps) template p.marker then
        .ok (.replace p.marker p.name)
      else .error (DeclarationError.unresolvedMarker p.marker p.name template)) = Except.ok step →
      step = .replace p.marker p.name ∧
        Template.picks (inlineMarkers ps) template p.marker = true := by
    intro hstep
    split at hstep
    · next hpicked => exact ⟨(Except.ok.inj hstep).symm, hpicked⟩
    · simp at hstep
  unfold stepOf at h
  unfold plannedStep isReplaced isInline isVariadic Pattern.isVariadic
  cases hp : p.pattern with
  | forwarded flags =>
    rw [hp] at h
    exact ⟨(Except.ok.inj h).symm, by simp⟩
  | variadic =>
    rw [hp] at h
    exact ⟨(Except.ok.inj h).symm, by simp⟩
  | positional =>
    rw [hp] at h
    exact ⟨(hreplaced h).1, fun _ => (hreplaced h).2⟩
  | option flags =>
    rw [hp] at h
    exact ⟨(hreplaced h).1, fun _ => (hreplaced h).2⟩

/-- What compiling a declaration text for a template gives. -/
theorem ofText_eq_ok {template declaration : Text} {s : Specification}
    (h : ofText template declaration = .ok s) :
    ∃ d ps, Declaration.read declaration = .ok d ∧ ofAnnotations d.annotations = .ok ps ∧
      template.trim ≠ [] ∧
      (∀ p ∈ ps, isReplaced p = true →
        Template.picks (inlineMarkers ps) template.trim p.marker = true) ∧
      s = ⟨d.name, template.trim, ps, ps.map (plannedStep template.trim ps)⟩ := by
  obtain ⟨d, hd, h⟩ := bind_eq_ok.1 h
  unfold compile at h
  dsimp only at h
  split at h
  · simp at h
  · next hne =>
    obtain ⟨ps, hps, h⟩ := bind_eq_ok.1 h
    obtain ⟨plan, hplan, h⟩ := bind_eq_ok.1 h
    obtain rfl := Except.ok.inj h
    have hsteps := mapM_eq_ok.1 hplan
    refine ⟨d, ps, hd, hps, by simpa using hne, fun p hp => ?_, ?_⟩
    · obtain ⟨step, _, hstep⟩ := exists_of_mem_results hsteps.flip hp
      exact (stepOf_eq_ok hstep).2
    · congr 1
      rw [← List.forall₂_eq_eq_eq, List.forall₂_map_right_iff]
      exact hsteps.flip.imp fun _ _ hstep => (stepOf_eq_ok hstep).1

section Compiled

variable {template declaration : Text} {s : Specification}
  (h : ofText template declaration = .ok s)

include h

theorem commandName_of_ofText :
    s.path ≠ [] ∧ (∀ w ∈ s.path, IsName w) ∧ s.commandName = [' '].intercalate s.path := by
  obtain ⟨d, ps, hd, _, _, _, rfl⟩ := ofText_eq_ok h
  have hform := Declaration.WellFormed.of_read hd
  have hpath : words d.name = d.path :=
    words_intercalate fun w hw => (hform.path_names w hw).isWord
  refine ⟨?_, ?_, ?_⟩
  · rw [path, hpath]
    exact hform.path_ne_nil
  · rw [path, hpath]
    exact hform.path_names
  · rw [path, hpath]
    rfl

theorem template_of_ofText :
    s.template ≠ [] ∧ (∀ c, s.template.head? = some c → isBlank c = false) ∧
      ∀ c, s.template.getLast? = some c → isBlank c = false := by
  obtain ⟨d, ps, _, _, hne, _, rfl⟩ := ofText_eq_ok h
  exact ⟨hne, fun c => head?_trim, fun c => getLast?_trim⟩

theorem parameters_of_ofText :
    (∀ p ∈ s.parameters, p.WellFormed) ∧ Distinct s.parameters ∧
      InCallingOrder s.parameters := by
  obtain ⟨d, ps, hd, hps, _, _, rfl⟩ := ofText_eq_ok h
  exact ofAnnotations_eq_ok (.of_read hd) hps

theorem picks_of_ofText {p : Parameter} (hp : p ∈ s.parameters) (hreplaced : isReplaced p = true) :
    Template.picks (inlineMarkers s.parameters) s.template p.marker = true := by
  obtain ⟨d, ps, _, _, _, hpicked, rfl⟩ := ofText_eq_ok h
  exact hpicked p hp hreplaced

theorem plan_of_ofText : s.plan = s.parameters.map (plannedStep s.template s.parameters) := by
  obtain ⟨d, ps, _, _, _, _, rfl⟩ := ofText_eq_ok h
  rfl

end Compiled

/-- A specification that a call can rely on: nothing in it is empty, ambiguous or out of
order, and every marker that a value replaces is found in the template. -/
structure WellFormed (s : Specification) : Prop where
  name : ∃ words, words ≠ [] ∧ (∀ w ∈ words, IsName w) ∧
    s.commandName = [' '].intercalate words
  template_ne_nil : s.template ≠ []
  template_front : ∀ c, s.template.head? = some c → isBlank c = false
  template_end : ∀ c, s.template.getLast? = some c → isBlank c = false
  identifiers : ∀ p ∈ s.parameters, IsIdentifier p.name
  names : (s.parameters.map (·.name)).Nodup
  option_flags : ∀ p ∈ s.parameters, ∀ f, p.flags? = some f → f.WellFormed
  flags : (s.parameters.flatMap flagList).Nodup
  order : InCallingOrder s.parameters
  default_kind : ∀ p ∈ s.parameters, ∀ v, p.default = some v → v.kind = p.kind
  truth_default : ∀ p ∈ s.parameters, p.isOption = true → p.kind = .bool → p.default ≠ none
  variadic_default : ∀ p ∈ s.parameters, p.isVariadic = true → p.default = none
  markers : ((inlineMarkers s.parameters).filter (fun m => !m.isEmpty)).Nodup
  found : ∀ p ∈ s.parameters, isReplaced p = true → p.marker ≠ [] ∧
    ∃ o ∈ Template.scan (inlineMarkers s.parameters) s.template, o.marker = p.marker
  plan : s.plan = s.parameters.map (plannedStep s.template s.parameters)

theorem filterMap_place? (ps : List Parameter) :
    ps.filterMap place? = (inlineMarkers ps).filter (fun m => !m.isEmpty) := by
  induction ps with
  | nil => rfl
  | cons p ps ih =>
    rw [List.filterMap_cons, place?, ih]
    unfold inlineMarkers
    rw [List.filter_cons]
    cases hi : p.isInline <;> cases hm : p.marker.isEmpty <;> simp_all

/-- Every specification that is compiled is well formed. -/
theorem wellFormed_of_ofText {template declaration : Text} {s : Specification}
    (h : ofText template declaration = .ok s) : s.WellFormed := by
  obtain ⟨hne, hnames, hname⟩ := commandName_of_ofText h
  obtain ⟨htemplate, hfront, hend⟩ := template_of_ofText h
  obtain ⟨hforms, hdistinct, horder⟩ := parameters_of_ofText h
  exact {
    name := ⟨s.path, hne, hnames, hname⟩
    template_ne_nil := htemplate
    template_front := hfront
    template_end := hend
    identifiers := fun p hp => (hforms p hp).name
    names := hdistinct.names
    option_flags := fun p hp => (hforms p hp).flags
    flags := hdistinct.flags
    order := horder
    default_kind := fun p hp => (hforms p hp).default_kind
    truth_default := fun p hp => (hforms p hp).truth_default
    variadic_default := fun p hp => (hforms p hp).variadic_default
    markers := filterMap_place? s.parameters ▸ hdistinct.places
    found := fun p hp hreplaced => by
      have hpicked := picks_of_ofText h hp hreplaced
      have hscan := (Template.picks_iff_scan _ _ _).1 hpicked
      refine ⟨fun hnil => ?_, hscan⟩
      have hvariadic := (hforms p hp).marker hnil
      simp [isReplaced, hvariadic] at hreplaced
    plan := plan_of_ofText h }

set_option maxRecDepth 4000 in
/-- Each pattern once: a replaced word, a forwarded option, a replaced option, and the
words left over, which have no place in the template. -/
theorem wellFormed_sync : ∃ s,
    ofText "rsync MODE SRC"
      "just sync files --verbose[-v:bool] -m/--mode MODE[:int=3#how] SRC[src] [...]" = .ok s ∧
      s.WellFormed := by
  have h : ofText "rsync MODE SRC"
      "just sync files --verbose[-v:bool] -m/--mode MODE[:int=3#how] SRC[src] [...]" = .ok {
        commandName := "sync files"
        template := "rsync MODE SRC"
        parameters := [
          ⟨"src", "SRC", .str, none, none, .positional⟩,
          ⟨"v", "--verbose", .bool, some (.bool false), none, .forwarded ⟨some "-v", none⟩⟩,
          ⟨"mode", "MODE", .int, some (.int 3), some "how", .option ⟨some "-m", some "--mode"⟩⟩,
          ⟨"args", [], .str, none, none, .variadic⟩]
        plan := [.replace "SRC" "src", .appendFlag "--verbose" "v", .replace "MODE" "mode",
          .captureRemaining none "args"] } := by
    decide +kernel
  exact ⟨_, h, wellFormed_of_ofText h⟩

end TypedCommand.Specification
