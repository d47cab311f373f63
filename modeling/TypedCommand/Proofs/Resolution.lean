import TypedCommand.Proofs.Interpolation

/-!
Which calls fail, and with what. A parameter is at fault if it is given a text that is no
value of its kind, or is required and given none; a call fails with the fault of the first
parameter that has one. Where none has, each parameter has a value of its kind, given or by
default, and nothing that the plan asks for is missing.
-/

namespace TypedCommand

open Parameter Specification

namespace Invocation

/-- What is wrong with that which a call gives to a parameter. The words left over are never
at fault. -/
inductive Fault (a : Arguments) (p : Parameter) : InvocationError → Prop
  | invalidValue {text : Text} (hvariadic : p.isVariadic = false)
      (htext : a.values.get? p.name = some text) (hread : p.kind.read? text = none) :
      Fault a p (.invalidValue p.name ⟨text, p.kind⟩)
  | missingArgument (hvariadic : p.isVariadic = false) (hrequired : p.isRequired = true)
      (htext : a.values.get? p.name = none) : Fault a p (.missingArgument p.name)

/-- The context holds what the call gives to these parameters, as values of their kinds, and
nothing else. -/
structure Resolved (a : Arguments) (ps : List Parameter) (context : Context) : Prop where
  leftovers : context.leftovers = a.leftovers
  faultless : ∀ p ∈ ps, ∀ e, ¬ Fault a p e
  supplied : ∀ p ∈ ps, p.isVariadic = false → ∀ text, a.values.get? p.name = some text →
    ∃ v, p.kind.read? text = some v ∧ v.kind = p.kind ∧ context.values.get? p.name = some v
  bound : ∀ name v, context.values.get? name = some v →
    ∃ p ∈ ps, p.isVariadic = false ∧ p.name = name ∧ ∃ text, a.values.get? name = some text

/-- The context after one more parameter; a variadic one is passed over. -/
def resolveNext (a : Arguments) (context : Context) (p : Parameter) :
    Except InvocationError Context :=
  if !p.isVariadic then resolveParameter a context p else pure context

theorem resolve_eq_foldlM (s : Specification) (a : Arguments) :
    resolve s a = s.parameters.foldlM (resolveNext a) { leftovers := a.leftovers } :=
  List.foldlM_filter

variable {a : Arguments} {p : Parameter} {ps : List Parameter} {context context' : Context}

/-- A parameter stops the call exactly if it is at fault. -/
theorem resolveNext_eq_error (context : Context) (p : Parameter) (e : InvocationError) :
    resolveNext a context p = .error e ↔ Fault a p e := by
  unfold resolveNext
  cases hvariadic : p.isVariadic with
  | true =>
    constructor
    · nofun
    · intro h
      cases h with
      | invalidValue hfalse => exact absurd (hvariadic.symm.trans hfalse) nofun
      | missingArgument hfalse => exact absurd (hvariadic.symm.trans hfalse) nofun
  | false =>
    change resolveParameter a context p = .error e ↔ _
    unfold resolveParameter Kind.read
    constructor
    · intro h
      cases htext : a.values.get? p.name with
      | some text =>
        rw [htext] at h
        cases hread : p.kind.read? text with
        | some v => simp [hread] at h
        | none =>
          simp only [hread, Except.error.injEq] at h
          exact h ▸ .invalidValue hvariadic htext hread
      | none =>
        rw [htext] at h
        dsimp only at h
        split at h
        · next hrequired => exact Except.error.inj h ▸ .missingArgument hvariadic hrequired htext
        · simp at h
    · intro h
      cases h with
      | invalidValue _ htext hread => simp [htext, hread]
      | missingArgument _ hrequired htext => simp [htext, hrequired]

/-- All that a parameter without a fault can come to. -/
theorem resolveNext_eq_ok (h : resolveNext a context p = .ok context') :
    (∃ text v, p.isVariadic = false ∧ a.values.get? p.name = some text ∧
      p.kind.read? text = some v ∧
      context' = { context with values := context.values.insert p.name v }) ∨
    (context' = context ∧ (p.isVariadic = true ∨ a.values.get? p.name = none)) := by
  unfold resolveNext at h
  cases hvariadic : p.isVariadic with
  | true =>
    rw [hvariadic] at h
    exact Or.inr ⟨(Except.ok.inj h).symm, Or.inl rfl⟩
  | false =>
    rw [hvariadic] at h
    change resolveParameter a context p = .ok context' at h
    unfold resolveParameter Kind.read at h
    cases htext : a.values.get? p.name with
    | some text =>
      rw [htext] at h
      cases hread : p.kind.read? text with
      | some v =>
        simp only [hread, Except.ok.injEq] at h
        exact Or.inl ⟨text, v, rfl, rfl, hread, h.symm⟩
      | none => simp [hread] at h
    | none =>
      rw [htext] at h
      dsimp only at h
      split at h
      · simp at h
      · exact Or.inr ⟨(Except.ok.inj h).symm, Or.inr rfl⟩

/-- A call fails with the fault of the first parameter that is at fault. -/
theorem resolve_eq_error {s : Specification} {e : InvocationError} :
    resolve s a = .error e ↔ ∃ before p after, s.parameters = before ++ p :: after ∧
      Fault a p e ∧ ∀ q ∈ before, ∀ e', ¬ Fault a q e' := by
  rw [resolve_eq_foldlM]
  exact foldlM_eq_error resolveNext_eq_error

/-- What is wrong with a call is determined by what is wrong with each parameter. -/
theorem resolve_eq_error_congr {s : Specification} {a' : Arguments}
    (h : ∀ p ∈ s.parameters, ∀ e, Fault a' p e ↔ Fault a p e) (e : InvocationError) :
    resolve s a' = .error e ↔ resolve s a = .error e := by
  rw [resolve_eq_error, resolve_eq_error]
  apply exists_congr
  intro before
  apply exists_congr
  intro p
  apply exists_congr
  intro after
  apply and_congr_right
  intro hsplit
  rw [hsplit] at h
  apply and_congr (h p (by simp) e)
  apply forall₂_congr
  intro q hq
  apply forall_congr'
  intro e'
  exact not_congr (h q (List.mem_append_left _ hq) e')

theorem resolved_start (a : Arguments) : Resolved a [] { leftovers := a.leftovers } where
  leftovers := rfl
  faultless := by simp
  supplied := by simp
  bound := by simp [SortedMap.get?_empty]

/-- One more parameter, of another name than those before it. -/
theorem Resolved.next (h : Resolved a ps context) (hname : p.name ∉ ps.map (·.name))
    (hnext : resolveNext a context p = .ok context') : Resolved a (ps ++ [p]) context' := by
  have hsound : ∀ e, ¬ Fault a p e := by
    intro e hfault
    exact absurd (hnext.symm.trans ((resolveNext_eq_error context p e).2 hfault)) nofun
  have hfaultless : ∀ q ∈ ps ++ [p], ∀ e, ¬ Fault a q e := by
    intro q hq
    rcases List.mem_append.1 hq with hq | hq
    · exact h.faultless q hq
    · exact List.mem_singleton.1 hq ▸ hsound
  have hother : ∀ q ∈ ps, q.name ≠ p.name := fun q hq heq => hname (heq ▸ List.mem_map_of_mem hq)
  rcases resolveNext_eq_ok hnext with ⟨text, v, hvariadic, htext, hread, rfl⟩ | ⟨rfl, hnone⟩
  · refine ⟨h.leftovers, hfaultless, fun q hq hqvariadic t ht => ?_, fun name w hw => ?_⟩
    · rw [SortedMap.get?_insert]
      rcases List.mem_append.1 hq with hq | hq
      · rw [if_neg (hother q hq)]
        exact h.supplied q hq hqvariadic t ht
      · obtain rfl := List.mem_singleton.1 hq
        obtain rfl := Option.some.inj (htext.symm.trans ht)
        exact ⟨v, hread, Kind.kind_of_read? hread, if_pos rfl⟩
    · rw [SortedMap.get?_insert] at hw
      split at hw
      · next heq => exact ⟨p, by simp, hvariadic, heq.symm, text, heq ▸ htext⟩
      · obtain ⟨q, hq, hbound⟩ := h.bound name w hw
        exact ⟨q, List.mem_append_left _ hq, hbound⟩
  · refine ⟨h.leftovers, hfaultless, fun q hq hqvariadic t ht => ?_, fun name w hw => ?_⟩
    · rcases List.mem_append.1 hq with hq | hq
      · exact h.supplied q hq hqvariadic t ht
      · obtain rfl := List.mem_singleton.1 hq
        rcases hnone with hvariadic | htext
        · exact absurd (hvariadic.symm.trans hqvariadic) nofun
        · exact absurd (htext.symm.trans ht) nofun
    · obtain ⟨q, hq, hbound⟩ := h.bound name w hw
      exact ⟨q, List.mem_append_left _ hq, hbound⟩

/-- What one parameter keeps, all of them keep. -/
theorem Resolved.run {more : List Parameter} (h : Resolved a ps context)
    (hnames : ((ps ++ more).map (·.name)).Nodup)
    (hrun : more.foldlM (resolveNext a) context = .ok context') :
    Resolved a (ps ++ more) context' := by
  induction more generalizing ps context with
  | nil =>
    obtain rfl := Except.ok.inj hrun
    simpa using h
  | cons p more ih =>
    rw [List.foldlM_cons] at hrun
    obtain ⟨context₁, hnext, hrun⟩ := bind_eq_ok.1 hrun
    have hname : p.name ∉ ps.map (·.name) := by
      intro hmem
      rw [List.map_append, List.nodup_append] at hnames
      exact hnames.2.2 _ hmem _ List.mem_cons_self rfl
    have hsplit : ps ++ p :: more = (ps ++ [p]) ++ more := by simp
    rw [hsplit] at hnames ⊢
    exact ih (h.next hname hnext) hnames hrun

/-- A name that is given no text has no value in the context. -/
theorem Resolved.get?_eq_none (h : Resolved a ps context) {name : Text}
    (htext : a.values.get? name = none) : context.values.get? name = none := by
  by_contra hne
  obtain ⟨v, hv⟩ := Option.ne_none_iff_exists'.1 hne
  obtain ⟨_, _, _, _, text, hsome⟩ := h.bound name v hv
  exact absurd (htext.symm.trans hsome) nofun

section Compiled

variable {template declaration : Text} {s : Specification}
  (h : ofText template declaration = .ok s)

include h

theorem resolved_of_resolve (hresolve : resolve s a = .ok context) :
    Resolved a s.parameters context := by
  rw [resolve_eq_foldlM] at hresolve
  exact (resolved_start a).run (parameters_of_ofText h).2.1.names hresolve

/-- Where no parameter is at fault, each has a value of its kind. -/
theorem Resolved.exists_value (hresolved : Resolved a s.parameters context)
    (hp : p ∈ s.parameters) (hvariadic : p.isVariadic = false) :
    ∃ v, value? context p = some v ∧ v.kind = p.kind := by
  unfold value?
  cases htext : a.values.get? p.name with
  | some text =>
    obtain ⟨v, _, hkind, hv⟩ := hresolved.supplied p hp hvariadic text htext
    exact ⟨v, by simp [hv], hkind⟩
  | none =>
    have hunbound : context.values.get? p.name = none := hresolved.get?_eq_none htext
    cases hdefault : p.default with
    | some v =>
      refine ⟨v, by simp [hunbound], ?_⟩
      exact ((parameters_of_ofText h).1 p hp).default_kind v hdefault
    | none =>
      have hrequired : p.isRequired = true := by simp [isRequired, hdefault, hvariadic]
      exact absurd (.missingArgument hvariadic hrequired htext) (hresolved.faultless p hp _)

/-- A step of the plan finds the value that it replaces a marker by. -/
theorem exists_replacementOf (hp : p ∈ s.parameters)
    (hvalue : p.isVariadic = false → ∃ v, value? context p = some v ∧ v.kind = p.kind) :
    ∃ rs, replacementOf s context (plannedStep s.template s.parameters p) = .ok rs := by
  have hnames := (parameters_of_ofText h).2.1.names
  unfold plannedStep
  cases hpattern : p.pattern with
  | forwarded flags => exact ⟨_, rfl⟩
  | variadic =>
    dsimp only
    split
    · exact ⟨_, rfl⟩
    · exact ⟨_, rfl⟩
  | positional | option =>
    obtain ⟨v, hv⟩ := hvalue (by simp [isVariadic, hpattern, Pattern.isVariadic])
    exact ⟨_, bind_eq_ok.2 ⟨v, (valueOf_eq_ok hnames hp).2 hv, rfl⟩⟩

/-- A step of the plan finds the value that it appends. -/
theorem exists_optionText (hp : p ∈ s.parameters)
    (hvalue : p.isVariadic = false → ∃ v, value? context p = some v ∧ v.kind = p.kind) :
    ∃ t, optionText s context (plannedStep s.template s.parameters p) = .ok t := by
  have hnames := (parameters_of_ofText h).2.1.names
  unfold plannedStep
  cases hpattern : p.pattern with
  | forwarded flags =>
    obtain ⟨v, hv⟩ := hvalue (by simp [isVariadic, hpattern, Pattern.isVariadic])
    have hvalueOf := (valueOf_eq_ok hnames hp).2 hv
    cases v with
    | bool b => cases b <;> exact ⟨_, bind_eq_ok.2 ⟨_, hvalueOf, rfl⟩⟩
    | str | int | float => exact ⟨_, bind_eq_ok.2 ⟨_, hvalueOf, rfl⟩⟩
  | positional | option | variadic => exact ⟨_, rfl⟩

/-- A context with a value for each parameter gives a command. -/
theorem exists_interpolate (hvalues : ∀ p ∈ s.parameters, p.isVariadic = false →
    ∃ v, value? context p = some v ∧ v.kind = p.kind) :
    ∃ command, interpolate s context = .ok command := by
  unfold interpolate
  split
  · exact ⟨_, rfl⟩
  · have hplan := plan_of_ofText h
    have hmem : ∀ step ∈ s.plan, ∃ p ∈ s.parameters,
        plannedStep s.template s.parameters p = step := fun step hstep =>
      List.mem_map.1 (hplan ▸ hstep)
    have hreplaced : ∃ rs, s.plan.mapM (replacementOf s context) = .ok rs := by
      refine exists_mapM_eq_ok fun step hstep => ?_
      obtain ⟨p, hp, rfl⟩ := hmem step hstep
      exact exists_replacementOf h hp (hvalues p hp)
    have hoptions : ∃ os, s.plan.mapM (optionText s context) = .ok os := by
      refine exists_mapM_eq_ok fun step hstep => ?_
      obtain ⟨p, hp, rfl⟩ := hmem step hstep
      exact exists_optionText h hp (hvalues p hp)
    obtain ⟨rs, hrs⟩ := hreplaced
    obtain ⟨os, hos⟩ := hoptions
    exact ⟨_, bind_eq_ok.2 ⟨rs, hrs, bind_eq_ok.2 ⟨os, hos, rfl⟩⟩⟩

end Compiled

/-- A call fails exactly if a parameter is at fault, and then with the fault of the first
one. If none is, the context holds what is given and nothing else, and it gives a command:
all that can fail has failed before the template is filled. -/
theorem resolve_finds_faults {template declaration : Text} {s : Specification}
    (h : ofText template declaration = .ok s) (a : Arguments) :
    (∀ e, resolve s a = .error e ↔ ∃ before p after, s.parameters = before ++ p :: after ∧
      Fault a p e ∧ ∀ q ∈ before, ∀ e', ¬ Fault a q e') ∧
    ((∃ e, resolve s a = .error e) ↔ ∃ p ∈ s.parameters, p.isVariadic = false ∧
      ((∃ text, a.values.get? p.name = some text ∧ p.kind.read? text = none) ∨
        p.isRequired = true ∧ a.values.get? p.name = none)) ∧
    (∀ context, resolve s a = .ok context → Resolved a s.parameters context ∧
      ∃ command, interpolate s context = .ok command) ∧
    ∀ e, command s a = .error e ↔ resolve s a = .error e := by
  have hfirst : ∀ e, resolve s a = .error e ↔ ∃ before p after,
      s.parameters = before ++ p :: after ∧ Fault a p e ∧ ∀ q ∈ before, ∀ e', ¬ Fault a q e' := by
    intro e
    rw [resolve_eq_foldlM]
    exact foldlM_eq_error resolveNext_eq_error
  have hcommand : ∀ context, resolve s a = .ok context → Resolved a s.parameters context ∧
      ∃ command, interpolate s context = .ok command := by
    intro context hresolve
    have hresolved := resolved_of_resolve h hresolve
    exact ⟨hresolved, exists_interpolate h fun p hp => hresolved.exists_value h hp⟩
  refine ⟨hfirst, ⟨?_, ?_⟩, hcommand, fun e => ?_⟩
  · rintro ⟨e, he⟩
    obtain ⟨before, p, after, hsplit, hfault, _⟩ := (hfirst e).1 he
    refine ⟨p, by simp [hsplit], ?_⟩
    cases hfault with
    | invalidValue hvariadic htext hread => exact ⟨hvariadic, Or.inl ⟨_, htext, hread⟩⟩
    | missingArgument hvariadic hrequired htext => exact ⟨hvariadic, Or.inr ⟨hrequired, htext⟩⟩
  · rintro ⟨p, hp, hvariadic, hfault⟩
    have hfault' : ∃ e, Fault a p e := by
      rcases hfault with ⟨text, htext, hread⟩ | ⟨hrequired, htext⟩
      · exact ⟨_, .invalidValue hvariadic htext hread⟩
      · exact ⟨_, .missingArgument hvariadic hrequired htext⟩
    obtain ⟨e, hfault'⟩ := hfault'
    cases hresolve : resolve s a with
    | error e' => exact ⟨e', rfl⟩
    | ok context => exact absurd hfault' ((hcommand context hresolve).1.faultless p hp e)
  · unfold command
    cases hresolve : resolve s a with
    | error e' =>
      change Except.error e' = Except.error e ↔ _
      rw [Except.error.injEq, Except.error.injEq]
    | ok context =>
      obtain ⟨_, text, htext⟩ := hcommand context hresolve
      change interpolate s context = .error e ↔ _
      rw [htext]
      simp

set_option maxRecDepth 4000 in
/-- Two parameters are at fault; the first one in calling order was written last. -/
theorem resolve_finds_first_of_two : ∃ s a,
    ofText "seq -s SEP FROM TO" "just seq TO[to:int=9] -s SEP[sep:str=x] FROM[from:int]" = .ok s ∧
      a.values.get? "to" = some "nine".toList ∧ a.values.get? "from" = none ∧
      command s a = .error (.missingArgument "from") := by
  let a : Arguments := { values := SortedMap.empty.insert "to" "nine" }
  have h : ofText "seq -s SEP FROM TO" "just seq TO[to:int=9] -s SEP[sep:str=x] FROM[from:int]" =
      .ok {
        commandName := "seq"
        template := "seq -s SEP FROM TO"
        parameters := [
          ⟨"from", "FROM", .int, none, none, .positional⟩,
          ⟨"to", "TO", .int, some (.int 9), none, .positional⟩,
          ⟨"sep", "SEP", .str, some (.str "x"), none, .option ⟨some "-s", none⟩⟩]
        plan := [.replace "FROM" "from", .replace "TO" "to", .replace "SEP" "sep"] } := by
    decide +kernel
  have hcalls := resolve_finds_faults h a
  have hfirst := (hcalls.1 _).2 ⟨[], _, _, rfl, .missingArgument rfl rfl rfl, by simp⟩
  exact ⟨_, a, h, rfl, rfl, (hcalls.2.2.2 _).2 hfirst⟩

end Invocation
end TypedCommand
