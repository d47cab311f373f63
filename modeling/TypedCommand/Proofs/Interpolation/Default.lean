import TypedCommand.Proofs.Arguments.Truth
import TypedCommand.Proofs.Value

/-!
What a default stands for. A command is made of the values that the parameters have in a context
and of the words left over, and of nothing else; a default and its own text come to the same
value. So a call that leaves a parameter out ends as the call does in which the text of the
default is written, in the same command or with the same error.
-/

namespace TypedCommand

open Parameter Specification

namespace Invocation

section Context

variable {s : Specification} {context context' : Context}
  (hvalues : ∀ p ∈ s.parameters, value? context p = value? context' p)

include hvalues

/-- Whether a value was given or comes from a default cannot be told from it. -/
theorem valueOf_congr (name : Text) : valueOf s context name = valueOf s context' name := by
  unfold valueOf
  cases hfound : s.parameter? name with
  | none => rfl
  | some p =>
    have hname : p.name = name := by simpa using List.find?_some hfound
    have hvalue := hvalues p (List.mem_of_find?_eq_some hfound)
    unfold value? at hvalue
    rw [hname] at hvalue
    dsimp only
    rw [hvalue]

theorem optionText_congr (step : Step) : optionText s context step = optionText s context' step := by
  cases step with
  | replace | captureRemaining => rfl
  | appendFlag flag param =>
    unfold optionText
    dsimp only
    rw [valueOf_congr hvalues]

variable (hleftovers : context.leftovers = context'.leftovers)

include hleftovers

theorem replacementOf_congr (step : Step) :
    replacementOf s context step = replacementOf s context' step := by
  cases step with
  | replace marker param => rw [replacementOf, replacementOf, valueOf_congr hvalues]
  | appendFlag => rfl
  | captureRemaining marker param =>
    cases marker with
    | none => rfl
    | some marker =>
      rw [replacementOf, replacementOf, joinedLeftovers, joinedLeftovers, hleftovers]

/-- Contexts in which each parameter has the same value give the same command. -/
theorem interpolate_congr : interpolate s context = interpolate s context' := by
  have hreplacements : replacementOf s context = replacementOf s context' :=
    funext (replacementOf_congr hvalues hleftovers)
  have hoptions : optionText s context = optionText s context' :=
    funext (optionText_congr hvalues)
  have hremaining : remainingText s context = remainingText s context' := by
    rw [remainingText, remainingText, joinedLeftovers, joinedLeftovers, hleftovers]
  unfold interpolate
  rw [hreplacements, hoptions, hremaining]

end Context

variable {s : Specification} {a a' : Arguments} {p q : Parameter} {v : Value}

/-- What is wrong with a parameter is seen from the text that it is given. -/
theorem Fault.of_get?_eq {e : InvocationError} (hfault : Fault a p e)
    (h : a'.values.get? p.name = a.values.get? p.name) : Fault a' p e := by
  cases hfault with
  | invalidValue hvariadic htext hread => exact .invalidValue hvariadic (h.trans htext) hread
  | missingArgument hvariadic hrequired htext =>
    exact .missingArgument hvariadic hrequired (h.trans htext)

/-- The variadic parameter has no value of its own in a context. -/
theorem Resolved.value?_of_isVariadic {context : Context}
    (hresolved : Resolved a s.parameters context) (hnames : (s.parameters.map (·.name)).Nodup)
    (hq : q ∈ s.parameters) (hvariadic : q.isVariadic = true) :
    value? context q = q.default := by
  have hnone : context.values.get? q.name = none := by
    by_contra hsome
    obtain ⟨w, hw⟩ := Option.ne_none_iff_exists'.1 hsome
    obtain ⟨r, hr, hrvariadic, hname, _⟩ := hresolved.bound q.name w hw
    have hrq : r = q := List.inj_on_of_nodup_map hnames hr hq hname
    rw [hrq, hvariadic] at hrvariadic
    exact absurd hrvariadic nofun
  rw [value?, hnone]
  rfl

section Compiled

variable {template declaration : Text} (h : ofText template declaration = .ok s)
  (hp : p ∈ s.parameters) (hkind : p.kind ≠ .float) (hdefault : p.default = some v)
  (hnone : a.values.get? p.name = none)

include h hp hkind hdefault

/-- The text of a default is one that the parameter can be given. -/
theorem read?_text_default : p.kind.read? v.text = some v := by
  have hv : v.kind = p.kind := ((parameters_of_ofText h).1 p hp).default_kind v hdefault
  rw [← hv] at hkind ⊢
  exact Value.read?_text hkind

include hnone

/-- Giving the default neither makes a fault nor mends one. -/
theorem fault_give_default (hq : q ∈ s.parameters) (e : InvocationError) :
    Fault (a.give p v.text) q e ↔ Fault a q e := by
  by_cases hqp : q = p
  · subst hqp
    have hgiven : (a.give q v.text).values.get? q.name = some v.text := by
      rw [Arguments.get?_give, if_pos rfl]
    constructor
    · intro hfault
      cases hfault with
      | invalidValue _ htext hread =>
        obtain rfl := Option.some.inj (hgiven.symm.trans htext)
        exact absurd (hread.symm.trans (read?_text_default h hp hkind hdefault)) nofun
      | missingArgument _ _ htext => exact absurd (hgiven.symm.trans htext) nofun
    · intro hfault
      cases hfault with
      | invalidValue _ htext => exact absurd (hnone.symm.trans htext) nofun
      | missingArgument _ hrequired => simp [isRequired, hdefault] at hrequired
  · have hname : q.name ≠ p.name := by
      intro hname
      exact hqp (List.inj_on_of_nodup_map (parameters_of_ofText h).2.1.names hq hp hname)
    have hother : (a.give p v.text).values.get? q.name = a.values.get? q.name := by
      rw [Arguments.get?_give, if_neg hname]
    exact ⟨fun hfault => hfault.of_get?_eq hother.symm, fun hfault => hfault.of_get?_eq hother⟩

/-- Each parameter has the value that it has without the text. -/
theorem value?_give_default (hq : q ∈ s.parameters) :
    (a.give p v.text).value? q = a.value? q := by
  unfold Arguments.value?
  rw [Arguments.get?_give]
  by_cases hname : q.name = p.name
  · have hqp : q = p := List.inj_on_of_nodup_map (parameters_of_ofText h).2.1.names hq hp hname
    rw [if_pos hname, hname, hnone, hqp, hdefault]
    exact read?_text_default h hp hkind hdefault
  · rw [if_neg hname]

end Compiled

/-- A parameter that is left out has its default as if the text of it had been given: the call
gives the same command, or fails with the same error. -/
theorem command_give_default {template declaration : Text}
    (h : ofText template declaration = .ok s) (hp : p ∈ s.parameters) (hkind : p.kind ≠ .float)
    (hdefault : p.default = some v) (hnone : a.values.get? p.name = none) :
    command s (a.give p v.text) = command s a := by
  have hnames := (parameters_of_ofText h).2.1.names
  have herrors : ∀ e, resolve s (a.give p v.text) = .error e ↔ resolve s a = .error e := by
    apply resolve_eq_error_congr
    intro q hq e
    exact fault_give_default h hp hkind hdefault hnone hq e
  unfold command
  cases hresolve : resolve s a with
  | error e => rw [(herrors e).2 hresolve]
  | ok context =>
    cases hresolve' : resolve s (a.give p v.text) with
    | error e => exact absurd (hresolve.symm.trans ((herrors e).1 hresolve')) nofun
    | ok context' =>
      have hresolved := resolved_of_resolve h hresolve
      have hresolved' := resolved_of_resolve h hresolve'
      have hvalues : ∀ q ∈ s.parameters, value? context' q = value? context q := by
        intro q hq
        cases hvariadic : q.isVariadic with
        | true =>
          rw [hresolved'.value?_of_isVariadic hnames hq hvariadic,
            hresolved.value?_of_isVariadic hnames hq hvariadic]
        | false =>
          rw [Arguments.value?_of_resolved hresolved' hq hvariadic,
            Arguments.value?_of_resolved hresolved hq hvariadic]
          exact value?_give_default h hp hkind hdefault hnone hq
      have hleftovers : context'.leftovers = context.leftovers :=
        hresolved'.leftovers.trans hresolved.leftovers.symm
      exact interpolate_congr hvalues hleftovers

/-- The least integer of 64 bits as the default of a marker that occurs twice, beside an option
that is given. -/
theorem command_give_least : ∃ s p a,
    ofText "seq FROM FROM" "just seq FROM[from:int=-9223372036854775808] --all[-a:bool]" =
      .ok s ∧ p ∈ s.parameters ∧ p.default = some (.int Int64.minValue) ∧
    command s a = .ok "seq -9223372036854775808 -9223372036854775808 --all" ∧
    command s (a.give p "-9223372036854775808") = command s a := by
  let a : Arguments := { values := SortedMap.empty.insert "a" "yes" }
  have h : ofText "seq FROM FROM" "just seq FROM[from:int=-9223372036854775808] --all[-a:bool]" =
      .ok {
        commandName := "seq"
        template := "seq FROM FROM"
        parameters := [
          ⟨"from", "FROM", .int, some (.int Int64.minValue), none, .positional⟩,
          ⟨"a", "--all", .bool, some (.bool false), none, .forwarded ⟨some "-a", none⟩⟩]
        plan := [.replace "FROM" "from", .appendFlag "--all" "a"] } := by
    decide +kernel
  have hcommand := command_give_default (a := a) h List.mem_cons_self (by decide) rfl rfl
  have htext : (Value.int Int64.minValue).text = "-9223372036854775808".toList := by
    decide +kernel
  rw [htext] at hcommand
  exact ⟨_, _, a, h, List.mem_cons_self, rfl, by decide +kernel, hcommand⟩

end Invocation
end TypedCommand
