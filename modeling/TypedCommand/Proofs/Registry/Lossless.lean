import TypedCommand.Proofs.Store

/-!
Keeping a registry loses nothing. What is read back agrees with what was written field by
field; all that is not a number counts as one value. So a default comes back as a value of
its own kind, whatever its text looks like.
-/

namespace TypedCommand

/-- Values that agree, where all that is not a number is one value. -/
inductive Value.Agrees : Value → Value → Prop
  | refl (v : Value) : Agrees v v
  | notANumber {x y : Binary64} (hx : x.isNaN = true) (hy : y.isNaN = true) :
      Agrees (.float x) (.float y)

structure Parameter.Agrees (p q : Parameter) : Prop where
  name : p.name = q.name
  marker : p.marker = q.marker
  kind : p.kind = q.kind
  default : Option.Rel Value.Agrees p.default q.default
  help : p.help = q.help
  pattern : p.pattern = q.pattern

structure Specification.Agrees (s t : Specification) : Prop where
  commandName : s.commandName = t.commandName
  template : s.template = t.template
  parameters : List.Forall₂ Parameter.Agrees s.parameters t.parameters
  plan : s.plan = t.plan

def Registry.Agrees (r r' : Registry) : Prop :=
  List.Forall₂ (fun e e' => e.1 = e'.1 ∧ e.2.Agrees e'.2) r.entries r'.entries

namespace Value

theorem Agrees.kind_eq {v w : Value} (h : v.Agrees w) : v.kind = w.kind := by
  cases h with
  | refl => rfl
  | notANumber => rfl

/-- A value that is not a number agrees with its like alone, and any other with itself. -/
theorem Agrees.eq_of_not_isNaN {v w : Value} (h : v.Agrees w)
    (hv : ∀ x, v = .float x → x.isNaN = false) : v = w := by
  cases h with
  | refl => rfl
  | notANumber hx => exact absurd hx (by simp [hv _ rfl])

theorem agrees_settle (v : Value) : v.Agrees v.settle := by
  cases v with
  | float x =>
    cases hx : x.isNaN with
    | false =>
      rw [settle, Binary64.settle_of_not_isNaN hx]
      exact .refl _
    | true =>
      rw [settle, Binary64.settle_of_isNaN hx]
      exact .notANumber hx rfl
  | str t => exact .refl _
  | int n => exact .refl _
  | bool b => exact .refl _

end Value

theorem Parameter.agrees_settle (p : Parameter) : p.Agrees p.settle where
  name := rfl
  marker := rfl
  kind := rfl
  default := by
    rw [settle]
    cases p.default with
    | none => exact .none
    | some v => exact .some v.agrees_settle
  help := rfl
  pattern := rfl

theorem Specification.agrees_settle (s : Specification) : s.Agrees s.settle where
  commandName := rfl
  template := rfl
  parameters := by
    rw [settle, List.forall₂_map_right_iff]
    exact List.forall₂_same.2 fun p _ => p.agrees_settle
  plan := rfl

theorem Registry.agrees_settle (r : Registry) : r.Agrees r.settle := by
  rw [Registry.Agrees, settle, List.forall₂_map_right_iff]
  exact List.forall₂_same.2 fun e _ => ⟨rfl, e.2.agrees_settle⟩

/-- The default of a parameter is found in another with its kind, and as it is unless it is
not a number. -/
def Parameter.KeepsDefault (p q : Parameter) : Prop :=
  ∀ v, p.default = some v → ∃ w, q.default = some w ∧ w.kind = v.kind ∧
    ((∀ x, v = .float x → x.isNaN = false) → w = v)

theorem Parameter.Agrees.keepsDefault {p q : Parameter} (h : p.Agrees q) : p.KeepsDefault q := by
  intro v hv
  have hdefault := h.default
  rw [hv] at hdefault
  generalize q.default = d at hdefault
  cases hdefault with
  | some hagrees =>
    exact ⟨_, rfl, hagrees.kind_eq.symm, fun hnumber => (hagrees.eq_of_not_isNaN hnumber).symm⟩

namespace Store

/-- Whatever is in a registry, what is read back after it has been written agrees with it:
the names, and of each specification all fields. In particular each default stays a value of
its kind, and the value that it was. -/
theorem registry_write_agrees (r : Registry) :
    ∃ back, registry (some (Registry.Format.write r)) = .ok back ∧ r.Agrees back ∧
      ∀ name s, r.get? name = some s → ∃ t, back.get? name = some t ∧ s.Agrees t ∧
        List.Forall₂ Parameter.KeepsDefault s.parameters t.parameters := by
  refine ⟨r.settle, registry_write r, r.agrees_settle, fun name s hs => ?_⟩
  have hagrees := s.agrees_settle
  refine ⟨s.settle, ?_, hagrees, hagrees.parameters.imp fun _ _ hp => hp.keepsDefault⟩
  rw [Registry.get?_settle, hs, Option.map_some]

/-- Texts that look like values of another kind, a whole number with a point, and names, flags
and lists with nothing in them. -/
def lookalikes : Registry :=
  let parameter (default : Value) : Parameter :=
    ⟨"x", "é\n\"'", default.kind, some default, some [], .option {}⟩
  SortedMap.ofList [([], ⟨"a  b", "#", [parameter (.str "true"), parameter (.str "2.0"),
    parameter (.float (Binary64.nearest false 2 1)), parameter (.int 2)], []⟩),
    ("x.y", ⟨[], [], [], []⟩)]

example : (registry (some (Registry.Format.write lookalikes))).toOption.map (·.entries) =
    some lookalikes.entries := by
  decide +kernel

end Store
end TypedCommand
