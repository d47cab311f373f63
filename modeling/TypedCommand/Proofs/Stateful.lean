/-!
Steps that can fail and that change a state; what a step has changed when it fails stays
changed. A chain of steps that leave a part of the state leaves it. So does a chain that fails,
if each step that can fail comes before the first that touches the part.
-/

namespace TypedCommand

variable {ε ε' σ α β γ : Type}

theorem run_bind_eq_ok {x : EStateM ε σ α} {f : α → EStateM ε σ β} {b : β} {s s'' : σ} :
    (x >>= f).run s = .ok b s'' ↔ ∃ a s', x.run s = .ok a s' ∧ (f a).run s' = .ok b s'' := by
  rw [EStateM.run_bind]
  cases x.run s with
  | error e s' => exact ⟨nofun, nofun⟩
  | ok a s' =>
    constructor
    · intro h
      exact ⟨a, s', rfl, h⟩
    · rintro ⟨a', s₁, hx, h⟩
      obtain ⟨rfl, rfl⟩ := EStateM.Result.ok.inj hx
      exact h

theorem run_bind_eq_error {x : EStateM ε σ α} {f : α → EStateM ε σ β} {e : ε} {s s'' : σ} :
    (x >>= f).run s = .error e s'' ↔
      x.run s = .error e s'' ∨ ∃ a s', x.run s = .ok a s' ∧ (f a).run s' = .error e s'' := by
  rw [EStateM.run_bind]
  cases x.run s with
  | error e' s' => simp
  | ok a s' =>
    constructor
    · intro h
      exact Or.inr ⟨a, s', rfl, h⟩
    · rintro (hx | ⟨a', s₁, hx, h⟩)
      · exact absurd hx nofun
      · obtain ⟨rfl, rfl⟩ := EStateM.Result.ok.inj hx
        exact h

theorem run_get_bind (f : σ → EStateM ε σ α) (s : σ) : (get >>= f).run s = (f s).run s :=
  rfl

theorem run_liftExcept_eq_ok {result : Except ε α} {a : α} {s s' : σ} :
    (liftExcept result : EStateM ε σ α).run s = .ok a s' ↔ result = .ok a ∧ s = s' := by
  cases result with
  | error e => exact ⟨nofun, nofun⟩
  | ok a' =>
    constructor
    · intro h
      obtain ⟨rfl, rfl⟩ := EStateM.Result.ok.inj h
      exact ⟨rfl, rfl⟩
    · rintro ⟨h, rfl⟩
      obtain rfl := Except.ok.inj h
      rfl

theorem run_adaptExcept_eq_ok {x : EStateM ε σ α} {g : ε → ε'} {a : α} {s s' : σ} :
    (x.adaptExcept g).run s = .ok a s' ↔ x.run s = .ok a s' := by
  unfold EStateM.run EStateM.adaptExcept
  cases x s with
  | error e s' => simp
  | ok a s' => simp

theorem run_adaptExcept_eq_error {x : EStateM ε σ α} {g : ε → ε'} {e' : ε'} {s s' : σ} :
    (x.adaptExcept g).run s = .error e' s' ↔ ∃ e, x.run s = .error e s' ∧ g e = e' := by
  unfold EStateM.run EStateM.adaptExcept
  cases x s with
  | error e s' => simp [and_right_comm]
  | ok a s' => simp

def stateAfter (x : EStateM ε σ α) (s : σ) : σ :=
  match x.run s with
  | .ok _ s' => s'
  | .error _ s' => s'

/-- What a step comes to, but for the state that it leaves. -/
def resultOf (x : EStateM ε σ α) (s : σ) : Except ε α :=
  match x.run s with
  | .ok a _ => .ok a
  | .error e _ => .error e

/-- However the step ends, this part of the state is as it was. -/
def Leaves (part : σ → γ) (x : EStateM ε σ α) : Prop :=
  ∀ s, part (stateAfter x s) = part s

/-- If the step fails, this part of the state is as it was. -/
def LeavesIfFailing (part : σ → γ) (x : EStateM ε σ α) : Prop :=
  ∀ s e s', x.run s = .error e s' → part s' = part s

def NeverFails (x : EStateM ε σ α) : Prop :=
  ∀ s, ∃ a s', x.run s = .ok a s'

section Step

variable {part : σ → γ} {x : EStateM ε σ α} {f : α → EStateM ε σ β} {s s' : σ}

theorem stateAfter_of_ok {a : α} (h : x.run s = .ok a s') : stateAfter x s = s' := by
  rw [stateAfter, h]

theorem stateAfter_of_error {e : ε} (h : x.run s = .error e s') : stateAfter x s = s' := by
  rw [stateAfter, h]

/-! Steps that leave a part of the state. -/

theorem Leaves.of_ok (h : Leaves part x) {a : α} (hx : x.run s = .ok a s') :
    part s' = part s := by
  rw [← h s, stateAfter_of_ok hx]

theorem Leaves.of_error (h : Leaves part x) {e : ε} (hx : x.run s = .error e s') :
    part s' = part s := by
  rw [← h s, stateAfter_of_error hx]

theorem Leaves.eq_of_ok (h : Leaves id x) {a : α} (hx : x.run s = .ok a s') : s = s' :=
  (h.of_ok hx).symm

theorem leaves_pure (a : α) : Leaves part (pure a : EStateM ε σ α) :=
  fun _ => rfl

theorem leaves_throw (e : ε) : Leaves part (throw e : EStateM ε σ α) :=
  fun _ => rfl

theorem leaves_get : Leaves part (get : EStateM ε σ σ) :=
  fun _ => rfl

theorem leaves_liftExcept (result : Except ε α) :
    Leaves part (liftExcept result : EStateM ε σ α) := by
  cases result with
  | error e => exact leaves_throw e
  | ok a => exact leaves_pure a

theorem leaves_modify {g : σ → σ} (h : ∀ s, part (g s) = part s) :
    Leaves part (modify g : EStateM ε σ PUnit) :=
  h

theorem Leaves.bind (hx : Leaves part x) (hf : ∀ a, Leaves part (f a)) :
    Leaves part (x >>= f) := by
  intro s
  cases hrun : x.run s with
  | error e s' =>
    rw [stateAfter_of_error (run_bind_eq_error.2 (.inl hrun)), hx.of_error hrun]
  | ok a s' =>
    have hafter : stateAfter (x >>= f) s = stateAfter (f a) s' := by
      rw [stateAfter, EStateM.run_bind, hrun]
      rfl
    rw [hafter, hf a s', hx.of_ok hrun]

/-! Steps that leave a part of the state if they fail. -/

theorem Leaves.leavesIfFailing (h : Leaves part x) : LeavesIfFailing part x :=
  fun _ _ _ hx => h.of_error hx

theorem neverFails_pure (a : α) : NeverFails (pure a : EStateM ε σ α) :=
  fun s => ⟨a, s, rfl⟩

theorem neverFails_modify (g : σ → σ) : NeverFails (modify g : EStateM ε σ PUnit) :=
  fun s => ⟨_, g s, rfl⟩

theorem NeverFails.bind (hx : NeverFails x) (hf : ∀ a, NeverFails (f a)) :
    NeverFails (x >>= f) := by
  intro s
  obtain ⟨a, s', hrun⟩ := hx s
  obtain ⟨b, s'', hrun'⟩ := hf a s'
  exact ⟨b, s'', run_bind_eq_ok.2 ⟨a, s', hrun, hrun'⟩⟩

theorem NeverFails.leavesIfFailing (h : NeverFails x) : LeavesIfFailing part x := by
  intro s e s' herror
  obtain ⟨a, s'', hok⟩ := h s
  exact absurd (hok.symm.trans herror) nofun

/-- Before the part is touched, anything may fail. -/
theorem LeavesIfFailing.after (hx : Leaves part x) (hf : ∀ a, LeavesIfFailing part (f a)) :
    LeavesIfFailing part (x >>= f) := by
  intro s e s'' h
  rcases run_bind_eq_error.1 h with hrun | ⟨a, s', hrun, hrun'⟩
  · exact hx.of_error hrun
  · rw [hf a s' e s'' hrun', hx.of_ok hrun]

/-- After the part has been touched, nothing fails. -/
theorem LeavesIfFailing.before (hx : LeavesIfFailing part x) (hf : ∀ a, NeverFails (f a)) :
    LeavesIfFailing part (x >>= f) := by
  intro s e s'' h
  rcases run_bind_eq_error.1 h with hrun | ⟨a, s', _, hrun'⟩
  · exact hx s e s'' hrun
  · obtain ⟨b, s₁, hok⟩ := hf a s'
    exact absurd (hok.symm.trans hrun') nofun

theorem LeavesIfFailing.adaptExcept (h : LeavesIfFailing part x) (g : ε → ε') :
    LeavesIfFailing part (x.adaptExcept g) := by
  intro s e' s' hfails
  obtain ⟨e, hx, _⟩ := run_adaptExcept_eq_error.1 hfails
  exact h s e s' hx

end Step

end TypedCommand
