import Mathlib.Data.List.Forall2
import Mathlib.Data.List.Nodup

/-!
Steps that can fail. A chain of them succeeds exactly if each step does, and its result
is that of the last one; a list of them gives its results item by item. To look for an item
by a key that is its own finds that item.
-/

namespace TypedCommand

variable {ε α β : Type}

theorem bind_eq_ok {x : Except ε α} {f : α → Except ε β} {b : β} :
    x >>= f = .ok b ↔ ∃ a, x = .ok a ∧ f a = .ok b := by
  cases x with
  | error e => exact ⟨nofun, nofun⟩
  | ok a => exact ⟨fun h => ⟨a, rfl, h⟩, fun ⟨_, ha, h⟩ => Except.ok.inj ha ▸ h⟩

theorem map_eq_ok {x : Except ε α} {f : α → β} {b : β} :
    x.map f = .ok b ↔ ∃ a, x = .ok a ∧ f a = b := by
  cases x with
  | error e => exact ⟨nofun, nofun⟩
  | ok a =>
    constructor
    · intro h
      exact ⟨a, rfl, Except.ok.inj h⟩
    · rintro ⟨_, ha, rfl⟩
      rw [Except.ok.inj ha]
      rfl

theorem mapError_eq_ok {ε' : Type} {f : ε → ε'} {x : Except ε α} {a : α} :
    x.mapError f = .ok a ↔ x = .ok a := by
  cases x with
  | error e => exact ⟨nofun, nofun⟩
  | ok b => exact ⟨fun h => congrArg Except.ok (Except.ok.inj h), fun h => by rw [h]; rfl⟩

theorem exists_bind_eq_ok {x : Except ε α} {f : α → Except ε β} :
    (∃ b, x >>= f = .ok b) ↔ ∃ a, x = .ok a ∧ ∃ b, f a = .ok b := by
  simp only [bind_eq_ok]
  rw [exists_comm]
  simp only [exists_and_left]

theorem exists_map_eq_ok {x : Except ε α} {f : α → β} :
    (∃ b, x.map f = .ok b) ↔ ∃ a, x = .ok a := by
  simp only [map_eq_ok]
  rw [exists_comm]
  simp only [exists_and_left, exists_eq', and_true]

/-- A list of steps succeeds with the results of its items, in their order. -/
theorem mapM_eq_ok {f : α → Except ε β} {l : List α} {out : List β} :
    l.mapM f = .ok out ↔ List.Forall₂ (fun a b => f a = .ok b) l out := by
  induction l generalizing out with
  | nil =>
    rw [List.mapM_nil, List.forall₂_nil_left_iff]
    exact ⟨fun h => (Except.ok.inj h).symm, fun h => h ▸ rfl⟩
  | cons a l ih =>
    rw [List.mapM_cons, bind_eq_ok, List.forall₂_cons_left_iff]
    constructor
    · rintro ⟨b, hb, h⟩
      obtain ⟨rest, hrest, hout⟩ := bind_eq_ok.1 h
      exact ⟨b, rest, hb, ih.1 hrest, (Except.ok.inj hout).symm⟩
    · rintro ⟨b, rest, hb, hrest, rfl⟩
      exact ⟨b, hb, bind_eq_ok.2 ⟨rest, ih.2 hrest, rfl⟩⟩

/-- Steps that do nothing but give a result give their results. -/
theorem mapM_eq_pure {m : Type → Type} [Monad m] [LawfulMonad m] {f : α → m β} {g : α → β}
    {l : List α} (h : ∀ a ∈ l, f a = pure (g a)) : l.mapM f = pure (l.map g) := by
  induction l with
  | nil => rw [List.mapM_nil, List.map_nil]
  | cons a l ih =>
    obtain ⟨ha, hl⟩ := List.forall_mem_cons.1 h
    rw [List.mapM_cons, ha, pure_bind, ih hl, pure_bind, List.map_cons]

/-- A list of tests is passed if each of them is. -/
theorem forM_eq_ok {f : α → Except ε Unit} {l : List α} :
    l.forM f = .ok () ↔ ∀ a ∈ l, f a = .ok () := by
  induction l with
  | nil => exact ⟨nofun, fun _ => rfl⟩
  | cons a l ih =>
    rw [List.forM_eq_forM, List.forM_cons, bind_eq_ok, List.forall_mem_cons]
    constructor
    · rintro ⟨_, ha, h⟩
      exact ⟨ha, ih.1 h⟩
    · rintro ⟨ha, h⟩
      exact ⟨(), ha, ih.2 h⟩

/-- A list of tests fails with what one of them fails with. -/
theorem exists_of_forM_eq_error {f : α → Except ε Unit} {l : List α} {e : ε}
    (h : l.forM f = .error e) : ∃ a ∈ l, f a = .error e := by
  induction l with
  | nil => exact absurd h nofun
  | cons a l ih =>
    rw [List.forM_eq_forM, List.forM_cons] at h
    cases ha : f a with
    | error e' =>
      rw [ha] at h
      exact ⟨a, List.mem_cons_self, ha.trans (congrArg _ (Except.error.inj h))⟩
    | ok u =>
      rw [ha] at h
      obtain ⟨a', ha', hfails⟩ := ih h
      exact ⟨a', List.mem_cons_of_mem _ ha', hfails⟩

/-- Items of which each has a result have a list of results. -/
theorem exists_results {P : α → β → Prop} {l : List α} (h : ∀ a ∈ l, ∃ b, P a b) :
    ∃ out, List.Forall₂ P l out := by
  induction l with
  | nil => exact ⟨[], .nil⟩
  | cons a l ih =>
    obtain ⟨b, hb⟩ := h a List.mem_cons_self
    obtain ⟨out, hout⟩ := ih fun a' ha' => h a' (List.mem_cons_of_mem _ ha')
    exact ⟨b :: out, .cons hb hout⟩

/-- What can be read off each result and off its item alike, in their order. -/
theorem map_eq_of_results {γ : Type} {P : α → β → Prop} {f : α → γ} {g : β → γ} {l : List α}
    {out : List β} (h : List.Forall₂ P l out) (hfg : ∀ a b, P a b → g b = f a) :
    out.map g = l.map f := by
  induction h with
  | nil => rfl
  | @cons a b l out hab _ ih => rw [List.map_cons, List.map_cons, ih, hfg a b hab]

/-- Steps that all succeed give a list of results. -/
theorem exists_mapM_eq_ok {f : α → Except ε β} {l : List α} (h : ∀ a ∈ l, ∃ b, f a = .ok b) :
    ∃ out, l.mapM f = .ok out := by
  obtain ⟨out, hout⟩ := exists_results h
  exact ⟨out, mapM_eq_ok.2 hout⟩

/-- A chain along a list fails with what its first faulty item fails with, where it does not
depend on the items before it what an item fails with. -/
theorem foldlM_eq_error {f : β → α → Except ε β} {Faulty : α → ε → Prop}
    (hf : ∀ b a e, f b a = .error e ↔ Faulty a e) {l : List α} {b : β} {e : ε} :
    l.foldlM f b = .error e ↔ ∃ before a after, l = before ++ a :: after ∧ Faulty a e ∧
      ∀ a' ∈ before, ∀ e', ¬ Faulty a' e' := by
  induction l generalizing b with
  | nil => simp [pure, Except.pure]
  | cons a l ih =>
    rw [List.foldlM_cons]
    cases ha : f b a with
    | error e' =>
      have hfaulty : Faulty a e' := (hf b a e').1 ha
      constructor
      · intro h
        obtain rfl := Except.error.inj h
        exact ⟨[], a, l, rfl, hfaulty, by simp⟩
      · rintro ⟨before, a', after, hsplit, ha', hbefore⟩
        cases before with
        | nil =>
          obtain ⟨rfl, -⟩ := List.cons.inj hsplit
          exact ha.symm.trans ((hf b a e).2 ha')
        | cons a₀ before =>
          obtain ⟨rfl, -⟩ := List.cons.inj hsplit
          exact absurd hfaulty (hbefore a List.mem_cons_self e')
    | ok b' =>
      have hsound : ∀ e', ¬ Faulty a e' := by
        intro e' hfaulty
        exact absurd (ha.symm.trans ((hf b a e').2 hfaulty)) nofun
      change l.foldlM f b' = .error e ↔ _
      rw [ih]
      constructor
      · rintro ⟨before, a', after, rfl, ha', hbefore⟩
        exact ⟨a :: before, a', after, rfl, ha', List.forall_mem_cons.2 ⟨hsound, hbefore⟩⟩
      · rintro ⟨before, a', after, hsplit, ha', hbefore⟩
        cases before with
        | nil =>
          obtain ⟨rfl, -⟩ := List.cons.inj hsplit
          exact absurd ha' (hsound e)
        | cons a₀ before =>
          obtain ⟨-, rfl⟩ := List.cons.inj hsplit
          exact ⟨before, a', after, rfl, ha', (List.forall_mem_cons.1 hbefore).2⟩

/-- What each step of a list says of its result holds of every result. -/
theorem exists_of_mem_results {P : α → β → Prop} {l : List α} {out : List β}
    (h : List.Forall₂ P l out) {b : β} (hb : b ∈ out) : ∃ a ∈ l, P a b := by
  induction h with
  | nil => simp at hb
  | @cons a b' l out hab _ ih =>
    rcases List.mem_cons.1 hb with rfl | hb
    · exact ⟨a, List.mem_cons_self, hab⟩
    · obtain ⟨a', ha', hP⟩ := ih hb
      exact ⟨a', List.mem_cons_of_mem _ ha', hP⟩

/-- Among items with keys of their own, what is found under a key is the item that has it. -/
theorem find?_eq_some_of_nodup {κ : Type} [BEq κ] [LawfulBEq κ] {key : α → κ} {l : List α}
    (h : (l.map key).Nodup) {k : κ} {a : α} :
    l.find? (fun a => key a == k) = some a ↔ a ∈ l ∧ key a = k := by
  constructor
  · intro hfound
    exact ⟨List.mem_of_find?_eq_some hfound, by simpa using List.find?_some hfound⟩
  · rintro ⟨ha, rfl⟩
    have hsome : (l.find? fun a' => key a' == key a).isSome = true :=
      List.find?_isSome.2 ⟨a, ha, by simp⟩
    obtain ⟨a', hfound⟩ := Option.isSome_iff_exists.1 hsome
    have hkey : key a' = key a := by simpa using List.find?_some hfound
    rw [hfound, List.inj_on_of_nodup_map h (List.mem_of_find?_eq_some hfound) ha hkey]

end TypedCommand
