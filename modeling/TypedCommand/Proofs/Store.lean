import TypedCommand.Proofs.Registry.Registration
import TypedCommand.Proofs.Stateful

/-!
The registry between one request and the next. What has been written is read back, so a
store holds the registrations that have been saved and not removed, whatever was refused in
between. It follows that each is found under its own name alone, that no path is a front of
another, and that the word for the built-in actions begins none.
-/

namespace TypedCommand

open Registration

namespace Registry

/-- A registry in which nothing is hidden: each specification is under its own name, which
is its path with spaces between, and no path is a front of another or begins with the word
for the built-in actions. -/
structure Coherent (r : Registry) : Prop where
  key : ∀ name s, r.get? name = some s → name = s.commandName
  name : ∀ s ∈ r.values, s.commandName = [' '].intercalate s.path
  apart : ∀ name s name' s', r.get? name = some s → r.get? name' = some s' → name ≠ name' →
    ¬ s.path <+: s'.path
  reserved : ∀ s ∈ r.values, s.path.head? ≠ some actionWord

/-- The path of a registration that has been saved begins with no built-in action. -/
theorem reserved_of_save {r r' : Registry} {s : Specification} {overwrite : Bool}
    (hsave : r.save s overwrite = .ok r') : s.path.head? ≠ some actionWord := by
  obtain ⟨_, hcheck, _⟩ := bind_eq_ok.1 hsave
  unfold check at hcheck
  split at hcheck
  · simp at hcheck
  · next hfree => exact hfree

/-- Registrations that stand apart are a registry in which nothing is hidden. -/
theorem Holds.coherent {r : Registry} {live : List Registration} (h : r.Holds live)
    (hreserved : ∀ e ∈ live, e.path.head? ≠ some actionWord) : r.Coherent where
  key name s hs := by
    obtain ⟨e, _, hname, rfl⟩ := (h.get? name s).1 hs
    exact hname.symm
  name s hs := by
    obtain ⟨e, _, rfl⟩ := h.mem_values.1 hs
    exact e.commandName_eq
  apart name s name' s' hs hs' hne hprefix := by
    obtain ⟨e, he, hname, rfl⟩ := (h.get? name s).1 hs
    obtain ⟨e', he', hname', rfl⟩ := (h.get? name' s').1 hs'
    have heq : e = e' := h.apart e he e' he' hprefix
    exact hne (hname.symm.trans (heq ▸ hname'))
  reserved s hs := by
    obtain ⟨e, he, rfl⟩ := h.mem_values.1 hs
    exact hreserved e he

/-- The names of the registered specifications increase along the list. -/
theorem Coherent.increasing_list {r : Registry} (h : r.Coherent) :
    (r.list.map (·.commandName)).Pairwise (· < ·) := by
  have hkeys : r.list.map (·.commandName) = r.keys := by
    unfold list SortedMap.values SortedMap.keys
    rw [List.map_map]
    refine List.map_congr_left fun e he => ?_
    exact (h.key e.1 e.2 (SortedMap.get?_eq_some_iff.2 he)).symm
  rw [hkeys, SortedMap.keys, List.pairwise_map]
  exact r.increasing

end Registry

namespace Store

/-- The text of the store is read as a registry of these registrations. -/
def Holds (store : Store) (live : List Registration) : Prop :=
  ∃ r, store.registry = .ok r ∧ r.Holds live

theorem registry_write (r : Registry) :
    Store.registry (some (Registry.Format.write r)) = .ok r.settle := by
  rw [Store.registry, Registry.Format.read?_write]

theorem holds_write {r : Registry} {live : List Registration} (h : r.settle.Holds live) :
    Holds (some (Registry.Format.write r)) live :=
  ⟨r.settle, registry_write r, h⟩

variable {store later : Store} {live : List Registration}

/-- A save either writes what is to be written, or is refused before it has written anything. -/
theorem run_save (store : Store) (s : Specification) (overwrite : Bool) :
    (Store.save s overwrite).run store = match store.saving s overwrite with
      | .ok r => .ok () (some (Registry.Format.write r))
      | .error error => .error error store := by
  change (liftExcept (store.saving s overwrite) >>= write : Access Unit).run store = _
  cases store.saving s overwrite <;> rfl

theorem run_remove (store : Store) (name : Text) :
    (Store.remove name).run store = match store.removing name with
      | .ok (s, r) => .ok s (some (Registry.Format.write r))
      | .error error => .error error store := by
  unfold Store.remove
  rw [EStateM.run_bind, EStateM.run_get]
  dsimp only
  cases store.removing name <;> rfl

/-! Requests to a store whose text can be read are requests to its registry. -/

section Request

variable {store : Store} {r : Registry} (h : store.registry = .ok r)

include h

theorem save_eq (s : Specification) (overwrite : Bool) :
    (Store.save s overwrite).run store = match r.save s overwrite with
      | .ok r' => .ok () (some (Registry.Format.write r'))
      | .error error => .error error store := by
  rw [run_save, saving, h]
  rfl

theorem load_eq (name : Text) : store.load name = r.load name := by
  rw [load, h]
  rfl

theorem remove_eq (name : Text) :
    (Store.remove name).run store = match r.remove name with
      | .ok (s, r') => .ok s (some (Registry.Format.write r'))
      | .error error => .error error store := by
  rw [run_remove, removing, h]
  rfl

theorem list_eq : store.list = .ok r.list := by
  rw [list, h]
  rfl

theorem resolve_eq (words : List Text) : store.resolve words = .ok (r.resolve words) := by
  rw [resolve, h]
  rfl

end Request

theorem save_eq_ok {s : Specification} {overwrite : Bool}
    (h : (Store.save s overwrite).run store = .ok () later) :
    ∃ r r', store.registry = .ok r ∧ r.save s overwrite = .ok r' ∧
      later = some (Registry.Format.write r') := by
  rw [run_save] at h
  split at h
  · next r' hsaving =>
    obtain ⟨r, hr, hr'⟩ := bind_eq_ok.1 hsaving
    exact ⟨r, r', hr, hr', (EStateM.Result.ok.inj h).2.symm⟩
  · exact absurd h nofun

theorem remove_eq_ok {s : Specification} {name : Text}
    (h : (Store.remove name).run store = .ok s later) :
    ∃ r r', store.registry = .ok r ∧ r.remove name = .ok (s, r') ∧
      later = some (Registry.Format.write r') := by
  rw [run_remove] at h
  split at h
  · next s' r' hremoving =>
    obtain ⟨r, hr, hr'⟩ := bind_eq_ok.1 hremoving
    obtain ⟨rfl, hlater⟩ := EStateM.Result.ok.inj h
    exact ⟨r, r', hr, hr', hlater.symm⟩
  · exact absurd h nofun

/-! What is refused is so before the one write. -/

theorem neverFails_write (r : Registry) : NeverFails (write r) :=
  fun _ => ⟨_, _, rfl⟩

theorem leavesIfFailing_save (s : Specification) (overwrite : Bool) :
    LeavesIfFailing id (Store.save s overwrite) :=
  .after leaves_get fun _ => .after (leaves_liftExcept _) fun r =>
    (neverFails_write r).leavesIfFailing

theorem leavesIfFailing_remove (name : Text) : LeavesIfFailing id (Store.remove name) :=
  .after leaves_get fun _ => .after (leaves_liftExcept _) fun (_, r) =>
    .before (neverFails_write r).leavesIfFailing fun _ => neverFails_pure _

/-- Saving puts a registration in the place of the one of its path. -/
theorem Holds.save (h : store.Holds live) {e : Registration} {overwrite : Bool}
    (hsave : (Store.save e.specification overwrite).run store = .ok () later) :
    later.Holds (register e live) ∧ e.path.head? ≠ some actionWord := by
  obtain ⟨r, r', hr, hr', rfl⟩ := save_eq_ok hsave
  obtain ⟨held, hheld, hholds⟩ := h
  obtain rfl := Except.ok.inj (hheld.symm.trans hr)
  exact ⟨holds_write (hholds.save e hr'), Registry.reserved_of_save hr'⟩

/-- Removing takes the registration of a path away. -/
theorem Holds.remove (h : store.Holds live) {s : Specification} {name : Text}
    (hremove : (Store.remove name).run store = .ok s later) :
    later.Holds (dropPath name.words live) := by
  obtain ⟨r, r', hr, hr', rfl⟩ := remove_eq_ok hremove
  obtain ⟨held, hheld, hholds⟩ := h
  obtain rfl := Except.ok.inj (hheld.symm.trans hr)
  exact holds_write (hholds.remove hr')

/-- What can be asked of a store that would change it. -/
inductive Change
  | save (e : Registration) (overwrite : Bool)
  | remove (name : Text)

/-- The store after a change has been asked for, whether it is carried out or refused. -/
def change (store : Store) : Change → Store
  | .save e overwrite => stateAfter (Store.save e.specification overwrite) store
  | .remove name => stateAfter (Store.remove name) store

def Refuses (store : Store) : Change → Prop
  | .save e overwrite => ∃ error later,
      (Store.save e.specification overwrite).run store = .error error later
  | .remove name => ∃ error later, (Store.remove name).run store = .error error later

theorem change_of_refuses {c : Change} (h : store.Refuses c) : store.change c = store := by
  cases c with
  | save e overwrite =>
    obtain ⟨error, later, herror⟩ := h
    rw [change, stateAfter_of_error herror]
    exact leavesIfFailing_save e.specification overwrite store error later herror
  | remove name =>
    obtain ⟨error, later, herror⟩ := h
    rw [change, stateAfter_of_error herror]
    exact leavesIfFailing_remove name store error later herror

/-- The store that is there after some changes, where there was no file before. -/
def ofChanges (changes : List Change) : Store := changes.foldl change none

/-- The store holds these registrations, and none of them begins with a built-in action. -/
structure Keeps (store : Store) (live : List Registration) : Prop where
  holds : store.Holds live
  reserved : ∀ e ∈ live, e.path.head? ≠ some actionWord

theorem keeps_none : Keeps none [] where
  holds := ⟨SortedMap.empty, rfl, Registry.holds_empty⟩
  reserved := by simp

/-- One change, carried out or refused. -/
theorem Keeps.change (h : store.Keeps live) (c : Change) :
    ∃ live', (store.change c).Keeps live' := by
  cases c with
  | save e overwrite =>
    cases hsave : (Store.save e.specification overwrite).run store with
    | error error later =>
      have hrefused : store.Refuses (.save e overwrite) := ⟨error, later, hsave⟩
      rw [change_of_refuses hrefused]
      exact ⟨live, h⟩
    | ok _ later =>
      rw [Store.change, stateAfter_of_ok hsave]
      obtain ⟨hholds, hfree⟩ := h.holds.save hsave
      refine ⟨register e live, hholds, fun e' he' => ?_⟩
      rcases List.mem_cons.1 he' with rfl | he'
      · exact hfree
      · exact h.reserved e' (mem_dropPath.1 he').1
  | remove name =>
    cases hremove : (Store.remove name).run store with
    | error error later =>
      have hrefused : store.Refuses (.remove name) := ⟨error, later, hremove⟩
      rw [change_of_refuses hrefused]
      exact ⟨live, h⟩
    | ok s later =>
      rw [Store.change, stateAfter_of_ok hremove]
      refine ⟨dropPath name.words live, h.holds.remove hremove, fun e he => ?_⟩
      exact h.reserved e (mem_dropPath.1 he).1

/-- What one change keeps, a run of changes keeps. -/
theorem Keeps.run (h : store.Keeps live) (changes : List Change) :
    ∃ live', (changes.foldl Store.change store).Keeps live' := by
  induction changes generalizing store live with
  | nil => exact ⟨live, h⟩
  | cons c changes ih =>
    obtain ⟨live', h'⟩ := h.change c
    exact ih h'

/-- After any changes, carried out or refused, the store can be read, nothing in its
registry is hidden, and the list of it is in the order of the names. -/
theorem coherent_ofChanges (changes : List Change) :
    ∃ r, (ofChanges changes).registry = .ok r ∧ r.Coherent ∧
      ∃ listed, (ofChanges changes).list = .ok listed ∧
        listed = r.entries.map Prod.snd ∧ (listed.map (·.commandName)).Pairwise (· < ·) := by
  obtain ⟨live, ⟨r, hr, hholds⟩, hreserved⟩ := keeps_none.run changes
  have hcoherent : r.Coherent := hholds.coherent hreserved
  exact ⟨r, hr, hcoherent, r.list, list_eq hr, rfl, hcoherent.increasing_list⟩

end Store
end TypedCommand
