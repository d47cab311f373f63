import TypedCommand.Proofs.SortedMap
import TypedCommand.Proofs.Store.Outcome

/-!
The text of the file is a function of what is listed. A registry is written as it is read back,
and two registries with the same specifications are the same, in whatever order these came to
be there. So saves under paths of which neither is a front of the other leave one text in either
order; neither sees the other, for what stands apart from a path is no reason to refuse it.
-/

namespace TypedCommand

open Registration

def Apart (path path' : List Text) : Prop := ¬ path <+: path' ∧ ¬ path' <+: path

theorem Apart.symm {path path' : List Text} (h : Apart path path') : Apart path' path :=
  ⟨h.2, h.1⟩

namespace Registry

variable {r : Registry} {s s' : Specification} {overwrite : Bool}

def Keyed (r : Registry) : Prop := ∀ name t, r.get? name = some t → t.commandName = name

theorem Coherent.keyed (h : r.Coherent) : r.Keyed :=
  fun name t ht => (h.key name t ht).symm

theorem Keyed.settle (h : r.Keyed) : r.settle.Keyed := by
  intro name t ht
  rw [get?_settle, Option.map_eq_some_iff] at ht
  obtain ⟨u, hu, rfl⟩ := ht
  exact h name u hu

theorem settle_settle (r : Registry) : r.settle.settle = r.settle := by
  apply SortedMap.eq_of_get?_eq
  intro name
  have hsettle : Specification.settle ∘ Specification.settle = Specification.settle :=
    funext Specification.settle_settle
  rw [get?_settle, get?_settle, Option.map_map, hsettle]

theorem settle_insert (r : Registry) (name : Text) (s : Specification) :
    settle (r.insert name s) = r.settle.insert name s.settle := by
  apply SortedMap.eq_of_get?_eq
  intro other
  rw [get?_settle, SortedMap.get?_insert, SortedMap.get?_insert, get?_settle]
  split <;> rfl

/-- What is put into a registry is written with what writing has left of the rest. -/
theorem write_insert_settle (r : Registry) (name : Text) (s : Specification) :
    Format.write (r.settle.insert name s) = Format.write (r.insert name s) := by
  calc Format.write (r.settle.insert name s)
      = Format.write (settle (r.settle.insert name s)) := (Format.write_settle _).symm
    _ = Format.write (settle (r.insert name s)) := by
        rw [settle_insert, settle_insert, settle_settle]
    _ = Format.write (r.insert name s) := Format.write_settle _

/-- A check looks at names and paths alone, and writing keeps these. -/
theorem check_settle (r : Registry) (s : Specification) (overwrite : Bool) :
    r.settle.check s overwrite = r.check s overwrite := by
  have hvalues : r.settle.values = r.values.map Specification.settle := by
    unfold SortedMap.values settle
    rw [List.map_map, List.map_map]
    rfl
  unfold check
  rw [hvalues, List.forM_eq_forM, List.forM_map]
  rfl

theorem checkAgainst_of_apart (h : Apart s.path s'.path) (overwrite : Bool) :
    checkAgainst s' overwrite s = .ok () := by
  have hne : s.path ≠ s'.path := fun heq => h.1 (heq ▸ List.prefix_rfl)
  have hprefix : ¬ (s'.path.isPrefixOf s.path || s.path.isPrefixOf s'.path) = true := by
    rw [Bool.or_eq_true, List.isPrefixOf_iff_prefix, List.isPrefixOf_iff_prefix]
    exact fun hclash => hclash.elim h.2 h.1
  rw [checkAgainst, if_neg hne, if_neg hprefix]

/-- A specification that stands apart, put in anew or in place of another of its name, does not
change what a check comes to. -/
theorem Keyed.check_insert (h : r.Keyed) (hapart : Apart s.path s'.path) (overwrite : Bool) :
    check (r.insert s.commandName s) s' overwrite = r.check s' overwrite := by
  have hold : ∀ old, r.get? s.commandName = some old →
      checkAgainst s' overwrite old = .ok () := by
    intro old hget
    have hpath : old.path = s.path := by
      rw [Specification.path, Specification.path, h _ old hget]
    exact checkAgainst_of_apart (hpath ▸ hapart) overwrite
  unfold check
  rw [SortedMap.forM_values_insert (checkAgainst_of_apart hapart overwrite) hold]

/-- A registry is determined by the list of its specifications. -/
theorem Keyed.eq_of_list_eq {r' : Registry} (h : r.Keyed) (h' : r'.Keyed)
    (hlist : r.list = r'.list) : r = r' := by
  have hentries : ∀ {r : Registry}, r.Keyed →
      r.entries = r.list.map fun t => (t.commandName, t) := by
    intro r h
    unfold list SortedMap.values
    rw [List.map_map]
    conv_lhs => rw [← List.map_id r.entries]
    refine List.map_congr_left fun e he => ?_
    have hname := h e.1 e.2 (SortedMap.get?_eq_some_iff.2 he)
    rw [Function.comp_apply, hname]
    rfl
  exact SortedMap.eq_of_entries_eq (by rw [hentries h, hentries h', hlist])

end Registry

namespace Store

/-- A file with a registry in it as it is written, each specification under its own name. -/
def IsWritten (store : Store) : Prop :=
  ∃ r : Registry, r.Keyed ∧ store = some (Registry.Format.write r)

def saveResult (store : Store) (s : Specification) (overwrite : Bool) :
    Except RegistryError Unit :=
  resultOf (Store.save s overwrite) store

/-- Two saves answer the same in either order, and leave the same store. -/
structure SavesCommute (store : Store) (e e' : Registration) (overwrite overwrite' : Bool) :
    Prop where
  first : (store.change (.save e' overwrite')).saveResult e.specification overwrite =
    store.saveResult e.specification overwrite
  second : (store.change (.save e overwrite)).saveResult e'.specification overwrite' =
    store.saveResult e'.specification overwrite'
  text : (store.change (.save e overwrite)).change (.save e' overwrite') =
    (store.change (.save e' overwrite')).change (.save e overwrite)

/-- Removing what has been saved gives it back and leaves the text that was there before; where
the save is refused there is nothing to remove. -/
structure Restores (store : Store) (e : Registration) (overwrite : Bool) (name : Text) :
    Prop where
  removed : ∀ later, (Store.save e.specification overwrite).run store = .ok () later →
    ∃ t, (Store.remove name).run later = .ok t store ∧ e.specification.Agrees t
  text : (store.change (.save e overwrite)).change (.remove name) = store

variable {store : Store} {r : Registry} {e e' : Registration} {overwrite overwrite' : Bool}

theorem saveResult_eq (h : store.registry = .ok r) (s : Specification) (overwrite : Bool) :
    store.saveResult s overwrite = r.check s overwrite := by
  rw [saveResult, resultOf, save_eq h, Registry.save]
  cases r.check s overwrite <;> rfl

theorem refuses_of_saveResult {error : RegistryError}
    (h : store.saveResult e.specification overwrite = .error error) :
    store.Refuses (.save e overwrite) := by
  unfold saveResult resultOf at h
  cases hsave : (Store.save e.specification overwrite).run store with
  | error error' later => exact ⟨error', later, hsave⟩
  | ok _ later =>
    rw [hsave] at h
    exact absurd h nofun

theorem change_of_saveResult (h : store.registry = .ok r)
    (hresult : store.saveResult e.specification overwrite = .ok ()) :
    store.change (.save e overwrite) =
      some (Registry.Format.write (r.insert e.specification.commandName e.specification)) := by
  rw [saveResult_eq h] at hresult
  rw [change, stateAfter, save_eq h, Registry.save, hresult]
  rfl

/-- A save is answered as it would be without another that stands apart from it. -/
theorem saveResult_change (h : store.registry = .ok r) (hkeyed : r.Keyed)
    (hapart : Apart e.path e'.path) :
    (store.change (.save e overwrite)).saveResult e'.specification overwrite' =
      store.saveResult e'.specification overwrite' := by
  cases hresult : store.saveResult e.specification overwrite with
  | error error => rw [change_of_refuses (refuses_of_saveResult hresult)]
  | ok u =>
    rw [change_of_saveResult h hresult, saveResult_eq (registry_write _), saveResult_eq h,
      Registry.check_settle, hkeyed.check_insert hapart]

/-- Two saves that are both carried out leave a file with both specifications. -/
theorem change_change_eq (h : store.registry = .ok r) (hkeyed : r.Keyed)
    (hapart : Apart e.path e'.path)
    (hresult : store.saveResult e.specification overwrite = .ok ())
    (hresult' : store.saveResult e'.specification overwrite' = .ok ()) :
    (store.change (.save e overwrite)).change (.save e' overwrite') =
      some (Registry.Format.write ((r.insert e.specification.commandName e.specification).insert
        e'.specification.commandName e'.specification)) := by
  have hlater : (store.change (.save e overwrite)).saveResult e'.specification overwrite' =
      store.saveResult e'.specification overwrite' := saveResult_change h hkeyed hapart
  rw [hresult', change_of_saveResult h hresult] at hlater
  rw [change_of_saveResult h hresult, change_of_saveResult (registry_write _) hlater,
    Registry.write_insert_settle]

theorem savesCommute (h : store.registry = .ok r) (hkeyed : r.Keyed)
    (hapart : Apart e.path e'.path) (overwrite overwrite' : Bool) :
    store.SavesCommute e e' overwrite overwrite' := by
  have hfirst : (store.change (.save e' overwrite')).saveResult e.specification overwrite =
      store.saveResult e.specification overwrite := saveResult_change h hkeyed hapart.symm
  have hsecond : (store.change (.save e overwrite)).saveResult e'.specification overwrite' =
      store.saveResult e'.specification overwrite' := saveResult_change h hkeyed hapart
  refine ⟨hfirst, hsecond, ?_⟩
  -- a save that is refused is so in either order, and does nothing
  cases hresult : store.saveResult e.specification overwrite with
  | error error =>
    rw [change_of_refuses (refuses_of_saveResult hresult),
      change_of_refuses (refuses_of_saveResult (hfirst.trans hresult))]
  | ok u =>
    cases hresult' : store.saveResult e'.specification overwrite' with
    | error error =>
      rw [change_of_refuses (refuses_of_saveResult hresult'),
        change_of_refuses (refuses_of_saveResult (hsecond.trans hresult'))]
    | ok u' =>
      have hname : e.specification.commandName ≠ e'.specification.commandName := by
        intro hname
        have hpath : e.path = e'.path := commandName_inj.1 hname
        exact hapart.1 (hpath ▸ List.prefix_rfl)
      rw [change_change_eq h hkeyed hapart hresult hresult',
        change_change_eq h hkeyed hapart.symm hresult' hresult, SortedMap.insert_comm _ hname]

/-- What has been saved under a new name is taken out again without a trace. -/
theorem remove_of_save (hnone : r.settle.get? e.specification.commandName = none) {name : Text}
    (hname : name.unify = e.specification.commandName) {later : Store}
    (hsave : (Store.save e.specification overwrite).run (some (Registry.Format.write r)) =
      .ok () later) :
    (Store.remove name).run later =
      .ok e.specification.settle (some (Registry.Format.write r)) := by
  have hresult : saveResult (some (Registry.Format.write r)) e.specification overwrite =
      .ok () := by
    rw [saveResult, resultOf, hsave]
  have hlater := change_of_saveResult (registry_write r) hresult
  rw [change, stateAfter_of_ok hsave] at hlater
  subst hlater
  have hfound : (Registry.settle (r.settle.insert e.specification.commandName
      e.specification)).get? name.unify = some e.specification.settle := by
    rw [Registry.get?_settle, hname, SortedMap.get?_insert, if_pos rfl, Option.map_some]
  have herase : (Registry.settle (r.settle.insert e.specification.commandName
      e.specification)).erase name.unify = r.settle := by
    rw [hname, ← Registry.settle_erase, SortedMap.erase_insert hnone, Registry.settle_settle]
  rw [remove_eq (registry_write _), Registry.remove, Registry.load, hfound, herase]
  change EStateM.Result.ok e.specification.settle (some (Registry.Format.write r.settle)) = _
  rw [Registry.Format.write_settle]

/-- Of a path that is new nothing is under its name. -/
theorem IsWritten.restores (h : store.IsWritten) {listed : List Specification}
    (hlist : store.list = .ok listed) (hnew : ∀ t ∈ listed, t.path ≠ e.path) {name : Text}
    (hname : name.words = e.path) (overwrite : Bool) : store.Restores e overwrite name := by
  obtain ⟨r, hkeyed, rfl⟩ := h
  obtain rfl := Except.ok.inj ((list_eq (registry_write r)).symm.trans hlist)
  have hunify : name.unify = e.specification.commandName :=
    (commandName_eq_unify_iff.2 hname.symm).symm
  have hnone : r.settle.get? e.specification.commandName = none := by
    cases hget : r.settle.get? e.specification.commandName with
    | none => rfl
    | some t =>
      have hpath : t.path = e.path := by
        rw [path, Specification.path, Specification.path, hkeyed.settle _ t hget]
      exact absurd hpath (hnew t (SortedMap.mem_values_iff.2 ⟨_, hget⟩))
  refine ⟨fun later hsave => ⟨_, remove_of_save hnone hunify hsave,
    e.specification.agrees_settle⟩, ?_⟩
  cases hsave : (Store.save e.specification overwrite).run (some (Registry.Format.write r)) with
  | ok _ later =>
    have hlater : Store.change (some (Registry.Format.write r)) (.save e overwrite) = later := by
      rw [change, stateAfter_of_ok hsave]
    rw [hlater, change, stateAfter_of_ok (remove_of_save hnone hunify hsave)]
  | error error later =>
    have hrefused : Store.Refuses (some (Registry.Format.write r)) (.save e overwrite) :=
      ⟨error, later, hsave⟩
    have hrefused' : Store.Refuses (some (Registry.Format.write r)) (.remove name) := by
      refine ⟨.notFound name, some (Registry.Format.write r), ?_⟩
      rw [remove_eq (registry_write r), Registry.remove, Registry.load, hunify, hnone]
      rfl
    rw [change_of_refuses hrefused, change_of_refuses hrefused']

theorem IsWritten.eq_of_list_eq {store' : Store} (h : store.IsWritten) (h' : store'.IsWritten)
    (hlist : store.list = store'.list) : store = store' := by
  obtain ⟨r, hkeyed, rfl⟩ := h
  obtain ⟨r', hkeyed', rfl⟩ := h'
  rw [list_eq (registry_write r), list_eq (registry_write r')] at hlist
  have hsettle := hkeyed.settle.eq_of_list_eq hkeyed'.settle (Except.ok.inj hlist)
  rw [← Registry.Format.write_settle r, hsettle, Registry.Format.write_settle]

/-- A change is written, or leaves the store as it was. -/
theorem change_cases (store : Store) (c : Change) :
    store.change c = store ∨ ∃ r, store.change c = some (Registry.Format.write r) := by
  cases c with
  | save e overwrite =>
    cases hsave : (Store.save e.specification overwrite).run store with
    | error error later =>
      have hrefused : store.Refuses (.save e overwrite) := ⟨error, later, hsave⟩
      exact Or.inl (change_of_refuses hrefused)
    | ok _ later =>
      obtain ⟨r, r', _, _, rfl⟩ := save_eq_ok hsave
      exact Or.inr ⟨r', stateAfter_of_ok hsave⟩
  | remove name =>
    cases hremove : (Store.remove name).run store with
    | error error later =>
      have hrefused : store.Refuses (.remove name) := ⟨error, later, hremove⟩
      exact Or.inl (change_of_refuses hrefused)
    | ok s later =>
      obtain ⟨r, r', _, _, rfl⟩ := remove_eq_ok hremove
      exact Or.inr ⟨r', stateAfter_of_ok hremove⟩

theorem none_or_exists_write (changes : List Change) :
    ofChanges changes = none ∨ ∃ r, ofChanges changes = some (Registry.Format.write r) := by
  have hrun : ∀ {store : Store}, (store = none ∨ ∃ r, store = some (Registry.Format.write r)) →
      changes.foldl change store = none ∨
        ∃ r, changes.foldl change store = some (Registry.Format.write r) := by
    induction changes with
    | nil => exact id
    | cons c changes ih =>
      intro store hstore
      refine ih ?_
      rcases change_cases store c with hsame | hwritten
      · rwa [hsame]
      · exact Or.inr hwritten
  exact hrun (Or.inl rfl)

theorem none_or_isWritten (changes : List Change) :
    ofChanges changes = none ∨ (ofChanges changes).IsWritten := by
  obtain ⟨r, hsound⟩ := exists_sound_ofChanges changes
  rcases none_or_exists_write changes with hnone | ⟨held, hheld⟩
  · exact Or.inl hnone
  · right
    have hregistry := hsound.registry
    rw [hheld, registry_write] at hregistry
    have hsettle := Except.ok.inj hregistry
    refine ⟨r, hsound.coherent.keyed, ?_⟩
    rw [hheld, ← hsettle, Registry.Format.write_settle]

/-- The text of the file depends on what is stored, not on how it got there. On every store that
changes lead to, saves under paths of which neither is a front of the other can change places.
Every such store has no file or one that is written; to a written file, what is saved under a
new path can be added and removed again without a trace, and no other written file has the same
specifications in it. -/
theorem text_determined :
    (∀ changes, (∀ e e' overwrite overwrite', Apart e.path e'.path →
        (ofChanges changes).SavesCommute e e' overwrite overwrite') ∧
      (ofChanges changes = none ∨ (ofChanges changes).IsWritten)) ∧
    ∀ store, IsWritten store →
      (∀ e overwrite name listed, store.list = .ok listed → (∀ t ∈ listed, t.path ≠ e.path) →
        name.words = e.path → store.Restores e overwrite name) ∧
      ∀ store', IsWritten store' → store.list = store'.list → store = store' := by
  refine ⟨fun changes => ⟨fun e e' overwrite overwrite' hapart => ?_, none_or_isWritten changes⟩,
    fun store hwritten => ⟨fun e overwrite name listed hlist hnew hname => ?_,
      fun store' hwritten' => hwritten.eq_of_list_eq hwritten'⟩⟩
  · obtain ⟨r, hsound⟩ := exists_sound_ofChanges changes
    exact savesCommute hsound.registry hsound.coherent.keyed hapart overwrite overwrite'
  · exact hwritten.restores hlist hnew hname overwrite

/-- Beside a specification with a default that is not a number, whose sign is not written: one
save is carried out and one refused in either order, and one is undone under another spelling of
its name. -/
theorem text_beside_unsigned : ∃ ip run v4 : Registration,
    ip.path = ["docker".toList, "ip".toList] ∧ run.path = ["docker".toList, "run".toList] ∧
    v4.path = ["docker".toList, "ip".toList, "v4".toList] ∧
    (ofChanges [.save ip false]).SavesCommute run v4 false true ∧
    (ofChanges [.save ip false]).Restores run true " docker  run" := by
  let ip : Registration := {
    template := "ip"
    declaration := "just docker ip --at[-a:float=-nan]"
    specification := {
      commandName := "docker ip"
      template := "ip"
      parameters := [⟨"a", "--at", .float, some (.float (Binary64.notANumber true)), none,
        .forwarded ⟨some "-a", none⟩⟩]
      plan := [.appendFlag "--at" "a"] }
    compiled := by decide +kernel }
  let run : Registration :=
    ⟨"run", "just docker run", ⟨"docker run", "run", [], []⟩, by decide +kernel⟩
  let v4 : Registration :=
    ⟨"v4", "just docker ip v4", ⟨"docker ip v4", "v4", [], []⟩, by decide +kernel⟩
  obtain ⟨hchanges, hwritten⟩ := text_determined
  obtain ⟨hcommute, hfile⟩ := hchanges [.save ip false]
  have hsome : (ofChanges [.save ip false]).isSome = true := by decide +kernel
  have hisWritten : (ofChanges [.save ip false]).IsWritten := by
    refine hfile.resolve_left fun hnone => ?_
    rw [hnone] at hsome
    exact absurd hsome nofun
  have hpaths : (ofChanges [.save ip false]).list.toOption.map (·.map (·.path)) =
      some [["docker".toList, "ip".toList]] := by decide +kernel
  refine ⟨ip, run, v4, by decide, by decide, by decide,
    hcommute run v4 false true ⟨by decide, by decide⟩, ?_⟩
  cases hlist : (ofChanges [.save ip false]).list with
  | error error =>
    rw [hlist] at hpaths
    exact absurd hpaths nofun
  | ok listed =>
    rw [hlist] at hpaths
    have hmap : listed.map (·.path) = [["docker".toList, "ip".toList]] := Option.some.inj hpaths
    have hnew : ∀ t ∈ listed, t.path ≠ run.path := by
      intro t ht
      have hmem : t.path ∈ [["docker".toList, "ip".toList]] := hmap ▸ List.mem_map_of_mem ht
      rw [List.mem_singleton.1 hmem]
      decide
    exact (hwritten _ hisWritten).1 run true " docker  run" listed hlist hnew (by decide)

end Store
end TypedCommand
