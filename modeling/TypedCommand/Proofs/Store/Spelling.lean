import TypedCommand.Proofs.SortedMap
import TypedCommand.Proofs.Store.Outcome

/-!
How a name is spelled, and where its specification is found. A specification is kept under its
name as it is written, and looked for under the words of a name with one space between them.
The two agree for a name that is spelled so, and for no other; where all names are, each
specification that is saved is found again, and no path is listed twice.
-/

namespace TypedCommand

namespace SortedMap

variable {α : Type} {m : SortedMap α}

/-- Of a class that a value is of there is one value, if no other key has one of it. -/
theorem length_filter_values_eq_one_iff {p : α → Bool} {key : Text} {value : α}
    (h : m.get? key = some value) (hp : p value = true) :
    (m.values.filter p).length = 1 ↔ ∀ k v, m.get? k = some v → p v = true → k = key := by
  rw [values, List.filter_map, List.length_map]
  have hmem : ∀ k v, (k, v) ∈ m.entries.filter (p ∘ Prod.snd) ↔
      m.get? k = some v ∧ p v = true := by
    intro k v
    rw [List.mem_filter, get?_eq_some_iff, Function.comp_apply]
  have hin := (hmem key value).2 ⟨h, hp⟩
  have hnodup : (m.entries.filter (p ∘ Prod.snd)).Nodup := m.nodup_entries.filter _
  generalize m.entries.filter (p ∘ Prod.snd) = found at hmem hin hnodup
  constructor
  · intro hlength k v hk hv
    obtain ⟨e, rfl⟩ := List.length_eq_one_iff.1 hlength
    have hkey := List.mem_singleton.1 ((hmem k v).2 ⟨hk, hv⟩)
    exact congrArg Prod.fst (hkey.trans (List.mem_singleton.1 hin).symm)
  · intro hother
    have hall : ∀ e ∈ found, e = (key, value) := by
      rintro ⟨k, v⟩ he
      obtain ⟨hk, hv⟩ := (hmem k v).1 he
      obtain rfl := hother k v hk hv
      rw [Option.some.inj (h.symm.trans hk)]
    have hle : found.length ≤ 1 := by
      rw [List.eq_replicate_of_mem hall, List.nodup_replicate] at hnodup
      exact hnodup
    have hpos := List.length_pos_of_mem hin
    omega

end SortedMap

namespace Store

/-- What can be asked of a store, also of one that specifications come to uncompiled. -/
inductive Edit
  | save (s : Specification) (overwrite : Bool)
  | remove (name : Text)

/-- The store after an edit has been asked for, whether it is carried out or refused. -/
def edit (store : Store) : Edit → Store
  | .save s overwrite => stateAfter (Store.save s overwrite) store
  | .remove name => stateAfter (Store.remove name) store

/-- The store that edits lead to, where there was no file before. -/
def ofEdits (edits : List Edit) : Store := edits.foldl edit none

def Edit.IsUnified : Edit → Prop
  | .save s _ => s.commandName.unify = s.commandName
  | .remove _ => True

def Finds (store : Store) (s : Specification) : Prop :=
  ∃ t, store.load s.commandName = .ok t ∧ s.Agrees t

def HasOne (store : Store) (path : List Text) : Prop :=
  ∃ listed, store.list = .ok listed ∧ (listed.filter fun t => t.path == path).length = 1

/-- Each specification is one that has been saved, under its name as it is written. -/
structure Kept (edits : List Edit) (store : Store) (r : Registry) : Prop where
  registry : store.registry = .ok r
  key : ∀ name t, r.get? name = some t → t.commandName = name
  saved : ∀ name t, r.get? name = some t →
    ∃ s overwrite, Edit.save s overwrite ∈ edits ∧ s.settle = t

section Kept

variable {edits : List Edit} {store later : Store} {r : Registry} {s : Specification}
  {overwrite : Bool}

theorem kept_none (edits : List Edit) : Kept edits none SortedMap.empty where
  registry := rfl
  key := nofun
  saved := nofun

theorem save_eq_insert (h : store.registry = .ok r)
    (hsave : (Store.save s overwrite).run store = .ok () later) :
    later.registry = .ok (Registry.settle (r.insert s.commandName s)) := by
  obtain ⟨held, r', hheld, hr', rfl⟩ := save_eq_ok hsave
  obtain rfl := Except.ok.inj (h.symm.trans hheld)
  obtain ⟨_, _, hinsert⟩ := bind_eq_ok.1 hr'
  obtain rfl := Except.ok.inj hinsert
  exact registry_write _

theorem remove_eq_erase {name : Text} (h : store.registry = .ok r)
    (hremove : (Store.remove name).run store = .ok s later) :
    later.registry = .ok (Registry.settle (r.erase name.unify)) := by
  obtain ⟨held, r', hheld, hr', rfl⟩ := remove_eq_ok hremove
  obtain rfl := Except.ok.inj (h.symm.trans hheld)
  obtain ⟨_, _, hpair⟩ := map_eq_ok.1 hr'
  obtain ⟨rfl, rfl⟩ := Prod.mk.inj hpair
  exact registry_write _

/-- Writing settles what is kept, and that has been settled. -/
theorem Kept.settle_eq (h : Kept edits store r) {name : Text} {t : Specification}
    (ht : r.get? name = some t) : t.settle = t := by
  obtain ⟨s, _, _, rfl⟩ := h.saved name t ht
  exact s.settle_settle

theorem Kept.save (h : Kept edits store r) (hmem : Edit.save s overwrite ∈ edits)
    (hsave : (Store.save s overwrite).run store = .ok () later) :
    Kept edits later (Registry.settle (r.insert s.commandName s)) := by
  have hentry : ∀ name t, (Registry.settle (r.insert s.commandName s)).get? name = some t →
      name = s.commandName ∧ t = s.settle ∨ r.get? name = some t := by
    intro name t ht
    rw [Registry.get?_settle, SortedMap.get?_insert, Option.map_eq_some_iff] at ht
    obtain ⟨u, hu, rfl⟩ := ht
    split at hu
    · next hname => exact Or.inl ⟨hname, by rw [Option.some.inj hu]⟩
    · exact Or.inr (by rw [h.settle_eq hu, hu])
  refine ⟨save_eq_insert h.registry hsave, fun name t ht => ?_, fun name t ht => ?_⟩
  · rcases hentry name t ht with ⟨rfl, rfl⟩ | ht
    · rfl
    · exact h.key name t ht
  · rcases hentry name t ht with ⟨_, rfl⟩ | ht
    · exact ⟨s, overwrite, hmem, rfl⟩
    · exact h.saved name t ht

theorem Kept.remove (h : Kept edits store r) {name : Text}
    (hremove : (Store.remove name).run store = .ok s later) :
    Kept edits later (Registry.settle (r.erase name.unify)) := by
  have hentry : ∀ other t, (Registry.settle (r.erase name.unify)).get? other = some t →
      r.get? other = some t := by
    intro other t ht
    rw [Registry.get?_settle, SortedMap.get?_erase, Option.map_eq_some_iff] at ht
    obtain ⟨u, hu, rfl⟩ := ht
    split at hu
    · exact absurd hu nofun
    · rw [h.settle_eq hu, hu]
  exact ⟨remove_eq_erase h.registry hremove, fun other t ht => h.key other t (hentry other t ht),
    fun other t ht => h.saved other t (hentry other t ht)⟩

/-- One edit, carried out or refused. -/
theorem Kept.edit (h : Kept edits store r) {e : Edit} (he : e ∈ edits) :
    ∃ r', Kept edits (store.edit e) r' := by
  cases e with
  | save s overwrite =>
    rw [Store.edit]
    cases hsave : (Store.save s overwrite).run store with
    | error error later =>
      obtain rfl : later = store := leavesIfFailing_save s overwrite store error later hsave
      rw [stateAfter_of_error hsave]
      exact ⟨r, h⟩
    | ok _ later =>
      rw [stateAfter_of_ok hsave]
      exact ⟨_, h.save he hsave⟩
  | remove name =>
    rw [Store.edit]
    cases hremove : (Store.remove name).run store with
    | error error later =>
      obtain rfl : later = store := leavesIfFailing_remove name store error later hremove
      rw [stateAfter_of_error hremove]
      exact ⟨r, h⟩
    | ok s later =>
      rw [stateAfter_of_ok hremove]
      exact ⟨_, h.remove hremove⟩

theorem Kept.run (h : Kept edits store r) {rest : List Edit} (hrest : ∀ e ∈ rest, e ∈ edits) :
    ∃ r', Kept edits (rest.foldl Store.edit store) r' := by
  induction rest generalizing store r with
  | nil => exact ⟨r, h⟩
  | cons e rest ih =>
    obtain ⟨he, hrest⟩ := List.forall_mem_cons.1 hrest
    obtain ⟨r', h'⟩ := h.edit he
    exact ih h' hrest

theorem exists_kept (edits : List Edit) : ∃ r, Kept edits (ofEdits edits) r :=
  (kept_none edits).run fun _ he => he

/-- What has been saved is found exactly if its name is spelled as it is looked for: else
something of another name is, or nothing. -/
theorem Kept.finds_iff (h : Kept edits store r)
    (hsave : (Store.save s overwrite).run store = .ok () later) :
    later.Finds s ↔ s.commandName.unify = s.commandName := by
  have hlater := save_eq_insert h.registry hsave
  have hload := load_eq hlater s.commandName
  rw [Registry.load, Registry.get?_settle, SortedMap.get?_insert] at hload
  constructor
  · rintro ⟨t, ht, hagrees⟩
    by_contra hname
    rw [if_neg hname] at hload
    cases hother : r.get? s.commandName.unify with
    | none =>
      rw [hother] at hload
      cases hload.symm.trans ht
    | some u =>
      rw [hother] at hload
      obtain rfl := Except.ok.inj (hload.symm.trans ht)
      exact hname ((h.key _ u hother).symm.trans hagrees.commandName.symm)
  · intro hname
    rw [if_pos hname] at hload
    exact ⟨s.settle, hload, s.agrees_settle⟩

/-- The path of what has been saved is listed once exactly if it was not listed under another
spelling. -/
theorem Kept.hasOne_iff (h : Kept edits store r)
    (hsave : (Store.save s overwrite).run store = .ok () later) :
    later.HasOne s.path ↔ ∀ t ∈ r.list, t.path = s.path → t.commandName = s.commandName := by
  have hlist := list_eq (save_eq_insert h.registry hsave)
  have hself : (Registry.settle (r.insert s.commandName s)).get? s.commandName = some s.settle := by
    rw [Registry.get?_settle, SortedMap.get?_insert, if_pos rfl, Option.map_some]
  have hcount := SortedMap.length_filter_values_eq_one_iff (p := fun t => t.path == s.path) hself
    (beq_self_eq_true s.path)
  have hone : later.HasOne s.path ↔
      ((Registry.settle (r.insert s.commandName s)).list.filter fun t => t.path == s.path).length
        = 1 := by
    unfold HasOne
    rw [hlist]
    simp
  rw [hone]
  refine hcount.trans ⟨fun hother t ht hpath => ?_, fun hother name t ht hpath => ?_⟩
  · obtain ⟨name, hname⟩ := SortedMap.mem_values_iff.1 ht
    by_contra hne
    have hkey : name ≠ s.commandName := fun heq => hne ((h.key name t hname).trans heq)
    refine hkey (hother name t ?_ (beq_iff_eq.2 hpath))
    rw [Registry.get?_settle, SortedMap.get?_insert, if_neg hkey, hname, Option.map_some,
      h.settle_eq hname]
  · by_contra hne
    rw [Registry.get?_settle, SortedMap.get?_insert, if_neg hne, Option.map_eq_some_iff] at ht
    obtain ⟨u, hu, rfl⟩ := ht
    rw [h.settle_eq hu, beq_iff_eq] at hpath
    have hname := hother u (SortedMap.mem_values_iff.2 ⟨name, hu⟩) hpath
    exact hne ((h.key name u hu).symm.trans hname)

/-- Nothing of the path was there, unless it was to be replaced. -/
theorem path_ne_of_save (h : store.registry = .ok r)
    (hsave : (Store.save s false).run store = .ok () later) :
    ∀ t ∈ r.list, t.path ≠ s.path := by
  obtain ⟨held, r', hheld, hr', rfl⟩ := save_eq_ok hsave
  obtain rfl := Except.ok.inj (h.symm.trans hheld)
  obtain ⟨_, hcheck, _⟩ := bind_eq_ok.1 hr'
  unfold Registry.check at hcheck
  split at hcheck
  · simp at hcheck
  · intro t ht hpath
    have hpassed := forM_eq_ok.1 hcheck t ht
    simp [Registry.checkAgainst, hpath] at hpassed

/-- Names that are spelled alike are equal where their paths are. -/
theorem Kept.commandName_eq (h : Kept edits store r) (hedits : ∀ e ∈ edits, e.IsUnified)
    (hs : s.commandName.unify = s.commandName) :
    ∀ t ∈ r.list, t.path = s.path → t.commandName = s.commandName := by
  intro t ht hpath
  obtain ⟨name, hname⟩ := SortedMap.mem_values_iff.1 ht
  obtain ⟨u, overwrite, hmem, rfl⟩ := h.saved name t hname
  have hu : u.commandName.unify = u.commandName := hedits _ hmem
  calc u.commandName = u.commandName.unify := hu.symm
    _ = s.commandName.unify := Text.unify_eq_iff.2 hpath
    _ = s.commandName := hs

end Kept

/-- On every store that edits lead to, a specification that is saved is found under its name
exactly if the name is spelled as it is looked for, and its path is listed once exactly if it was
not listed under another spelling, which only a replacement lets happen. So where all names are
spelled so, what is saved is found and its path is listed once. -/
theorem saved_by_spelling (edits : List Edit) :
    ∃ listed, (ofEdits edits).list = .ok listed ∧
      ∀ s overwrite later, (Store.save s overwrite).run (ofEdits edits) = .ok () later →
        (later.Finds s ↔ s.commandName.unify = s.commandName) ∧
        (later.HasOne s.path ↔
          ∀ t ∈ listed, t.path = s.path → t.commandName = s.commandName) ∧
        (overwrite = false → later.HasOne s.path) ∧
        ((∀ e ∈ edits, e.IsUnified) → s.commandName.unify = s.commandName →
          later.Finds s ∧ later.HasOne s.path) := by
  obtain ⟨r, h⟩ := exists_kept edits
  refine ⟨r.list, list_eq h.registry, fun s overwrite later hsave => ?_⟩
  have hfinds := h.finds_iff hsave
  have hone := h.hasOne_iff hsave
  refine ⟨hfinds, hone, ?_, fun hedits hs => ⟨hfinds.2 hs, hone.2 (h.commandName_eq hedits hs)⟩⟩
  rintro rfl
  exact hone.2 fun t ht hpath => absurd hpath (path_ne_of_save h.registry hsave t ht)

def spaced : Specification := ⟨"docker  ip", "echo", [], []⟩

def unspaced : Specification := ⟨"docker ip", "ls", [], []⟩

/-- The spelling that is looked for is found, and does not replace the other. -/
theorem saved_over_spaced : ∃ later,
    (Store.save unspaced true).run (ofEdits [.save spaced false]) = .ok () later ∧
      later.Finds unspaced ∧ ¬ later.HasOne unspaced.path := by
  obtain ⟨listed, hlisted, hsaved⟩ := saved_by_spelling [.save spaced false]
  have hnames : (ofEdits [.save spaced false]).list.toOption.map (·.map (·.commandName)) =
      some ["docker  ip".toList] := by decide +kernel
  have hok : (resultOf (Store.save unspaced true)
      (ofEdits [.save spaced false])).toOption.isSome = true := by
    decide +kernel
  cases hsave : (Store.save unspaced true).run (ofEdits [.save spaced false]) with
  | error error later =>
    rw [resultOf, hsave] at hok
    exact absurd hok nofun
  | ok _ later =>
    obtain ⟨hfinds, hone, _⟩ := hsaved unspaced true later hsave
    refine ⟨later, rfl, hfinds.2 (by decide), fun hlater => ?_⟩
    rw [hlisted] at hnames
    have hmap : listed.map (·.commandName) = ["docker  ip".toList] := Option.some.inj hnames
    obtain ⟨t, rfl, hname⟩ := List.map_eq_singleton_iff.1 hmap
    have hpath : t.path = unspaced.path := by
      rw [Specification.path, hname]
      decide
    have hsame := hone.1 hlater t (List.mem_singleton_self t) hpath
    rw [hname] at hsame
    exact absurd hsame (by decide)

/-- What is saved under a name with two spaces is not found under that name. -/
theorem not_finds_spaced : ¬ ∀ (edits : List Edit) (s : Specification) (overwrite : Bool)
    (later : Store), (Store.save s overwrite).run (ofEdits edits) = .ok () later →
      later.Finds s ∧ later.HasOne s.path := by
  intro h
  have hsave : (Store.save spaced false).run (ofEdits []) = .ok ()
      (some (Registry.Format.write (SortedMap.empty.insert spaced.commandName spaced))) := rfl
  have hfound := (h [] spaced false _ hsave).1
  exact absurd (((kept_none []).finds_iff hsave).1 hfound) (by decide)

end Store

end TypedCommand
