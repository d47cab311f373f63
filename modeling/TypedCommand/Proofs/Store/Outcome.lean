import TypedCommand.Proofs.Effect
import TypedCommand.Proofs.Registry.Lossless

/-!
What comes of a request, on every store that changes lead to. No path in such a store is a
front of another, so what is in the way of a path is either that very path or some that are
proper fronts or continuations of it, and never both: the kind of a refusal does not depend
on the order in which the registered specifications are looked at. A request that is carried
out answers for one name and leaves all others as they were.
-/

namespace TypedCommand

open Registration

def Clash (path path' : List Text) : Prop := path ≠ path' ∧ (path <+: path' ∨ path' <+: path)

/-- The path of a specification is registered already, and not to be replaced. -/
def Taken (listed : List Specification) (s : Specification) (overwrite : Bool) : Prop :=
  overwrite = false ∧ ∃ t ∈ listed, t.path = s.path

namespace Registry

variable {r : Registry} {s : Specification} {overwrite : Bool}

theorem checkAgainst_eq_error {existing : Specification} {error : RegistryError} :
    checkAgainst s overwrite existing = .error error ↔
      existing.path = s.path ∧ overwrite = false ∧ error = .alreadyExists s.commandName ∨
      Clash existing.path s.path ∧ error = .pathConflict s.commandName existing.commandName := by
  unfold checkAgainst Clash
  split
  · next heq => cases overwrite <;> simp [heq, eq_comm]
  · next hne =>
    split
    · next hclash =>
      rw [Bool.or_eq_true, List.isPrefixOf_iff_prefix, List.isPrefixOf_iff_prefix] at hclash
      simp [hne, hclash.symm, eq_comm]
    · next hapart =>
      rw [Bool.or_eq_true, List.isPrefixOf_iff_prefix, List.isPrefixOf_iff_prefix, or_comm]
        at hapart
      simp [hne, hapart]

inductive SaveCase (r : Registry) (s : Specification) (overwrite : Bool) :
    Except RegistryError Registry → Prop
  | reserved (hword : s.path.head? = some actionWord) :
      SaveCase r s overwrite (.error (.reservedName actionWord))
  | alreadyExists (hword : s.path.head? ≠ some actionWord) (htaken : Taken r.list s overwrite) :
      SaveCase r s overwrite (.error (.alreadyExists s.commandName))
  | pathConflict {t : Specification} (hword : s.path.head? ≠ some actionWord)
      (htaken : ¬ Taken r.list s overwrite) (ht : t ∈ r.list) (hclash : Clash t.path s.path) :
      SaveCase r s overwrite (.error (.pathConflict s.commandName t.commandName))
  | saved (hword : s.path.head? ≠ some actionWord) (htaken : ¬ Taken r.list s overwrite)
      (hapart : ∀ t ∈ r.list, ¬ Clash t.path s.path) :
      SaveCase r s overwrite (.ok (r.insert s.commandName s))

theorem Coherent.not_clash (h : r.Coherent) {t t' : Specification} (ht : t ∈ r.list)
    (ht' : t' ∈ r.list) : ¬ Clash t.path t'.path := by
  obtain ⟨name, hname⟩ := SortedMap.mem_values_iff.1 ht
  obtain ⟨name', hname'⟩ := SortedMap.mem_values_iff.1 ht'
  rintro ⟨hne, hprefix⟩
  have hnames : name ≠ name' := by
    rintro rfl
    exact hne (congrArg _ (Option.some.inj (hname.symm.trans hname')))
  rcases hprefix with hprefix | hprefix
  · exact h.apart _ _ _ _ hname hname' hnames hprefix
  · exact h.apart _ _ _ _ hname' hname hnames.symm hprefix

theorem Coherent.saveCase (h : r.Coherent) (s : Specification) (overwrite : Bool) :
    SaveCase r s overwrite (r.save s overwrite) := by
  unfold save check
  split
  · next hword => exact .reserved hword
  · next hword =>
    cases hchecks : r.values.forM (checkAgainst s overwrite) with
    | error error =>
      obtain ⟨t, ht, hcheck⟩ := exists_of_forM_eq_error hchecks
      rcases checkAgainst_eq_error.1 hcheck with ⟨hpath, hkeep, rfl⟩ | ⟨hclash, rfl⟩
      · exact .alreadyExists hword ⟨hkeep, t, ht, hpath⟩
      · -- beside a registered path like that of `s` there would be no clash with `s`
        refine .pathConflict hword ?_ ht hclash
        rintro ⟨_, t', ht', hpath⟩
        exact h.not_clash ht ht' (hpath ▸ hclash)
    | ok u =>
      have hpassed : ∀ t ∈ r.list, ∀ error, checkAgainst s overwrite t ≠ .error error := by
        intro t ht error hcheck
        exact absurd (hcheck.symm.trans (forM_eq_ok.1 hchecks t ht)) nofun
      refine .saved hword ?_ fun t ht hclash => ?_
      · rintro ⟨hkeep, t, ht, hpath⟩
        exact hpassed t ht _ (checkAgainst_eq_error.2 (.inl ⟨hpath, hkeep, rfl⟩))
      · exact hpassed t ht _ (checkAgainst_eq_error.2 (.inr ⟨hclash, rfl⟩))

theorem load_congr {r r' : Registry} {name : Text}
    (h : r.get? name.unify = r'.get? name.unify) : r.load name = r'.load name := by
  rw [load, load, h]

/-- Registrations are kept as they are left by writing. -/
theorem Holds.settle_eq {live : List Registration} (h : r.Holds live) : r.settle = r := by
  refine SortedMap.eq_of_entries_eq ?_
  conv_rhs => rw [← List.map_id r.entries]
  refine List.map_congr_left fun e he => ?_
  obtain ⟨_, _, _, hs⟩ := (h.get? e.1 e.2).1 (SortedMap.get?_eq_some_iff.2 he)
  change (e.1, e.2.settle) = e
  rw [← hs, Specification.settle_settle, hs]

theorem settle_erase (r : Registry) (name : Text) :
    settle (r.erase name) = r.settle.erase name := by
  refine SortedMap.eq_of_entries_eq ?_
  simp only [settle, SortedMap.erase, List.filter_map]
  rfl

/-- Without a name the list is as it was without the specification of that name. -/
theorem Coherent.list_erase (h : r.Coherent) (name : Text) :
    list (r.erase name) = r.list.filter (fun t => t.commandName != name) := by
  rw [list, list, SortedMap.values, SortedMap.values, SortedMap.erase, List.filter_map]
  refine congrArg _ (List.filter_congr fun e he => ?_)
  have hname : e.1 = e.2.commandName := h.key _ _ (SortedMap.get?_eq_some_iff.2 he)
  rw [hname]
  rfl

theorem Coherent.get?_eq_some_iff (h : r.Coherent) {name : Text} {t : Specification} :
    r.get? name = some t ↔ t ∈ r.list ∧ t.commandName = name := by
  constructor
  · intro ht
    exact ⟨SortedMap.mem_values_iff.2 ⟨name, ht⟩, (h.key _ _ ht).symm⟩
  · rintro ⟨ht, rfl⟩
    obtain ⟨name, hname⟩ := SortedMap.mem_values_iff.1 ht
    rwa [← h.key _ _ hname]

end Registry

namespace Store

/-- A store in which nothing is hidden and whose registry writing leaves as it is. -/
structure Sound (store : Store) (r : Registry) : Prop where
  registry : store.registry = .ok r
  coherent : r.Coherent
  settled : r.settle = r

theorem exists_sound_ofChanges (changes : List Change) :
    ∃ r, (ofChanges changes).Sound r := by
  obtain ⟨live, ⟨r, hr, hholds⟩, hreserved⟩ := keeps_none.run changes
  exact ⟨r, hr, hholds.coherent hreserved, hholds.settle_eq⟩

/-- What saving comes to, by what is listed: each refusal exactly when there is its reason and
none that goes before it. -/
structure SaveAnswer (store : Store) (listed : List Specification) (s : Specification)
    (overwrite : Bool) : Prop where
  reserved : (Store.save s overwrite).run store = .error (.reservedName actionWord) store ↔
    s.path.head? = some actionWord
  alreadyExists :
    (Store.save s overwrite).run store = .error (.alreadyExists s.commandName) store ↔
    s.path.head? ≠ some actionWord ∧ Taken listed s overwrite
  pathConflict : (∃ t ∈ listed, Clash t.path s.path ∧
      (Store.save s overwrite).run store =
        .error (.pathConflict s.commandName t.commandName) store) ↔
    s.path.head? ≠ some actionWord ∧ ¬ Taken listed s overwrite ∧
      ∃ t ∈ listed, Clash t.path s.path
  saved : (∃ later, (Store.save s overwrite).run store = .ok () later) ↔
    s.path.head? ≠ some actionWord ∧ ¬ Taken listed s overwrite ∧
      ∀ t ∈ listed, ¬ Clash t.path s.path

/-- What a store answers after a specification has been saved: that specification to its name,
however it is spaced, and to every other name what it answered before. -/
structure AnswersSaved (store later : Store) (s : Specification) : Prop where
  found : ∀ name, Text.Spaced s.path name → ∃ t, later.load name = .ok t ∧ s.Agrees t
  others : ∀ name, ¬ Text.Spaced s.path name → later.load name = store.load name

/-- What removing comes to, by what is listed: the specification of the name and a store
without it alone, or a refusal where there is none. -/
structure RemoveAnswer (store : Store) (listed : List Specification) (name : Text) : Prop where
  notFound : (Store.remove name).run store = .error (.notFound name) store ↔
    ∀ t ∈ listed, t.commandName ≠ name.unify
  removed : ∀ t ∈ listed, t.commandName = name.unify → ∃ later,
    (Store.remove name).run store = .ok t later ∧
      later.list = .ok (listed.filter fun u => u.commandName != name.unify) ∧
      later.load name = .error (.notFound name) ∧
      ∀ other, other.words ≠ name.words → later.load other = store.load other

section Sound

variable {store : Store} {r : Registry}

theorem Sound.saveAnswer (h : store.Sound r) (s : Specification) (overwrite : Bool) :
    store.SaveAnswer r.list s overwrite := by
  have hcase := h.coherent.saveCase s overwrite
  have hsave := save_eq h.registry s overwrite
  generalize r.save s overwrite = answer at hcase hsave
  cases hcase with
  | reserved hword => constructor <;> simp [hsave, hword]
  | alreadyExists hword htaken => constructor <;> simp [hsave, hword, htaken]
  | pathConflict hword htaken ht hclash =>
    refine ⟨?_, ?_, ?_, ?_⟩
    · simp [hsave, hword]
    · simp [hsave, htaken]
    · exact ⟨fun _ => ⟨hword, htaken, _, ht, hclash⟩, fun _ => ⟨_, ht, hclash, hsave⟩⟩
    · refine ⟨fun ⟨_, hok⟩ => absurd (hsave.symm.trans hok) nofun, fun ⟨_, _, hapart⟩ => ?_⟩
      exact absurd hclash (hapart _ ht)
  | saved hword htaken hapart =>
    refine ⟨?_, ?_, ?_, ?_⟩
    · simp [hsave, hword]
    · simp [hsave, htaken]
    · refine ⟨fun ⟨_, _, _, herror⟩ => absurd (hsave.symm.trans herror) nofun, ?_⟩
      exact fun ⟨_, _, t, ht, hclash⟩ => absurd hclash (hapart t ht)
    · exact ⟨fun _ => ⟨hword, htaken, hapart⟩, fun _ => ⟨_, hsave⟩⟩

theorem Sound.answersSaved (h : store.Sound r) (e : Registration) {overwrite : Bool}
    {later : Store} (hsave : (Store.save e.specification overwrite).run store = .ok () later) :
    store.AnswersSaved later e.specification := by
  obtain ⟨held, r', hheld, hr', rfl⟩ := save_eq_ok hsave
  obtain rfl := Except.ok.inj (h.registry.symm.trans hheld)
  obtain ⟨_, _, hinsert⟩ := bind_eq_ok.1 hr'
  obtain rfl := Except.ok.inj hinsert
  have hname : ∀ name, name.unify = e.specification.commandName ↔
      Text.Spaced e.specification.path name := by
    intro name
    rw [eq_comm, commandName_eq_unify_iff, eq_comm, Text.words_eq_iff]
    rfl
  have hlookup : ∀ name : Text, (Registry.settle (r.insert e.specification.commandName
      e.specification)).get? name.unify =
        if name.unify = e.specification.commandName then some e.specification.settle
        else r.get? name.unify := by
    intro name
    rw [Registry.get?_settle, SortedMap.get?_insert]
    split
    · rfl
    · rw [← Registry.get?_settle, h.settled]
  constructor
  · intro name hspaced
    refine ⟨e.specification.settle, ?_, e.specification.agrees_settle⟩
    rw [load_eq (registry_write _), Registry.load, hlookup, if_pos ((hname name).2 hspaced)]
  · intro name hspaced
    rw [load_eq (registry_write _), load_eq h.registry]
    exact Registry.load_congr (by rw [hlookup, if_neg (mt (hname name).1 hspaced)])

theorem Sound.removeAnswer (h : store.Sound r) (name : Text) :
    store.RemoveAnswer r.list name := by
  have hremove := remove_eq h.registry name
  rw [Registry.remove, Registry.load] at hremove
  cases hfound : r.get? name.unify with
  | none =>
    rw [hfound] at hremove
    have hnone : ∀ t ∈ r.list, t.commandName ≠ name.unify := by
      intro t ht hname
      exact absurd (hfound.symm.trans (h.coherent.get?_eq_some_iff.2 ⟨ht, hname⟩)) nofun
    exact ⟨⟨fun _ => hnone, fun _ => hremove⟩, fun t ht hname => absurd hname (hnone t ht)⟩
  | some t =>
    rw [hfound] at hremove
    obtain ⟨ht, hname⟩ := h.coherent.get?_eq_some_iff.1 hfound
    have hlater : Store.registry (some (Registry.Format.write (r.erase name.unify))) =
        .ok (r.erase name.unify) := by
      rw [registry_write, Registry.settle_erase, h.settled]
    constructor
    · exact ⟨fun herror => absurd (hremove.symm.trans herror) nofun,
        fun hnone => absurd hname (hnone t ht)⟩
    · intro t' ht' hname'
      have hsame := h.coherent.get?_eq_some_iff.2 ⟨ht', hname'⟩
      obtain rfl := Option.some.inj (hfound.symm.trans hsame)
      refine ⟨_, hremove, ?_, ?_, fun other hother => ?_⟩
      · rw [list_eq hlater, h.coherent.list_erase]
      · rw [load_eq hlater, Registry.load, SortedMap.get?_erase, if_pos rfl]
      · rw [load_eq hlater, load_eq h.registry]
        refine Registry.load_congr ?_
        rw [SortedMap.get?_erase, if_neg fun heq => hother (Text.unify_eq_iff.1 heq)]

end Sound

/-- On every store that changes lead to from no file at all, saving is refused for exactly one
reason or carried out, and then the specification answers to its name alone; removing takes
away the specification of the name and no other; and what is refused leaves the text of the
file, or its absence, as it was, and so does every run of the program that fails, whatever
files it finds. -/
theorem answers_ofChanges (changes : List Change) :
    ∃ listed, (ofChanges changes).list = .ok listed ∧
      (∀ (e : Registration) (overwrite : Bool),
        (ofChanges changes).SaveAnswer listed e.specification overwrite ∧
          ∀ later, (Store.save e.specification overwrite).run (ofChanges changes) = .ok () later →
            (ofChanges changes).AnswersSaved later e.specification) ∧
      (∀ name, (ofChanges changes).RemoveAnswer listed name) ∧
      (∀ c, (ofChanges changes).Refuses c →
        (ofChanges changes).change c = ofChanges changes) ∧
      ∀ (home : Home) (words : List Text) (failure : Failure),
        (Program.run home words).ending = .failed failure →
          (Program.run home words).home = home := by
  obtain ⟨r, h⟩ := exists_sound_ofChanges changes
  refine ⟨r.list, list_eq h.registry, fun e overwrite => ⟨?_, fun later hsave => ?_⟩,
    h.removeAnswer, fun c => change_of_refuses, fun home words failure => Program.home_of_failed⟩
  · exact h.saveAnswer e.specification overwrite
  · exact h.answersSaved e hsave

end Store

end TypedCommand
