import TypedCommand.Proofs.Store.Outcome

/-!
Whose call some words are, from one change of the store to the next. The longest path that
begins the words has them, in every store that can be read. On the stores that changes lead to
one path at most begins them, so a change leaves the answer as it is for all words that have
nothing to do with its path.
-/

namespace TypedCommand

open Registration

namespace Registry

/-- Where no path is a front of another, the words belong to one entry at most. -/
theorem Coherent.length_filter_le_one {r : Registry} (h : r.Coherent) (words : List Text) :
    (r.list.filter fun s => s.path.isPrefixOf words).length ≤ 1 := by
  have hnames : r.list.Pairwise fun s t => s.commandName < t.commandName :=
    List.pairwise_map.1 h.increasing_list
  have hfiltered := hnames.filter fun s => s.path.isPrefixOf words
  have hmem : ∀ s ∈ r.list.filter fun s => s.path.isPrefixOf words,
      s ∈ r.list ∧ s.path <+: words := by
    intro s hs
    obtain ⟨hs, hprefix⟩ := List.mem_filter.1 hs
    exact ⟨hs, List.isPrefixOf_iff_prefix.1 hprefix⟩
  generalize r.list.filter (fun s => s.path.isPrefixOf words) = found at hfiltered hmem
  match found with
  | [] => exact Nat.zero_le 1
  | [_] => exact Nat.le_refl 1
  | s :: t :: found =>
    obtain ⟨hs, hsbegins⟩ := hmem s List.mem_cons_self
    obtain ⟨ht, htbegins⟩ := hmem t (List.mem_cons_of_mem _ List.mem_cons_self)
    have hlt : s.commandName < t.commandName :=
      (List.pairwise_cons.1 hfiltered).1 t List.mem_cons_self
    -- two fronts of the same words are comparable, so here they are equal
    have hpath : s.path = t.path := by
      by_contra hne
      exact h.not_clash hs ht ⟨hne, List.prefix_or_prefix_of_prefix hsbegins htbegins⟩
    rw [h.name s hs, h.name t ht, hpath] at hlt
    exact absurd hlt (List.lt_irrefl _)

end Registry

namespace Store

variable {store later : Store} {live : List Registration} {words : List Text}

/-- The words that begin with the path of a registration belong to it. -/
theorem Holds.resolve_of_mem (h : store.Holds live) {e : Registration} (he : e ∈ live)
    (hpath : e.path <+: words) :
    store.resolve words = .ok (some (e.specification.settle, words.drop e.path.length)) := by
  obtain ⟨r, hr, hholds⟩ := h
  rw [resolve_eq hr, hholds.resolve_of_mem he hpath]

theorem Holds.resolve_of_forall_not (h : store.Holds live)
    (hpath : ∀ e ∈ live, ¬ e.path <+: words) : store.resolve words = .ok none := by
  obtain ⟨r, hr, hholds⟩ := h
  rw [resolve_eq hr, hholds.resolve_eq_none hpath]

/-- What belonged to a registration still does when one of another path has been saved. -/
theorem Holds.resolve_saved (h : store.Holds live) {e : Registration}
    (hlater : later.Holds (register e live)) (hnew : ∀ e' ∈ live, e'.path ≠ e.path)
    {found : Specification × List Text} (hfound : store.resolve words = .ok (some found)) :
    later.resolve words = .ok (some found) := by
  by_cases hmem : ∃ e' ∈ live, e'.path <+: words
  · obtain ⟨e', he', hpath⟩ := hmem
    rw [h.resolve_of_mem he' hpath] at hfound
    have hkept : e' ∈ register e live :=
      List.mem_cons_of_mem _ (mem_dropPath.2 ⟨he', hnew e' he'⟩)
    rw [hlater.resolve_of_mem hkept hpath, hfound]
  · have hnone := h.resolve_of_forall_not fun e' he' hpath => hmem ⟨e', he', hpath⟩
    exact absurd (hnone.symm.trans hfound) nofun

/-- What belonged to none does not belong to any when a path has been saved that does not
begin it. -/
theorem Holds.resolve_saved_none (h : store.Holds live) {e : Registration}
    (hlater : later.Holds (register e live)) (hnone : store.resolve words = .ok none)
    (hpath : ¬ e.path <+: words) : later.resolve words = .ok none := by
  refine hlater.resolve_of_forall_not fun e' he' hprefix => ?_
  rcases List.mem_cons.1 he' with rfl | he'
  · exact hpath hprefix
  · have hfound := h.resolve_of_mem (mem_dropPath.1 he').1 hprefix
    exact absurd (hnone.symm.trans hfound) nofun

/-- What did not belong to a registration that has been removed is answered as before. -/
theorem Holds.resolve_removed (h : store.Holds live) {e : Registration} (he : e ∈ live)
    (hlater : later.Holds (dropPath e.path live))
    (hother : ∀ rest, store.resolve words ≠ .ok (some (e.specification.settle, rest))) :
    later.resolve words = store.resolve words := by
  by_cases hmem : ∃ e' ∈ live, e'.path <+: words
  · obtain ⟨e', he', hpath⟩ := hmem
    have hfound := h.resolve_of_mem he' hpath
    have hne : e'.path ≠ e.path := by
      intro heq
      obtain ⟨r, _, hholds⟩ := h
      obtain rfl := hholds.apart e' he' e he (heq ▸ List.prefix_rfl)
      exact hother _ hfound
    rw [hlater.resolve_of_mem (mem_dropPath.2 ⟨he', hne⟩) hpath, hfound]
  · have hnone : ∀ e' ∈ live, ¬ e'.path <+: words := fun e' he' hpath => hmem ⟨e', he', hpath⟩
    rw [h.resolve_of_forall_not hnone,
      hlater.resolve_of_forall_not fun e' he' => hnone e' (mem_dropPath.1 he').1]

/-- Resolution does not change under what does not concern it: one entry at most has the words
of a call, a new path changes the answer for none that had one and else only for words that
begin with it, and a removal only for the words of what is removed. -/
structure Steady (store : Store) (listed : List Specification) : Prop where
  unique : ∀ words : List Text, (listed.filter fun s => s.path.isPrefixOf words).length ≤ 1
  found : ∀ (e : Registration) overwrite later,
    (Store.save e.specification overwrite).run store = .ok () later →
      (∀ s ∈ listed, s.path ≠ e.path) → ∀ words found, store.resolve words = .ok (some found) →
        later.resolve words = .ok (some found)
  missing : ∀ (e : Registration) overwrite later,
    (Store.save e.specification overwrite).run store = .ok () later →
      (∀ s ∈ listed, s.path ≠ e.path) → ∀ words, store.resolve words = .ok none → ¬ e.path <+: words →
        later.resolve words = .ok none
  removed : ∀ name s later, (Store.remove name).run store = .ok s later →
    ∀ words, (∀ rest, store.resolve words ≠ .ok (some (s, rest))) →
      later.resolve words = store.resolve words

theorem Keeps.steady (h : store.Keeps live) {r : Registry} (hr : store.registry = .ok r) :
    store.Steady r.list := by
  have hholds : r.Holds live := by
    obtain ⟨held, hheld, hholds⟩ := h.holds
    rwa [Except.ok.inj (hr.symm.trans hheld)]
  refine ⟨(hholds.coherent h.reserved).length_filter_le_one, ?_, ?_, ?_⟩
  · intro e overwrite later hsave hnew words found hfound
    refine h.holds.resolve_saved (h.holds.save hsave).1 (fun e' he' => ?_) hfound
    exact hnew e'.specification.settle (hholds.mem_values.2 ⟨e', he', rfl⟩)
  · intro e overwrite later hsave _ words hnone hpath
    exact h.holds.resolve_saved_none (h.holds.save hsave).1 hnone hpath
  · intro name s later hremove words hother
    obtain ⟨e, he, hname, rfl⟩ : ∃ e ∈ live, e.specification.commandName = name.unify ∧
        e.specification.settle = s := by
      obtain ⟨held, r', hheld, hr', _⟩ := remove_eq_ok hremove
      obtain rfl := Except.ok.inj (hr.symm.trans hheld)
      obtain ⟨t, hload, hpair⟩ := map_eq_ok.1 hr'
      obtain ⟨rfl, _⟩ := Prod.mk.inj hpair
      refine (hholds.get? _ _).1 ?_
      unfold Registry.load at hload
      split at hload
      · next hget => rw [hget, Except.ok.inj hload]
      · exact absurd hload nofun
    have hpath : e.path = name.words := commandName_eq_unify_iff.1 hname
    exact h.holds.resolve_removed he (hpath ▸ h.holds.remove hremove) hother

/-- In every store that can be read, also one written by hand, the words of a call belong to
the specification with the longest path that begins them, with the words behind that path, and
to none if there is none such. On the stores that changes lead to, the answer is moreover
steady under further changes. -/
theorem resolve_longest_steady :
    (∀ (store : Store) (listed : List Specification), store.list = .ok listed →
      ∀ words, ∃ answer, store.resolve words = .ok answer ∧
        (answer = none ↔ ∀ s ∈ listed, ¬ s.path <+: words) ∧
        ∀ s rest, answer = some (s, rest) → Registry.Longest listed words s rest) ∧
    ∀ changes, ∃ listed, (ofChanges changes).list = .ok listed ∧
      (ofChanges changes).Steady listed := by
  constructor
  · intro store listed hlist words
    unfold list at hlist
    obtain ⟨r, hr, rfl⟩ := map_eq_ok.1 hlist
    have hanswers := Registry.answers_resolve r words
    refine ⟨r.resolve words, resolve_eq hr words, Registry.answers_none_iff hanswers, ?_⟩
    intro s rest heq
    rwa [heq] at hanswers
  · intro changes
    obtain ⟨live, hkeeps⟩ := keeps_none.run changes
    obtain ⟨r, hr, _⟩ := hkeeps.holds
    exact ⟨r.list, list_eq hr, hkeeps.steady hr⟩

/-- A file written by hand: one path is a front of the others, and those are equal. -/
def conflicting : Store := some ("[extensions.a]\ncommand_name = 'docker ip'\ntemplate = '1'\n" ++
  "[extensions.b]\ncommand_name = ' docker  ip'\ntemplate = '2'\n" ++
  "[extensions.c]\ncommand_name = 'docker'\ntemplate = '3'\n")

/-- Of the two longest paths the one that is listed last has the words. -/
theorem resolve_conflicting : ∃ listed s, conflicting.list = .ok listed ∧ listed.length = 3 ∧
    conflicting.resolve ["docker", "ip", "x"] = .ok (some (s, ["x".toList])) ∧
    s.template = "2".toList ∧ Registry.Longest listed ["docker", "ip", "x"] s ["x"] := by
  have hlength : conflicting.list.toOption.map (·.length) = some 3 := by decide +kernel
  have hanswer : (conflicting.resolve ["docker", "ip", "x"]).toOption.map
      (·.map fun found => (found.1.template, found.2)) =
        some (some ("2".toList, ["x".toList])) := by decide +kernel
  cases hlist : conflicting.list with
  | error error =>
    rw [hlist] at hlength
    exact absurd hlength nofun
  | ok listed =>
    obtain ⟨answer, hresolve, _, hlongest⟩ :=
      resolve_longest_steady.1 conflicting listed hlist ["docker", "ip", "x"]
    rw [hlist] at hlength
    rw [hresolve] at hanswer
    obtain ⟨⟨s, rest⟩, rfl, hfound⟩ := Option.map_eq_some_iff.1 (Option.some.inj hanswer)
    obtain ⟨htemplate, hrest⟩ := Prod.mk.inj hfound
    obtain rfl : rest = ["x".toList] := hrest
    exact ⟨listed, s, rfl, Option.some.inj hlength, hresolve, htemplate, hlongest _ _ rfl⟩

end Store

end TypedCommand
