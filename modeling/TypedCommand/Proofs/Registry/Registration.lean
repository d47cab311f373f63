import TypedCommand.Proofs.Registry.Format
import TypedCommand.Proofs.Registry.Longest
import TypedCommand.Proofs.Specification
import TypedCommand.Store

/-!
What a registry holds, by the declarations that it was made from. No path of theirs is a
front of another, so a call finds the one that its words begin with and no other. Saving,
removing and the way over the file keep it so.
-/

namespace TypedCommand

/-- A specification with the texts that it is compiled from. -/
structure Registration where
  template : Text
  declaration : Text
  specification : Specification
  compiled : Specification.ofText template declaration = .ok specification

namespace Registration

def path (e : Registration) : List Text := e.specification.path

def dropPath (path : List Text) (live : List Registration) : List Registration :=
  live.filter fun e => e.path != path

/-- The registrations with one more, in place of an earlier one of its path. -/
def register (e : Registration) (live : List Registration) : List Registration :=
  e :: dropPath e.path live

theorem mem_dropPath {path : List Text} {live : List Registration} {e : Registration} :
    e ∈ dropPath path live ↔ e ∈ live ∧ e.path ≠ path := by
  simp [dropPath]

theorem commandName_eq (e : Registration) :
    e.specification.commandName = [' '].intercalate e.path :=
  (Specification.commandName_of_ofText e.compiled).2.2

/-- A name has the path of a registration if it is that registration's name, but for the
blanks in it. -/
theorem commandName_eq_unify_iff {e : Registration} {name : Text} :
    e.specification.commandName = name.unify ↔ e.path = name.words := by
  constructor
  · intro h
    rw [path, Specification.path, h, Text.words_unify]
  · intro h
    rw [commandName_eq, h, Text.unify]

theorem commandName_inj {e e' : Registration} :
    e.specification.commandName = e'.specification.commandName ↔ e.path = e'.path := by
  constructor
  · intro h
    rw [path, path, Specification.path, Specification.path, h]
  · intro h
    rw [commandName_eq, commandName_eq, h]

end Registration

namespace Registry

open Registration

/-- The registry holds the settled specifications of these registrations and no others;
no path of theirs is a front of another. -/
structure Holds (r : Registry) (live : List Registration) : Prop where
  get? : ∀ name s, r.get? name = some s ↔
    ∃ e ∈ live, e.specification.commandName = name ∧ e.specification.settle = s
  apart : ∀ e ∈ live, ∀ e' ∈ live, e.path <+: e'.path → e = e'

theorem holds_empty : Holds SortedMap.empty [] where
  get? := by simp [SortedMap.get?_empty]
  apart := by simp

theorem get?_settle (r : Registry) (name : Text) :
    r.settle.get? name = (r.get? name).map Specification.settle := by
  rw [SortedMap.get?, settle, SortedMap.get?, List.find?_map, Option.map_map, Option.map_map]
  rfl

section Holds

variable {r r' : Registry} {live : List Registration}

theorem Holds.mem_values (h : r.Holds live) {s : Specification} :
    s ∈ r.values ↔ ∃ e ∈ live, e.specification.settle = s := by
  simp only [SortedMap.mem_values_iff, h.get?]
  exact ⟨fun ⟨_, e, he, _, hs⟩ => ⟨e, he, hs⟩, fun ⟨e, he, hs⟩ => ⟨_, e, he, rfl, hs⟩⟩

theorem checkAgainst_eq_ok {s existing : Specification} {overwrite : Bool}
    (h : checkAgainst s overwrite existing = .ok ()) :
    existing.path = s.path ∨ ¬ s.path <+: existing.path ∧ ¬ existing.path <+: s.path := by
  unfold checkAgainst at h
  split at h
  · next heq => exact Or.inl heq
  · split at h
    · simp at h
    · next hapart => exact Or.inr (by simpa using hapart)

/-- What is saved stands apart from all that it does not replace. -/
theorem Holds.apart_of_save (h : r.Holds live) {s : Specification} {overwrite : Bool}
    (hsave : r.save s overwrite = .ok r') : r' = r.insert s.commandName s ∧
      ∀ e ∈ live, e.path = s.path ∨ ¬ s.path <+: e.path ∧ ¬ e.path <+: s.path := by
  obtain ⟨_, hcheck, hinsert⟩ := bind_eq_ok.1 hsave
  refine ⟨(Except.ok.inj hinsert).symm, fun e he => ?_⟩
  unfold check at hcheck
  split at hcheck
  · simp at hcheck
  · have hchecked := forM_eq_ok.1 hcheck e.specification.settle (h.mem_values.2 ⟨e, he, rfl⟩)
    exact checkAgainst_eq_ok hchecked

/-- Where a name is not that of the path, dropping the path changes nothing. -/
theorem Holds.get?_dropPath (h : r.Holds live) (path : List Text) {name : Text}
    (hname : ∀ e : Registration, e.specification.commandName = name → e.path ≠ path)
    (s : Specification) : (r.get? name).map Specification.settle = some s ↔
      ∃ e ∈ dropPath path live, e.specification.commandName = name ∧
        e.specification.settle = s := by
  rw [Option.map_eq_some_iff]
  constructor
  · rintro ⟨s, hs, rfl⟩
    obtain ⟨e, he, hcommand, rfl⟩ := (h.get? name s).1 hs
    exact ⟨e, mem_dropPath.2 ⟨he, hname e hcommand⟩, hcommand, e.specification.settle_settle.symm⟩
  · rintro ⟨e, he, hcommand, rfl⟩
    exact ⟨e.specification.settle, (h.get? _ _).2 ⟨e, (mem_dropPath.1 he).1, hcommand, rfl⟩,
      e.specification.settle_settle⟩

/-- A registration that is saved and kept takes the place of the one of its path. -/
theorem Holds.save (h : r.Holds live) (e : Registration) {overwrite : Bool}
    (hsave : r.save e.specification overwrite = .ok r') : r'.settle.Holds (register e live) := by
  obtain ⟨rfl, hapart⟩ := h.apart_of_save hsave
  constructor
  · -- the name that is saved under is that of the path, and all others are kept
    intro name s
    rw [get?_settle, SortedMap.get?_insert]
    by_cases hname : name = e.specification.commandName
    · rw [if_pos hname, Option.map_some, Option.some_inj]
      constructor
      · rintro rfl
        exact ⟨e, List.mem_cons_self, hname.symm, rfl⟩
      · rintro ⟨e', he', hname', rfl⟩
        rcases List.mem_cons.1 he' with rfl | he'
        · rfl
        · exact absurd (commandName_inj.1 (hname'.trans hname)) (mem_dropPath.1 he').2
    · have hothers := h.get?_dropPath e.path (fun e' hname' hpath =>
        hname (hname'.symm.trans (commandName_inj.2 hpath))) s
      rw [if_neg hname, hothers, register]
      simp only [List.exists_mem_cons_iff]
      exact ⟨Or.inr, fun hmem => hmem.resolve_left fun hself => hname hself.1.symm⟩
  · intro e₁ he₁ e₂ he₂ hprefix
    rcases List.mem_cons.1 he₁ with rfl | he₁
    · rcases List.mem_cons.1 he₂ with rfl | he₂
      · rfl
      · obtain ⟨he₂, hne⟩ := mem_dropPath.1 he₂
        exact absurd hprefix ((hapart e₂ he₂).resolve_left hne).1
    · obtain ⟨hlive, hne⟩ := mem_dropPath.1 he₁
      rcases List.mem_cons.1 he₂ with rfl | he₂
      · exact absurd hprefix ((hapart e₁ hlive).resolve_left hne).2
      · exact h.apart e₁ hlive e₂ (mem_dropPath.1 he₂).1 hprefix

/-- A name that is removed takes the registration of its path with it. -/
theorem Holds.remove (h : r.Holds live) {name : Text} {s : Specification}
    (hremove : r.remove name = .ok (s, r')) : r'.settle.Holds (dropPath name.words live) := by
  obtain ⟨s, _, hpair⟩ := map_eq_ok.1 hremove
  obtain ⟨rfl, rfl⟩ := Prod.mk.inj hpair
  constructor
  · intro name' s'
    rw [get?_settle, SortedMap.get?_erase]
    by_cases hname : name' = name.unify
    · rw [if_pos hname]
      constructor
      · nofun
      · rintro ⟨e, he, hname', rfl⟩
        exact absurd (commandName_eq_unify_iff.1 (hname'.trans hname)) (mem_dropPath.1 he).2
    · rw [if_neg hname]
      exact h.get?_dropPath name.words (fun e hname' hpath =>
        hname (hname'.symm.trans (commandName_eq_unify_iff.2 hpath))) s'
  · intro e₁ he₁ e₂ he₂ hprefix
    exact h.apart e₁ (mem_dropPath.1 he₁).1 e₂ (mem_dropPath.1 he₂).1 hprefix

/-- Of one specification, however often it is met, the words belong to it. -/
theorem resolve_of_unique {words : List Text} {s : Specification} (hs : s ∈ r.values)
    (hpath : s.path <+: words) (hunique : ∀ s' ∈ r.values, s'.path <+: words → s' = s) :
    r.resolve words = some (s, words.drop s.path.length) := by
  have hanswers := answers_resolve r words
  cases hanswer : r.resolve words with
  | none => exact absurd hpath ((answers_none_iff hanswers).1 hanswer s hs)
  | some found =>
    obtain ⟨t, rest⟩ := found
    rw [hanswer] at hanswers
    have hlongest : Longest r.list words t rest := hanswers
    obtain rfl := hunique t hlongest.mem hlongest.prefix_words
    rw [hlongest.words_eq, List.drop_left]

/-- The words of a call that begin with the path of a registration belong to it. -/
theorem Holds.resolve_of_mem (h : r.Holds live) {e : Registration} (he : e ∈ live)
    {words : List Text} (hpath : e.path <+: words) :
    r.resolve words = some (e.specification.settle, words.drop e.path.length) := by
  refine resolve_of_unique (h.mem_values.2 ⟨e, he, rfl⟩) hpath fun s' hs' hpath' => ?_
  obtain ⟨e', he', rfl⟩ := h.mem_values.1 hs'
  -- two fronts of one list: one of them is a front of the other
  rcases List.prefix_or_prefix_of_prefix hpath hpath' with hprefix | hprefix
  · rw [h.apart e he e' he' hprefix]
  · rw [h.apart e' he' e he hprefix]

/-- Words that begin with no path belong to nothing. -/
theorem Holds.resolve_eq_none (h : r.Holds live) {words : List Text}
    (hpath : ∀ e ∈ live, ¬ e.path <+: words) : r.resolve words = none := by
  refine (answers_none_iff (answers_resolve r words)).2 fun s hs => ?_
  obtain ⟨e, he, rfl⟩ := h.mem_values.1 hs
  exact hpath e he

end Holds

end Registry
end TypedCommand
