import Mathlib.Data.List.Infix
import TypedCommand.Registry

/-!
Whose call some words are. Along the list of the registered specifications the answer is at
every point the best one so far, so in the end no longer path begins the words, and of equally
long ones the last counts.
-/

namespace TypedCommand

namespace Registry

/-- Of the listed specifications whose paths begin the words, this one has the longest path and
is the last of those with a path as long; `rest` are the words behind the path. -/
structure Longest (listed : List Specification) (words : List Text) (s : Specification)
    (rest : List Text) : Prop where
  words_eq : words = s.path ++ rest
  last : ∃ before after, listed = before ++ s :: after ∧
    (∀ t ∈ before, t.path <+: words → t.path.length ≤ s.path.length) ∧
    ∀ t ∈ after, t.path <+: words → t.path.length < s.path.length

/-- The right answer for some words: the longest path, or none that begins them. -/
def Answers (listed : List Specification) (words : List Text) :
    Option (Specification × List Text) → Prop
  | none => ∀ s ∈ listed, ¬ s.path <+: words
  | some (s, rest) => Longest listed words s rest

def prefer (words : List Text) (best : Option (Specification × List Text))
    (s : Specification) : Option (Specification × List Text) :=
  if s.path.isPrefixOf words then
    match best with
    | some (b, _) =>
      if s.path.length < b.path.length then best else some (s, words.drop s.path.length)
    | none => some (s, words.drop s.path.length)
  else best

theorem resolve_eq_foldl (r : Registry) (words : List Text) :
    r.resolve words = r.list.foldl (prefer words) none := by
  rw [resolve, List.foldl_filter]
  rfl

variable {front : List Specification} {words : List Text} {s b : Specification}
  {rest : List Text}

theorem Longest.mem (h : Longest front words s rest) : s ∈ front := by
  obtain ⟨before, after, rfl, _⟩ := h.last
  exact List.mem_append_right _ List.mem_cons_self

theorem Longest.prefix_words (h : Longest front words s rest) : s.path <+: words :=
  ⟨rest, h.words_eq.symm⟩

theorem Longest.le (h : Longest front words s rest) {t : Specification} (ht : t ∈ front)
    (hbegins : t.path <+: words) : t.path.length ≤ s.path.length := by
  obtain ⟨before, after, rfl, hbefore, hafter⟩ := h.last
  rcases List.mem_append.1 ht with ht | ht
  · exact hbefore t ht hbegins
  · rcases List.mem_cons.1 ht with rfl | ht
    · exact Nat.le_refl _
    · exact Nat.le_of_lt (hafter t ht hbegins)

/-- A specification behind the others that is no worse than any of them is the best. -/
theorem longest_concat (hbegins : s.path <+: words)
    (hle : ∀ t ∈ front, t.path <+: words → t.path.length ≤ s.path.length) :
    Longest (front ++ [s]) words s (words.drop s.path.length) where
  words_eq := (List.prefix_iff_eq_append.1 hbegins).symm
  last := ⟨front, [], rfl, hle, by simp⟩

/-- One that is worse, or whose path does not begin the words, changes nothing. -/
theorem Longest.concat (h : Longest front words b rest)
    (hlt : s.path <+: words → s.path.length < b.path.length) :
    Longest (front ++ [s]) words b rest where
  words_eq := h.words_eq
  last := by
    obtain ⟨before, after, rfl, hbefore, hafter⟩ := h.last
    refine ⟨before, after ++ [s], by simp, hbefore, ?_⟩
    exact List.forall_mem_append.2 ⟨hafter, List.forall_mem_singleton.2 hlt⟩

/-- One more specification: the answer for those before it becomes the answer with it. -/
theorem Answers.prefer {best : Option (Specification × List Text)}
    (h : Answers front words best) (s : Specification) :
    Answers (front ++ [s]) words (prefer words best s) := by
  unfold Registry.prefer
  split
  · next hfirst =>
    rw [List.isPrefixOf_iff_prefix] at hfirst
    cases best with
    | none => exact longest_concat hfirst fun t ht hbegins => absurd hbegins (h t ht)
    | some best =>
      obtain ⟨b, rest⟩ := best
      dsimp only
      split
      · next hlt => exact Longest.concat h fun _ => hlt
      · next hle =>
        refine longest_concat hfirst fun t ht hbegins => ?_
        exact (Longest.le h ht hbegins).trans (Nat.le_of_not_lt hle)
  · next hother =>
    rw [List.isPrefixOf_iff_prefix] at hother
    cases best with
    | none => exact List.forall_mem_append.2 ⟨h, List.forall_mem_singleton.2 hother⟩
    | some best => exact Longest.concat h fun hbegins => absurd hbegins hother

theorem Answers.foldl {best : Option (Specification × List Text)}
    (h : Answers front words best) (listed : List Specification) :
    Answers (front ++ listed) words (listed.foldl (Registry.prefer words) best) := by
  induction listed generalizing front best with
  | nil => rwa [List.append_nil]
  | cons s listed ih =>
    rw [← List.singleton_append, ← List.append_assoc]
    exact ih (h.prefer s)

/-- The answer is the right one, whatever the registry holds. -/
theorem answers_resolve (r : Registry) (words : List Text) :
    Answers r.list words (r.resolve words) := by
  rw [resolve_eq_foldl]
  have hstart : Answers [] words none := by simp [Answers]
  exact hstart.foldl r.list

theorem answers_none_iff {listed : List Specification}
    {answer : Option (Specification × List Text)} (h : Answers listed words answer) :
    answer = none ↔ ∀ s ∈ listed, ¬ s.path <+: words := by
  cases answer with
  | none => exact ⟨fun _ => h, fun _ => rfl⟩
  | some found =>
    refine ⟨nofun, fun hnone => ?_⟩
    exact absurd (Longest.prefix_words h) (hnone _ (Longest.mem h))

end Registry

end TypedCommand
