import Mathlib.Data.List.Permutation
import TypedCommand.Proofs.Declaration.Accepted

/-!
Flag specifications. The parts of one are read in turn, each takes the free place that its
dashes say, and no part holds the slash between them: the parts are the flags that the
specification stands for, in either order, and a specification that is written for
well-formed flags stands for these.
-/

namespace TypedCommand

open Text

namespace Flags

def IsFlag (t : Text) : Prop := ∃ name, IsName name ∧ (t = '-' :: name ∨ t = '-' :: '-' :: name)

theorem add?_short {f : Flags} {name : Text} (hname : IsName name) (hfree : f.short = none) :
    f.add? ('-' :: name) = some { f with short := some ('-' :: name) } := by
  unfold add?
  split
  · next name' heq =>
    obtain rfl := (List.cons.inj heq).2
    exact absurd rfl hname.no_dash
  · next name' _ heq =>
    obtain rfl := (List.cons.inj heq).2
    simp [hfree, isName_iff.2 hname]
  · next hne => exact absurd rfl (hne name)

theorem add?_long {f : Flags} {name : Text} (hname : IsName name) (hfree : f.long = none) :
    f.add? ('-' :: '-' :: name) = some { f with long := some ('-' :: '-' :: name) } := by
  simp [add?, hfree, isName_iff.2 hname]

theorem WellFormed.chars {f : Flags} (h : f.WellFormed) {t : Text} (ht : t ∈ f.toList) :
    t.head? = some '-' ∧ ∀ c ∈ t, isWordChar c = true := by
  have hdash : isWordChar '-' = true := by decide
  rw [toList, List.mem_append, Option.mem_toList, Option.mem_toList] at ht
  rcases ht with ht | ht
  · obtain ⟨name, rfl, hname⟩ := h.short t ht
    exact ⟨rfl, List.forall_mem_cons.2 ⟨hdash, hname.chars⟩⟩
  · obtain ⟨name, rfl, hname⟩ := h.long t ht
    exact ⟨rfl, List.forall_mem_cons.2 ⟨hdash, List.forall_mem_cons.2 ⟨hdash, hname.chars⟩⟩⟩

theorem WellFormed.mem_text {f : Flags} (h : f.WellFormed) {c : Char} (hc : c ∈ f.text) :
    isWordChar c = true ∨ c = '/' := by
  rcases mem_intercalate hc with hc | ⟨t, ht, hc⟩
  · exact Or.inr (List.mem_singleton.1 hc)
  · exact Or.inl ((h.chars ht).2 c hc)

/-- Two parts can be added in either order. -/
theorem exists_add?_swap {f g h : Flags} {part part' : Text} (hg : f.add? part = some g)
    (hh : g.add? part' = some h) : ∃ g', f.add? part' = some g' ∧ g'.add? part = some h := by
  -- of two parts with as many dashes the second finds its place taken, in whichever order
  rcases add?_eq_some hg with ⟨name, rfl, hname, hfree, rfl⟩ | ⟨name, rfl, hname, hfree, rfl⟩
  · rcases add?_eq_some hh with ⟨name', rfl, _, htaken, _⟩ | ⟨name', rfl, hname', hfree', rfl⟩
    · exact absurd htaken (Option.some_ne_none _)
    · exact ⟨_, add?_short hname' hfree', add?_long hname hfree⟩
  · rcases add?_eq_some hh with ⟨name', rfl, hname', hfree', rfl⟩ | ⟨name', rfl, _, htaken, _⟩
    · exact ⟨_, add?_long hname' hfree', add?_short hname hfree⟩
    · exact absurd htaken (Option.some_ne_none _)

/-- What parts stand for does not depend on their order. -/
theorem foldlM_add?_of_perm {parts parts' : List Text} (hperm : parts.Perm parts') {f g : Flags}
    (h : parts.foldlM add? f = some g) : parts'.foldlM add? f = some g := by
  induction hperm generalizing f with
  | nil => exact h
  | cons part _ ih =>
    rw [List.foldlM_cons] at h ⊢
    obtain ⟨f', hf', hrest⟩ := Option.bind_eq_some_iff.1 h
    exact Option.bind_eq_some_iff.2 ⟨f', hf', ih hrest⟩
  | swap part part' parts =>
    simp only [List.foldlM_cons] at h ⊢
    obtain ⟨f', hf', h⟩ := Option.bind_eq_some_iff.1 h
    obtain ⟨f'', hf'', hrest⟩ := Option.bind_eq_some_iff.1 h
    obtain ⟨k, hk, hswapped⟩ := exists_add?_swap hf' hf''
    exact Option.bind_eq_some_iff.2 ⟨k, hk, Option.bind_eq_some_iff.2 ⟨f'', hswapped, hrest⟩⟩
  | trans _ _ ih ih' => exact ih' (ih h)

/-- The flags are listed with the short one first, so that a part is not always added behind. -/
theorem toList_perm_of_add? {f g : Flags} {part : Text} (h : f.add? part = some g) :
    g.toList.Perm (part :: f.toList) := by
  obtain ⟨short, long⟩ := f
  rcases add?_eq_some h with ⟨_, _, _, hfree, rfl⟩ | ⟨_, _, _, hfree, rfl⟩
  · obtain rfl : long = none := hfree
    cases short with
    | none => exact .refl _
    | some t => exact .swap part t []
  · obtain rfl : short = none := hfree
    exact .refl _

/-- Nothing is added but the parts, and none of them is lost. -/
theorem toList_perm_of_foldlM {parts : List Text} {f g : Flags}
    (h : parts.foldlM add? f = some g) : g.toList.Perm (parts ++ f.toList) := by
  induction parts generalizing f with
  | nil => exact Option.some.inj h ▸ .refl _
  | cons part parts ih =>
    rw [List.foldlM_cons] at h
    obtain ⟨f', hf', hrest⟩ := Option.bind_eq_some_iff.1 h
    calc
      g.toList.Perm (parts ++ f'.toList) := ih hrest
      (parts ++ f'.toList).Perm (parts ++ part :: f.toList) :=
        (toList_perm_of_add? hf').append_left parts
      (parts ++ part :: f.toList).Perm (part :: parts ++ f.toList) := List.perm_middle

theorem foldlM_add?_toList {f : Flags} (h : f.WellFormed) : f.toList.foldlM add? {} = some f := by
  rcases h.exists_names with ⟨short, hshort, rfl⟩ | ⟨long, hlong, rfl⟩ |
    ⟨short, long, hshort, hlong, rfl⟩
  · change add? {} ('-' :: short) >>= pure = _
    rw [add?_short hshort rfl]
    rfl
  · change add? {} ('-' :: '-' :: long) >>= pure = _
    rw [add?_long hlong rfl]
    rfl
  · change (add? {} ('-' :: short) >>= fun g => add? g ('-' :: '-' :: long) >>= pure) = _
    rw [add?_short hshort rfl]
    change add? _ ('-' :: '-' :: long) >>= pure = _
    rw [add?_long hlong rfl]
    rfl

/-- The parts of a specification are the flags that it stands for. -/
theorem ofText?_eq_some_iff {t : Text} {f : Flags} :
    ofText? t = some f ↔ f.WellFormed ∧ (t.splitOn '/').Perm f.toList := by
  constructor
  · intro h
    have hperm := toList_perm_of_foldlM h
    rw [show toList {} = [] from rfl, List.append_nil] at hperm
    exact ⟨wellFormed_ofText? h, hperm.symm⟩
  · rintro ⟨hform, hperm⟩
    exact foldlM_add?_of_perm hperm.symm (foldlM_add?_toList hform)

/-- Well-formed flags with slashes between them, in any order, are a specification of them. -/
theorem ofText?_intercalate {f : Flags} (h : f.WellFormed) {parts : List Text}
    (hperm : parts.Perm f.toList) : ofText? (['/'].intercalate parts) = some f := by
  have hslash : ∀ part ∈ parts, '/' ∉ part := by
    intro part hpart hmem
    exact absurd ((h.chars (hperm.mem_iff.1 hpart)).2 '/' hmem) (by decide)
  have hne : parts ≠ [] := fun hnil => h.present (hnil ▸ hperm).nil_eq.symm
  rw [ofText?_eq_some_iff, List.splitOn_intercalate '/' hslash hne]
  exact ⟨h, hperm⟩

/-- The specification of flags stands for them. -/
theorem ofText?_text {f : Flags} (h : f.WellFormed) : ofText? f.text = some f :=
  ofText?_intercalate h (.refl _)

/-- Every specification of flags begins with a dash. -/
theorem head?_of_ofText? {t : Text} {f : Flags} (h : ofText? t = some f) :
    t.head? = some '-' := by
  obtain ⟨hform, hperm⟩ := ofText?_eq_some_iff.1 h
  cases hparts : t.splitOn '/' with
  | nil => exact absurd hparts (List.splitOn_ne_nil '/' t)
  | cons part parts =>
    have hpart : part ∈ f.toList := hperm.mem_iff.1 (hparts ▸ List.mem_cons_self)
    have htext : ['/'].intercalate (part :: parts) = t := hparts ▸ List.intercalate_splitOn '/'
    obtain ⟨rest, hrest⟩ := prefix_intercalate_cons ['/'] part parts
    rw [← htext, ← hrest, List.head?_append, (hform.chars hpart).1, Option.some_or]

theorem WellFormed.head?_text {f : Flags} (h : f.WellFormed) : f.text.head? = some '-' :=
  head?_of_ofText? (ofText?_text h)

theorem exists_of_isFlag {t : Text} (h : IsFlag t) :
    ∃ f : Flags, f.WellFormed ∧ f.text = t ∧ f.primary = t := by
  obtain ⟨name, hname, rfl | rfl⟩ := h
  · refine ⟨{ short := some ('-' :: name) }, ⟨by simp [toList], ?_, ?_⟩, ?_, rfl⟩
    · intro t ht
      exact ⟨name, (Option.some.inj ht).symm, hname⟩
    · intro t ht
      simp at ht
    · exact List.intercalate_singleton
  · refine ⟨{ long := some ('-' :: '-' :: name) }, ⟨by simp [toList], ?_, ?_⟩, ?_, rfl⟩
    · intro t ht
      simp at ht
    · intro t ht
      exact ⟨name, (Option.some.inj ht).symm, hname⟩
    · exact List.intercalate_singleton

theorem wellFormed_pair {short long : Text} (hshort : IsName short) (hlong : IsName long) :
    (Flags.mk (some ('-' :: short)) (some ('-' :: '-' :: long))).WellFormed :=
  ⟨nofun, fun _ h => ⟨short, (Option.some.inj h).symm, hshort⟩,
    fun _ h => ⟨long, (Option.some.inj h).symm, hlong⟩⟩

/-- One flag, or a short and a long flag with a slash between, in either order. -/
inductive IsSpecification : Text → Prop
  | flag {t : Text} (h : IsFlag t) : IsSpecification t
  | shortFirst {short long : Text} (hshort : IsName short) (hlong : IsName long) :
      IsSpecification ('-' :: short ++ '/' :: '-' :: '-' :: long)
  | longFirst {short long : Text} (hshort : IsName short) (hlong : IsName long) :
      IsSpecification ('-' :: '-' :: long ++ '/' :: '-' :: short)

/-- Flags with slashes between them, in any order, are a specification. -/
theorem WellFormed.isSpecification {f : Flags} (h : f.WellFormed) {parts : List Text}
    (hperm : parts.Perm f.toList) : IsSpecification (['/'].intercalate parts) := by
  rcases h.exists_names with ⟨short, hshort, rfl⟩ | ⟨long, hlong, rfl⟩ |
    ⟨short, long, hshort, hlong, rfl⟩
  · rw [List.perm_singleton.1 hperm, List.intercalate_singleton]
    exact .flag ⟨short, hshort, Or.inl rfl⟩
  · rw [List.perm_singleton.1 hperm, List.intercalate_singleton]
    exact .flag ⟨long, hlong, Or.inr rfl⟩
  · rcases List.perm_pair.1 hperm with rfl | rfl
    · rw [List.intercalate_cons_cons, List.intercalate_singleton, List.append_assoc]
      exact .shortFirst hshort hlong
    · rw [List.intercalate_cons_cons, List.intercalate_singleton, List.append_assoc]
      exact .longFirst hshort hlong

theorem IsSpecification.exists_flags {t : Text} (h : IsSpecification t) :
    ∃ f, ofText? t = some f := by
  cases h with
  | flag h =>
    obtain ⟨f, hform, rfl, _⟩ := exists_of_isFlag h
    exact ⟨f, ofText?_text hform⟩
  | @shortFirst short long hshort hlong =>
    have hread := ofText?_text (wellFormed_pair hshort hlong)
    exact ⟨_, by simpa [text, toList] using hread⟩
  | @longFirst short long hshort hlong =>
    have hread := ofText?_intercalate (wellFormed_pair hshort hlong)
      (.swap ('-' :: short) ('-' :: '-' :: long) [])
    exact ⟨_, by simpa using hread⟩

theorem exists_ofText?_iff {t : Text} : (∃ f, ofText? t = some f) ↔ IsSpecification t := by
  constructor
  · rintro ⟨f, h⟩
    obtain ⟨hform, hperm⟩ := ofText?_eq_some_iff.1 h
    have hparts := hform.isSpecification hperm
    rwa [List.intercalate_splitOn] at hparts
  · exact IsSpecification.exists_flags

/-- No flag holds a character that ends it: the equals sign before a value, or the slash. -/
theorem WellFormed.not_mem {f : Flags} (h : f.WellFormed) {flag : Text} (hflag : flag ∈ f.toList) :
    '=' ∉ flag ∧ '/' ∉ flag := by
  have hchars := (h.chars hflag).2
  exact ⟨fun hmem => absurd (hchars '=' hmem) (by decide),
    fun hmem => absurd (hchars '/' hmem) (by decide)⟩

/-- Reading and writing flags undo each other, but for the order in a specification. What is read
is one flag or a short and a long one, and nothing but its parts is accepted as a flag; what is
written, for these flags or for any that are well formed, is read as the same flags. -/
theorem ofText?_inverts_text :
    (∀ t : Text, (∃ f, ofText? t = some f) ↔ IsSpecification t) ∧
    (∀ (t : Text) (f : Flags), ofText? t = some f →
      (∀ p : Text, f.accepts p = true ↔ p ∈ t.splitOn '/') ∧
      (∀ flag ∈ f.toList, '=' ∉ flag ∧ '/' ∉ flag) ∧ ofText? f.text = some f) ∧
    ∀ f : Flags, f.WellFormed → ofText? f.text = some f := by
  refine ⟨fun _ => exists_ofText?_iff, fun t f h => ?_, fun _ hform => ofText?_text hform⟩
  obtain ⟨hform, hperm⟩ := ofText?_eq_some_iff.1 h
  refine ⟨fun p => ?_, fun _ hflag => hform.not_mem hflag, ofText?_text hform⟩
  rw [← mem_toList_iff_accepts, hperm.mem_iff]

def dryRun : Flags := ⟨some "-n", some "--dry-run"⟩

theorem ofText?_inverts_text_longFirst :
    ofText? "--dry-run/-n" = some dryRun ∧ dryRun.WellFormed ∧
      IsSpecification "--dry-run/-n" ∧
      (∀ p : Text, dryRun.accepts p = true ↔ p ∈ ["--dry-run".toList, "-n".toList]) ∧
      (∀ flag ∈ dryRun.toList, '=' ∉ flag ∧ '/' ∉ flag) ∧
      dryRun.text = "-n/--dry-run" ∧ ofText? dryRun.text = some dryRun := by
  have hread : ofText? "--dry-run/-n" = some dryRun := by decide
  have hform : dryRun.WellFormed :=
    @wellFormed_pair "n" "dry-run" (isName_iff.1 (by decide)) (isName_iff.1 (by decide))
  obtain ⟨hspecification, hof, htext⟩ := ofText?_inverts_text
  obtain ⟨haccepts, hfree, _⟩ := hof _ _ hread
  exact ⟨hread, hform, (hspecification _).1 ⟨_, hread⟩, haccepts, hfree, by decide,
    htext _ hform⟩

end Flags

end TypedCommand
