import TypedCommand.Declaration
import TypedCommand.Proofs.Declaration.Layout
import TypedCommand.Proofs.Words

/-!
What every accepted declaration consists of. Its command name has one or more words that
are names, its flags are dashes before names, its given names are identifiers, a marker
is missing from a variadic annotation at most, and one annotation at most is variadic.
-/

namespace TypedCommand

open Text

/-- The short flag is a dash, the long one two dashes, before a name; one is there. -/
structure Flags.WellFormed (f : Flags) : Prop where
  present : f.toList ≠ []
  short : ∀ t, f.short = some t → ∃ name, t = '-' :: name ∧ IsName name
  long : ∀ t, f.long = some t → ∃ name, t = '-' :: '-' :: name ∧ IsName name

namespace Flags

theorem mem_toList_iff_accepts {f : Flags} {flag : Text} :
    flag ∈ f.toList ↔ f.accepts flag = true := by
  simp only [toList, accepts, List.mem_append, Option.mem_toList, Bool.or_eq_true, beq_iff_eq]

/-- Well-formed flags by their names: a short one, a long one, or both. -/
theorem WellFormed.exists_names {f : Flags} (h : f.WellFormed) :
    (∃ short, IsName short ∧ f = ⟨some ('-' :: short), none⟩) ∨
      (∃ long, IsName long ∧ f = ⟨none, some ('-' :: '-' :: long)⟩) ∨
      ∃ short long, IsName short ∧ IsName long ∧
        f = ⟨some ('-' :: short), some ('-' :: '-' :: long)⟩ := by
  obtain ⟨short, long⟩ := f
  cases short with
  | none =>
    cases long with
    | none => exact absurd rfl h.present
    | some t =>
      obtain ⟨name, rfl, hname⟩ := h.long t rfl
      exact Or.inr (Or.inl ⟨name, hname, rfl⟩)
  | some t =>
    obtain ⟨name, rfl, hname⟩ := h.short t rfl
    cases long with
    | none => exact Or.inl ⟨name, hname, rfl⟩
    | some t' =>
      obtain ⟨name', rfl, hname'⟩ := h.long t' rfl
      exact Or.inr (Or.inr ⟨name, name', hname, hname', rfl⟩)

theorem WellFormed.primary_ne_nil {f : Flags} (h : f.WellFormed) : f.primary ≠ [] := by
  rcases h.exists_names with ⟨_, _, rfl⟩ | ⟨_, _, rfl⟩ | ⟨_, _, _, _, rfl⟩
  · exact List.cons_ne_nil _ _
  · exact List.cons_ne_nil _ _
  · exact List.cons_ne_nil _ _

/-- A part is added if it is a flag and the place that its dashes say is free. -/
theorem add?_eq_some {f f' : Flags} {part : Text} (h : f.add? part = some f') :
    (∃ name, part = '-' :: '-' :: name ∧ IsName name ∧ f.long = none ∧
        f' = { f with long := some part }) ∨
      (∃ name, part = '-' :: name ∧ IsName name ∧ f.short = none ∧
        f' = { f with short := some part }) := by
  unfold add? at h
  split at h
  · next name =>
    split at h
    · simp at h
    · next hfree =>
      simp only [Bool.or_eq_true, Bool.not_eq_true', not_or, Bool.not_eq_false,
        Option.not_isSome_iff_eq_none] at hfree
      exact Or.inl ⟨name, rfl, isName_iff.1 hfree.2, hfree.1, (Option.some.inj h).symm⟩
  · next name _ =>
    split at h
    · simp at h
    · next hfree =>
      simp only [Bool.or_eq_true, Bool.not_eq_true', not_or, Bool.not_eq_false,
        Option.not_isSome_iff_eq_none] at hfree
      exact Or.inr ⟨name, rfl, isName_iff.1 hfree.2, hfree.1, (Option.some.inj h).symm⟩
  · simp at h

/-- Adding a flag to some keeps the form of those that are there. -/
theorem WellFormed.add {f f' : Flags} {part : Text} (h : f.add? part = some f')
    (hshort : ∀ t, f.short = some t → ∃ name, t = '-' :: name ∧ IsName name)
    (hlong : ∀ t, f.long = some t → ∃ name, t = '-' :: '-' :: name ∧ IsName name) :
    f'.WellFormed := by
  rcases add?_eq_some h with ⟨name, rfl, hname, _, rfl⟩ | ⟨name, rfl, hname, _, rfl⟩
  · refine ⟨by simp [toList], hshort, fun t ht => ?_⟩
    exact ⟨name, (Option.some.inj ht).symm, hname⟩
  · refine ⟨by simp [toList], fun t ht => ?_, hlong⟩
    exact ⟨name, (Option.some.inj ht).symm, hname⟩

theorem wellFormed_foldlM {parts : List Text} {f f' : Flags} (hf : f.WellFormed)
    (h : parts.foldlM add? f = some f') : f'.WellFormed := by
  induction parts generalizing f with
  | nil => exact Option.some.inj h ▸ hf
  | cons part parts ih =>
    rw [List.foldlM_cons] at h
    obtain ⟨g, hg, hrest⟩ := Option.bind_eq_some_iff.1 h
    exact ih (WellFormed.add hg hf.short hf.long) hrest

/-- What a flag specification stands for. -/
theorem wellFormed_ofText? {t : Text} {f : Flags} (h : ofText? t = some f) : f.WellFormed := by
  unfold ofText? at h
  cases hparts : t.splitOn '/' with
  | nil => exact absurd hparts (List.splitOn_ne_nil '/' t)
  | cons part parts =>
    rw [hparts, List.foldlM_cons] at h
    obtain ⟨g, hg, hrest⟩ := Option.bind_eq_some_iff.1 h
    exact wellFormed_foldlM (WellFormed.add hg nofun nofun) hrest

theorem wellFormed_ofName {name : Text} (h : IsIdentifier name) : (ofName name).WellFormed := by
  have hshort : (ofName name).short = none := rfl
  refine ⟨by simp [ofName, toList], fun t ht => by simp [hshort] at ht, fun t ht => ?_⟩
  exact ⟨name, (Option.some.inj ht).symm, h.isName⟩

end Flags

structure Annotation.WellFormed (a : Annotation) : Prop where
  name : ∀ n, a.name = some n → IsIdentifier n
  flags : ∀ f, a.pattern.flags? = some f → f.WellFormed
  marker : a.marker = [] → a.pattern = .variadic
  variadic : a.pattern = .variadic → a.kind = .str ∧ a.default = none

namespace Annotation

theorem isIdentifier_of_checkName {fragment name : Text} {u : Unit} (hne : name ≠ [])
    (h : checkName fragment name = .ok u) : IsIdentifier name := by
  unfold checkName at h
  split at h
  · next hall => exact ⟨hne, List.all_eq_true.1 hall⟩
  · simp at h

theorem readFlags_eq_ok {fragment t : Text} {reason : Reason} {f : Flags}
    (h : readFlags fragment reason t = .ok f) : Flags.ofText? t = some f := by
  unfold readFlags at h
  split at h
  · next heq => rw [heq, Except.ok.inj h]
  · simp at h

theorem readVariadic_eq_ok {fragment marker rest : Text} {flags : Option Flags} {a : Annotation}
    (h : readVariadic fragment marker flags rest = .ok a) :
    ∃ help, a = ⟨marker, none, .str, none, help, .variadic, fragment⟩ := by
  unfold readVariadic at h
  split at h
  · simp at h
  · split at h
    · exact ⟨_, (Except.ok.inj h).symm⟩
    · exact ⟨_, (Except.ok.inj h).symm⟩
    · simp at h

theorem readForwardedHead_eq_ok {fragment head : Text} {own : Flags} {name : Option Text}
    {flags : Flags} (hown : own.WellFormed)
    (h : readForwardedHead fragment own head = .ok (name, flags)) :
    (∀ n, name = some n → IsIdentifier n) ∧ flags.WellFormed := by
  unfold readForwardedHead at h
  split at h
  · obtain ⟨f, hf, heq⟩ := map_eq_ok.1 h
    obtain ⟨rfl, rfl⟩ := Prod.mk.inj heq
    exact ⟨nofun, Flags.wellFormed_ofText? (readFlags_eq_ok hf)⟩
  · split at h
    · obtain ⟨rfl, rfl⟩ := Prod.mk.inj (Except.ok.inj h)
      exact ⟨nofun, hown⟩
    · next hne =>
      obtain ⟨u, hu, heq⟩ := map_eq_ok.1 h
      obtain ⟨rfl, rfl⟩ := Prod.mk.inj heq
      have hid := isIdentifier_of_checkName (by simpa using hne) hu
      exact ⟨fun n hn => Option.some.inj hn ▸ hid, Flags.wellFormed_ofName hid⟩

theorem WellFormed.of_readForwarded {fragment marker : Text} {flags : Option Flags} {body : Body}
    {a : Annotation} (h : readForwarded fragment marker flags body = .ok a) : a.WellFormed := by
  unfold readForwarded at h
  split at h
  · simp at h
  · obtain ⟨own, hown, h⟩ := bind_eq_ok.1 h
    obtain ⟨⟨name, flags⟩, hhead, h⟩ := bind_eq_ok.1 h
    have hownForm := Flags.wellFormed_ofText? (readFlags_eq_ok hown)
    obtain ⟨hname, hflags⟩ := readForwardedHead_eq_ok hownForm hhead
    obtain rfl := Except.ok.inj h
    refine ⟨hname, fun f hf => Option.some.inj hf ▸ hflags, fun hmarker => ?_, nofun⟩
    exact absurd hmarker hownForm.primary_ne_nil

theorem WellFormed.of_readReplaced {fragment marker : Text} {flags : Option Flags} {body : Body}
    {a : Annotation} (hflags : ∀ f, flags = some f → f.WellFormed)
    (h : readReplaced fragment marker flags body = .ok a) : a.WellFormed := by
  unfold readReplaced at h
  split at h
  · simp at h
  · next hmarker =>
    obtain ⟨u, hu, rfl⟩ := map_eq_ok.1 h
    refine ⟨fun n hn => ?_, fun f hf => ?_, fun hm => ?_, fun hv => ?_⟩
    · dsimp only at hn
      split at hn
      · simp at hn
      · next hne => exact Option.some.inj hn ▸ isIdentifier_of_checkName (by simpa using hne) hu
    · cases flags with
      | none => simp [Pattern.flags?] at hf
      | some g => exact Option.some.inj hf ▸ hflags g rfl
    · exact absurd hm (by simpa using hmarker)
    · cases flags <;> simp at hv

/-- Every annotation that is read is well formed, if the flags before it are. -/
theorem WellFormed.of_read {fragment marker body : Text} {flags : Option Flags} {a : Annotation}
    (hflags : ∀ f, flags = some f → f.WellFormed)
    (h : read fragment marker body flags = .ok a) : a.WellFormed := by
  unfold read at h
  split at h
  · obtain ⟨help, rfl⟩ := readVariadic_eq_ok h
    refine ⟨nofun, fun f hf => ?_, fun _ => rfl, fun _ => ⟨rfl, rfl⟩⟩
    simp [Pattern.flags?] at hf
  · obtain ⟨fields, _, h⟩ := bind_eq_ok.1 h
    split at h
    · exact .of_readForwarded h
    · exact .of_readReplaced hflags h

end Annotation

/-- A word without an annotation is not empty. -/
theorem Token.marker_ne_nil_of_readFrom {t : Text} {tokens : List Token}
    (h : readFrom (.outside []) t = .ok tokens) :
    ∀ token ∈ tokens, token.body = none → token.marker ≠ [] :=
  fun token htoken => (wellFormed_of_read h token htoken).bare

structure Declaration.WellFormed (d : Declaration) : Prop where
  path_ne_nil : d.path ≠ []
  path_names : ∀ w ∈ d.path, IsName w
  annotations : ∀ a ∈ d.annotations, a.WellFormed
  one_variadic : (d.annotations.filter (·.pattern.isVariadic)).length ≤ 1

namespace Declaration

/-- What is dropped is one word in front, if it calls the program. -/
theorem dropRootWord_eq_iff {tokens words : List Token} :
    dropRootWord tokens = words ↔ tokens = { marker := rootWord } :: words ∨
      tokens = words ∧ tokens.head? ≠ some { marker := rootWord } := by
  cases tokens with
  | nil => simp [dropRootWord]
  | cons token rest =>
    rw [dropRootWord]
    split
    · next htoken => simp [htoken]
    · next htoken => simp [htoken]

theorem mem_of_mem_dropRootWord {token : Token} {tokens : List Token}
    (h : token ∈ dropRootWord tokens) : token ∈ tokens := by
  rcases dropRootWord_eq_iff.1 (Eq.refl (dropRootWord tokens)) with hdropped | ⟨hkept, _⟩
  · rw [hdropped]
    exact List.mem_cons_of_mem _ h
  · rwa [hkept]

theorem readPath_eq_ok {tokens rest : List Token} {path : List Text}
    (hbare : ∀ token ∈ tokens, token.body = none → token.marker ≠ [])
    (h : readPath tokens = .ok (path, rest)) : ∀ w ∈ path, IsName w := by
  induction tokens generalizing path rest with
  | nil => simp [← (Prod.mk.inj (Except.ok.inj h)).1]
  | cons token tokens ih =>
    rw [readPath] at h
    split at h
    · next hword =>
      split at h
      · next hchars =>
        obtain ⟨⟨path', rest'⟩, hpath, heq⟩ := map_eq_ok.1 h
        obtain ⟨rfl, rfl⟩ := Prod.mk.inj heq
        simp only [Token.isBare, isFlagWord, Bool.and_eq_true, Option.isNone_iff_eq_none,
          Bool.not_eq_true', Bool.and_eq_false_iff] at hword
        intro w hw
        rcases List.mem_cons.1 hw with rfl | hw
        · refine ⟨hbare token List.mem_cons_self hword.1, ?_, List.all_eq_true.1 hchars⟩
          simpa [hword.1] using hword.2
        · exact ih (fun t ht => hbare t (List.mem_cons_of_mem _ ht)) hpath w hw
      · simp at h
    · simp [← (Prod.mk.inj (Except.ok.inj h)).1]

/-- At most one item of a class: when the first is of it, none has been seen and none
follows. -/
theorem length_filter_cons_le {α : Type} {p : α → Bool} {a : α} {l : List α} {seen : Bool} :
    ((a :: l).filter p).length ≤ (if seen then 0 else 1) ↔
      (p a && seen) = false ∧ (l.filter p).length ≤ if seen || p a then 0 else 1 := by
  rw [List.filter_cons]
  cases p a <;> cases seen <;> simp

/-- What a word behind the command name can be: flags, which are kept, or an annotated word,
which takes those that are kept. -/
theorem readAnnotations_cons_eq_ok {collected : Bool} {pending : Option (Flags × Text)}
    {token : Token} {rest : List Token} {annotations : List Annotation}
    (h : readAnnotations collected pending (token :: rest) = .ok annotations) :
    (∃ t flags, pending = none ∧ token = { marker := t } ∧ Flags.ofText? t = some flags ∧
        readAnnotations collected (some (flags, t)) rest = .ok annotations) ∨
      ∃ body a later, token.body = some body ∧
        Annotation.read token.raw token.marker body (pending.map Prod.fst) = .ok a ∧
        (a.pattern.isVariadic && collected) = false ∧
        readAnnotations (collected || a.pattern.isVariadic) none rest = .ok later ∧
        annotations = a :: later := by
  obtain ⟨marker, body⟩ := token
  unfold readAnnotations at h
  split at h
  · next hbare =>
    obtain rfl : body = none := hbare
    split at h
    · split at h
      · simp at h
      · split at h
        · next flags hflags => exact Or.inl ⟨marker, flags, rfl, rfl, hflags, h⟩
        · simp at h
    · simp at h
  · next body' hbody =>
    obtain ⟨a, ha, h⟩ := bind_eq_ok.1 h
    dsimp only at h
    split at h
    · simp at h
    · next hfree =>
      obtain ⟨later, hlater, rfl⟩ := map_eq_ok.1 h
      exact Or.inr ⟨body', a, later, hbody, ha, by simpa using hfree, hlater, rfl⟩

theorem readAnnotations_eq_ok {collected : Bool} {pending : Option (Flags × Text)}
    {tokens : List Token} {annotations : List Annotation}
    (hpending : ∀ f raw, pending = some (f, raw) → f.WellFormed)
    (h : readAnnotations collected pending tokens = .ok annotations) :
    (∀ a ∈ annotations, a.WellFormed) ∧
      (annotations.filter (·.pattern.isVariadic)).length ≤ if collected then 0 else 1 := by
  induction tokens generalizing collected pending annotations with
  | nil =>
    unfold readAnnotations at h
    split at h
    · simp at h
    · simp [← Except.ok.inj h]
  | cons token tokens ih =>
    rcases readAnnotations_cons_eq_ok h with
      ⟨t, flags, rfl, rfl, hflags, h⟩ | ⟨body, a, later, _, ha, hfree, hlater, rfl⟩
    · refine ih (fun g raw hg => ?_) h
      obtain ⟨rfl, rfl⟩ := Prod.mk.inj (Option.some.inj hg)
      exact Flags.wellFormed_ofText? hflags
    · obtain ⟨hforms, hcount⟩ := ih (by simp) hlater
      have hform : a.WellFormed := by
        refine .of_read (fun f hf => ?_) ha
        obtain ⟨⟨g, raw⟩, hg, rfl⟩ := Option.map_eq_some_iff.1 hf
        exact hpending g raw hg
      exact ⟨List.forall_mem_cons.2 ⟨hform, hforms⟩, length_filter_cons_le.2 ⟨hfree, hcount⟩⟩

/-- Every accepted declaration is well formed. -/
theorem WellFormed.of_read {t : Text} {d : Declaration} (h : read t = .ok d) : d.WellFormed := by
  unfold read at h
  obtain ⟨tokens, htokens, h⟩ := bind_eq_ok.1 h
  obtain ⟨⟨path, rest⟩, hpath, h⟩ := bind_eq_ok.1 h
  obtain ⟨annotations, hannotations, h⟩ := bind_eq_ok.1 h
  split at h
  · simp at h
  · next hne =>
    obtain rfl := Except.ok.inj h
    obtain ⟨hforms, hcount⟩ := readAnnotations_eq_ok (by simp) hannotations
    refine ⟨by simpa using hne, ?_, hforms, hcount⟩
    refine readPath_eq_ok (fun token hmem hbare => ?_) hpath
    exact Token.marker_ne_nil_of_readFrom htokens token (mem_of_mem_dropRootWord hmem) hbare

end Declaration

end TypedCommand
