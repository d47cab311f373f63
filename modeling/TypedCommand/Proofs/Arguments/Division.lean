import Mathlib.Data.List.Nodup
import TypedCommand.Proofs.Arguments.Reading
import TypedCommand.Proofs.Specification

/-!
The words of a call as consecutive groups. A group is a flag with its value, a word that
a parameter takes, or the terminator. `Reached` is what one word after the other keeps:
the words read so far are the words of the groups, and nothing is given but by a group.
-/

namespace TypedCommand

open Parameter Specification

/-- A group of neighbouring words in a call, with the parameter that it belongs to. -/
inductive Group
  | terminator
  /-- A truth flag alone. -/
  | switch (flag : Text) (option : Parameter)
  /-- A long flag and its value in one word. -/
  | inline (flag value : Text) (option : Parameter)
  /-- A flag and the word behind it. -/
  | valued (flag value : Text) (option : Parameter)
  | positional (word : Text) (parameter : Parameter)
  | leftover (word : Text)

namespace Group

def words : Group → List Text
  | terminator => ["--".toList]
  | switch flag _ => [flag]
  | inline flag value _ => [flag ++ '=' :: value]
  | valued flag value _ => [flag, value]
  | positional word _ => [word]
  | leftover word => [word]

def given? : Group → Option (Parameter × Text)
  | switch _ option => some (option, "true")
  | inline _ value option => some (option, value)
  | valued _ value option => some (option, value)
  | positional word parameter => some (parameter, word)
  | _ => none

def positional? : Group → Option (Parameter × Text)
  | positional word parameter => some (parameter, word)
  | _ => none

def leftover? : Group → Option Text
  | leftover word => some word
  | _ => none

def isPlain : Group → Bool
  | positional _ _ => true
  | leftover _ => true
  | _ => false

def Declares (s : Specification) (flag : Text) (option : Parameter) : Prop :=
  option ∈ s.parameters ∧ ∃ flags, option.flags? = some flags ∧ flag ∈ flags.toList

def Declared (s : Specification) : Group → Prop
  | terminator => True
  | switch flag option => Declares s flag option ∧ option.kind = .bool
  | inline flag _ option => Declares s flag option ∧ "--".toList <+: flag ∧ '=' ∉ flag
  | valued flag _ option => Declares s flag option ∧ option.kind ≠ .bool
  | positional _ parameter => parameter ∈ s.positionals
  | leftover _ => s.hasVariadic = true

/-- A group that can stand before the terminator: it does not begin like one, and a word
that is taken as a plain one is not the flag of an option. -/
def IsBefore (s : Specification) (g : Group) : Prop :=
  g.words.head? ≠ some "--".toList ∧
    (g.isPlain = true → ∀ word ∈ g.words, word.head? = some '-' →
      ∀ option, ¬ Declares s (Arguments.splitFlag word).1 option)

/-- Behind the terminator all words are plain, and the first group that begins like the
terminator is the terminator. -/
def Ordered (s : Specification) (terminated : Bool) (groups : List Group) : Prop :=
  match terminated with
  | false => ∀ g ∈ groups, g.IsBefore s
  | true => ∃ before after, groups = before ++ terminator :: after ∧
      (∀ g ∈ before, g.IsBefore s) ∧ ∀ g ∈ after, g.isPlain = true

def lastGiven (groups : List Group) (p : Parameter) : Option Text :=
  (((groups.filterMap given?).filter (fun e => e.1 == p)).getLast?).map Prod.snd

theorem Ordered.before {s : Specification} {groups : List Group} {g : Group}
    (h : Ordered s false groups) (hg : g.IsBefore s) : Ordered s false (groups ++ [g]) := by
  intro g' hg'
  rcases List.mem_append.1 hg' with hg' | hg'
  · exact h g' hg'
  · exact List.mem_singleton.1 hg' ▸ hg

theorem Ordered.terminate {s : Specification} {groups : List Group}
    (h : Ordered s false groups) : Ordered s true (groups ++ [.terminator]) :=
  ⟨groups, [], rfl, h, by simp⟩

theorem Ordered.plain {s : Specification} {groups : List Group} {g : Group}
    (h : Ordered s true groups) (hg : g.isPlain = true) : Ordered s true (groups ++ [g]) := by
  obtain ⟨before, after, rfl, hbefore, hafter⟩ := h
  refine ⟨before, after ++ [g], by simp, hbefore, fun g' hg' => ?_⟩
  rcases List.mem_append.1 hg' with hg' | hg'
  · exact hafter g' hg'
  · exact List.mem_singleton.1 hg' ▸ hg

end Group

/-- A division of the words of a call into groups that accounts for all that is given. -/
structure Division (s : Specification) (words : List Text) (a : Arguments)
    (groups : List Group) : Prop where
  words : words = groups.flatMap Group.words
  declared : ∀ g ∈ groups, g.Declared s
  order : ∃ terminated, Group.Ordered s terminated groups
  leftovers : a.leftovers = groups.filterMap Group.leftover?
  positionals : (groups.filterMap Group.positional?).map Prod.fst <+: s.positionals
  positional_values : ∀ e ∈ groups.filterMap Group.positional?, a.values.get? e.1.name = some e.2
  option_values : ∀ option ∈ s.options, a.values.get? option.name = Group.lastGiven groups option
  given : ∀ name text, a.values.get? name = some text →
    ∃ p ∈ s.parameters, p.name = name ∧ ∃ g ∈ groups, g.given? = some (p, text)

namespace Arguments

open TypedCommand.Group

def gather (a : Arguments) (g : Group) : Arguments :=
  match g.given?, g.leftover? with
  | some (p, text), _ => a.give p text
  | none, some word => a.leave word
  | none, none => a

/-- What is true of the reading after some words. A flag that awaits its value has been
read, but is in no group yet. -/
structure Reached (s : Specification) (words : List Text) (p : Progress)
    (groups : List Group) : Prop where
  words : words = groups.flatMap Group.words ++ (p.awaiting.map Prod.fst).toList
  declared : ∀ g ∈ groups, g.Declared s
  order : Ordered s p.terminated groups
  positionals : s.positionals = (groups.filterMap positional?).map Prod.fst ++ p.waiting
  given : p.given = groups.foldl gather {}
  awaiting : ∀ flag option, p.awaiting = some (flag, option) →
    Declares s flag option ∧ option.kind ≠ .bool ∧ flag ≠ "--".toList ∧ p.terminated = false

theorem declares_of_option? {s : Specification} {flag : Text} {option : Parameter}
    (h : s.option? flag = some option) : Declares s flag option := by
  refine ⟨List.mem_of_find?_eq_some h, ?_⟩
  have haccepts := List.find?_some h
  obtain ⟨flags, hflags, haccepts⟩ := Option.any_eq_true _ _ |>.1 haccepts
  exact ⟨flags, hflags, Flags.mem_toList_iff_accepts.2 haccepts⟩

theorem not_declares_of_option? {s : Specification} {flag : Text} (h : s.option? flag = none)
    (option : Parameter) : ¬ Declares s flag option := by
  rintro ⟨hmem, flags, hflags, hflag⟩
  refine List.find?_eq_none.1 h option hmem ?_
  simp [hflags, Flags.mem_toList_iff_accepts.1 hflag]

/-- One more group, whose words have just been read. -/
theorem Reached.add {s : Specification} {words words' : List Text} {p p' : Progress}
    {groups : List Group} (g : Group) (h : Reached s words p groups) (hg : g.Declared s)
    (hwords : words' = groups.flatMap Group.words ++ g.words)
    (horder : Ordered s p'.terminated (groups ++ [g]))
    (hwaiting : p.waiting = (g.positional?.map Prod.fst).toList ++ p'.waiting)
    (hgiven : p'.given = gather p.given g) (hawaiting : p'.awaiting = none) :
    Reached s words' p' (groups ++ [g]) where
  words := by simp [hwords, hawaiting]
  declared g' hg' := by
    rcases List.mem_append.1 hg' with hg' | hg'
    · exact h.declared g' hg'
    · exact List.mem_singleton.1 hg' ▸ hg
  order := horder
  positionals := by
    rw [h.positionals, hwaiting]
    cases hp : g.positional? <;> simp [hp]
  given := by simp [hgiven, h.given]
  awaiting flag option hflag := by simp [hawaiting] at hflag

variable {s : Specification} {words : List Text} {p p' : Progress} {groups : List Group}
  {word : Text}

/-- No option has a single dash for a flag. -/
theorem not_declares_dash (hflags : ∀ p ∈ s.parameters, p.WellFormed) (option : Parameter) :
    ¬ Declares s ['-'] option := by
  rintro ⟨hmem, flags, hsome, hflag⟩
  have hform := (hflags option hmem).flags flags hsome
  rcases List.mem_append.1 hflag with hflag | hflag
  · obtain ⟨name, heq, hname⟩ := hform.short _ (Option.mem_toList.1 hflag)
    exact hname.ne_nil (List.cons.inj heq).2.symm
  · obtain ⟨name, heq, _⟩ := hform.long _ (Option.mem_toList.1 hflag)
    simp at heq

/-- A group before the terminator that is no plain word. -/
theorem isBefore_of_ne {g : Group} (hhead : g.words.head? ≠ some "--".toList)
    (hplain : g.isPlain = false) : g.IsBefore s :=
  ⟨hhead, fun htrue => by simp [hplain] at htrue⟩

/-- A plain word is in order wherever it stands. -/
theorem Reached.order_plain (hflags : ∀ p ∈ s.parameters, p.WellFormed)
    (h : Reached s words p groups) (hword : IsPlainWord s p word) {g : Group}
    (hg : g.isPlain = true) (hwords : g.words = [word]) :
    Ordered s p.terminated (groups ++ [g]) := by
  have horder := h.order
  cases hterminated : p.terminated with
  | true =>
    rw [hterminated] at horder
    exact horder.plain hg
  | false =>
    rw [hterminated] at horder
    obtain ⟨hne, hdash⟩ := hword hterminated
    refine horder.before ⟨by simpa [hwords] using hne, fun _ w hw hhead option => ?_⟩
    rw [hwords, List.mem_singleton] at hw
    subst hw
    rcases hdash hhead with rfl | hundeclared
    · exact not_declares_dash hflags option
    · exact not_declares_of_option? hundeclared option

/-- Reading one more word keeps what is true of the words before it. -/
theorem reached_take (hflags : ∀ p ∈ s.parameters, p.WellFormed) (h : Reached s words p groups)
    (ht : take s p word = .ok p') : ∃ groups', Reached s (words ++ [word]) p' groups' := by
  have hreads := reads_take s p word
  rw [ht] at hreads
  have hbefore : p.terminated = false → Ordered s false groups := fun hterminated =>
    hterminated ▸ h.order
  have hwords : p.awaiting = none → words = groups.flatMap Group.words := fun hawaiting => by
    simpa [hawaiting] using h.words
  -- each case ends a group, but for a flag whose value is still to come
  cases hreads with
  | @value flag option hawaiting =>
    obtain ⟨hdeclares, hkind, hne, hterminated⟩ := h.awaiting flag option hawaiting
    refine ⟨_, h.add (.valued flag word option) ⟨hdeclares, hkind⟩ ?_ ?_ rfl rfl rfl⟩
    · simp [h.words, hawaiting, Group.words]
    · rw [show p.terminated = false from hterminated]
      exact (hbefore hterminated).before (isBefore_of_ne (by simpa [Group.words] using hne) rfl)
  | terminator hawaiting hterminated hword =>
    refine ⟨_, h.add .terminator trivial ?_ (hbefore hterminated).terminate rfl rfl hawaiting⟩
    rw [hwords hawaiting, hword]
    rfl
  | @inline flag value option hawaiting hflag hsplit hoption =>
    obtain ⟨rfl, hlong, hequals⟩ := splitFlag_eq_some hsplit
    refine ⟨_, h.add (.inline flag value option) ⟨declares_of_option? hoption, hlong, hequals⟩
      ?_ ?_ rfl rfl hawaiting⟩
    · rw [hwords hawaiting]
      rfl
    · rw [show p.terminated = false from hflag.terminated]
      exact (hbefore hflag.terminated).before
        (isBefore_of_ne (by simpa [Group.words] using hflag.ne_terminator) rfl)
  | @switch option hawaiting hflag hoption hkind =>
    refine ⟨_, h.add (.switch word option) ⟨declares_of_option? hoption, hkind⟩ ?_ ?_ rfl rfl
      hawaiting⟩
    · rw [hwords hawaiting]
      rfl
    · rw [show p.terminated = false from hflag.terminated]
      exact (hbefore hflag.terminated).before
        (isBefore_of_ne (by simpa [Group.words] using hflag.ne_terminator) rfl)
  | @flag option hawaiting hflag hoption hkind =>
    refine ⟨groups, by simp [hwords hawaiting], h.declared, h.order, h.positionals, h.given, ?_⟩
    intro flag' option' heq
    obtain ⟨rfl, rfl⟩ := Prod.mk.inj (Option.some.inj heq)
    exact ⟨declares_of_option? hoption, hkind, hflag.ne_terminator, hflag.terminated⟩
  | @positional next waiting hawaiting hplain hwaiting =>
    have hnext : next ∈ s.positionals := by
      rw [h.positionals, hwaiting]
      simp
    refine ⟨_, h.add (.positional word next) hnext ?_ (h.order_plain hflags hplain rfl rfl)
      hwaiting rfl hawaiting⟩
    rw [hwords hawaiting]
    rfl
  | leftover hawaiting hplain _ hvariadic =>
    refine ⟨_, h.add (.leftover word) hvariadic ?_ (h.order_plain hflags hplain rfl rfl) rfl rfl
      hawaiting⟩
    rw [hwords hawaiting]
    rfl

theorem reached_start (s : Specification) : Reached s [] { waiting := s.positionals } [] where
  words := rfl
  declared := by simp
  order := by simp [Ordered]
  positionals := rfl
  given := rfl
  awaiting := by simp

/-- What one word keeps, a whole call keeps. -/
theorem reached_of_foldlM (hflags : ∀ p ∈ s.parameters, p.WellFormed) {more : List Text}
    (h : Reached s words p groups) (ht : more.foldlM (take s) p = .ok p') :
    ∃ groups', Reached s (words ++ more) p' groups' := by
  induction more generalizing words p groups with
  | nil =>
    obtain rfl := Except.ok.inj ht
    exact ⟨groups, by simpa using h⟩
  | cons word more ih =>
    rw [List.foldlM_cons] at ht
    obtain ⟨q, hq, ht⟩ := bind_eq_ok.1 ht
    obtain ⟨groups', hreached⟩ := reached_take hflags h hq
    simpa using ih hreached ht

theorem gather_leftovers (groups : List Group) (a : Arguments) :
    (groups.foldl gather a).leftovers = a.leftovers ++ groups.filterMap leftover? := by
  induction groups generalizing a with
  | nil => simp
  | cons g groups ih =>
    rw [List.foldl_cons, ih]
    cases g with
    | leftover word =>
      rw [show gather a (.leftover word) = a.leave word from rfl, leave,
        List.filterMap_cons_some (show leftover? (.leftover word) = some word from rfl)]
      simp
    | terminator | switch | inline | valued | positional =>
      rw [List.filterMap_cons_none rfl]
      rfl

/-- A name has the text that was given to it last. -/
theorem gather_values (groups : List Group) (a : Arguments) (name : Text) :
    (groups.foldl gather a).values.get? name =
      (((groups.filterMap given?).filter (fun e => e.1.name == name)).getLast?.map Prod.snd).or
        (a.values.get? name) := by
  induction groups generalizing a with
  | nil => simp
  | cons g groups ih =>
    rw [List.foldl_cons, ih]
    cases hg : g.given? with
    | none =>
      rw [List.filterMap_cons_none hg]
      have hvalues : (gather a g).values = a.values := by
        cases g <;> simp [gather, given?, leftover?, leave] at hg ⊢
      rw [hvalues]
    | some e =>
      obtain ⟨p, text⟩ := e
      rw [List.filterMap_cons_some hg, List.filter_cons]
      have hvalues : (gather a g).values = a.values.insert p.name text := by
        simp [gather, hg, give]
      rw [hvalues, SortedMap.get?_insert]
      by_cases hname : p.name = name
      · simp only [hname, beq_self_eq_true, if_true, List.getLast?_cons]
        cases ((groups.filterMap given?).filter (fun e => e.1.name == name)).getLast? <;> simp
      · simp [hname, Ne.symm hname]

theorem mem_positionals {q : Parameter} :
    q ∈ s.positionals ↔ q ∈ s.parameters ∧ q.pattern = .positional := by
  simp [Specification.positionals, Parameter.isPositional]

/-- What a flag belongs to is an option. -/
theorem mem_options_of_declares {flag : Text} {option : Parameter} (h : Declares s flag option) :
    option ∈ s.options := by
  obtain ⟨hmem, flags, hflags, _⟩ := h
  exact List.mem_filter.2 ⟨hmem, by simp [Parameter.isOption, hflags]⟩

theorem ne_of_positional {q option : Parameter} (hq : q ∈ s.positionals)
    (hoption : option ∈ s.options) : q ≠ option := by
  rintro rfl
  have hisOption := (List.mem_filter.1 hoption).2
  simp [Parameter.isOption, Parameter.flags?, (mem_positionals.1 hq).2, Pattern.flags?] at hisOption

theorem isVariadic_of_mem_options {option : Parameter} (h : option ∈ s.options) :
    option.isVariadic = false := by
  have hisOption := (List.mem_filter.1 h).2
  unfold Parameter.isOption Parameter.flags? at hisOption
  unfold Parameter.isVariadic
  cases hpattern : option.pattern with
  | option | forwarded | positional => rfl
  | variadic =>
    rw [hpattern] at hisOption
    exact absurd hisOption nofun

/-- A group gives to a parameter of the specification. -/
theorem mem_parameters_of_given? {g : Group} (hg : g.Declared s) {e : Parameter × Text}
    (he : g.given? = some e) : e.1 ∈ s.parameters := by
  cases g with
  | terminator | leftover => simp [given?] at he
  | switch flag option | inline flag value option | valued flag value option =>
    obtain rfl := Option.some.inj he
    exact hg.1.1
  | positional word parameter =>
    obtain rfl := Option.some.inj he
    exact (mem_positionals.1 hg).1

/-- What is given to a positional parameter is a word on its own. -/
theorem positional?_of_given? {g : Group} (hg : g.Declared s) {e : Parameter × Text}
    (he : g.given? = some e) (hpositional : e.1 ∈ s.positionals) : g.positional? = some e := by
  cases g with
  | terminator | leftover => simp [given?] at he
  | switch flag option | inline flag value option | valued flag value option =>
    obtain rfl := Option.some.inj he
    exact absurd rfl (ne_of_positional hpositional (mem_options_of_declares hg.1))
  | positional word parameter => exact he

theorem Reached.exists_group (h : Reached s words p groups) {e : Parameter × Text}
    (he : e ∈ groups.filterMap given?) : ∃ g ∈ groups, g.Declared s ∧ g.given? = some e := by
  obtain ⟨g, hg, he⟩ := List.mem_filterMap.1 he
  exact ⟨g, hg, h.declared g hg, he⟩

theorem Reached.positionals_prefix (h : Reached s words p groups) :
    (groups.filterMap positional?).map Prod.fst <+: s.positionals := by
  rw [h.positionals]
  exact List.prefix_append _ _

/-- What is given by the name of a parameter is given to it, since no other has its name. -/
theorem filter_name_eq (hnames : (s.parameters.map (·.name)).Nodup)
    {given : List (Parameter × Text)} (hgiven : ∀ e ∈ given, e.1 ∈ s.parameters) {q : Parameter}
    (hq : q ∈ s.parameters) :
    given.filter (fun e => e.1.name == q.name) = given.filter (fun e => e.1 == q) := by
  refine List.filter_congr fun e he => ?_
  by_cases heq : e.1 = q
  · simp [heq]
  · have hne : e.1.name ≠ q.name :=
      fun hname => heq (List.inj_on_of_nodup_map hnames (hgiven e he) hq hname)
    rw [beq_eq_false_iff_ne.2 hne, beq_eq_false_iff_ne.2 heq]

/-- A parameter has what its last group gives to it. -/
theorem Reached.values_eq_lastGiven (hnames : (s.parameters.map (·.name)).Nodup)
    (h : Reached s words p groups) {q : Parameter} (hq : q ∈ s.parameters) :
    p.given.values.get? q.name = lastGiven groups q := by
  have hgiven : ∀ e ∈ groups.filterMap given?, e.1 ∈ s.parameters := by
    intro e he
    obtain ⟨g, _, hg, he⟩ := h.exists_group he
    exact mem_parameters_of_given? hg he
  rw [h.given, gather_values, lastGiven, filter_name_eq hnames hgiven hq]
  exact Option.or_none

/-- A positional parameter takes one word only. -/
theorem Reached.lastGiven_positional (hnames : (s.parameters.map (·.name)).Nodup)
    (h : Reached s words p groups) {e : Parameter × Text}
    (he : e ∈ groups.filterMap positional?) : lastGiven groups e.1 = some e.2 := by
  have hpositional : e.1 ∈ s.positionals := h.positionals_prefix.subset (List.mem_map_of_mem he)
  have hnodup : ((groups.filterMap positional?).map Prod.fst).Nodup :=
    ((List.Nodup.of_map _ hnames).filter _).sublist h.positionals_prefix.sublist
  -- whatever is given to it comes from a positional group, and it has no second one
  have honly : ∀ x ∈ (groups.filterMap given?).filter (fun x => x.1 == e.1), x = e := by
    intro x hx
    obtain ⟨hx, hfst⟩ := List.mem_filter.1 hx
    rw [beq_iff_eq] at hfst
    obtain ⟨g, hmem, hg, hx⟩ := h.exists_group hx
    have hx' := positional?_of_given? hg hx (hfst ▸ hpositional)
    exact List.inj_on_of_nodup_map hnodup (List.mem_filterMap.2 ⟨g, hmem, hx'⟩) he hfst
  obtain ⟨g, hmem, he⟩ := List.mem_filterMap.1 he
  have hgiven : g.given? = some e := by
    cases g <;> simp [positional?, given?] at he ⊢
    exact he
  have hfound : e ∈ (groups.filterMap given?).filter (fun x => x.1 == e.1) :=
    List.mem_filter.2 ⟨List.mem_filterMap.2 ⟨g, hmem, hgiven⟩, by simp⟩
  have hlast := List.getLast?_eq_some_getLast (List.ne_nil_of_mem hfound)
  rw [lastGiven, hlast, honly _ (List.getLast_mem _)]
  rfl

/-- Nothing is given but by a group. -/
theorem Reached.exists_of_get? (h : Reached s words p groups) {name text : Text}
    (htext : p.given.values.get? name = some text) :
    ∃ q ∈ s.parameters, q.name = name ∧ ∃ g ∈ groups, g.given? = some (q, text) := by
  rw [h.given, gather_values] at htext
  obtain ⟨e, he, rfl⟩ := Option.map_eq_some_iff.1 (Option.or_none.symm.trans htext)
  obtain ⟨he, hname⟩ := List.mem_filter.1 (List.mem_of_getLast? he)
  obtain ⟨g, hg, hdeclared, he⟩ := h.exists_group he
  exact ⟨e.1, mem_parameters_of_given? hdeclared he, by simpa using hname, g, hg, he⟩

theorem Reached.division (hnames : (s.parameters.map (·.name)).Nodup)
    (h : Reached s words p groups) (hawaiting : p.awaiting = none) :
    Division s words p.given groups where
  words := by simpa [hawaiting] using h.words
  declared := h.declared
  order := ⟨p.terminated, h.order⟩
  leftovers := by rw [h.given, gather_leftovers, List.nil_append]
  positionals := h.positionals_prefix
  positional_values e he := by
    have hpositional : e.1 ∈ s.positionals := h.positionals_prefix.subset (List.mem_map_of_mem he)
    rw [h.values_eq_lastGiven hnames (mem_positionals.1 hpositional).1]
    exact h.lastGiven_positional hnames he
  option_values _ hoption := h.values_eq_lastGiven hnames (List.mem_of_mem_filter hoption)
  given _ _ htext := h.exists_of_get? htext

end Arguments
end TypedCommand
