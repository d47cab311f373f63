import TypedCommand.Proofs.Arguments.Outcome

/-!
Calls that are written down from what they are to give. Each chosen option is spelled with
one of its flags, then comes the terminator, then the texts of the positional parameters and
the words left over. Reading gives back what was chosen, whatever the texts look like: a
value stands where no flag is read, and behind the terminator nothing is one.
-/

namespace TypedCommand

open Parameter Specification

namespace Group

/-- The groups that give a value to an option: a flag and the value behind it; for a truth
option the long flag and the value in one word, or any flag alone where the value is true. -/
inductive Spells (s : Specification) : Parameter × Text → Group → Prop
  | valued {flag value : Text} {option : Parameter} (hflag : Declares s flag option)
      (hkind : option.kind ≠ .bool) : Spells s (option, value) (.valued flag value option)
  | inline {long value : Text} {option : Parameter} {flags : Flags}
      (hmem : option ∈ s.parameters) (hflags : option.flags? = some flags)
      (hlong : flags.long = some long) (hkind : option.kind = .bool) :
      Spells s (option, value) (.inline long value option)
  | switch {flag : Text} {option : Parameter} (hflag : Declares s flag option)
      (hkind : option.kind = .bool) : Spells s (option, "true") (.switch flag option)

theorem Spells.given? {s : Specification} {e : Parameter × Text} {g : Group}
    (h : Spells s e g) : g.given? = some e := by
  cases h <;> rfl

theorem Spells.leftover? {s : Specification} {e : Parameter × Text} {g : Group}
    (h : Spells s e g) : g.leftover? = none := by
  cases h <;> rfl

def isOption : Group → Bool
  | switch _ _ => true
  | inline _ _ _ => true
  | valued _ _ _ => true
  | _ => false

theorem Spells.isOption {s : Specification} {e : Parameter × Text} {g : Group}
    (h : Spells s e g) : g.isOption = true := by
  cases h <;> rfl

end Group

/-- What a call is to give: values for some of the options, texts for the first positional
parameters, and words left over if every positional parameter has a text and there is a
variadic one. -/
structure Choice (s : Specification) where
  options : List (Parameter × Text)
  texts : List Text
  leftovers : List Text
  declared : ∀ e ∈ options, e.1 ∈ s.options
  distinct : (options.map Prod.fst).Nodup
  length_le : texts.length ≤ s.positionals.length
  room : leftovers ≠ [] → texts.length = s.positionals.length ∧ s.hasVariadic = true

def Choice.given {s : Specification} (c : Choice s) : List (Parameter × Text) :=
  c.options ++ s.positionals.zip c.texts

namespace Arguments

open TypedCommand.Group

variable {s : Specification} {p : Progress}

/-- A flag is a dash or two before a name, so it is neither the terminator nor cut. -/
theorem form_of_declares (hforms : ∀ p ∈ s.parameters, p.WellFormed) {flag : Text}
    {option : Parameter} (h : Declares s flag option) :
    flag ≠ "--".toList ∧ flag.head? = some '-' ∧ 1 < flag.length ∧ '=' ∉ flag := by
  obtain ⟨hmem, flags, hflags, hflag⟩ := h
  have hform := (hforms option hmem).flags flags hflags
  have hequals : ∀ name, Text.IsName name → '=' ∉ name := by
    intro name hname hmem
    exact absurd (hname.chars _ hmem) (by decide)
  rcases List.mem_append.1 hflag with hflag | hflag
  · obtain ⟨name, rfl, hname⟩ := hform.short _ (Option.mem_toList.1 hflag)
    have hlength : 0 < name.length := List.length_pos_iff.2 hname.ne_nil
    refine ⟨fun heq => ?_, rfl, by simpa using hlength, by simpa using hequals name hname⟩
    obtain rfl : name = ['-'] := (List.cons.inj heq).2
    exact hname.no_dash rfl
  · obtain ⟨name, rfl, hname⟩ := hform.long _ (Option.mem_toList.1 hflag)
    refine ⟨fun heq => ?_, rfl, by simp, by simpa using hequals name hname⟩
    exact hname.ne_nil (List.cons.inj (List.cons.inj heq).2).2

/-- A flag belongs to the option that declares it, since no flag occurs twice. -/
theorem option?_of_declares (hnodup : (s.parameters.flatMap flagList).Nodup) {flag : Text}
    {option : Parameter} (h : Declares s flag option) : s.option? flag = some option := by
  obtain ⟨hmem, flags, hflags, hflag⟩ := h
  have haccepts : option.flags?.any (·.accepts flag) = true := by
    simp [hflags, Flags.mem_toList_iff_accepts.1 hflag]
  have hlist : flag ∈ option.flagList := by simpa [flagList, hflags] using hflag
  unfold option?
  generalize s.parameters = ps at hnodup hmem
  induction ps with
  | nil => simp at hmem
  | cons q ps ih =>
    rw [List.flatMap_cons, List.nodup_append] at hnodup
    by_cases hq : q.flags?.any (·.accepts flag) = true
    · rw [List.find?_cons_of_pos (p := fun q : Parameter => q.flags?.any (·.accepts flag)) hq]
      rcases List.mem_cons.1 hmem with rfl | hmem
      · rfl
      · obtain ⟨flags', hflags', hflag'⟩ := (Option.any_eq_true _ _).1 hq
        have hfirst : flag ∈ q.flagList := by
          simpa [flagList, hflags'] using Flags.mem_toList_iff_accepts.2 hflag'
        have hlater : flag ∈ ps.flatMap flagList := List.mem_flatMap.2 ⟨option, hmem, hlist⟩
        exact absurd rfl (hnodup.2.2 flag hfirst flag hlater)
    · have hne : option ≠ q := fun heq => hq (heq ▸ haccepts)
      rw [List.find?_cons_of_neg (p := fun q : Parameter => q.flags?.any (·.accepts flag)) hq]
      exact ih hnodup.2.1 (List.mem_of_ne_of_mem hne hmem)

theorem splitFlag_of_not_mem {word : Text} (h : '=' ∉ word) : splitFlag word = (word, none) := by
  have hdrop : word.dropWhile (· != '=') = [] := by
    rw [List.dropWhile_eq_nil_iff]
    intro c hc
    exact bne_iff_ne.2 fun heq => h (heq ▸ hc)
  unfold splitFlag
  rw [hdrop]
  split <;> rfl

/-- A long flag is cut off before the first equals sign of the value. -/
theorem splitFlag_inline {flag value : Text} (hlong : "--".toList <+: flag) (h : '=' ∉ flag) :
    splitFlag (flag ++ '=' :: value) = (flag, some value) := by
  have hfront : ∀ c ∈ flag, (c != '=') = true := by
    intro c hc
    exact bne_iff_ne.2 fun heq => h (heq ▸ hc)
  have hdashes : "--".toList.isPrefixOf (flag ++ '=' :: value) = true :=
    List.isPrefixOf_iff_prefix.2 (hlong.trans (List.prefix_append _ _))
  unfold splitFlag
  rw [if_pos hdashes, List.dropWhile_append_of_pos hfront, List.takeWhile_append_of_pos hfront]
  simp

/-- Where a flag can stand, a word that begins with a dash is read as one. -/
theorem take_eq_takeFlag {word : Text} (hawaiting : p.awaiting = none)
    (hterminated : p.terminated = false) (hne : word ≠ "--".toList)
    (hhead : word.head? = some '-') (hlength : 1 < word.length) :
    take s p word = takeFlag s word p := by
  unfold take
  rw [hawaiting, hterminated]
  dsimp only
  rw [if_neg Bool.false_ne_true, if_neg hne, if_pos ⟨hhead, hlength⟩]

theorem take_terminator (hawaiting : p.awaiting = none) (hterminated : p.terminated = false) :
    take s p "--".toList = .ok { p with terminated := true } := by
  unfold take
  rw [hawaiting, hterminated]
  rfl

/-- Behind the terminator every word is plain; before it a word is so that is a dash alone or
does not begin with one. -/
theorem take_eq_takePlain {word : Text} (hawaiting : p.awaiting = none)
    (hplain : p.terminated = true ∨ (word.head? = some '-' → word = ['-'])) :
    take s p word = takePlain s word p := by
  unfold take
  rw [hawaiting]
  dsimp only
  by_cases hterminated : p.terminated = true
  · rw [if_pos hterminated]
  · have hdash := hplain.resolve_left hterminated
    have hne : word ≠ "--".toList := by
      rintro rfl
      exact absurd (hdash rfl) (by decide)
    have hflag : ¬ (word.head? = some '-' ∧ 1 < word.length) := by
      rintro ⟨hhead, hlength⟩
      rw [hdash hhead] at hlength
      exact absurd hlength (by decide)
    rw [if_neg hterminated, if_neg hne, if_neg hflag]

section Forms

variable (hforms : ∀ p ∈ s.parameters, p.WellFormed)
  (hnodup : (s.parameters.flatMap flagList).Nodup)

include hforms hnodup

theorem take_flag {flag : Text} {option : Parameter} (h : Declares s flag option)
    (hawaiting : p.awaiting = none) (hterminated : p.terminated = false) :
    take s p flag = if option.kind = .bool then
        .ok { p with given := p.given.give option "true" }
      else .ok { p with awaiting := some (flag, option) } := by
  obtain ⟨hne, hhead, hlength, hequals⟩ := form_of_declares hforms h
  rw [take_eq_takeFlag hawaiting hterminated hne hhead hlength, takeFlag,
    splitFlag_of_not_mem hequals]
  dsimp only
  rw [option?_of_declares hnodup h]

theorem take_inline {long value : Text} {option : Parameter} (h : Declares s long option)
    (hlong : "--".toList <+: long) (hawaiting : p.awaiting = none)
    (hterminated : p.terminated = false) :
    take s p (long ++ '=' :: value) = .ok { p with given := p.given.give option value } := by
  obtain ⟨_, hhead, hlength, hequals⟩ := form_of_declares hforms h
  have hne : long ++ '=' :: value ≠ "--".toList := by
    intro heq
    have hmem : '=' ∈ "--".toList := heq ▸ by simp
    exact absurd hmem (by decide)
  have hhead' : (long ++ '=' :: value).head? = some '-' := by
    rw [List.head?_append, hhead]
    rfl
  have hlength' : 1 < (long ++ '=' :: value).length := by
    rw [List.length_append]
    omega
  rw [take_eq_takeFlag hawaiting hterminated hne hhead' hlength', takeFlag,
    splitFlag_inline hlong hequals]
  dsimp only
  rw [option?_of_declares hnodup h]

/-- The words of an option are read as what they give. -/
theorem foldlM_option {g : Group} (hg : g.Declared s) (hoption : g.isOption = true)
    (hawaiting : p.awaiting = none) (hterminated : p.terminated = false) :
    g.words.foldlM (take s) p = .ok { p with given := gather p.given g } := by
  cases g with
  | terminator | positional | leftover => simp [Group.isOption] at hoption
  | switch flag option =>
    have htake := take_flag hforms hnodup hg.1 hawaiting hterminated
    rw [if_pos hg.2] at htake
    change take s p flag >>= pure = _
    rw [htake]
    rfl
  | inline flag value option =>
    change take s p (flag ++ '=' :: value) >>= pure = _
    rw [take_inline hforms hnodup hg.1 hg.2.1 hawaiting hterminated]
    rfl
  | valued flag value option =>
    have htake := take_flag hforms hnodup hg.1 hawaiting hterminated
    rw [if_neg hg.2] at htake
    change take s p flag >>= (fun p => [value].foldlM (take s) p) = _
    rw [htake, hawaiting]
    rfl

omit hnodup in
theorem declared_of_spells {e : Parameter × Text} {g : Group} (h : Spells s e g) :
    g.Declared s := by
  cases h with
  | valued hflag hkind => exact ⟨hflag, hkind⟩
  | switch hflag hkind => exact ⟨hflag, hkind⟩
  | @inline long value option flags hmem hflags hlong hkind =>
    have hdeclares : Declares s long option :=
      ⟨hmem, flags, hflags, List.mem_append_right _ (Option.mem_toList.2 hlong)⟩
    have hdashes : "--".toList <+: long := by
      obtain ⟨name, rfl, _⟩ := ((hforms option hmem).flags flags hflags).long long hlong
      exact ⟨name, rfl⟩
    exact ⟨hdeclares, hdashes, (form_of_declares hforms hdeclares).2.2.2⟩

theorem foldlM_options {options : List (Parameter × Text)} {spelled : List Group}
    (h : List.Forall₂ (Spells s) options spelled) (hawaiting : p.awaiting = none)
    (hterminated : p.terminated = false) :
    (spelled.flatMap Group.words).foldlM (take s) p =
      .ok { p with given := spelled.foldl gather p.given } := by
  induction h generalizing p with
  | nil => rfl
  | @cons e g options spelled hspells _ ih =>
    rw [List.flatMap_cons, List.foldlM_append, foldlM_option hforms hnodup
      (declared_of_spells hforms hspells) hspells.isOption hawaiting hterminated]
    exact ih hawaiting hterminated

end Forms

def positionalGroup (e : Parameter × Text) : Group := .positional e.2 e.1

/-- The positional parameters take plain words in turn. -/
theorem foldlM_texts {texts : List Text} {waiting : List Parameter}
    (hwaiting : p.waiting = waiting) (hawaiting : p.awaiting = none)
    (hplain : p.terminated = true ∨ ∀ word ∈ texts, word.head? = some '-' → word = ['-'])
    (hlength : texts.length ≤ waiting.length) :
    texts.foldlM (take s) p = .ok { p with
      given := ((waiting.zip texts).map positionalGroup).foldl gather p.given
      waiting := waiting.drop texts.length } := by
  induction texts generalizing p waiting with
  | nil => simp [pure, Except.pure, ← hwaiting]
  | cons word texts ih =>
    cases waiting with
    | nil => simp at hlength
    | cons next waiting =>
      have hword := hplain.imp_right fun hall => hall word List.mem_cons_self
      have htake : take s p word = .ok { p with given := p.given.give next word, waiting } := by
        rw [take_eq_takePlain hawaiting hword, takePlain, hwaiting]
      rw [List.foldlM_cons, htake]
      exact ih rfl hawaiting (hplain.imp_right fun hall => (List.forall_mem_cons.1 hall).2)
        (Nat.le_of_succ_le_succ hlength)

/-- Plain words that no positional parameter waits for are left over. -/
theorem foldlM_leftovers {leftovers : List Text} (hawaiting : p.awaiting = none)
    (hplain : p.terminated = true ∨ ∀ word ∈ leftovers, word.head? = some '-' → word = ['-'])
    (hwaiting : leftovers ≠ [] → p.waiting = [])
    (hvariadic : leftovers ≠ [] → s.hasVariadic = true) :
    leftovers.foldlM (take s) p =
      .ok { p with given := (leftovers.map Group.leftover).foldl gather p.given } := by
  induction leftovers generalizing p with
  | nil => rfl
  | cons word leftovers ih =>
    have hempty := hwaiting (List.cons_ne_nil _ _)
    have hcollects := hvariadic (List.cons_ne_nil _ _)
    have hword := hplain.imp_right fun hall => hall word List.mem_cons_self
    have htake : take s p word = .ok { p with given := p.given.leave word } := by
      rw [take_eq_takePlain hawaiting hword, takePlain, hempty]
      exact if_pos hcollects
    rw [List.foldlM_cons, htake]
    exact ih hawaiting (hplain.imp_right fun hall => (List.forall_mem_cons.1 hall).2)
      (fun _ => hempty) (fun _ => hcollects)

def plainGroups (c : Choice s) : List Group :=
  (s.positionals.zip c.texts).map positionalGroup ++ c.leftovers.map Group.leftover

theorem foldlM_append_of_ok {words more : List Text} {p p' : Progress}
    (h : words.foldlM (take s) p = .ok p') :
    (words ++ more).foldlM (take s) p = more.foldlM (take s) p' := by
  rw [List.foldlM_append, h]
  rfl

/-- Plain words go to the positional parameters as long as these wait, and then are left over. -/
theorem foldlM_plain (c : Choice s) (hwaiting : p.waiting = s.positionals)
    (hawaiting : p.awaiting = none) (hplain : p.terminated = true ∨
      ∀ word ∈ c.texts ++ c.leftovers, word.head? = some '-' → word = ['-']) :
    (c.texts ++ c.leftovers).foldlM (take s) p = .ok { p with
      given := (plainGroups c).foldl gather p.given
      waiting := s.positionals.drop c.texts.length } := by
  have htexts := hplain.imp_right fun hall => (List.forall_mem_append.1 hall).1
  have hleftovers := hplain.imp_right fun hall => (List.forall_mem_append.1 hall).2
  have hnone : c.leftovers ≠ [] → s.positionals.drop c.texts.length = [] := by
    intro hne
    rw [(c.room hne).1, List.drop_length]
  rw [foldlM_append_of_ok (foldlM_texts hwaiting hawaiting htexts c.length_le),
    plainGroups, List.foldl_append]
  exact foldlM_leftovers hawaiting hleftovers hnone fun hne => (c.room hne).2

def groupsOf (c : Choice s) (spelled : List Group) : List Group :=
  spelled ++ .terminator :: ((s.positionals.zip c.texts).map positionalGroup ++
    c.leftovers.map Group.leftover)

theorem filterMap_spelled {options : List (Parameter × Text)} {spelled : List Group}
    (h : List.Forall₂ (Spells s) options spelled) :
    spelled.filterMap given? = options ∧ spelled.filterMap leftover? = [] := by
  induction h with
  | nil => exact ⟨rfl, rfl⟩
  | cons hspells _ ih =>
    rw [List.filterMap_cons_some hspells.given?, List.filterMap_cons_none hspells.leftover?]
    exact ⟨congrArg _ ih.1, ih.2⟩

theorem filterMap_plainGroups (c : Choice s) :
    (plainGroups c).filterMap given? = s.positionals.zip c.texts ∧
      (plainGroups c).filterMap leftover? = c.leftovers := by
  have hpositional : ∀ es : List (Parameter × Text),
      (es.map positionalGroup).filterMap given? = es ∧
      (es.map positionalGroup).filterMap leftover? = [] := by
    intro es
    rw [List.filterMap_map, List.filterMap_map]
    exact ⟨List.filterMap_some, List.filterMap_none es⟩
  have hleftover : ∀ words : List Text, (words.map Group.leftover).filterMap given? = [] ∧
      (words.map Group.leftover).filterMap leftover? = words := by
    intro words
    rw [List.filterMap_map, List.filterMap_map]
    exact ⟨List.filterMap_none words, List.filterMap_some⟩
  rw [plainGroups, List.filterMap_append, List.filterMap_append, (hpositional _).1,
    (hpositional _).2, (hleftover _).1, (hleftover _).2, List.append_nil, List.nil_append]
  exact ⟨rfl, rfl⟩

/-- The groups of a call give what was chosen. -/
theorem filterMap_groupsOf {c : Choice s} {spelled : List Group}
    (h : List.Forall₂ (Spells s) c.options spelled) :
    (groupsOf c spelled).filterMap given? = c.given ∧
      (groupsOf c spelled).filterMap leftover? = c.leftovers := by
  obtain ⟨hgiven, hleftovers⟩ := filterMap_spelled h
  obtain ⟨hgiven', hleftovers'⟩ := filterMap_plainGroups c
  change (spelled ++ .terminator :: plainGroups c).filterMap given? = _ ∧
    (spelled ++ .terminator :: plainGroups c).filterMap leftover? = _
  rw [List.filterMap_append, List.filterMap_append, hgiven, hleftovers,
    List.filterMap_cons_none rfl, List.filterMap_cons_none rfl, hgiven', hleftovers']
  exact ⟨rfl, rfl⟩

/-- Of entries with different names, the last with a name is the one that has it. -/
theorem getLast?_of_nodup {es : List (Parameter × Text)} (h : (es.map (·.1.name)).Nodup)
    {name text : Text} :
    ((es.filter (fun e => e.1.name == name)).getLast?).map Prod.snd = some text ↔
      ∃ q, (q, text) ∈ es ∧ q.name = name := by
  constructor
  · intro hlast
    obtain ⟨⟨q, t⟩, he, rfl⟩ := Option.map_eq_some_iff.1 hlast
    obtain ⟨hmem, hname⟩ := List.mem_filter.1 (List.mem_of_getLast? he)
    exact ⟨q, hmem, by simpa using hname⟩
  · rintro ⟨q, hmem, rfl⟩
    have hfound : (q, text) ∈ es.filter (fun e => e.1.name == q.name) :=
      List.mem_filter.2 ⟨hmem, by simp⟩
    have hlast := List.getLast?_eq_some_getLast (List.ne_nil_of_mem hfound)
    obtain ⟨hmem', hname⟩ := List.mem_filter.1 (List.getLast_mem (List.ne_nil_of_mem hfound))
    rw [hlast, List.inj_on_of_nodup_map h hmem' hmem (by simpa using hname)]
    rfl

/-- The texts go to the first parameters, one to each. -/
theorem map_fst_zip_eq_take (ps : List Parameter) (texts : List Text) :
    (ps.zip texts).map Prod.fst = ps.take texts.length := by
  induction ps generalizing texts with
  | nil => simp
  | cons q ps ih =>
    cases texts with
    | nil => rfl
    | cons text texts => exact congrArg (q :: ·) (ih texts)

/-- No two parameters that are given a text have one name. -/
theorem nodup_given (hnames : (s.parameters.map (·.name)).Nodup) (c : Choice s) :
    (c.given.map (·.1.name)).Nodup := by
  have hparameters : s.parameters.Nodup := List.Nodup.of_map _ hnames
  have hzip : (s.positionals.zip c.texts).map Prod.fst <+: s.positionals :=
    map_fst_zip_eq_take s.positionals c.texts ▸ List.take_prefix _ _
  have hoption : ∀ q ∈ c.options.map Prod.fst, q ∈ s.options := by
    intro q hq
    obtain ⟨e, he, rfl⟩ := List.mem_map.1 hq
    exact c.declared e he
  have hpositional : ∀ q ∈ (s.positionals.zip c.texts).map Prod.fst, q ∈ s.positionals :=
    fun q hq => hzip.subset hq
  have hnodup : (c.given.map Prod.fst).Nodup := by
    rw [Choice.given, List.map_append, List.nodup_append]
    refine ⟨c.distinct, (hparameters.filter _).sublist hzip.sublist, ?_⟩
    rintro q hq _ hq' rfl
    exact ne_of_positional (hpositional q hq') (hoption q hq) rfl
  have hmem : ∀ q ∈ c.given.map Prod.fst, q ∈ s.parameters := by
    intro q hq
    rw [Choice.given, List.map_append] at hq
    rcases List.mem_append.1 hq with hq | hq
    · exact List.mem_of_mem_filter (hoption q hq)
    · exact List.mem_of_mem_filter (hpositional q hq)
  have hmap : c.given.map (·.1.name) = (c.given.map Prod.fst).map (·.name) := by
    rw [List.map_map]
    rfl
  rw [hmap]
  exact hnodup.map_on fun q hq q' hq' heq =>
    List.inj_on_of_nodup_map hnames (hmem q hq) (hmem q' hq') heq

/-- Every value that can be given to an option can be spelled; for a truth option without a
long flag that is the value true. -/
theorem exists_spells (hforms : ∀ p ∈ s.parameters, p.WellFormed) {option : Parameter}
    (hoption : option ∈ s.options) (value : Text)
    (hswitch : option.kind = .bool → (∀ flags, option.flags? = some flags → flags.long = none) →
      value = "true") : ∃ g, Spells s (option, value) g := by
  obtain ⟨hmem, hisOption⟩ := List.mem_filter.1 hoption
  obtain ⟨flags, hflags⟩ := Option.isSome_iff_exists.1 hisOption
  have hform := (hforms option hmem).flags flags hflags
  obtain ⟨flag, hflag⟩ := List.exists_mem_of_ne_nil _ hform.present
  have hdeclares : Declares s flag option := ⟨hmem, flags, hflags, hflag⟩
  by_cases hkind : option.kind = .bool
  · cases hlong : flags.long with
    | some long => exact ⟨_, .inline hmem hflags hlong hkind⟩
    | none =>
      have hnone : ∀ flags', option.flags? = some flags' → flags'.long = none := by
        intro flags' hflags'
        obtain rfl := Option.some.inj (hflags.symm.trans hflags')
        exact hlong
      rw [hswitch hkind hnone]
      exact ⟨_, .switch hdeclares hkind⟩
  · exact ⟨_, .valued hdeclares hkind⟩

theorem exists_spelled (hforms : ∀ p ∈ s.parameters, p.WellFormed)
    {options : List (Parameter × Text)} (hoptions : ∀ e ∈ options, e.1 ∈ s.options)
    (hswitch : ∀ e ∈ options, e.1.kind = .bool →
      (∀ flags, e.1.flags? = some flags → flags.long = none) → e.2 = "true") :
    ∃ spelled, List.Forall₂ (Spells s) options spelled :=
  exists_results fun e he => exists_spells hforms (hoptions e he) e.2 (hswitch e he)

/-- The words of a call are read as its groups. -/
theorem foldlM_encoded (hforms : ∀ p ∈ s.parameters, p.WellFormed)
    (hflags : (s.parameters.flatMap flagList).Nodup) (c : Choice s) {spelled : List Group}
    (h : List.Forall₂ (Spells s) c.options spelled) :
    (spelled.flatMap Group.words ++ "--".toList :: (c.texts ++ c.leftovers)).foldlM (take s)
        { waiting := s.positionals } =
      .ok {
        given := (groupsOf c spelled).foldl gather {}
        waiting := s.positionals.drop c.texts.length
        terminated := true } := by
  have hterminator : gather (spelled.foldl gather {}) .terminator = spelled.foldl gather {} := rfl
  rw [foldlM_append_of_ok (foldlM_options hforms hflags h rfl rfl), List.foldlM_cons,
    take_terminator rfl rfl]
  change (c.texts ++ c.leftovers).foldlM (take s) ⟨_, s.positionals, true, none⟩ = _
  rw [foldlM_plain c rfl rfl (Or.inl rfl), groupsOf, List.foldl_append, List.foldl_cons,
    hterminator, plainGroups]

/-- A call that is written down from a choice is bound to exactly what was chosen, however
its options are spelled, and every choice can be spelled. -/
theorem bind_encoded {template declaration : Text} (h : ofText template declaration = .ok s)
    (c : Choice s) :
    ((∀ e ∈ c.options, e.1.kind = .bool →
        (∀ flags, e.1.flags? = some flags → flags.long = none) → e.2 = "true".toList) →
      ∃ spelled, List.Forall₂ (Spells s) c.options spelled) ∧
    ∀ spelled, List.Forall₂ (Spells s) c.options spelled →
      ∃ a, bind s (spelled.flatMap Group.words ++ "--".toList :: (c.texts ++ c.leftovers)) =
          .ok (.arguments a) ∧
        a.leftovers = c.leftovers ∧
        ∀ name text, a.values.get? name = some text ↔
          ∃ q, (q, text) ∈ c.options ++ s.positionals.zip c.texts ∧ q.name = name := by
  obtain ⟨hforms, hdistinct, _⟩ := parameters_of_ofText h
  constructor
  · exact exists_spelled hforms c.declared
  · intro spelled hspelled
    obtain ⟨hgroups, hleftovers⟩ := filterMap_groupsOf hspelled
    have hrun := foldlM_encoded hforms hdistinct.flags c hspelled
    refine ⟨_, bind_eq_arguments.2 ⟨_, hrun, rfl, rfl⟩, ?_, fun name text => ?_⟩
    · rw [gather_leftovers, hleftovers]
      rfl
    · rw [gather_values, hgroups, SortedMap.get?_empty, Option.or_none]
      exact getLast?_of_nodup (nodup_given hdistinct.names c)

set_option maxRecDepth 4000 in
/-- A value that is the terminator, and behind the terminator a word that asks for help, a
flag and an empty word. -/
theorem bind_encoded_adverse : ∃ s a,
    ofText "cp SRC REST" "just cp SRC[src] -m/--mode[:str=x] --all[:bool] -q[:bool] REST[...]" =
      .ok s ∧
    bind s ["--mode", "--", "--all=no=1", "-q", "--", "--help", "-m", ""] = .ok (.arguments a) ∧
    a.leftovers = ["-m".toList, []] ∧ a.values.get? "mode" = some "--".toList ∧
    a.values.get? "all" = some "no=1".toList ∧ a.values.get? "src" = some "--help".toList := by
  let src : Parameter := ⟨"src", "SRC", .str, none, none, .positional⟩
  let mode : Parameter :=
    ⟨"mode", "--mode", .str, some (.str "x"), none, .forwarded ⟨some "-m", some "--mode"⟩⟩
  let all : Parameter :=
    ⟨"all", "--all", .bool, some (.bool false), none, .forwarded ⟨none, some "--all"⟩⟩
  let quiet : Parameter :=
    ⟨"q", "-q", .bool, some (.bool false), none, .forwarded ⟨some "-q", none⟩⟩
  let rest : Parameter := ⟨"rest", "REST", .str, none, none, .variadic⟩
  let s : Specification := {
    commandName := "cp"
    template := "cp SRC REST"
    parameters := [src, mode, all, quiet, rest]
    plan := [.replace "SRC" "src", .appendFlag "--mode" "mode", .appendFlag "--all" "all",
      .appendFlag "-q" "q", .captureRemaining (some "REST") "rest"] }
  have h : ofText "cp SRC REST"
      "just cp SRC[src] -m/--mode[:str=x] --all[:bool] -q[:bool] REST[...]" = .ok s := by
    decide +kernel
  let c : Choice s := {
    options := [(mode, "--"), (all, "no=1"), (quiet, "true")]
    texts := ["--help"]
    leftovers := ["-m", ""]
    declared := by decide
    distinct := by decide
    length_le := by decide
    room := by decide }
  have hmode : Declares s "--mode" mode := ⟨by decide, _, rfl, by decide⟩
  have hquiet : Declares s "-q" quiet := ⟨by decide, _, rfl, by decide⟩
  have hspelled : List.Forall₂ (Spells s) c.options
      [.valued "--mode" "--" mode, .inline "--all" "no=1" all, .switch "-q" quiet] :=
    .cons (.valued hmode (by decide)) (.cons (.inline (by decide) rfl rfl rfl)
      (.cons (.switch hquiet rfl) .nil))
  obtain ⟨a, hbind, hleftovers, hvalues⟩ := (bind_encoded h c).2 _ hspelled
  exact ⟨s, a, h, hbind, hleftovers, (hvalues _ _).2 ⟨mode, by decide, rfl⟩,
    (hvalues _ _).2 ⟨all, by decide, rfl⟩, (hvalues _ _).2 ⟨src, by decide, rfl⟩⟩

end Arguments
end TypedCommand
