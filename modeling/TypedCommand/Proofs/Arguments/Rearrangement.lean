import TypedCommand.Proofs.Arguments.Encoding
import TypedCommand.Proofs.SortedMap

/-!
Calls whose parts stand in another order. A plain word is never taken for the value of an
option, since the words of an option are all there, and what an option gives lies under
another name than what a plain word gives. So the groups of the options can be read behind
all plain words, and of each option the last group alone counts.
-/

namespace TypedCommand

open Parameter Specification

/-- A part of a call without a terminator: a plain word, or all the words of an option. -/
inductive CallPart (s : Specification)
  | word (text : Text) (plain : text.head? = some '-' → text = ['-'])
  | option (group : Group) (declared : group.Declared s) (isOption : group.isOption = true)

namespace CallPart

variable {s : Specification}

def words : CallPart s → List Text
  | word text _ => [text]
  | option group _ _ => group.words

def word? : CallPart s → Option Text
  | word text _ => some text
  | option _ _ _ => none

def group? : CallPart s → Option Group
  | word _ _ => none
  | option group _ _ => some group

end CallPart

attribute [ext] Arguments

namespace Arguments

open TypedCommand.Group

variable {s : Specification} {p p' : Progress} {groups groups' : List Group}

def Progress.also (p : Progress) (groups : List Group) : Progress :=
  { p with given := groups.foldl gather p.given }

/-- A reading between two parts of a call without a terminator. -/
structure Between (s : Specification) (p : Progress) : Prop where
  waiting : ∀ q ∈ p.waiting, q ∈ s.positionals
  awaiting : p.awaiting = none
  terminated : p.terminated = false

def AreOptions (s : Specification) (groups : List Group) : Prop :=
  ∀ g ∈ groups, g.Declared s ∧ g.isOption = true

theorem areOptions_filterMap (parts : List (CallPart s)) :
    AreOptions s (parts.filterMap CallPart.group?) := by
  intro g hg
  obtain ⟨part, _, hpart⟩ := List.mem_filterMap.1 hg
  cases part with
  | word => simp [CallPart.group?] at hpart
  | option group declared isOption =>
    obtain rfl := Option.some.inj hpart
    exact ⟨declared, isOption⟩

/-- An option group gives a text to an option and does nothing else. -/
theorem gather_of_isOption {g : Group} (hg : g.Declared s) (hoption : g.isOption = true) :
    ∃ option ∈ s.options, ∃ text, g.given? = some (option, text) ∧
      ∀ a, gather a g = a.give option text := by
  cases g with
  | terminator | positional | leftover => simp [Group.isOption] at hoption
  | switch _ option | inline _ _ option | valued _ _ option =>
    exact ⟨option, mem_options_of_declares hg.1, _, rfl, fun _ => rfl⟩

theorem leftover?_of_isOption {g : Group} (hoption : g.isOption = true) : g.leftover? = none := by
  cases g <;> first | rfl | simp [Group.isOption] at hoption

section Commuting

variable (hnames : (s.parameters.map (·.name)).Nodup)

include hnames

/-- What an option group gives and what a positional parameter takes do not meet. -/
theorem gather_give (a : Arguments) {g : Group} (hg : g.Declared s) (hoption : g.isOption = true)
    {q : Parameter} (hq : q ∈ s.positionals) (word : Text) :
    gather (a.give q word) g = (gather a g).give q word := by
  obtain ⟨option, hmem, text, _, hgather⟩ := gather_of_isOption hg hoption
  have hname : q.name ≠ option.name := by
    intro hname
    exact ne_of_positional hq hmem (List.inj_on_of_nodup_map hnames (List.mem_of_mem_filter hq)
      (List.mem_of_mem_filter hmem) hname)
  rw [hgather, hgather, give, give, give, give, SortedMap.insert_comm _ hname]

theorem foldl_gather_give (hgroups : AreOptions s groups) (a : Arguments) {q : Parameter}
    (hq : q ∈ s.positionals) (word : Text) :
    groups.foldl gather (a.give q word) = (groups.foldl gather a).give q word := by
  induction groups generalizing a with
  | nil => rfl
  | cons g groups ih =>
    obtain ⟨⟨hg, hoption⟩, hgroups⟩ := List.forall_mem_cons.1 hgroups
    rw [List.foldl_cons, List.foldl_cons, gather_give hnames a hg hoption hq]
    exact ih hgroups _

omit hnames in
theorem foldl_gather_leave (hgroups : AreOptions s groups) (a : Arguments) (word : Text) :
    groups.foldl gather (a.leave word) = (groups.foldl gather a).leave word := by
  induction groups generalizing a with
  | nil => rfl
  | cons g groups ih =>
    obtain ⟨⟨hg, hoption⟩, hgroups⟩ := List.forall_mem_cons.1 hgroups
    obtain ⟨option, _, text, _, hgather⟩ := gather_of_isOption hg hoption
    rw [List.foldl_cons, List.foldl_cons, hgather, hgather]
    exact ih hgroups (a.give option text)

/-- A plain word is taken in the same way behind option groups as before them. -/
theorem takePlain_also (hgroups : AreOptions s groups) (hp : Between s p) (word : Text) :
    takePlain s word (p.also groups) = (takePlain s word p).map (·.also groups) := by
  unfold takePlain
  rw [show (p.also groups).waiting = p.waiting from rfl]
  cases hwaiting : p.waiting with
  | nil =>
    by_cases hvariadic : s.hasVariadic = true
    · have hleave := foldl_gather_leave hgroups p.given word
      simp [hvariadic, Except.map, Progress.also, hleave]
    · simp [hvariadic, Except.map]
  | cons next waiting =>
    have hnext : next ∈ s.positionals := hp.waiting next (hwaiting ▸ List.mem_cons_self)
    have hgive := foldl_gather_give hnames hgroups p.given hnext word
    simp [Except.map, Progress.also, hgive]

end Commuting

theorem Between.also (hp : Between s p) (groups : List Group) : Between s (p.also groups) :=
  ⟨hp.waiting, hp.awaiting, hp.terminated⟩

theorem Between.of_takePlain (hp : Between s p) {word : Text}
    (h : takePlain s word p = .ok p') : Between s p' := by
  unfold takePlain at h
  split at h
  · next next waiting hwaiting =>
    obtain rfl := Except.ok.inj h
    refine ⟨fun q hq => hp.waiting q ?_, hp.awaiting, hp.terminated⟩
    exact hwaiting ▸ List.mem_cons_of_mem next hq
  · split at h
    · obtain rfl := Except.ok.inj h
      exact ⟨hp.waiting, hp.awaiting, hp.terminated⟩
    · simp at h

theorem Between.take_eq (hp : Between s p) {word : Text}
    (hplain : word.head? = some '-' → word = ['-']) : take s p word = takePlain s word p :=
  take_eq_takePlain hp.awaiting (Or.inr hplain)

/-- Plain words are taken in the same way behind option groups as before them. -/
theorem foldlM_also (hnames : (s.parameters.map (·.name)).Nodup) (hgroups : AreOptions s groups)
    {words : List Text} (hplain : ∀ word ∈ words, word.head? = some '-' → word = ['-'])
    (hp : Between s p) :
    words.foldlM (take s) (p.also groups) =
      (words.foldlM (take s) p).map (·.also groups) := by
  induction words generalizing p with
  | nil => rfl
  | cons word words ih =>
    obtain ⟨hword, hplain⟩ := List.forall_mem_cons.1 hplain
    rw [List.foldlM_cons, List.foldlM_cons, hp.take_eq hword, (hp.also groups).take_eq hword,
      takePlain_also hnames hgroups hp]
    cases htake : takePlain s word p with
    | error stop => rfl
    | ok q => exact ih hplain (hp.of_takePlain htake)

/-- The parts of a call are read as its plain words and behind them the groups of its
options. -/
theorem foldlM_parts (hforms : ∀ p ∈ s.parameters, p.WellFormed) (hdistinct : Distinct s.parameters)
    (parts : List (CallPart s)) (hp : Between s p) :
    (parts.flatMap CallPart.words).foldlM (take s) p =
      ((parts.filterMap CallPart.word?).foldlM (take s) p).map
        (·.also (parts.filterMap CallPart.group?)) := by
  induction parts generalizing p with
  | nil => rfl
  | cons part parts ih =>
    rw [List.flatMap_cons, List.foldlM_append]
    cases part with
    | word text plain =>
      simp only [List.filterMap_cons, CallPart.word?, CallPart.group?, List.foldlM_cons]
      change (take s p text >>= pure) >>= _ = _
      rw [bind_pure, hp.take_eq plain]
      cases htake : takePlain s text p with
      | error stop => rfl
      | ok q => exact ih (hp.of_takePlain htake)
    | option g declared isOption =>
      have hgroup : AreOptions s [g] := List.forall_mem_singleton.2 ⟨declared, isOption⟩
      have hplain : ∀ word ∈ parts.filterMap CallPart.word?,
          word.head? = some '-' → word = ['-'] := by
        intro word hword
        obtain ⟨part, _, hpart⟩ := List.mem_filterMap.1 hword
        cases part with
        | word text plain => exact Option.some.inj hpart ▸ plain
        | option => simp [CallPart.word?] at hpart
      have hread : g.words.foldlM (take s) p = .ok (p.also [g]) :=
        foldlM_option hforms hdistinct.flags declared isOption hp.awaiting hp.terminated
      simp only [List.filterMap_cons, CallPart.word?, CallPart.group?]
      change g.words.foldlM (take s) p >>= _ = _
      rw [hread]
      refine (ih (hp.also [g])).trans ?_
      rw [foldlM_also hdistinct.names hgroup hplain hp]
      cases (parts.filterMap CallPart.word?).foldlM (take s) p <;> rfl

theorem AreOptions.mem_options (hgroups : AreOptions s groups) :
    ∀ e ∈ groups.filterMap given?, e.1 ∈ s.options := by
  intro e he
  obtain ⟨g, hg, he⟩ := List.mem_filterMap.1 he
  obtain ⟨hdeclared, hisOption⟩ := hgroups g hg
  obtain ⟨option, hoption, text, hgives, _⟩ := gather_of_isOption hdeclared hisOption
  obtain rfl := Option.some.inj (hgives.symm.trans he)
  exact hoption

theorem AreOptions.leftovers_eq (hgroups : AreOptions s groups) (a : Arguments) :
    (groups.foldl gather a).leftovers = a.leftovers := by
  have hnone : groups.filterMap leftover? = [] :=
    List.filterMap_eq_nil_iff.2 fun g hg => leftover?_of_isOption (hgroups g hg).2
  rw [gather_leftovers, hnone, List.append_nil]

/-- Groups of options put a value under the name of an option only, and there the value of the
last group of that option. -/
theorem AreOptions.get?_eq (hnames : (s.parameters.map (·.name)).Nodup)
    (hgroups : AreOptions s groups) (a : Arguments) :
    (∀ option ∈ s.options, (groups.foldl gather a).values.get? option.name =
      (lastGiven groups option).or (a.values.get? option.name)) ∧
    ∀ name, (∀ option ∈ s.options, option.name ≠ name) →
      (groups.foldl gather a).values.get? name = a.values.get? name := by
  have hoptions := hgroups.mem_options
  constructor
  · intro option hoption
    have hmem : ∀ e ∈ groups.filterMap given?, e.1 ∈ s.parameters :=
      fun e he => List.mem_of_mem_filter (hoptions e he)
    rw [gather_values, lastGiven, filter_name_eq hnames hmem (List.mem_of_mem_filter hoption)]
  · intro name hname
    have hnone : (groups.filterMap given?).filter (fun e => e.1.name == name) = [] :=
      List.filter_eq_nil_iff.2 fun e he heq => hname e.1 (hoptions e he) (beq_iff_eq.1 heq)
    rw [gather_values, hnone]
    rfl

/-- Groups of options give the same when the last group of each option does. -/
theorem foldl_gather_congr (hnames : (s.parameters.map (·.name)).Nodup)
    (hgroups : AreOptions s groups) (hgroups' : AreOptions s groups')
    (hlast : ∀ option ∈ s.options, lastGiven groups option = lastGiven groups' option)
    (a : Arguments) : groups.foldl gather a = groups'.foldl gather a := by
  obtain ⟨hoptions, hothers⟩ := hgroups.get?_eq hnames a
  obtain ⟨hoptions', hothers'⟩ := hgroups'.get?_eq hnames a
  have hvalues : (groups.foldl gather a).values = (groups'.foldl gather a).values := by
    apply SortedMap.eq_of_get?_eq
    intro name
    by_cases hname : ∃ option ∈ s.options, option.name = name
    · obtain ⟨option, hoption, rfl⟩ := hname
      rw [hoptions option hoption, hoptions' option hoption, hlast option hoption]
    · have hname' : ∀ option ∈ s.options, option.name ≠ name :=
        fun option hoption heq => hname ⟨option, hoption, heq⟩
      rw [hothers name hname', hothers' name hname']
  have hleftovers := (hgroups.leftovers_eq a).trans (hgroups'.leftovers_eq a).symm
  exact Arguments.ext hvalues hleftovers

/-- The order of the plain words and the last value of each option determine the result of a
call: how words and options are interleaved, which of its spellings an option has, and the
values that it had before do not matter. -/
theorem bind_eq_of_lastGiven_eq {template declaration : Text}
    (h : ofText template declaration = .ok s) (parts parts' : List (CallPart s))
    (hwords : parts.filterMap CallPart.word? = parts'.filterMap CallPart.word?)
    (hlast : ∀ option ∈ s.options, lastGiven (parts.filterMap CallPart.group?) option =
      lastGiven (parts'.filterMap CallPart.group?) option) :
    bind s (parts.flatMap CallPart.words) = bind s (parts'.flatMap CallPart.words) := by
  obtain ⟨hforms, hdistinct, _⟩ := parameters_of_ofText h
  have hstart : Between s { waiting := s.positionals } := ⟨fun _ hq => hq, rfl, rfl⟩
  have halso : ∀ p : Progress, p.also (parts.filterMap CallPart.group?) =
      p.also (parts'.filterMap CallPart.group?) := by
    intro p
    rw [Progress.also, Progress.also, foldl_gather_congr hdistinct.names
      (areOptions_filterMap parts) (areOptions_filterMap parts') hlast]
  unfold bind
  rw [foldlM_parts hforms hdistinct parts hstart, foldlM_parts hforms hdistinct parts' hstart,
    hwords, funext halso]

set_option maxRecDepth 4000 in
/-- Values that look like the terminator, a flag and an assignment, an option that is given
two values, and a truth option that is switched off and on again. -/
theorem bind_eq_of_rearranged : ∃ s,
    ofText "cp SRC REST" "just cp SRC[src] -m/--mode[:str=x] --all[:bool] REST[...]" = .ok s ∧
    bind s ["--mode=a=b", "x", "-m", "--", "--all", "-"] =
      bind s ["x", "--all=no", "-m", "-m", "-", "--all=true", "--mode", "--"] := by
  let mode : Parameter :=
    ⟨"mode", "--mode", .str, some (.str "x"), none, .forwarded ⟨some "-m", some "--mode"⟩⟩
  let all : Parameter :=
    ⟨"all", "--all", .bool, some (.bool false), none, .forwarded ⟨none, some "--all"⟩⟩
  let s : Specification := {
    commandName := "cp"
    template := "cp SRC REST"
    parameters := [⟨"src", "SRC", .str, none, none, .positional⟩, mode, all,
      ⟨"rest", "REST", .str, none, none, .variadic⟩]
    plan := [.replace "SRC" "src", .appendFlag "--mode" "mode", .appendFlag "--all" "all",
      .captureRemaining (some "REST") "rest"] }
  have h : ofText "cp SRC REST" "just cp SRC[src] -m/--mode[:str=x] --all[:bool] REST[...]" =
      .ok s := by
    decide +kernel
  have hshort : Declares s "-m" mode := ⟨by decide, _, rfl, by decide⟩
  have hlong : Declares s "--mode" mode := ⟨by decide, _, rfl, by decide⟩
  have hall : Declares s "--all" all := ⟨by decide, _, rfl, by decide⟩
  let parts : List (CallPart s) := [
    .option (.inline "--mode" "a=b" mode) ⟨hlong, by decide, by decide⟩ rfl,
    .word "x" (by decide),
    .option (.valued "-m" "--" mode) ⟨hshort, by decide⟩ rfl,
    .option (.switch "--all" all) ⟨hall, rfl⟩ rfl,
    .word "-" (by decide)]
  let parts' : List (CallPart s) := [
    .word "x" (by decide),
    .option (.inline "--all" "no" all) ⟨hall, by decide, by decide⟩ rfl,
    .option (.valued "-m" "-m" mode) ⟨hshort, by decide⟩ rfl,
    .word "-" (by decide),
    .option (.inline "--all" "true" all) ⟨hall, by decide, by decide⟩ rfl,
    .option (.valued "--mode" "--" mode) ⟨hlong, by decide⟩ rfl]
  have hlast : ∀ option ∈ s.options,
      lastGiven [.inline "--mode" "a=b" mode, .valued "-m" "--" mode, .switch "--all" all]
        option =
      lastGiven [.inline "--all" "no" all, .valued "-m" "-m" mode, .inline "--all" "true" all,
        .valued "--mode" "--" mode] option := by
    decide
  exact ⟨s, h, bind_eq_of_lastGiven_eq h parts parts' rfl hlast⟩

end Arguments
end TypedCommand
