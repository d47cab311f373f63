import TypedCommand.Proofs.Effect
import TypedCommand.Proofs.Store

/-!
Runs of the program one after the other, on files that are there for no one else. What
has been added and not been removed can be called as if it had just been compiled; the
way of the specifications through the file does not show.
-/

namespace TypedCommand

open Registration

/-- The files between two runs, and the registrations that are in force. -/
structure Session where
  home : Home
  live : List Registration

def Registration.after (live : List Registration) (dryRun : Bool) : Request → List Registration
  | .add _ (some declaration) template =>
    if dryRun then live
    else match compiled : Specification.ofText template declaration with
      | .ok specification => register ⟨template, declaration, specification, compiled⟩ live
      | .error _ => live
  | .remove _ name => dropPath name.words live
  | _ => live

/-- What a call comes to without any files: its words are bound to the parameters, and the
command is built. -/
def Registration.tryOut (e : Registration) (home : Home) (words : List Text) : Outcome :=
  match Arguments.bind e.specification words with
  | .error error =>
    { home, ending := .failed (.callInvalid (Usage.synopsis e.specification) error) }
  | .ok .help => { home, output := Program.line (Usage.render e.specification) }
  | .ok (.arguments a) => match Invocation.command e.specification a with
    | .error error =>
      { home, ending := .failed (.callInvalid (Usage.synopsis e.specification) error) }
    | .ok command => { home, output := Program.line command }

namespace Session

/-- What the words of a run ask for, and whether it is only to be shown. -/
def requestOf (words : List Text) : Option (Bool × Request) :=
  match CommandLine.read words with
  | .call dryRun words => (Request.read words).toOption.map fun request => (dryRun, request)
  | _ => none

theorem exists_of_requestOf {words : List Text} {dryRun : Bool} {request : Request}
    (h : requestOf words = some (dryRun, request)) :
    ∃ rest, CommandLine.read words = .call dryRun rest ∧ Request.read rest = .ok request := by
  unfold requestOf at h
  split at h
  · next dryRun' rest hread =>
    obtain ⟨request', hsome, hpair⟩ := Option.map_eq_some_iff.1 h
    obtain ⟨rfl, rfl⟩ := Prod.mk.inj hpair
    refine ⟨rest, hread, ?_⟩
    cases hrequest : Request.read rest with
    | error failure =>
      rw [hrequest] at hsome
      exact absurd hsome nofun
    | ok request =>
      rw [hrequest] at hsome
      rw [Option.some.inj hsome]
  · exact absurd h nofun

/-- The session after one more run. Only a request that has been carried out counts. -/
def next (session : Session) (words : List Text) : Session :=
  let outcome := Program.run session.home words
  { home := outcome.home
    live := match outcome.ending, requestOf words with
      | .done, some (dryRun, request) => Registration.after session.live dryRun request
      | _, _ => session.live }

def ofRuns (directory : Text) (runs : List (List Text)) : Session :=
  runs.foldl next ⟨{ directory := .ok directory, store := none, settings := none }, []⟩

/-- The files can be reached, and the registry in them holds what is in force. -/
structure Valid (session : Session) : Prop where
  directory : ∃ path, session.home.directory = .ok path
  faults : session.home.storeFaults = {}
  registry : ∃ r, session.home.store.registry = .ok r ∧ r.Holds session.live

theorem valid_start (directory : Text) :
    Valid ⟨{ directory := .ok directory, store := none, settings := none }, []⟩ where
  directory := ⟨directory, rfl⟩
  faults := rfl
  registry := ⟨SortedMap.empty, rfl, Registry.holds_empty⟩

section CarryOut

variable {home : Home} {live : List Registration} {dryRun : Bool}

theorem Valid.congr {home' : Home} (h : Valid ⟨home, live⟩)
    (hdirectory : home'.directory = home.directory) (hfaults : home'.storeFaults = home.storeFaults)
    (hstore : home'.store.registry = home.store.registry) : Valid ⟨home', live⟩ where
  directory := hdirectory ▸ h.directory
  faults := hfaults.trans h.faults
  registry := hstore ▸ h.registry

theorem Valid.write (h : Valid ⟨home, live⟩) {store : Store} {live' : List Registration}
    (hstore : store.Holds live') : Valid ⟨{ home with store }, live'⟩ where
  directory := h.directory
  faults := h.faults
  registry := hstore

theorem after_of_onlyAsks {request : Request} (h : Program.onlyAsks dryRun request = true) :
    after live dryRun request = live := by
  cases request with
  | add force declaration template =>
    cases declaration with
    | none => rfl
    | some declaration =>
      obtain rfl : dryRun = true := by simpa [Program.onlyAsks] using h
      rfl
  | remove confirmed name => simp [Program.onlyAsks] at h
  | _ => rfl

/-- A specification that has been saved is in force. -/
theorem valid_save (h : Valid ⟨home, live⟩) {force : Bool} {declaration template : Text}
    {s : Specification} {store : Store} (hs : Specification.ofText template declaration = .ok s)
    (hsave : (Store.save s force).run home.store = .ok () store) :
    Valid ⟨{ home with store }, after live false (.add force (some declaration) template)⟩ := by
  have hsaved := Store.Holds.save (e := ⟨template, declaration, s, hs⟩) h.registry hsave
  have hafter : after live false (.add force (some declaration) template) =
      register ⟨template, declaration, s, hs⟩ live := by
    simp only [after, Bool.false_eq_true, if_false]
    split
    · next s' hs' =>
      obtain rfl := Except.ok.inj (hs.symm.trans hs')
      rfl
    · next e he => exact absurd (hs.symm.trans he) nofun
  rw [hafter]
  exact h.write hsaved.1

/-- A missing file that is made holds what was held without it. -/
theorem valid_edit (h : Valid ⟨home, live⟩) {store : Store}
    (hstore : store = home.store ∨ home.store = none ∧ store = some []) :
    Valid ⟨{ home with store }, live⟩ := by
  refine h.congr rfl rfl ?_
  rcases hstore with rfl | ⟨hmissing, rfl⟩
  · rfl
  · rw [hmissing]
    rfl

/-- A request that is carried out counts for what it asks for. -/
theorem valid_of_effect (h : Valid ⟨home, live⟩) {request : Request} {trace : Trace}
    (heffect : Program.Effect { home } dryRun request trace) :
    Valid ⟨trace.home, after live dryRun request⟩ := by
  cases heffect with
  | asked hasks hafter =>
    rw [after_of_onlyAsks hasks, Program.home_of_effects_eq hafter]
    exact h
  | launched _ _ hafter =>
    rw [Program.home_of_effects_eq hafter]
    exact h
  | saved hshown hcompiled hsave hafter =>
    subst hshown
    rw [Program.home_of_effects_eq hafter]
    exact valid_save h hcompiled hsave
  | removed hremove hafter =>
    rw [Program.home_of_effects_eq hafter]
    exact h.write (Store.Holds.remove h.registry hremove)
  | opened hstore hafter =>
    rw [Program.home_of_effects_eq hafter]
    exact valid_edit h hstore
  | configured _ hafter =>
    rw [Program.home_of_effects_eq hafter]
    exact h.congr rfl rfl rfl

end CarryOut

/-- Every run leaves the files as they hold what is in force after it. -/
theorem Valid.next {session : Session} (h : session.Valid) (words : List Text) :
    (session.next words).Valid := by
  obtain ⟨home, live⟩ := session
  cases hrequested : requestOf words with
  | none =>
    have hnothing : (Program.run home words).home = home := by
      refine Program.home_of_effects_eq (Program.effects_of_not_call ?_)
      intro dryRun rest request hread hrequest
      rw [requestOf, hread] at hrequested
      dsimp only at hrequested
      rw [hrequest] at hrequested
      exact absurd hrequested nofun
    rw [Session.next, hrequested, hnothing]
    cases (Program.run home words).ending <;> exact h
  | some requested =>
    obtain ⟨dryRun, request⟩ := requested
    obtain ⟨rest, hread, hrequest⟩ := exists_of_requestOf hrequested
    rcases Program.effect_of_call hread hrequest with ⟨heffect, hdone⟩ | ⟨hnothing, failure, hfails⟩
    · rw [Session.next, hrequested, hdone]
      exact valid_of_effect h heffect
    · rw [Session.next, hrequested, hfails, Program.home_of_effects_eq hnothing]
      exact h

theorem Valid.run {session : Session} (h : session.Valid) (runs : List (List Text)) :
    (runs.foldl Session.next session).Valid := by
  induction runs generalizing session with
  | nil => exact h
  | cons words runs ih => exact ih (h.next words)

/-- What is in force is in the files, after any runs on an empty directory. -/
theorem valid_ofRuns (directory : Text) (runs : List (List Text)) :
    (ofRuns directory runs).Valid :=
  (valid_start directory).run runs

/-- A word that does not begin with a dash ends the options of the program. -/
theorem readFrom_of_head?_ne {word : Text} (h : word.head? ≠ some '-') (dryRun : Bool)
    (rest : List Text) :
    CommandLine.readFrom dryRun (word :: rest) = .call dryRun (word :: rest) := by
  have hterminator : word ≠ "--".toList := fun heq => h (heq ▸ rfl)
  have hname : word.takeWhile (· != '=') ∉
      ["--dry-run".toList, "--help".toList, "--version".toList] := by
    intro hmem
    have hall : ∀ name ∈ ["--dry-run".toList, "--help".toList, "--version".toList],
        name.head? = some '-' := by decide
    have hhead := hall _ hmem
    obtain ⟨t, ht⟩ := List.takeWhile_prefix (l := word) (· != '=')
    rw [← ht, List.head?_append, hhead] at h
    exact h rfl
  unfold CommandLine.readFrom
  dsimp only
  rw [if_neg hterminator, if_neg (by rwa [List.contains_iff_mem])]
  split
  · exact absurd rfl h
  · rfl

section Call

variable {home : Home} {live : List Registration} {word : Text}

theorem run_files {path : Text} (hdirectory : home.directory = .ok path) :
    Program.files.run { home } =
      .ok (joinPath path "extensions.toml", joinPath path "config.toml") { home } := by
  rw [Program.files, run_get_bind, hdirectory]
  rfl

/-- The registry's file answers with what is in force. -/
theorem run_ask_resolve (h : Valid ⟨home, live⟩) (file : Text) (words : List Text) :
    ∃ r : Registry, r.Holds live ∧
      (Program.ask file (·.resolve words)).run { home } = .ok (r.resolve words) { home } := by
  obtain ⟨r, hr, hholds⟩ := h.registry
  have hfaults : home.storeFaults = {} := h.faults
  have hresolve : home.store.resolve words = .ok (r.resolve words) := Store.resolve_eq hr words
  refine ⟨r, hholds, ?_⟩
  rw [Program.ask, run_get_bind]
  dsimp only
  rw [hfaults, hresolve]
  rfl

/-- A call that is only shown goes to the registry with all its words. -/
theorem run_eq_invoke (home : Home) (hext : word ≠ actionWord) (hdash : word.head? ≠ some '-')
    (rest : List Text) : Program.run home ("-n".toList :: word :: rest) =
      (Program.invoke true (word :: rest)).outcome home := by
  have hline : CommandLine.read ("-n".toList :: word :: rest) = .call true (word :: rest) :=
    readFrom_of_head?_ne hdash true rest
  have hrequest : Request.read (word :: rest) = .ok (.invoke (word :: rest)) := by
    rw [Request.read, if_neg hext]
  exact Program.run_of_call hline hrequest

/-- Words that begin with the path of a registration in force come to what its
specification makes of the others, freshly compiled. -/
theorem invoke_of_mem (h : Valid ⟨home, live⟩) {e : Registration} (he : e ∈ live)
    {words : List Text} (hpath : e.path <+: words) :
    (Program.invoke true words).outcome home = e.tryOut home (words.drop e.path.length) := by
  obtain ⟨path, hdirectory⟩ := h.directory
  obtain ⟨r, hholds, hask⟩ := run_ask_resolve h (joinPath path "extensions.toml") words
  rw [hholds.resolve_of_mem he hpath] at hask
  rw [Program.Action.outcome, Program.invoke, EStateM.run_bind, run_files hdirectory]
  dsimp only
  rw [EStateM.run_bind, hask]
  dsimp only
  rw [Arguments.bind_settle, Usage.synopsis_settle, Usage.render_settle, Registration.tryOut]
  cases Arguments.bind e.specification (words.drop e.path.length) with
  | error error => rfl
  | ok binding =>
    rw [Program.run_orFail_ok_bind]
    cases binding with
    | help => rfl
    | arguments a =>
      dsimp only
      rw [Invocation.command_settle]
      cases Invocation.command e.specification a <;> rfl

/-- Words that begin with no path in force belong to no command. -/
theorem invoke_of_forall_not (h : Valid ⟨home, live⟩) {words : List Text}
    (hpath : ∀ e ∈ live, ¬ e.path <+: words) :
    (Program.invoke true words).outcome home =
      { home, ending := .failed (.unknownCommand words) } := by
  obtain ⟨path, hdirectory⟩ := h.directory
  obtain ⟨r, hholds, hask⟩ := run_ask_resolve h (joinPath path "extensions.toml") words
  rw [hholds.resolve_eq_none hpath] at hask
  rw [Program.Action.outcome, Program.invoke, EStateM.run_bind, run_files hdirectory]
  dsimp only
  rw [EStateM.run_bind, hask]
  rfl

end Call

/-- The options of an addition, between which and the template nothing else stands. -/
def IsAddOption (word : Text) : Prop :=
  word ∈ ["-f".toList, "--force".toList, "-d".toList, "--declaration".toList, "--".toList] ∨
    "--declaration=".toList <+: word

/-- The words of an addition ask for its declaration and for the template that its other
words make. -/
theorem requestOf_add (force : Bool) (declaration : Text) {word : Text} (h : ¬ IsAddOption word)
    (rest : List Text) :
    requestOf (["ext".toList, "add".toList] ++ (if force then ["--force".toList] else []) ++
        ["-d".toList, declaration] ++ word :: rest) =
      (Request.templateOf (word :: rest)).toOption.map fun template =>
        (false, .add force (some declaration) template) := by
  simp only [IsAddOption, List.mem_cons, List.not_mem_nil, or_false, not_or] at h
  obtain ⟨⟨hf, hforce, hd, hdeclaration, hterminator⟩, hprefix⟩ := h
  have htemplate : Request.readAdd force (some declaration) (word :: rest) =
      (Request.templateOf (word :: rest)).map (.add force (some declaration)) := by
    unfold Request.readAdd
    rw [if_neg (not_or.2 ⟨hf, hforce⟩), if_neg (not_or.2 ⟨hd, hdeclaration⟩),
      if_neg (by rwa [List.isPrefixOf_iff_prefix]), if_neg hterminator]
  have hread : Request.read (["ext".toList, "add".toList] ++
      (if force then ["--force".toList] else []) ++ ["-d".toList, declaration] ++ word :: rest) =
        Request.readAdd force (some declaration) (word :: rest) := by
    cases force <;> rfl
  have hline : ∀ words, CommandLine.read ("ext".toList :: words) =
      .call false ("ext".toList :: words) :=
    readFrom_of_head?_ne (by decide) false
  rw [requestOf, List.append_assoc, List.append_assoc, List.cons_append, hline]
  dsimp only
  rw [← List.cons_append, ← List.append_assoc, ← List.append_assoc, hread, htemplate]
  cases Request.templateOf (word :: rest) <;> rfl

/-- The words of a removal ask for the name that they make. -/
theorem requestOf_remove {name : List Text} (hne : name ≠ [])
    (h : ∀ word ∈ name, word ≠ "-y".toList ∧ word ≠ "--yes".toList) :
    requestOf ("ext".toList :: "remove".toList :: "-y".toList :: name) =
      some (false, .remove true ([' '].intercalate name)) := by
  have hremove : Request.readRemove ("-y".toList :: name) =
      .ok (.remove true ([' '].intercalate name)) := by
    have hname : ("-y".toList :: name).filter
        (fun word => !(word == "-y".toList || word == "--yes".toList)) = name := by
      rw [List.filter_cons_of_neg (by decide), List.filter_eq_self]
      intro word hword
      rw [beq_false_of_ne (h word hword).1, beq_false_of_ne (h word hword).2]
      rfl
    rw [Request.readRemove]
    dsimp only
    rw [hname, if_neg (by simpa using hne)]
    rfl
  have hline : CommandLine.read ("ext".toList :: "remove".toList :: "-y".toList :: name) =
      .call false ("ext".toList :: "remove".toList :: "-y".toList :: name) :=
    readFrom_of_head?_ne (by decide) false _
  have hread : Request.read ("ext".toList :: "remove".toList :: "-y".toList :: name) =
      Request.readRemove ("-y".toList :: name) := rfl
  rw [requestOf, hline]
  dsimp only
  rw [hread, hremove]
  rfl

theorem report_unknownCommand (words : List Text) :
    "\nError: No existe ninguna extensión".toList <+: (Failure.unknownCommand words).report := by
  have hreport : (Failure.unknownCommand words).report = "\nError: ".toList ++
      ("No existe ninguna extensión para ".toList ++ Text.inQuotes ([' '].intercalate words) ++
        ". Usa '".toList ++ rootWord ++ " ext list' para ver las registradas.".toList) ++
      "\n".toList := rfl
  have hstart : "\nError: ".toList ++ "No existe ninguna extensión para ".toList =
      "\nError: No existe ninguna extensión".toList ++ " para ".toList := by decide
  rw [hreport]
  simp only [List.append_assoc]
  rw [← List.append_assoc "\nError: ".toList, hstart, List.append_assoc]
  exact List.prefix_append _ _

/-- Persistence does not show. After any runs on an empty directory, a call that is only
shown and begins with the path of a registration in force comes to what binding and
building make of its other words for the specification as it is compiled; a call that
begins with no such path is refused. -/
theorem run_after_runs (directory : Text) (runs : List (List Text)) {word : Text}
    (hext : word ≠ actionWord) (hdash : word.head? ≠ some '-') (rest : List Text) :
    (∀ e ∈ (ofRuns directory runs).live, e.path <+: word :: rest →
      Program.run (ofRuns directory runs).home ("-n".toList :: word :: rest) =
        e.tryOut (ofRuns directory runs).home ((word :: rest).drop e.path.length)) ∧
    ((∀ e ∈ (ofRuns directory runs).live, ¬ e.path <+: word :: rest) →
      Program.run (ofRuns directory runs).home ("-n".toList :: word :: rest) =
        { home := (ofRuns directory runs).home
          ending := .failed (.unknownCommand (word :: rest)) } ∧
      "\nError: No existe ninguna extensión".toList <+:
        (Failure.unknownCommand (word :: rest)).report) := by
  have hvalid := valid_ofRuns directory runs
  refine ⟨fun e he hpath => ?_, fun hpath => ⟨?_, ?_⟩⟩
  · rw [run_eq_invoke _ hext hdash]
    exact invoke_of_mem hvalid he hpath
  · rw [run_eq_invoke _ hext hdash]
    exact invoke_of_forall_not hvalid hpath
  · exact report_unknownCommand _

def exampleRuns : List (List Text) := [
  ["ext".toList, "add".toList, "-d".toList, "just say hello NAME[name]".toList,
    "echo NAME".toList],
  ["ext".toList, "add".toList, "-d".toList, "just say".toList, "echo".toList],
  ["ext".toList, "add".toList, "-d".toList, "just pack DIR[dir]".toList, "tar DIR".toList],
  ["ext".toList, "remove".toList, "-y".toList, "pack".toList],
  ["ext".toList, "add".toList, "--force".toList, "-d".toList,
    "just say hello NAME[name=you]".toList, "printf".toList, "NAME".toList]]

/-- What was added last is called, and what was removed is refused. -/
theorem run_after_exampleRuns :
    (∃ e ∈ (ofRuns "/home" exampleRuns).live, e.template = "printf NAME".toList ∧
      e.declaration = "just say hello NAME[name=you]".toList ∧
      Program.run (ofRuns "/home" exampleRuns).home
          ["-n".toList, "say".toList, "hello".toList, "ana".toList] =
        e.tryOut (ofRuns "/home" exampleRuns).home ["ana".toList]) ∧
    Program.run (ofRuns "/home" exampleRuns).home ["-n".toList, "pack".toList, "lib".toList] =
      { home := (ofRuns "/home" exampleRuns).home
        ending := .failed (.unknownCommand ["pack".toList, "lib".toList]) } := by
  have hlive : (ofRuns "/home" exampleRuns).live.map
      (fun e => (e.template, e.declaration, e.path)) =
        [("printf NAME".toList, "just say hello NAME[name=you]".toList,
          ["say".toList, "hello".toList])] := by
    decide +kernel
  have hpath : ∀ e ∈ (ofRuns "/home" exampleRuns).live,
      e.path = ["say".toList, "hello".toList] := by
    intro e he
    have hmem := List.mem_map_of_mem (f := fun e => (e.template, e.declaration, e.path)) he
    rw [hlive, List.mem_singleton] at hmem
    exact congrArg (fun x => x.2.2) hmem
  constructor
  · obtain ⟨e, he, htexts⟩ := List.mem_map.1 (hlive ▸ List.mem_singleton_self _)
    obtain ⟨htemplate, hrest⟩ := Prod.mk.inj htexts
    have hprefix : e.path <+: ["say".toList, "hello".toList, "ana".toList] :=
      ⟨["ana".toList], by rw [hpath e he]; rfl⟩
    have hcall := (run_after_runs "/home" exampleRuns (by decide) (by decide)
      ["hello".toList, "ana".toList]).1 e he hprefix
    rw [hpath e he] at hcall
    exact ⟨e, he, htemplate, (Prod.mk.inj hrest).1, hcall⟩
  · refine ((run_after_runs "/home" exampleRuns (by decide) (by decide) ["lib".toList]).2
      fun e he => ?_).1
    rw [hpath e he]
    decide

end Session
end TypedCommand
