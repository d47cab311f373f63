import TypedCommand.Shell.System
import TypedCommand.Proofs.Effect
import TypedCommand.Proofs.FileTree

/-!
What a run leaves in the files of the machine. The directory of the program is made if it is
missing; apart from that a run that fails by itself leaves every file as it was, and so does a
dry run of all that can be shown. What cannot be shown is carried out in a dry run as in any
other.
-/

namespace TypedCommand

namespace Machine

open Program (onlyAsks)

variable {system : System} {m : Machine} {words : List Text}

/-- The directory of the program is there, if any place is known for it. -/
def HasDirectory (m : Machine) : Prop :=
  ∀ path, m.environment.directory? = some path →
    (m.files.find? m.directory path.toBytes).isSome = true

/-- The second machine has the files of the first, and no others: what a path led to is read
as before, and a file that a path leads to was there with these bytes. Besides files it may
have directories that the first has not, unless the first has that of the program. -/
structure KeepsFiles (m m' : Machine) : Prop where
  read : ∀ path content, m.files.read m.directory path = .ok content →
    m'.files.read m.directory path = .ok content
  file : ∀ path place content isExecutable,
    m'.files.find m.directory path = .ok (place, .file content isExecutable) →
      m.files.at? place = some (.file content isExecutable)
  unchanged : m.HasDirectory → m'.files = m.files

/-! The directory of the program. -/

theorem extends_withDirectory (m : Machine) : m.files.Extends m.withDirectory.1.files := by
  unfold withDirectory
  split
  · exact .refl _
  · next path _ =>
    split
    · exact .refl _
    · have hmade := FileTree.extends_makeDirectories m.files m.directory path.toBytes
      split
      · next files heq => rwa [heq] at hmade
      · next files fault heq => rwa [heq] at hmade

theorem HasDirectory.withDirectory (h : m.HasDirectory) : m.withDirectory.1 = m := by
  unfold Machine.withDirectory
  split
  · rfl
  · next path hpath => rw [if_pos (h path hpath)]

/-! A run by its parts. -/

def prepared (m : Machine) (words : List Text) : Machine × Except DirectoryFault Text :=
  if Program.usesFiles words then m.withDirectory else (m, .error .unknown)

def found (m : Machine) (words : List Text) : Home :=
  (m.prepared words).1.home (m.prepared words).2

def outcome (m : Machine) (words : List Text) : Outcome := Program.run (m.found words) words

def written (m : Machine) (words : List Text) : Machine :=
  (m.prepared words).1.withHome (m.found words) (m.outcome words).home

/-- How the command that a run calls comes to its end, if it calls one. -/
def completion? (system : System) (m : Machine) (words : List Text) : Option Completion :=
  (m.outcome words).launched.map fun l => (system.start (m.written words) l).completion

/-- What is left when a program has been started, and when none has. -/
theorem run_eq (system : System) (m : Machine) (words : List Text) :
    m.run system words = match (m.outcome words).launched with
    | some l =>
      let after := system.start (m.written words) l
      let (code, report) :=
        Program.completed (m.outcome words).ending l.line after.completion
      ({ m.written words with files := after.files },
        { code, out := (m.outcome words).output ++ Text.ofBytes after.out,
          err := Text.ofBytes after.err ++ report })
    | none =>
      let (code, report) := Program.ended (m.outcome words).ending
      (m.written words, { code, out := (m.outcome words).output, err := report }) :=
  rfl

/-- Before anything else is done, at most the directory of the program is made. -/
theorem keepsFiles_prepared (m : Machine) (words : List Text) :
    m.KeepsFiles (m.prepared words).1 := by
  have htree : m.files.Extends (m.prepared words).1.files := by
    unfold prepared
    split
    · exact m.extends_withDirectory
    · exact .refl _
  refine ⟨fun _ _ => htree.read, fun _ _ _ _ => htree.at?_file, fun hdirectory => ?_⟩
  unfold prepared
  split
  · rw [hdirectory.withDirectory]
  · rfl

/-! What is written, and what is started. -/

theorem keep_self (m : Machine) (path : Text) (content : Option Text) :
    m.keep path content content = m := by
  unfold keep
  split
  · rfl
  · exact if_pos rfl

/-- Files of the program that have not changed are not written. -/
theorem withHome_self (m : Machine) (home : Home) : m.withHome home home = m := by
  unfold withHome
  split
  · rfl
  · rw [keep_self, keep_self]

theorem written_of_home_eq (h : (m.outcome words).home = m.found words) :
    m.written words = (m.prepared words).1 := by
  rw [written, h, withHome_self]

theorem run_of_launched {l : Launch} (h : (m.outcome words).launched = some l) :
    (m.run system words).1.files = (system.start (m.written words) l).files ∧
      (m.run system words).2.code = (Program.completed (m.outcome words).ending l.line
        (system.start (m.written words) l).completion).1 := by
  rw [run_eq, h]
  exact ⟨rfl, rfl⟩

theorem run_of_not_launched (h : (m.outcome words).launched = none) :
    (m.run system words).1 = m.written words ∧
      (m.run system words).2.code = (Program.ended (m.outcome words).ending).1 := by
  rw [run_eq, h]
  exact ⟨rfl, rfl⟩

theorem KeepsFiles.congr {m' m'' : Machine} (h : m.KeepsFiles m')
    (hfiles : m''.files = m'.files) : m.KeepsFiles m'' where
  read path content hread := hfiles ▸ h.read path content hread
  file path place content isExecutable hfind :=
    h.file path place content isExecutable (hfiles ▸ hfind)
  unchanged hthere := hfiles.trans (h.unchanged hthere)

/-! How the command ends that a run calls. -/

theorem exists_launch_of_completion? {completion : Completion}
    (h : m.completion? system words = some completion) :
    ∃ l, (m.outcome words).launched = some l ∧
      (system.start (m.written words) l).completion = completion :=
  Option.map_eq_some_iff.1 h

theorem not_launched_of_completion? (h : m.completion? system words = none) :
    (m.outcome words).launched = none :=
  Option.map_eq_none_iff.1 h

/-- The code of a command that has run to its end stands for itself: nothing fails once a
command has been called. -/
theorem code_of_exited {code : Nat} (h : m.completion? system words = some (.exited code)) :
    (m.run system words).2.code = code := by
  obtain ⟨l, hl, hcompletion⟩ := exists_launch_of_completion? h
  have hdone : (m.outcome words).ending = .done := (Program.of_launched hl).2.1
  rw [(run_of_launched hl).2, hcompletion, hdone]
  cases code <;> rfl

/-- A run that changes nothing in the files of the program, and whose command has not begun,
keeps the files. -/
theorem keepsFiles_of_home_eq (hhome : (m.outcome words).home = m.found words)
    (hnone : ∀ completion, m.completion? system words = some completion →
      ∃ reason, completion = .notStarted reason) : m.KeepsFiles (m.run system words).1 := by
  have hwritten := m.keepsFiles_prepared words
  rw [← written_of_home_eq hhome] at hwritten
  cases hcompletion : m.completion? system words with
  | none => rwa [(run_of_not_launched (not_launched_of_completion? hcompletion)).1]
  | some completion =>
    obtain ⟨l, hl, hend⟩ := exists_launch_of_completion? hcompletion
    obtain ⟨reason, rfl⟩ := hnone completion hcompletion
    refine hwritten.congr ?_
    rw [(run_of_launched hl).1]
    exact system.files_of_notStarted _ l reason hend

/-! Runs that fail. -/

/-- A run that fails does nothing to the files of the program. -/
theorem home_eq_of_failed (h : (m.run system words).2.code ≠ 0) :
    (m.outcome words).home = m.found words := by
  rcases Program.effects_eq_or_done (m.found words) words with hnothing | hdone
  · exact Program.home_of_effects_eq hnothing
  · -- what ends well has called a command, or has the code zero
    cases hlaunched : (m.outcome words).launched with
    | some l => exact (Program.of_launched hlaunched).1
    | none =>
      have hended : (m.outcome words).ending = .done := hdone
      rw [(run_of_not_launched hlaunched).2, hended] at h
      exact absurd rfl h

/-- A run that fails otherwise than the command that it has run keeps the files, and has run
no command: none has been called, or it could not be started. -/
theorem keepsFiles_of_failed (system : System) (m : Machine) (words : List Text)
    (h : (m.run system words).2.code ≠ 0) :
    m.completion? system words = some (.exited (m.run system words).2.code) ∨
    m.completion? system words = some .killed ∨
    ((m.completion? system words = none ∨
        ∃ reason, m.completion? system words = some (.notStarted reason)) ∧
      m.KeepsFiles (m.run system words).1) := by
  have hhome := home_eq_of_failed h
  cases hcompletion : m.completion? system words with
  | none =>
    refine Or.inr (Or.inr ⟨Or.inl rfl, keepsFiles_of_home_eq hhome fun completion hsome => ?_⟩)
    exact absurd (hcompletion.symm.trans hsome) nofun
  | some completion =>
    cases completion with
    | exited code =>
      rw [code_of_exited hcompletion]
      exact Or.inl rfl
    | killed => exact Or.inr (Or.inl rfl)
    | notStarted reason =>
      refine Or.inr (Or.inr ⟨Or.inr ⟨reason, rfl⟩, ?_⟩)
      refine keepsFiles_of_home_eq hhome fun completion hsome => ?_
      exact ⟨reason, Option.some.inj (hsome.symm.trans hcompletion)⟩

def exampleMachine : Machine where
  files := { entries := SortedMap.ofList [
    ("/".toList, .directory), ("/h".toList, .directory),
    ("/h/extensions.toml".toList, .file ("[extensions.greet]\ncommand_name = \"greet\"\n" ++
      "template = \"echo hi\"\nparameters = []\nplan = []\n").toList false)] }
  directory := ['/']
  bindings := SortedMap.ofList [("JUST_EXT_HOME".toList, "/h".toList)]

theorem hasDirectory_exampleMachine : exampleMachine.HasDirectory := by
  have hdirectory : exampleMachine.environment.directory? = some "/h".toList := by decide +kernel
  intro path hpath
  obtain rfl := Option.some.inj (hdirectory.symm.trans hpath)
  decide +kernel

/-- A removal that nobody confirms fails, and the file of specifications stays as it is. -/
theorem keepsFiles_of_unconfirmed :
    (exampleMachine.run Shell.system ["ext".toList, "remove".toList, "greet".toList]).2.code ≠ 0 ∧
    (exampleMachine.run Shell.system ["ext".toList, "remove".toList, "greet".toList]).1.files =
      exampleMachine.files := by
  have hcode : (exampleMachine.run Shell.system
      ["ext".toList, "remove".toList, "greet".toList]).2.code ≠ 0 := by
    decide +kernel
  have hnone : (exampleMachine.completion? Shell.system
      ["ext".toList, "remove".toList, "greet".toList]).isNone = true := by
    decide +kernel
  rw [Option.isNone_iff_eq_none] at hnone
  rcases keepsFiles_of_failed Shell.system exampleMachine _ hcode with
    hexited | hkilled | ⟨_, hkeeps⟩
  · exact absurd (hnone.symm.trans hexited) nofun
  · exact absurd (hnone.symm.trans hkilled) nofun
  · exact ⟨hcode, hkeeps.unchanged hasDirectory_exampleMachine⟩

/-! Dry runs. -/

/-- What is not to be carried out starts nothing. What only asks keeps the files, and so do
words that ask for nothing or cannot be read; what does more is carried out as it is without
the option. -/
theorem run_of_dryRun (system : System) (m : Machine) (words : List Text)
    (hdry : ∀ rest, CommandLine.read words ≠ .call false rest) :
    m.completion? system words = none ∧
    ((∀ rest request, CommandLine.read words = .call true rest → Request.read rest = .ok request →
      onlyAsks true request = true) → m.KeepsFiles (m.run system words).1) ∧
    ∀ rest request, CommandLine.read words = .call true rest → Request.read rest = .ok request →
      onlyAsks true request = false → m.run system words = m.run system ("--".toList :: rest) := by
  have hnone : m.completion? system words = none :=
    Option.map_eq_none_iff.2 (Program.launched_eq_none hdry)
  refine ⟨hnone, fun hasks => ?_, fun rest request hread hrequest hmore => ?_⟩
  · refine keepsFiles_of_home_eq (Program.home_of_onlyAsks ?_) fun _ hsome =>
      absurd (hnone.symm.trans hsome) nofun
    intro dryRun rest request hread hrequest
    cases dryRun with
    | false => exact absurd hread (hdry rest)
    | true => exact hasks rest request hread hrequest
  · have hrun : ∀ home, Program.run home words = Program.run home ("--".toList :: rest) :=
      fun _ => Program.run_eq_run_terminator hread hrequest hmore
    have hfiles := Program.usesFiles_eq_usesFiles_terminator hread hrequest hmore
    unfold run
    simp only [hfiles, hrun]

def shownRemoval : List Text :=
  ["-n".toList, "ext".toList, "remove".toList, "-y".toList, "greet".toList]

theorem read_shownRemoval : CommandLine.read shownRemoval =
    .call true ["ext".toList, "remove".toList, "-y".toList, "greet".toList] := rfl

/-- The option makes no difference to a removal. -/
theorem run_shownRemoval :
    (∀ rest, CommandLine.read shownRemoval ≠ .call false rest) ∧
    exampleMachine.run Shell.system shownRemoval = exampleMachine.run Shell.system
      ["--".toList, "ext".toList, "remove".toList, "-y".toList, "greet".toList] := by
  have hdry : ∀ rest, CommandLine.read shownRemoval ≠ .call false rest := by
    intro rest hread
    exact absurd (read_shownRemoval.symm.trans hread) nofun
  obtain ⟨_, _, hcarriedOut⟩ := run_of_dryRun Shell.system exampleMachine shownRemoval hdry
  exact ⟨hdry, hcarriedOut _ (.remove true "greet".toList) read_shownRemoval rfl rfl⟩

/-- A dry run can change the files, though it opens none to be edited: a removal is carried
out. -/
theorem not_keepsFiles_of_dryRun :
    ¬ ∀ (m : Machine) (words rest : List Text) (request : Request),
      CommandLine.read words = .call true rest → Request.read rest = .ok request →
        request ≠ .edit → m.KeepsFiles (m.run Shell.system words).1 := by
  intro hkeeps
  have hfiles := (hkeeps exampleMachine shownRemoval _ (.remove true "greet".toList)
    read_shownRemoval rfl nofun).unchanged hasDirectory_exampleMachine
  have hbefore : (exampleMachine.files.read ['/'] "/h/extensions.toml".toList).toOption ≠
      some "[extensions]\n".toList := by
    decide +kernel
  have hafter : ((exampleMachine.run Shell.system shownRemoval).1.files.read ['/']
      "/h/extensions.toml".toList).toOption = some "[extensions]\n".toList := by
    decide +kernel
  exact hbefore (hfiles ▸ hafter)

end Machine

end TypedCommand
