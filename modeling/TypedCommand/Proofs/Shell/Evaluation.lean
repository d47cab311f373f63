import TypedCommand.Proofs.Shell.Expansion
import TypedCommand.Shell.Launch

/-!
A line of quoted words is carried out as the command of these words. A shell that is started
with the line reads it as one simple command, whose arguments are the words, and has done
nothing to the files before it runs that command.
-/

namespace TypedCommand.Shell

namespace Act

section Steps

variable {α β : Type} {s s' : State}

/-! Steps that come to the same from two states go on in the same way. -/

theorem run_congr {x y : StateM State α} (h : x s = y s') (f : α → StateM State β) :
    (x >>= f) s = (y >>= f) s' := by
  show f (x s).1 (x s).2 = f (y s').1 (y s').2
  rw [h]

theorem bind_congr_run {x y : Act α} (h : x s = y s') (f : α → Act β) :
    (x >>= f) s = (y >>= f) s' :=
  run_congr h (ExceptT.bindCont f)

theorem bind_of_ok {x : Act α} {f : α → Act β} {a : α} (h : x s = (.ok a, s')) :
    (x >>= f) s = f a s' :=
  bind_congr_run (y := pure a) h f

theorem tryCatch_congr {x y : Act α} (h : x s = y s') (f : Jump → Act α) :
    tryCatch x f s = tryCatch y f s' := by
  show ExceptT.tryCatch x f s = ExceptT.tryCatch y f s'
  unfold ExceptT.tryCatch ExceptT.mk
  exact run_congr h _

theorem asShell_congr {x y : Act Unit} (g : Engine) (h : x s = y s') :
    asShell g x s = asShell g y s' := by
  have hjump : jumpOf x s = jumpOf y s' :=
    bind_congr_run (tryCatch_congr (bind_congr_run h _) _) _
  have hend : toEnd g x s = toEnd g y s' := bind_congr_run hjump _
  exact bind_congr_run hend _

end Steps

/-- The short names that count where a shell reads a line. -/
def aliasesIn (dialect : Dialect) (p : Process) : SortedMap Text :=
  if dialect = .common then p.aliases else SortedMap.empty

section Lines

variable {g : Engine} {name called line : Text} {words : List Text} {dialect : Dialect} {n : Nat}
  {r : Reader} {s : State}

theorem runLines_joinWords (hskips : r.skipsNewlines = false)
    (hrest : r.rest = joinWords (name :: words)) (hsize : r.rest.length ≤ r.size)
    (hname : IsCommandName r.dialect (aliasesIn s.process.dialect s.process) name) :
    runLines g false (n + 2) r s =
      g.command (.simple (r.line + (quote name).count '\n') []
        ((name :: words).map .ofQuoted) []) s := by
  have hdone : r.isDone = false := by
    obtain ⟨c, rest, hquote, _⟩ := quote_eq_cons name
    rw [Reader.isDone, hrest, joinWords_cons, hquote]
    rfl
  have hend : ∀ r' : Reader, r'.isDone = true → runLines g false (n + 1) r' = pure () := by
    intro r' hr'
    rw [runLines, if_pos hr']
  have hread := readLine_joinWords
    (r := { r with aliases := aliasesIn s.process.dialect s.process, replaced := [] })
    hskips hrest hsize hname
  rw [aliasesIn] at hread
  rw [runLines, hdone, if_neg Bool.false_ne_true, bind_of_ok (x := process) rfl]
  dsimp only
  rw [hread]
  dsimp only
  rw [Bool.false_and, if_neg Bool.false_ne_true, hend _ rfl, bind_pure_unit]

/-- The text is one simple command, whose arguments are the words. -/
theorem runScript_joinWords (words : List Text)
    (hname : IsCommandName s.process.dialect (aliasesIn s.process.dialect s.process) name) :
    ∃ first ws, (∀ g', argumentsOf g' ws = pure (name :: words)) ∧
      runScript g false (joinWords (name :: words)) s = g.command (.simple first [] ws []) s := by
  refine ⟨1 + (quote name).count '\n', (name :: words).map .ofQuoted,
    fun g' => argumentsOf_ofQuoted g' _, ?_⟩
  obtain ⟨n, hn⟩ : ∃ n, (joinWords (name :: words)).length + 1 = n + 2 := by
    obtain ⟨c, rest, hquote, _⟩ := quote_eq_cons name
    refine ⟨(joinWords (name :: words)).length - 1, ?_⟩
    rw [joinWords_cons, hquote, List.cons_append, List.length_cons]
    rfl
  have hlines := runLines_joinWords (g := g) (n := n) (s := s)
    (r := { rest := joinWords (name :: words), dialect := s.process.dialect }) rfl rfl
    (Nat.le_refl _) hname
  rw [← hn] at hlines
  exact hlines

theorem files_eq (s : State) : ∃ w, files s = (.ok (filesOf s.world), { s with world := w }) ∧
    filesOf w = filesOf s.world := by
  unfold files
  cases htail : s.world.tail with
  | none =>
    refine ⟨s.world, ?_, rfl⟩
    rw [bind_of_ok (x := world) rfl, htail, filesOf, htail]
    rfl
  | some tail =>
    refine ⟨{ s.world with files := filesOf s.world, tail := none }, ?_, rfl⟩
    rw [bind_of_ok (x := world) rfl, htail]
    rfl

theorem startOptions_command (hfront : ∀ c ∈ line.head?, c ≠ '-' ∧ c ≠ '+') :
    startOptions 3 false ["-c".toList, line] = pure (true, [line]) := by
  have hline : startOptions 2 true [line] = pure (true, [line]) := by
    unfold startOptions
    split
    · next h =>
      rcases h with rfl | rfl
      · exact absurd rfl (hfront '-' rfl).1
      · exact absurd rfl (hfront '-' rfl).1
    · split
      · exact absurd rfl (hfront '-' rfl).1
      · exact absurd rfl (hfront '+' rfl).2
      · rfl
  exact hline

/-- How a shell stands before the text that it is given, when it has been started so. -/
structure Begun (dialect : Dialect) (s before : State) : Prop where
  dialect : before.process.dialect = dialect
  aliases : before.process.aliases = s.process.aliases
  arguments : before.process.arguments = []
  options : before.process.options.letters = []
  files : filesOf before.world = filesOf s.world

theorem runShell_command (called : Text) (dialect : Dialect)
    (hfront : ∀ c ∈ line.head?, c ≠ '-' ∧ c ≠ '+') :
    ∃ before, Begun dialect s before ∧
      runShell g dialect [called, "-c".toList, line] s = runScript g false line before := by
  obtain ⟨w, hfiles, hw⟩ := files_eq s
  apply Exists.intro
  constructor
  rotate_left
  · refine (bind_of_ok hfiles).trans ?_
    refine (bind_of_ok (x := modifyProcess _) rfl).trans ?_
    refine (bind_of_ok (x := modifyProcess _) rfl).trans ?_
    refine (bind_of_ok (congrFun (startOptions_command hfront) _)).trans ?_
    refine (bind_of_ok (x := Builtin.settleOptions) rfl).trans ?_
    exact bind_of_ok (x := modifyProcess _) rfl
  · exact ⟨rfl, rfl, rfl, rfl, hw⟩

/-- A shell that is given the line runs one command. The line must not be taken for options. -/
theorem runShell_joinWords (called : Text) (words : List Text)
    (hfront : ∀ c ∈ name.head?, c ≠ '-' ∧ c ≠ '+')
    (hname : IsCommandName dialect (aliasesIn dialect s.process) name) :
    ∃ before first ws, Begun dialect s before ∧
      (∀ g', argumentsOf g' ws = pure (name :: words)) ∧
      runShell g dialect [called, "-c".toList, joinWords (name :: words)] s =
        g.command (.simple first [] ws []) before := by
  have hline : ∀ c ∈ (joinWords (name :: words)).head?, c ≠ '-' ∧ c ≠ '+' := by
    rw [joinWords_cons]
    rcases quote_cases name with ⟨hne, _, hquote, _⟩ | ⟨hquote, _⟩
    · rwa [hquote, List.head?_append_of_ne_nil _ hne]
    · rw [hquote]
      rintro c hc
      obtain rfl := Option.some.inj hc
      decide
  obtain ⟨before, hbegun, hshell⟩ := runShell_command (g := g) (s := s) called dialect hline
  have hname' : IsCommandName before.process.dialect
      (aliasesIn before.process.dialect before.process) name := by
    rwa [aliasesIn, hbegun.aliases, hbegun.dialect]
  obtain ⟨first, ws, harguments, hrun⟩ := runScript_joinWords (g := g) words hname'
  exact ⟨before, first, ws, hbegun, harguments, hshell.trans hrun⟩

end Lines

end Act

section Quoted

variable {word : Text} {words : List Text} {c : Char}

theorem mem_quote (h : c ∈ quote word) : c ∈ word ∨ c = '\'' ∨ c = '"' := by
  rcases quote_cases word with ⟨_, _, hquote, _⟩ | ⟨hquote, _⟩
  · rw [hquote] at h
    exact .inl h
  · rw [hquote, enclosed, List.cons_append, List.mem_cons, List.mem_append, List.mem_flatMap,
      List.mem_singleton] at h
    rcases h with rfl | ⟨d, hd, hc⟩ | rfl
    · exact .inr (.inl rfl)
    · unfold quoteChar at hc
      split at hc
      · have hquotes : c = '\'' ∨ c = '"' ∨ c = '\'' ∨ c = '"' ∨ c = '\'' := by simpa using hc
        tauto
      · rw [List.mem_singleton.1 hc]
        exact .inl hd
    · exact .inr (.inl rfl)

theorem not_mem_joinWords (hwords : ∀ word ∈ words, c ∉ word)
    (hc : c ≠ '\'' ∧ c ≠ '"' ∧ c ≠ ' ') : c ∉ joinWords words := by
  intro hmem
  rcases Text.mem_intercalate hmem with hspace | ⟨t, ht, hmem⟩
  · exact hc.2.2 (List.mem_singleton.1 hspace)
  · obtain ⟨word, hword, rfl⟩ := List.mem_map.1 ht
    rcases mem_quote hmem with hmem | heq | heq
    · exact hwords word hword hmem
    · exact hc.1 heq
    · exact hc.2.1 heq

end Quoted

namespace Surroundings

variable {s : Surroundings} {called path shell name : Text} {words : List Text} {dialect : Dialect}

theorem launch_eq (hprogram : s.program called = .ok (path, .program shell))
    (hshell : Act.dialectOf? shell = some dialect) {arguments : List Text}
    (hnul : ∀ t ∈ called :: arguments, Char.ofNat 0 ∉ t) :
    s.launch called arguments =
      aftermathOf (s.run (.shell dialect (called :: arguments)) s.state) := by
  have hnone : (called :: arguments).any (·.contains (Char.ofNat 0)) = false := by
    rw [List.any_eq_false]
    intro t ht
    simpa using hnul t ht
  have hstart : Act.startOf called path (.program shell) arguments =
      pure (.shell dialect (called :: arguments)) := by
    rw [Act.startOf, Act.startFor, hshell]
  unfold launch
  dsimp only
  rw [hnone, hprogram]
  dsimp only
  rw [hstart]
  rfl

/-- A line of quoted words makes a shell run the command of these words. -/
theorem launch_joinWords (hprogram : s.program called = .ok (path, .program shell))
    (hshell : Act.dialectOf? shell = some dialect)
    (hnul : ∀ t ∈ called :: name :: words, Char.ofNat 0 ∉ t)
    (hfront : ∀ c ∈ name.head?, c ≠ '-' ∧ c ≠ '+')
    (hname : IsCommandName dialect SortedMap.empty name) :
    ∃ before first ws, Act.Begun dialect s.state before ∧
      (∀ g, Act.argumentsOf g ws = pure (name :: words)) ∧
      s.launch called ["-c".toList, joinWords (name :: words)] =
        aftermathOf (Act.asShell (engine depth)
          ((engine (depth - 1)).command (.simple first [] ws [])) before) := by
  have hline : Char.ofNat 0 ∉ joinWords (name :: words) :=
    not_mem_joinWords (fun t ht => hnul t (.tail _ ht)) (by decide)
  have hnul' : ∀ t ∈ [called, "-c".toList, joinWords (name :: words)], Char.ofNat 0 ∉ t := by
    intro t ht
    rcases List.mem_cons.1 ht with rfl | ht
    · exact hnul t (.head _)
    · rcases List.mem_cons.1 ht with rfl | ht
      · decide
      · rwa [List.mem_singleton.1 ht]
  have hrun : s.run (.shell dialect [called, "-c".toList, joinWords (name :: words)]) s.state =
      Act.asShell (engine depth) (Act.runShell (engine (depth - 1)) dialect
        [called, "-c".toList, joinWords (name :: words)]) (Act.onlyExported s.bindings s.state).2 :=
    Act.bind_of_ok rfl
  -- a shell that has just been started knows no short names
  have hname' : IsCommandName dialect
      (Act.aliasesIn dialect (Act.onlyExported s.bindings s.state).2.process) name := by
    unfold Act.aliasesIn
    split
    · exact hname
    · exact hname
  obtain ⟨before, first, ws, hbegun, harguments, hshell'⟩ :=
    Act.runShell_joinWords (g := engine (depth - 1)) called words hfront hname'
  refine ⟨before, first, ws, ⟨hbegun.dialect, hbegun.aliases, hbegun.arguments, hbegun.options,
    hbegun.files⟩, harguments, ?_⟩
  rw [launch_eq hprogram hshell hnul', hrun, Act.asShell_congr _ hshell']

end Surroundings

end TypedCommand.Shell
