import TypedCommand.Program
import TypedCommand.Proofs.Checked
import TypedCommand.Proofs.Stateful
import TypedCommand.Proofs.Store

/-!
What a run does to the files of the program, and what it starts. Whatever a request can fail
at comes before its one write or its one launch, so a run that fails has done no more than
print. A request that is carried out only asks something of the files, or calls a command, or
saves or removes one specification, or makes the file of specifications or that of settings
where it is missing. A dry run starts no program.
-/

namespace TypedCommand.Program

def effects (trace : Trace) : Trace := { trace with output := [] }

section Parts

variable {γ : Type} {part : Trace → γ}

/-! The parts of a run that change nothing. -/

theorem leaves_say (t : Text) : Leaves effects (say t) :=
  leaves_modify fun _ => rfl

theorem leaves_check (fault : Option Text) : Leaves part (check fault) := by
  cases fault with
  | none => exact leaves_pure _
  | some reason => exact leaves_throw _

theorem leaves_files : Leaves part files := by
  refine leaves_get.bind fun trace => ?_
  split
  · exact leaves_pure _
  · exact leaves_throw _

theorem leaves_orFail {ε α : Type} (result : Except ε α) (failure : ε → Failure) :
    Leaves part (orFail result failure) :=
  leaves_liftExcept _

theorem leaves_ask {α : Type} (file : Text) (question : Store → Except RegistryError α) :
    Leaves part (ask file question) :=
  leaves_get.bind fun _ => (leaves_check _).bind fun _ => leaves_orFail _ _

theorem leaves_settings (file : Text) : Leaves part (settings file) := by
  refine leaves_get.bind fun trace => (leaves_check _).bind fun _ => ?_
  split
  · exact leaves_pure _
  · exact leaves_throw _

end Parts

/-! The requests, one by one: what can fail in them comes before what they do. -/

theorem leaves_list : Leaves effects list := by
  refine leaves_files.bind fun (file, _) => (leaves_ask _ _).bind fun specs => ?_
  split
  · exact leaves_say _
  · exact (leaves_say _).bind fun _ => leaves_say _

theorem leaves_showUsage (name : Text) : Leaves effects (showUsage name) :=
  leaves_files.bind fun _ => (leaves_ask _ _).bind fun _ => leaves_say _

theorem leaves_askDeclaration (template : Text) : Leaves effects (askDeclaration template) :=
  (leaves_say _).bind fun _ => leaves_throw _

theorem leavesIfFailing_keep (r : Registry) : LeavesIfFailing effects (keep r) :=
  .after leaves_get fun _ => .after (leaves_check _) fun _ =>
    (neverFails_modify _).leavesIfFailing

theorem leavesIfFailing_save (file : Text) (s : Specification) (force : Bool) :
    LeavesIfFailing effects (save file s force) :=
  .after (leaves_ask _ _) leavesIfFailing_keep

/-- An addition says nothing but what cannot fail once it has saved. -/
theorem leavesIfFailing_add (dryRun force : Bool) (declaration template : Text) :
    LeavesIfFailing effects (add dryRun force declaration template) := by
  refine .after (leaves_orFail _ _) fun s => ?_
  dsimp only
  split
  · exact (leaves_say _).leavesIfFailing
  · refine .after leaves_files fun (file, _) => ?_
    refine .before ((leavesIfFailing_save file s force).adaptExcept _) fun _ => ?_
    exact (neverFails_modify _).bind fun _ => neverFails_modify _

theorem leavesIfFailing_remove (confirmed : Bool) (name : Text) :
    LeavesIfFailing effects (remove confirmed name) := by
  refine .after leaves_files fun (file, settingsFile) => .after (leaves_settings _) fun settings =>
    .after (leaves_ask _ _) fun s => ?_
  dsimp only
  split
  · exact (leaves_throw _).leavesIfFailing
  · refine .after (leaves_ask _ _) fun (_, r) => ?_
    exact .before (leavesIfFailing_keep r) fun _ => neverFails_modify _

theorem leavesIfFailing_makeStore (file : Text) : LeavesIfFailing effects (makeStore file) := by
  refine .after leaves_get fun trace => ?_
  dsimp only
  split
  · exact (leaves_pure _).leavesIfFailing
  · split
    · exact (leaves_throw _).leavesIfFailing
    · exact (neverFails_modify _).leavesIfFailing

theorem leavesIfFailing_edit : LeavesIfFailing effects edit :=
  .after leaves_files fun (file, _) => .before (leavesIfFailing_makeStore file) fun _ =>
    (neverFails_modify _).bind fun _ => neverFails_modify _

theorem leavesIfFailing_makeSettings : LeavesIfFailing effects makeSettings := by
  refine .after leaves_get fun trace => ?_
  dsimp only
  split
  · exact (leaves_pure _).leavesIfFailing
  · exact .after (leaves_check _) fun _ => (neverFails_modify _).leavesIfFailing

theorem leavesIfFailing_configure : LeavesIfFailing effects configure :=
  .after leaves_files fun _ => .before leavesIfFailing_makeSettings fun _ => neverFails_modify _

theorem leavesIfFailing_execute (settingsFile command : Text) :
    LeavesIfFailing effects (execute settingsFile command) := by
  refine .after (leaves_settings _) fun settings => ?_
  dsimp only
  split
  · exact .after (leaves_say _) fun _ => (neverFails_modify _).leavesIfFailing
  · exact (neverFails_modify _).leavesIfFailing

theorem leavesIfFailing_invoke (dryRun : Bool) (words : List Text) :
    LeavesIfFailing effects (invoke dryRun words) := by
  refine .after leaves_files fun (file, settingsFile) => .after (leaves_ask _ _) fun found => ?_
  cases found with
  | none => exact (leaves_throw _).leavesIfFailing
  | some found =>
    refine .after (leaves_orFail _ _) fun binding => ?_
    cases binding with
    | help => exact (leaves_say _).leavesIfFailing
    | arguments a =>
      refine .after (leaves_orFail _ _) fun command => ?_
      split
      · exact (leaves_say _).leavesIfFailing
      · exact leavesIfFailing_execute _ _

/-- A request that cannot be carried out does nothing but print. -/
theorem leavesIfFailing_carryOut (dryRun : Bool) (request : Request) :
    LeavesIfFailing effects (carryOut dryRun request) := by
  cases request with
  | list => exact leaves_list.leavesIfFailing
  | add force declaration template =>
    cases declaration with
    | none => exact (leaves_askDeclaration template).leavesIfFailing
    | some declaration => exact leavesIfFailing_add dryRun force declaration template
  | showUsage name => exact (leaves_showUsage name).leavesIfFailing
  | remove confirmed name => exact leavesIfFailing_remove confirmed name
  | edit => exact leavesIfFailing_edit
  | configure => exact leavesIfFailing_configure
  | invoke words => exact leavesIfFailing_invoke dryRun words

/-! What the requests do that are carried out. -/

def onlyAsks (dryRun : Bool) : Request → Bool
  | .list => true
  | .showUsage _ => true
  | .invoke _ => true
  | .add _ declaration _ => dryRun || declaration.isNone
  | _ => false

/-- What carrying a request out does, apart from printing. -/
inductive Effect (before : Trace) (dryRun : Bool) : Request → Trace → Prop
  | asked {request : Request} {after : Trace} (hasks : onlyAsks dryRun request = true)
      (hafter : effects after = effects before) : Effect before dryRun request after
  | launched {words : List Text} {after : Trace} {l : Launch} (hshown : dryRun = false)
      (hline : (invoke true words).run before =
        .ok () { before with output := before.output ++ line l.line })
      (hafter : effects after = effects { before with launched := some l }) :
      Effect before dryRun (.invoke words) after
  | saved {force : Bool} {declaration template : Text} {after : Trace} {s : Specification}
      {store : Store} (hshown : dryRun = false)
      (hcompiled : Specification.ofText template declaration = .ok s)
      (hsave : (Store.save s force).run before.home.store = .ok () store)
      (hafter : effects after = effects { before with home.store := store }) :
      Effect before dryRun (.add force (some declaration) template) after
  | removed {confirmed : Bool} {name : Text} {after : Trace} {s : Specification} {store : Store}
      (hremove : (Store.remove name).run before.home.store = .ok s store)
      (hafter : effects after = effects { before with home.store := store }) :
      Effect before dryRun (.remove confirmed name) after
  | opened {after : Trace} {store : Store} {file : Text}
      (hstore : store = before.home.store ∨ before.home.store = none ∧ store = some [])
      (hafter : effects after =
        effects { before with home.store := store, opened := some file }) :
      Effect before dryRun .edit after
  | configured {after : Trace} {settings : Option Text}
      (hsettings : settings = before.home.settings ∨
        before.home.settings = none ∧ settings = some (Settings.write {}))
      (hafter : effects after = effects { before with home.settings := settings }) :
      Effect before dryRun .configure after

section Effect

variable {before after : Trace} {dryRun : Bool}

theorem orFail_eq_ok {ε α : Type} {result : Except ε α} {failure : ε → Failure} {a : α}
    (h : (orFail result failure).run before = .ok a after) : result = .ok a ∧ before = after := by
  obtain ⟨hresult, rfl⟩ := run_liftExcept_eq_ok.1 h
  exact ⟨mapError_eq_ok.1 hresult, rfl⟩

theorem run_orFail_ok_bind {ε α β : Type} (a : α) (failure : ε → Failure) (f : α → Action β)
    (trace : Trace) : (orFail (.ok a) failure >>= f).run trace = (f a).run trace :=
  rfl

/-- An answer from the registry's file is the answer of what the file holds. -/
theorem ask_eq_ok {α : Type} {file : Text} {question : Store → Except RegistryError α} {a : α}
    (h : (ask file question).run before = .ok a after) :
    question before.home.store = .ok a ∧ before = after := by
  rw [ask, run_get_bind] at h
  obtain ⟨_, checked, hcheck, h⟩ := run_bind_eq_ok.1 h
  obtain rfl : before = checked := (leaves_check _).eq_of_ok hcheck
  exact orFail_eq_ok h

theorem keep_eq_ok {r : Registry} (h : (keep r).run before = .ok () after) :
    after = { before with home.store := some (Registry.Format.write r) } := by
  rw [keep, run_get_bind] at h
  obtain ⟨_, checked, hcheck, h⟩ := run_bind_eq_ok.1 h
  obtain rfl : before = checked := (leaves_check _).eq_of_ok hcheck
  exact (EStateM.Result.ok.inj h).2.symm

/-- Saving is what it is for the store alone. -/
theorem save_eq_ok {file : Text} {s : Specification} {force : Bool}
    (h : (save file s force).run before = .ok () after) :
    ∃ store, (Store.save s force).run before.home.store = .ok () store ∧
      after = { before with home.store := store } := by
  obtain ⟨r, asked, hask, h⟩ := run_bind_eq_ok.1 h
  obtain ⟨hsaving, rfl⟩ := ask_eq_ok hask
  refine ⟨some (Registry.Format.write r), ?_, keep_eq_ok h⟩
  rw [Store.run_save, hsaving]

theorem effect_of_add {force : Bool} {declaration template : Text}
    (h : (add dryRun force declaration template).run before = .ok () after) :
    Effect before dryRun (.add force (some declaration) template) after := by
  obtain ⟨s, compiled, hs, h⟩ := run_bind_eq_ok.1 h
  obtain ⟨hcompiled, rfl⟩ := orFail_eq_ok hs
  split at h
  · next hdry => exact .asked (by simp [onlyAsks, hdry]) ((leaves_say _).of_ok h)
  · next hrun =>
    obtain ⟨⟨file, _⟩, placed, hfiles, h⟩ := run_bind_eq_ok.1 h
    obtain rfl := leaves_files.eq_of_ok hfiles
    obtain ⟨_, saved, hsave, h⟩ := run_bind_eq_ok.1 h
    obtain ⟨store, hstore, rfl⟩ := save_eq_ok (run_adaptExcept_eq_ok.1 hsave)
    refine .saved (by simpa using hrun) hcompiled hstore ?_
    exact ((leaves_say _).bind fun _ => leaves_say _).of_ok h

theorem effect_of_remove {confirmed : Bool} {name : Text}
    (h : (remove confirmed name).run before = .ok () after) :
    Effect before dryRun (.remove confirmed name) after := by
  obtain ⟨⟨file, settingsFile⟩, placed, hfiles, h⟩ := run_bind_eq_ok.1 h
  obtain rfl := leaves_files.eq_of_ok hfiles
  obtain ⟨settings, read, hsettings, h⟩ := run_bind_eq_ok.1 h
  obtain rfl := (leaves_settings _).eq_of_ok hsettings
  obtain ⟨s, found, hfound, h⟩ := run_bind_eq_ok.1 h
  obtain rfl := (leaves_ask _ _).eq_of_ok hfound
  split at h
  · exact absurd h nofun
  · obtain ⟨⟨s', r⟩, asked, hask, h⟩ := run_bind_eq_ok.1 h
    obtain ⟨hremoving, rfl⟩ := ask_eq_ok hask
    obtain ⟨_, kept, hkeep, h⟩ := run_bind_eq_ok.1 h
    obtain rfl := keep_eq_ok hkeep
    have hremove : (Store.remove name).run before.home.store =
        .ok s' (some (Registry.Format.write r)) := by
      rw [Store.run_remove, hremoving]
    exact .removed hremove ((leaves_say _).of_ok h)

/-- The file of specifications is made where nothing is in its place. -/
theorem makeStore_eq_ok {file : Text} (h : (makeStore file).run before = .ok () after) :
    ∃ store, (store = before.home.store ∨ before.home.store = none ∧ store = some []) ∧
      after = { before with home.store := store } := by
  rw [makeStore, run_get_bind] at h
  dsimp only at h
  split at h
  · obtain rfl := (EStateM.Result.ok.inj h).2
    exact ⟨_, .inl rfl, rfl⟩
  · next hmissing =>
    split at h
    · exact absurd h nofun
    · obtain rfl := (EStateM.Result.ok.inj h).2
      rw [Bool.or_eq_true, not_or] at hmissing
      exact ⟨_, .inr ⟨by simpa using hmissing.1, rfl⟩, rfl⟩

theorem effect_of_edit (h : edit.run before = .ok () after) :
    Effect before dryRun .edit after := by
  obtain ⟨⟨file, _⟩, placed, hfiles, h⟩ := run_bind_eq_ok.1 h
  obtain rfl := leaves_files.eq_of_ok hfiles
  obtain ⟨_, made, hmade, h⟩ := run_bind_eq_ok.1 h
  obtain ⟨store, hstore, rfl⟩ := makeStore_eq_ok hmade
  obtain ⟨_, said, hsaid, h⟩ := run_bind_eq_ok.1 h
  obtain rfl := (EStateM.Result.ok.inj hsaid).2
  obtain rfl := (EStateM.Result.ok.inj h).2
  exact .opened hstore rfl

theorem makeSettings_eq_ok (h : makeSettings.run before = .ok () after) :
    ∃ settings, (settings = before.home.settings ∨
        before.home.settings = none ∧ settings = some (Settings.write {})) ∧
      after = { before with home.settings := settings } := by
  rw [makeSettings, run_get_bind] at h
  dsimp only at h
  split at h
  · obtain rfl := (EStateM.Result.ok.inj h).2
    exact ⟨_, .inl rfl, rfl⟩
  · next hmissing =>
    obtain ⟨_, checked, hcheck, h⟩ := run_bind_eq_ok.1 h
    obtain rfl := (leaves_check _).eq_of_ok hcheck
    obtain rfl := (EStateM.Result.ok.inj h).2
    rw [Bool.or_eq_true, not_or] at hmissing
    exact ⟨_, .inr ⟨by simpa using hmissing.1, rfl⟩, rfl⟩

theorem effect_of_configure (h : configure.run before = .ok () after) :
    Effect before dryRun .configure after := by
  obtain ⟨_, placed, hfiles, h⟩ := run_bind_eq_ok.1 h
  obtain rfl := leaves_files.eq_of_ok hfiles
  obtain ⟨_, made, hmade, h⟩ := run_bind_eq_ok.1 h
  obtain ⟨settings, hsettings, rfl⟩ := makeSettings_eq_ok hmade
  exact .configured hsettings ((leaves_say _).of_ok h)

theorem execute_eq_ok {settingsFile command : Text}
    (h : (execute settingsFile command).run before = .ok () after) :
    ∃ l, l.line = command ∧ effects after = effects { before with launched := some l } := by
  obtain ⟨settings, read, hsettings, h⟩ := run_bind_eq_ok.1 h
  obtain rfl := (leaves_settings _).eq_of_ok hsettings
  split at h
  · obtain ⟨_, said, hsaid, h⟩ := run_bind_eq_ok.1 h
    obtain rfl := (EStateM.Result.ok.inj hsaid).2
    obtain rfl := (EStateM.Result.ok.inj h).2
    exact ⟨_, rfl, rfl⟩
  · obtain rfl := (EStateM.Result.ok.inj h).2
    exact ⟨_, rfl, rfl⟩

/-- What a dry run prints is the command line that is run without it. -/
theorem effect_of_invoke {words : List Text}
    (h : (invoke dryRun words).run before = .ok () after) :
    Effect before dryRun (.invoke words) after := by
  obtain ⟨⟨file, settingsFile⟩, placed, hfiles, h⟩ := run_bind_eq_ok.1 h
  obtain rfl := leaves_files.eq_of_ok hfiles
  obtain ⟨found, asked, hask, h⟩ := run_bind_eq_ok.1 h
  obtain rfl := (leaves_ask _ _).eq_of_ok hask
  cases found with
  | none => exact absurd h nofun
  | some found =>
    obtain ⟨binding, bound, hbind, h⟩ := run_bind_eq_ok.1 h
    obtain ⟨_, rfl⟩ := orFail_eq_ok hbind
    cases binding with
    | help => exact .asked rfl ((leaves_say _).of_ok h)
    | arguments a =>
      obtain ⟨command, built, hcommand, h⟩ := run_bind_eq_ok.1 h
      obtain ⟨_, rfl⟩ := orFail_eq_ok hcommand
      split at h
      · exact .asked rfl ((leaves_say _).of_ok h)
      · next hrun =>
        obtain ⟨l, rfl, hafter⟩ := execute_eq_ok h
        refine .launched (by simpa using hrun) ?_ hafter
        refine run_bind_eq_ok.2 ⟨_, _, hfiles, run_bind_eq_ok.2 ⟨_, _, hask, ?_⟩⟩
        exact run_bind_eq_ok.2 ⟨_, _, hbind, run_bind_eq_ok.2 ⟨_, _, hcommand, rfl⟩⟩

/-- A request that is carried out has one of these effects. -/
theorem effect_of_carryOut {request : Request}
    (h : (carryOut dryRun request).run before = .ok () after) :
    Effect before dryRun request after := by
  cases request with
  | list => exact .asked rfl (leaves_list.of_ok h)
  | add force declaration template =>
    cases declaration with
    | none => exact .asked (by simp [onlyAsks]) ((leaves_askDeclaration template).of_ok h)
    | some declaration => exact effect_of_add h
  | showUsage name => exact .asked rfl ((leaves_showUsage name).of_ok h)
  | remove confirmed name => exact effect_of_remove h
  | edit => exact effect_of_edit h
  | configure => exact effect_of_configure h
  | invoke words => exact effect_of_invoke h

end Effect

/-! Whole runs. -/

variable {home : Home} {dryRun : Bool} {words rest : List Text} {request : Request}

/-- A run carries out what its words ask for. -/
theorem run_of_call (hread : CommandLine.read words = .call dryRun rest)
    (hrequest : Request.read rest = .ok request) :
    run home words = (carryOut dryRun request).outcome home := by
  rw [run, hread]
  dsimp only
  rw [call, hrequest]
  rfl

/-- What is asked for is carried out and the run ends well, or the run fails and does nothing
but print. -/
theorem effect_of_call (hread : CommandLine.read words = .call dryRun rest)
    (hrequest : Request.read rest = .ok request) :
    Effect { home } dryRun request (run home words).toTrace ∧ (run home words).ending = .done ∨
      effects (run home words).toTrace = effects { home } ∧
        ∃ failure, (run home words).ending = .failed failure := by
  rw [run_of_call hread hrequest, Action.outcome]
  cases hcarried : (carryOut dryRun request).run { home } with
  | ok _ after => exact Or.inl ⟨effect_of_carryOut hcarried, rfl⟩
  | error failure after =>
    exact Or.inr ⟨leavesIfFailing_carryOut dryRun request _ _ _ hcarried, failure, rfl⟩

/-- Words that ask for nothing, or for nothing that is known, are only answered. -/
theorem effects_of_not_call (h : ∀ dryRun rest request, CommandLine.read words = .call dryRun rest →
    Request.read rest ≠ .ok request) : effects (run home words).toTrace = effects { home } := by
  unfold run
  cases hread : CommandLine.read words with
  | help => rfl
  | version => rfl
  | misuse word => rfl
  | call dryRun rest =>
    cases hrequest : Request.read rest with
    | error failure =>
      dsimp only
      rw [call, hrequest]
      rfl
    | ok request => exact absurd hrequest (h dryRun rest request hread)

/-- A run carries the request of its words out and ends well, or does nothing but print. -/
theorem effect_of_run (home : Home) (words : List Text) :
    (∃ dryRun rest request, CommandLine.read words = .call dryRun rest ∧
      Request.read rest = .ok request ∧
      Effect { home } dryRun request (run home words).toTrace ∧ (run home words).ending = .done) ∨
    effects (run home words).toTrace = effects { home } := by
  by_cases hcall : ∃ dryRun rest request, CommandLine.read words = .call dryRun rest ∧
      Request.read rest = .ok request
  · obtain ⟨dryRun, rest, request, hread, hrequest⟩ := hcall
    rcases effect_of_call hread hrequest with hdone | ⟨hnothing, _⟩
    · exact Or.inl ⟨dryRun, rest, request, hread, hrequest, hdone⟩
    · exact Or.inr hnothing
  · refine Or.inr (effects_of_not_call fun dryRun rest request hread hrequest => ?_)
    exact hcall ⟨dryRun, rest, request, hread, hrequest⟩

theorem home_of_effects_eq {after before : Trace} (h : effects after = effects before) :
    after.home = before.home :=
  (Trace.mk.inj h).1

theorem launched_of_effects_eq {after before : Trace} (h : effects after = effects before) :
    after.launched = before.launched :=
  (Trace.mk.inj h).2.2.2

/-- A run that does more than print ends well. -/
theorem effects_eq_or_done (home : Home) (words : List Text) :
    effects (run home words).toTrace = effects { home } ∨ (run home words).ending = .done := by
  rcases effect_of_run home words with ⟨_, _, _, _, _, _, hdone⟩ | hnothing
  · exact Or.inr hdone
  · exact Or.inl hnothing

/-- A run that fails leaves all files as they were. -/
theorem home_of_failed {failure : Failure}
    (h : (run home words).ending = .failed failure) : (run home words).home = home := by
  rcases effects_eq_or_done home words with hnothing | hdone
  · exact home_of_effects_eq hnothing
  · exact absurd (h.symm.trans hdone) nofun

/-- A run that calls a program changes no file, ends well, and is not a dry run; a dry run would
have printed the command line. -/
theorem of_launched {l : Launch} (h : (run home words).launched = some l) :
    (run home words).home = home ∧ (run home words).ending = .done ∧
      ∃ rest called, CommandLine.read words = .call false rest ∧
        Request.read rest = .ok (.invoke called) ∧
        (invoke true called).run { home } = .ok () { home, output := line l.line } := by
  rcases effect_of_run home words with
    ⟨dryRun, rest, _, hread, hrequest, heffect, hdone⟩ | hnothing
  · generalize (run home words).toTrace = after at h heffect ⊢
    -- all but a call leave it open what is started
    have hnone : ∀ {before : Trace}, before.launched = none →
        effects after ≠ effects before := by
      intro before hbefore hafter
      exact absurd ((launched_of_effects_eq hafter).symm.trans h) (by simp [hbefore])
    cases heffect with
    | launched hshown hline hafter =>
      obtain rfl := Option.some.inj (h.symm.trans (launched_of_effects_eq hafter))
      exact ⟨home_of_effects_eq hafter, hdone, rest, _, hshown ▸ hread, hrequest, hline⟩
    | asked _ hafter => exact absurd hafter (hnone rfl)
    | saved _ _ _ hafter => exact absurd hafter (hnone rfl)
    | removed _ hafter => exact absurd hafter (hnone rfl)
    | opened _ hafter => exact absurd hafter (hnone rfl)
    | configured _ hafter => exact absurd hafter (hnone rfl)
  · exact absurd (h.symm.trans (launched_of_effects_eq hnothing)) nofun

/-! Dry runs. -/

/-- What a run starts, the same words show behind the option of the dry run. -/
theorem run_shown_of_launched {l : Launch} (hread : CommandLine.read words = .call false rest)
    (h : (run home words).launched = some l) :
    run home ("-n".toList :: "--".toList :: rest) = { home, output := line l.line } := by
  obtain ⟨_, _, rest', called, hread', hrequest, hline⟩ := of_launched h
  obtain ⟨_, rfl⟩ := CommandLine.call.inj (hread.symm.trans hread')
  have hshown : CommandLine.read ("-n".toList :: "--".toList :: rest) = .call true rest := rfl
  rw [run_of_call hshown hrequest, carryOut, Action.outcome, hline]

/-- What is not to be carried out starts no program. -/
theorem launched_eq_none (hdry : ∀ rest, CommandLine.read words ≠ .call false rest) :
    (run home words).launched = none := by
  cases hl : (run home words).launched with
  | none => rfl
  | some l =>
    obtain ⟨_, _, rest, _, hread, _⟩ := of_launched hl
    exact absurd hread (hdry rest)

/-- A request that only asks is answered without a change to the files. -/
theorem home_of_onlyAsks
    (hasks : ∀ dryRun rest request, CommandLine.read words = .call dryRun rest →
      Request.read rest = .ok request → onlyAsks dryRun request = true) :
    (run home words).home = home := by
  rcases effect_of_run home words with
    ⟨dryRun, rest, request, hread, hrequest, heffect, _⟩ | hnothing
  · have hrequest := hasks dryRun rest request hread hrequest
    generalize (run home words).toTrace = after at heffect
    cases heffect with
    | asked _ hafter => exact home_of_effects_eq hafter
    | launched _ _ hafter => exact home_of_effects_eq hafter
    | saved hshown => exact absurd hrequest (by simp [onlyAsks, hshown])
    | _ => exact absurd hrequest nofun
  · exact home_of_effects_eq hnothing

/-- A request that does more than ask even in a dry run is carried out in it as in any other. -/
theorem carryOut_of_not_onlyAsks {request : Request} (h : onlyAsks true request = false) :
    carryOut true request = carryOut false request := by
  cases request with
  | remove => rfl
  | edit => rfl
  | configure => rfl
  | list => exact absurd h nofun
  | showUsage => exact absurd h nofun
  | invoke => exact absurd h nofun
  | add => exact absurd h (by simp [onlyAsks])

theorem needsFiles_of_not_onlyAsks {request : Request} (h : onlyAsks true request = false) :
    needsFiles true request = needsFiles false request := by
  cases request with
  | add => exact absurd h (by simp [onlyAsks])
  | _ => rfl

theorem usesFiles_of_call (hread : CommandLine.read words = .call dryRun rest)
    (hrequest : Request.read rest = .ok request) :
    usesFiles words = needsFiles dryRun request := by
  rw [usesFiles, hread]
  dsimp only
  rw [hrequest]
  rfl

/-- Words behind the end of the options are carried out. -/
theorem read_terminator (rest : List Text) :
    CommandLine.read ("--".toList :: rest) = .call false rest := rfl

theorem run_eq_run_terminator (hread : CommandLine.read words = .call true rest)
    (hrequest : Request.read rest = .ok request) (h : onlyAsks true request = false) :
    run home words = run home ("--".toList :: rest) := by
  rw [run_of_call hread hrequest, run_of_call (read_terminator rest) hrequest,
    carryOut_of_not_onlyAsks h]

theorem usesFiles_eq_usesFiles_terminator (hread : CommandLine.read words = .call true rest)
    (hrequest : Request.read rest = .ok request) (h : onlyAsks true request = false) :
    usesFiles words = usesFiles ("--".toList :: rest) := by
  rw [usesFiles_of_call hread hrequest, usesFiles_of_call (read_terminator rest) hrequest,
    needsFiles_of_not_onlyAsks h]

end TypedCommand.Program
