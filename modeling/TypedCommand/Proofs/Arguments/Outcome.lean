import TypedCommand.Proofs.Arguments.Division

/-!
How the reading of a call ends. It stops at a word that no later word can mend, or it
reaches the end of the words: then every word has a group, or the last one is a flag whose
value is missing, and whatever word is added becomes that value.
-/

namespace TypedCommand.Arguments

open TypedCommand.Group Specification

variable {s : Specification} {words : List Text} {word : Text}

/-- A reading that has stopped is not changed by the words that follow. -/
theorem foldlM_append_of_error {e : Stop} {p : Progress} (h : words.foldlM (take s) p = .error e)
    (more : List Text) : (words ++ more).foldlM (take s) p = .error e := by
  rw [List.foldlM_append, h]
  rfl

/-- A word that cannot be read is an option that nothing declares or a word too many. -/
theorem failure_of_take {p : Progress} {e : InvocationError}
    (h : take s p word = .error (.failure e)) :
    (∃ flag, e = .unknownOption flag) ∨ ∃ word, e = .unexpectedArgument word := by
  have hreads := reads_take s p word
  rw [h] at hreads
  cases hreads with
  | unknownOption => exact Or.inl ⟨_, rfl⟩
  | unexpectedArgument => exact Or.inr ⟨_, rfl⟩

theorem failure_of_foldlM {p : Progress} {e : InvocationError}
    (h : words.foldlM (take s) p = .error (.failure e)) :
    (∃ flag, e = .unknownOption flag) ∨ ∃ word, e = .unexpectedArgument word := by
  induction words generalizing p with
  | nil => simp [pure, Except.pure] at h
  | cons word words ih =>
    rw [List.foldlM_cons] at h
    cases ht : take s p word with
    | error stop =>
      rw [ht] at h
      obtain rfl := Except.error.inj h
      exact failure_of_take ht
    | ok q =>
      rw [ht] at h
      exact ih h

/-- A flag awaits its value directly after it has been read. -/
theorem awaiting_of_take {p p' : Progress} (h : take s p word = .ok p') {flag : Text}
    {option : Parameter} (hawaiting : p'.awaiting = some (flag, option)) :
    p.awaiting = none ∧ flag = word ∧ p' = { p with awaiting := some (word, option) } := by
  have hreads := reads_take s p word
  rw [h] at hreads
  cases hreads with
  | flag hnone =>
    obtain ⟨rfl, rfl⟩ := Prod.mk.inj (Option.some.inj hawaiting)
    exact ⟨hnone, rfl, rfl⟩
  | value => simp at hawaiting
  | terminator hnone | inline hnone | switch hnone | positional hnone | leftover hnone =>
    simp [hnone] at hawaiting

theorem foldlM_concat_eq_ok {p p' : Progress} :
    (words ++ [word]).foldlM (take s) p = .ok p' ↔
      ∃ q, words.foldlM (take s) p = .ok q ∧ take s q word = .ok p' := by
  rw [List.foldlM_append, bind_eq_ok]
  refine exists_congr fun q => and_congr_right fun _ => ?_
  rw [List.foldlM_cons, bind_eq_ok]
  exact ⟨fun ⟨r, hr, heq⟩ => Except.ok.inj heq ▸ hr, fun hr => ⟨p', hr, rfl⟩⟩

/-- A flag that still awaits its value is the last word, and all words before it have
been shared out. -/
theorem awaiting_of_foldlM {p : Progress} {flag : Text} {option : Parameter}
    (h : words.foldlM (take s) { waiting := s.positionals } = .ok p)
    (hawaiting : p.awaiting = some (flag, option)) :
    ∃ front q, words = front ++ [flag] ∧
      front.foldlM (take s) { waiting := s.positionals } = .ok q ∧ q.awaiting = none ∧
      p = { q with awaiting := some (flag, option) } := by
  rcases List.eq_nil_or_concat words with rfl | ⟨front, word, rfl⟩
  · rw [← Except.ok.inj h] at hawaiting
    simp at hawaiting
  · rw [List.concat_eq_append] at h ⊢
    obtain ⟨q, hq, hlast⟩ := foldlM_concat_eq_ok.1 h
    obtain ⟨hnone, rfl, hp⟩ := awaiting_of_take hlast hawaiting
    exact ⟨front, q, rfl, hq, hnone, hp⟩

theorem bind_eq_arguments {a : Arguments} : bind s words = .ok (.arguments a) ↔
    ∃ p, words.foldlM (take s) { waiting := s.positionals } = .ok p ∧ p.awaiting = none ∧
      p.given = a := by
  unfold bind
  split
  · next h => simp [h]
  · next h => simp [h]
  · next p h =>
    split
    · next hawaiting => simp [h, hawaiting]
    · next hawaiting => simp [h, hawaiting]

theorem bind_eq_help : bind s words = .ok .help ↔
    words.foldlM (take s) { waiting := s.positionals } = .error .help := by
  unfold bind
  split
  · next h => simp [h]
  · next h => simp [h]
  · next h =>
    split <;> simp [h]

theorem bind_eq_error {e : InvocationError} : bind s words = .error e ↔
    words.foldlM (take s) { waiting := s.positionals } = .error (.failure e) ∨
      ∃ p flag option, words.foldlM (take s) { waiting := s.positionals } = .ok p ∧
        p.awaiting = some (flag, option) ∧ e = .missingOptionValue flag := by
  unfold bind
  split
  · next h => simp [h]
  · next h => simp [h]
  · next p h =>
    split
    · next hawaiting => simp [h, hawaiting, eq_comm]
    · next hawaiting => simp [h, hawaiting]

/-- What one call ends in: arguments in which each word has its group, a refusal that no
further words change, or a flag that any further word gives its value to. -/
theorem bind_divides {template declaration : Text} (h : ofText template declaration = .ok s)
    (words : List Text) :
    (∀ a, bind s words = .ok (.arguments a) → ∃ groups, Division s words a groups) ∧
      (bind s words = .ok .help → ∀ more, bind s (words ++ more) = .ok .help) ∧
      ∀ e, bind s words = .error e →
        (((∃ flag, e = .unknownOption flag) ∨ ∃ word, e = .unexpectedArgument word) ∧
          ∀ more, bind s (words ++ more) = .error e) ∨
        ∃ front flag option a groups, e = .missingOptionValue flag ∧ words = front ++ [flag] ∧
          Declares s flag option ∧ option.kind ≠ .bool ∧ bind s front = .ok (.arguments a) ∧
          Division s front a groups ∧ (∀ g ∈ groups, g.IsBefore s) ∧
          ∀ value, bind s (words ++ [value]) = .ok (.arguments (a.give option value)) := by
  obtain ⟨hforms, hdistinct, _⟩ := parameters_of_ofText h
  refine ⟨fun a ha => ?_, fun hhelp more => ?_, fun e he => ?_⟩
  · obtain ⟨p, hp, hawaiting, rfl⟩ := bind_eq_arguments.1 ha
    obtain ⟨groups, hreached⟩ := reached_of_foldlM hforms (reached_start s) hp
    exact ⟨groups, hreached.division hdistinct.names hawaiting⟩
  · exact bind_eq_help.2 (foldlM_append_of_error (bind_eq_help.1 hhelp) more)
  · rcases bind_eq_error.1 he with hstop | ⟨p, flag, option, hp, hawaiting, rfl⟩
    · refine Or.inl ⟨failure_of_foldlM hstop, fun more => ?_⟩
      exact bind_eq_error.2 (Or.inl (foldlM_append_of_error hstop more))
    · -- the flag is the last word, so the words before it are bound on their own
      right
      obtain ⟨groups, hreached⟩ := reached_of_foldlM hforms (reached_start s) hp
      obtain ⟨hdeclares, hkind, _, hterminated⟩ := hreached.awaiting flag option hawaiting
      obtain ⟨front, q, rfl, hq, hnone, rfl⟩ := awaiting_of_foldlM hp hawaiting
      obtain ⟨before, hfront⟩ := reached_of_foldlM hforms (reached_start s) hq
      have horder : Ordered s q.terminated before := hfront.order
      rw [show q.terminated = false from hterminated] at horder
      refine ⟨front, flag, option, q.given, before, rfl, rfl, hdeclares, hkind,
        bind_eq_arguments.2 ⟨q, hq, hnone, rfl⟩, hfront.division hdistinct.names hnone, horder,
        fun value => ?_⟩
      exact bind_eq_arguments.2 ⟨_, foldlM_concat_eq_ok.2 ⟨_, hp, rfl⟩, rfl, rfl⟩

set_option maxRecDepth 4000 in
/-- A value that looks like a flag, a number below zero, and a flag behind the
terminator. -/
theorem bind_divides_mixed : ∃ s a groups,
    ofText "cp SRC REST" "just cp SRC[src] -m[:str] --all[:bool] REST[...]" = .ok s ∧
      bind s ["-m", "--", "-1", "--all", "x", "--", "-m"] = .ok (.arguments a) ∧
      Division s ["-m", "--", "-1", "--all", "x", "--", "-m"] a groups := by
  have h : ofText "cp SRC REST" "just cp SRC[src] -m[:str] --all[:bool] REST[...]" = .ok {
        commandName := "cp"
        template := "cp SRC REST"
        parameters := [
          ⟨"src", "SRC", .str, none, none, .positional⟩,
          ⟨"m", "-m", .str, none, none, .forwarded ⟨some "-m", none⟩⟩,
          ⟨"all", "--all", .bool, some (.bool false), none, .forwarded ⟨none, some "--all"⟩⟩,
          ⟨"rest", "REST", .str, none, none, .variadic⟩]
        plan := [.replace "SRC" "src", .appendFlag "-m" "m", .appendFlag "--all" "all",
          .captureRemaining (some "REST") "rest"] } := by
    decide +kernel
  obtain ⟨groups, hgroups⟩ := (bind_divides h ["-m", "--", "-1", "--all", "x", "--", "-m"]).1 _ rfl
  exact ⟨_, _, groups, h, rfl, hgroups⟩

end TypedCommand.Arguments
