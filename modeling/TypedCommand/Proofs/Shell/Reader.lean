import Mathlib.Data.List.Basic
import TypedCommand.Proofs.Shell.Words
import TypedCommand.Shell.Reader

/-!
The grammar of command lines reads a line of quoted words back. A step of the reader is
described by the text that it takes and what it gives, whatever stands behind; such steps
are put together to parts of words, words and tokens. With its words the line is one simple
command, unless the first word is bare and means something else there.
-/

namespace TypedCommand.Shell

/-- A word ends in front of this text. -/
def EndsWord (behind : Text) : Prop := ∀ c, behind.head? = some c → c = ' '

/-- No blank, no comment and no continued line begins here. -/
def BeginsToken (behind : Text) : Prop := ∀ c ∈ ['\\', ' ', '\t', '#'], behind.head? ≠ some c

/-- The word that a quoted text is read as. -/
def Word.ofQuoted (word : Text) : Word :=
  if !word.isEmpty && word.all isSafe then .text false word .done else .text true word .done

def enclosed (word : Text) : Text := '\'' :: word.flatMap quoteChar ++ ['\'']

section Quoted

variable {word behind : Text} {c : Char}

theorem quote_cases (word : Text) :
    word ≠ [] ∧ (∀ c ∈ word, isSafe c = true) ∧ quote word = word ∧
        Word.ofQuoted word = .text false word .done ∨
      quote word = enclosed word ∧ Word.ofQuoted word = .text true word .done := by
  unfold quote Word.ofQuoted
  split
  · next hbare =>
    rw [Bool.and_eq_true, List.all_eq_true] at hbare
    exact .inl ⟨by simpa using hbare.1, hbare.2, rfl, rfl⟩
  · exact .inr ⟨rfl, rfl⟩

theorem flatMap_quoteChar (h : '\'' ∉ word) : word.flatMap quoteChar = word := by
  have hchars : ∀ c ∈ word, quoteChar c = [c] := by
    intro c hc
    refine if_neg ?_
    rintro rfl
    exact h hc
  rw [List.flatMap_congr hchars, List.flatMap_singleton']

/-- An apostrophe closes the stretch in front of it, and stands between quotation marks. -/
theorem enclosed_append {front later : Text} (h : '\'' ∉ front) :
    enclosed (front ++ '\'' :: later) =
      ('\'' :: front ++ ['\'']) ++ (['"', '\'', '"'] ++ enclosed later) := by
  simp [enclosed, flatMap_quoteChar h, quoteChar]

/-- The first character of a quoted word is an apostrophe, or it is safe, and then so are
the others. -/
theorem quote_eq_cons (word : Text) : ∃ c rest, quote word = c :: rest ∧
    (isSafe c = true ∧ (∀ d ∈ rest, isSafe d = true) ∨ c = '\'') := by
  rcases quote_cases word with ⟨hne, hsafe, hquote, _⟩ | ⟨hquote, _⟩
  · obtain ⟨c, rest, rfl⟩ := List.exists_cons_of_ne_nil hne
    refine ⟨c, rest, hquote, .inl ⟨hsafe c List.mem_cons_self, fun d hd => ?_⟩⟩
    exact hsafe d (List.mem_cons_of_mem c hd)
  · exact ⟨'\'', _, hquote, .inr rfl⟩

theorem head?_quote (h : (quote word ++ behind).head? = some c) : isSafe c = true ∨ c = '\'' := by
  obtain ⟨d, rest, hquote, hd⟩ := quote_eq_cons word
  rw [hquote] at h
  obtain rfl := Option.some.inj h
  exact hd.imp_left And.left

theorem head?_quote_ne (hc : (!isSafe c && c != '\'') = true) :
    (quote word ++ behind).head? ≠ some c := by
  rw [Bool.and_eq_true, Bool.not_eq_true', bne_iff_ne] at hc
  intro h
  rcases head?_quote h with hsafe | heq
  · exact absurd hsafe (ne_true_of_eq_false hc.1)
  · exact hc.2 heq

theorem beginsToken_quote (word behind : Text) : BeginsToken (quote word ++ behind) := by
  have hmarks : ['\\', ' ', '\t', '#'].all (fun c => !isSafe c && c != '\'') = true := by decide
  exact fun c hc => head?_quote_ne (List.all_eq_true.1 hmarks c hc)

theorem isOrdinary_of_isSafe (h : isSafe c = true) : Place.plain.isOrdinary c = true := by
  have hmarks : (['\\', '$', '`', '\'', '"'] ++ Place.delimiters).all (!isSafe ·) = true := by
    decide
  have hne : ∀ d ∈ ['\\', '$', '`', '\'', '"'] ++ Place.delimiters, c ≠ d := by
    intro d hd
    have hmark := List.all_eq_true.1 hmarks d hd
    rw [Bool.not_eq_true'] at hmark
    exact isSafe_ne h hmark
  simp only [Place.delimiters, List.cons_append, List.nil_append, List.forall_mem_cons] at hne
  simp [Place.isOrdinary, Place.delimiters, hne]

theorem EndsWord.isOrdinary (h : EndsWord behind) (hc : behind.head? = some c) :
    Place.plain.isOrdinary c = false := by
  rw [h c hc]
  rfl

end Quoted

namespace Read

variable {α β : Type}

/-- From a text with `t` in front of `behind` the step takes `t` and gives `a`. -/
def Takes (x : Read α) (t behind : Text) (a : α) : Prop :=
  ∀ r : Reader, r.rest = t ++ behind → r.rest.length ≤ r.size →
    x.run r = .ok (a, { r with rest := behind, line := r.line + t.count '\n' })

theorem run_bind_of_ok {x : Read α} {f : α → Read β} {a : α} {r r' : Reader}
    (h : x.run r = .ok (a, r')) : (x >>= f).run r = (f a).run r' := by
  rw [StateT.run_bind, h]
  rfl

section Steps

variable {x : Read α} {t u behind : Text} {a : α} {b : β}

theorem Takes.bind {f : α → Read β} (hx : Takes x t (u ++ behind) a)
    (hf : Takes (f a) u behind b) : Takes (x >>= f) (t ++ u) behind b := by
  intro r hr hsize
  rw [List.append_assoc] at hr
  have hsize' : (u ++ behind).length ≤ r.size := by
    rw [hr, List.length_append] at hsize
    omega
  rw [run_bind_of_ok (hx r hr hsize), hf _ rfl hsize', List.count_append, Nat.add_assoc]

theorem takes_pure (a : α) (behind : Text) : Takes (pure a) [] behind a := by
  rintro r rfl _
  rfl

theorem Takes.map (hx : Takes x t behind a) (g : α → β) :
    Takes (do return g (← x)) t behind (g a) := by
  rw [← List.append_nil t]
  exact Takes.bind (u := []) hx (takes_pure (g a) behind)

theorem Takes.get {f : Reader → Read β}
    (hf : ∀ r : Reader, r.rest = t ++ behind → r.rest.length ≤ r.size →
      Takes (f r) t behind b) : Takes (get >>= f) t behind b :=
  fun r hr hsize => hf r hr hsize r hr hsize

/-- Where no line is continued the text is as it stands. -/
theorem Takes.text {f : Text → Read β} (h : (t ++ behind).head? ≠ some '\\')
    (hf : Takes (f (t ++ behind)) t behind b) : Takes (text >>= f) t behind b := by
  intro r hr hsize
  have hdrop : dropContinuations 0 r.rest = (r.rest, 0) := by
    rw [← hr] at h
    unfold dropContinuations
    split
    · next hcontinued => exact absurd (congrArg List.head? hcontinued) h
    · rfl
  have hstep : Read.text.run r = .ok (r.rest, r) := by
    show (let p := dropContinuations 0 r.rest
      Except.ok (p.1, { r with rest := p.1, line := r.line + p.2 })) = _
    rw [hdrop]
    rfl
  rw [run_bind_of_ok hstep, hr]
  exact hf r hr hsize

theorem takes_skip (h : '\n' ∉ t) : Takes (skip t.length) t behind () := by
  intro r hr _
  have hdrop : r.rest.drop t.length = behind := by rw [hr, List.drop_left]
  show Except.ok ((), { r with rest := r.rest.drop t.length }) = _
  rw [hdrop, List.count_eq_zero.2 h]
  rfl

theorem takes_counted (a : α) : Takes (do skip t.length; countLines t; return a) t behind a := by
  intro r hr _
  have hdrop : r.rest.drop t.length = behind := by rw [hr, List.drop_left]
  show Except.ok (a, { r with
    rest := r.rest.drop t.length, line := r.line + t.count '\n' }) = _
  rw [hdrop]

end Steps

/-! The parts of a word. -/

section Parts

variable {nested : Nested} {partsAt : Place → Read Word} {p : Place} {t u behind : Text} {n : Nat}

theorem takes_part_ordinary (hne : t ≠ []) (ht : ∀ c ∈ t, p.isOrdinary c = true)
    (hbehind : ∀ c, behind.head? = some c → p.isOrdinary c = false) :
    Takes (part nested partsAt p) t behind (some (.text p.quotes t .done)) := by
  obtain ⟨c, rest, rfl⟩ := List.exists_cons_of_ne_nil hne
  have hhead : (c :: rest ++ behind).head? ≠ some '\\' := by
    intro heq
    obtain rfl := Option.some.inj heq
    have hbackslash : p.isOrdinary '\\' = false := rfl
    exact absurd (ht _ List.mem_cons_self) (ne_true_of_eq_false hbackslash)
  have htake : (c :: (rest ++ behind)).takeWhile p.isOrdinary = c :: rest := by
    rw [← List.cons_append, List.takeWhile_append_of_pos ht]
    cases behind with
    | nil => exact List.append_nil _
    | cons d behind =>
      rw [List.takeWhile_cons_of_neg (ne_true_of_eq_false (hbehind d rfl)), List.append_nil]
  refine Takes.text hhead ?_
  dsimp only [List.cons_append]
  rw [htake]
  exact takes_counted _

/-- What stands between apostrophes is taken as it is. -/
theorem takes_part_apostrophes (h : '\'' ∉ t) :
    Takes (part nested partsAt .plain) ('\'' :: t ++ ['\'']) behind
      (some (.text true t .done)) := by
  have ht : ∀ c ∈ t, (c != '\'') = true := by
    intro c hc
    rw [bne_iff_ne]
    rintro rfl
    exact h hc
  have hrest : t ++ ['\''] ++ behind = t ++ '\'' :: behind := List.append_assoc ..
  have htake : (t ++ ['\''] ++ behind).takeWhile (· != '\'') = t := by
    rw [hrest, List.takeWhile_append_of_pos ht, List.takeWhile_cons_of_neg (by decide),
      List.append_nil]
  have hdrop : (t ++ ['\''] ++ behind).dropWhile (· != '\'') = '\'' :: behind := by
    rw [hrest, List.dropWhile_append_of_pos ht, List.dropWhile_cons_of_neg (by decide)]
  refine Takes.text (by simp) ?_
  dsimp only [List.cons_append]
  rw [hdrop, htake]
  intro r _ _
  have hlines : ('\'' :: (t ++ ['\''])).count '\n' = t.count '\n' := by simp
  rw [hlines]
  rfl

theorem takes_part_quotation
    (h : Takes (partsAt .quoted) t ('"' :: behind) (.text true t .done)) :
    Takes (part nested partsAt .plain) ('"' :: t ++ ['"']) behind
      (some (.text true t .done)) := by
  have hopen : Takes (skip 1) ['"'] (t ++ ['"'] ++ behind) () := takes_skip (by decide)
  have hclose : Takes (skip 1) ['"'] behind () := takes_skip (by decide)
  refine Takes.text (by simp) ?_
  rw [List.cons_append, ← List.singleton_append]
  refine hopen.bind (Takes.bind (a := .text true t .done) ?_ ?_)
  · exact h
  · rw [← List.append_nil ['"']]
    exact hclose.bind (takes_pure _ behind)

theorem takes_part_end (h : EndsWord behind) :
    Takes (part nested partsAt .plain) [] behind none := by
  cases behind with
  | nil => exact Takes.text nofun (takes_pure none [])
  | cons c behind =>
    obtain rfl := h c rfl
    exact Takes.text (by simp) (takes_pure none _)

theorem takes_part_quoted_end (behind : Text) :
    Takes (part nested partsAt .quoted) [] ('"' :: behind) none :=
  Takes.text (by simp) (takes_pure none _)

theorem takes_parts_one {w : Word}
    (hpart : Takes (part nested (parts nested (n + 1)) p) t behind (some w))
    (hend : Takes (part nested (parts nested n) p) [] behind none) :
    Takes (parts nested (n + 2) p) t behind (w.append .done) := by
  have hnil : Takes (parts nested (n + 1) p) [] behind .done :=
    Takes.bind (t := []) (u := []) hend (takes_pure Word.done behind)
  rw [← List.append_nil t]
  exact Takes.bind (u := []) hpart (hnil.map w.append)

theorem takes_parts_cons {first rest : Word}
    (hpart : Takes (part nested (parts nested n) p) t (u ++ behind) (some first))
    (hparts : Takes (parts nested n p) u behind rest) :
    Takes (parts nested (n + 1) p) (t ++ u) behind (first.append rest) :=
  hpart.bind (hparts.map first.append)

end Parts

/-! Quoted words, part by part. -/

section Quoted

variable {nested : Nested} {word behind : Text} {n : Nat}

theorem takes_part_apostrophe :
    Takes (part nested (parts nested (n + 2)) .plain) ['"', '\'', '"'] behind
      (some (.text true ['\''] .done)) := by
  refine takes_part_quotation (t := ['\'']) ?_
  refine takes_parts_one (w := .text true ['\''] .done) ?_ (takes_part_quoted_end behind)
  refine takes_part_ordinary (List.cons_ne_nil _ _) (List.forall_mem_singleton.2 rfl)
    fun c hc => ?_
  obtain rfl := Option.some.inj hc
  rfl

/-- The induction is on the number of turns: an apostrophe in the word takes two of them,
one for the stretch in front of it and one for itself. -/
theorem takes_parts_enclosed (hbehind : EndsWord behind) (hn : (enclosed word).length < n) :
    Takes (parts nested n .plain) (enclosed word) behind (.text true word .done) := by
  induction n using Nat.strongRecOn generalizing word with
  | ind n ih =>
    by_cases hmem : '\'' ∈ word
    · obtain ⟨front, later, rfl, hfront⟩ := List.eq_append_cons_of_mem hmem
      rw [enclosed_append hfront] at hn ⊢
      have hlength : (enclosed later).length + 5 ≤
          ('\'' :: front ++ ['\''] ++ (['"', '\'', '"'] ++ enclosed later)).length := by
        simp
      obtain ⟨m, rfl⟩ : ∃ m, n = m + 4 := ⟨n - 4, by omega⟩
      have hlater : Takes (parts nested (m + 2) .plain) (enclosed later) behind
          (.text true later .done) := ih (m + 2) (by omega) (by omega)
      exact takes_parts_cons (takes_part_apostrophes hfront)
        (takes_parts_cons takes_part_apostrophe hlater)
    · rw [enclosed, flatMap_quoteChar hmem] at hn ⊢
      obtain ⟨m, rfl⟩ : ∃ m, n = m + 2 := ⟨n - 2, by simp at hn; omega⟩
      exact takes_parts_one (takes_part_apostrophes hmem) (takes_part_end hbehind)

theorem takes_parts_quote (hbehind : EndsWord behind) (hn : (quote word).length + 1 < n) :
    Takes (parts nested n .plain) (quote word) behind (.ofQuoted word) := by
  rcases quote_cases word with ⟨hne, hsafe, hquote, hword⟩ | ⟨hquote, hword⟩
  · rw [hquote, hword]
    obtain ⟨m, rfl⟩ : ∃ m, n = m + 2 := ⟨n - 2, by omega⟩
    have hpart : Takes (part nested (parts nested (m + 1)) .plain) word behind
        (some (.text false word .done)) :=
      takes_part_ordinary hne (fun c hc => isOrdinary_of_isSafe (hsafe c hc))
        fun c hc => hbehind.isOrdinary hc
    exact takes_parts_one hpart (takes_part_end hbehind)
  · rw [hquote] at hn ⊢
    rw [hword]
    exact takes_parts_enclosed hbehind (by omega)

theorem takes_wordAt (hbehind : EndsWord behind) :
    Takes (wordAt nested .plain) (quote word) behind (.ofQuoted word) := by
  refine Takes.get fun r hr hsize => takes_parts_quote hbehind ?_
  rw [hr, List.length_append] at hsize
  omega

end Quoted

/-! Tokens. -/

section Tokens

variable {nested : Nested} {gap behind word : Text}

theorem takes_skipBlanks {n : Nat} (hgap : gap = [] ∨ gap = [' ']) (hn : gap.length < n)
    (hbehind : BeginsToken behind) : Takes (skipBlanks n) gap behind () := by
  have hnone : ∀ n, Takes (skipBlanks (n + 1)) [] behind () := by
    intro n
    refine Takes.text (hbehind _ (by simp)) ?_
    rw [List.nil_append]
    split
    · next c rest =>
      have hspace : c ≠ ' ' := fun heq => hbehind ' ' (by simp) (congrArg some heq)
      have htab : c ≠ '\t' := fun heq => hbehind '\t' (by simp) (congrArg some heq)
      rw [if_neg (by simp [hspace, htab])]
      exact takes_pure () _
    · exact takes_pure () _
  rcases hgap with rfl | rfl
  · obtain ⟨m, rfl⟩ : ∃ m, n = m + 1 := ⟨n - 1, by omega⟩
    exact hnone m
  · obtain ⟨m, rfl⟩ : ∃ m, n = m + 2 := ⟨n - 2, by simp at hn; omega⟩
    refine Takes.text (by simp) ?_
    exact Takes.bind (t := [' ']) (u := []) (takes_skip (by decide)) (hnone m)

theorem takes_skipSpace (hgap : gap = [] ∨ gap = [' ']) (hbehind : BeginsToken behind) :
    Takes skipSpace gap behind () := by
  refine Takes.get fun r hr hsize => ?_
  have hn : gap.length < r.size + 1 := by
    rw [hr, List.length_append] at hsize
    omega
  rw [← List.append_nil gap]
  refine Takes.bind (u := []) (takes_skipBlanks hgap hn hbehind) ?_
  refine Takes.get fun r' hr' _ => ?_
  have hhead : ¬ r'.rest.head? = some '#' := by
    rw [hr']
    exact hbehind '#' (by simp)
  rw [if_neg hhead]
  exact takes_pure () behind

theorem first?_eq_none {candidates : List Text} {t : Text}
    (h : ∀ op ∈ candidates, ∃ c, op.head? = some c ∧ t.head? ≠ some c) :
    first? candidates t = none := by
  refine List.find?_eq_none.2 fun op hop hfront => ?_
  obtain ⟨c, hhead, hne⟩ := h op hop
  obtain ⟨later, rfl⟩ := List.isPrefixOf_iff_prefix.1 hfront
  exact hne (by rw [List.head?_append, hhead]; rfl)

/-- No operator begins with a safe character, an apostrophe or a space. -/
theorem first?_operators {t : Text} (dialect : Dialect)
    (h : ∀ c, t.head? = some c → isSafe c = true ∨ c = '\'' ∨ c = ' ') :
    first? (redirections dialect) t = none ∧ first? operators t = none := by
  have hmarks : ∀ op ∈ redirections dialect ++ operators,
      op.head?.any (fun c => !(isSafe c || c == '\'' || c == ' ')) = true := by
    cases dialect
    · decide
    · decide
  have hnone : ∀ op ∈ redirections dialect ++ operators,
      ∃ c, op.head? = some c ∧ t.head? ≠ some c := by
    intro op hop
    obtain ⟨c, hc, hmark⟩ := (Option.any_eq_true ..).1 (hmarks op hop)
    refine ⟨c, hc, fun hhead => ?_⟩
    simp only [Bool.not_eq_true', Bool.or_eq_false_iff, beq_eq_false_iff_ne] at hmark
    rcases h c hhead with hsafe | heq | heq
    · exact absurd hsafe (ne_true_of_eq_false hmark.1.1)
    · exact hmark.1.2 heq
    · exact hmark.2 heq
  exact ⟨first?_eq_none fun op hop => hnone op (List.mem_append_left _ hop),
    first?_eq_none fun op hop => hnone op (List.mem_append_right _ hop)⟩

/-- A digit in front of a quoted word names no descriptor. -/
theorem descriptorAt?_quote (dialect : Dialect) (hbehind : EndsWord behind) :
    descriptorAt? dialect (quote word ++ behind) = none := by
  obtain ⟨c, rest, hquote, hc⟩ := quote_eq_cons word
  rw [hquote, List.cons_append, descriptorAt?]
  split
  · next hdigit =>
    have hrest : ∀ d ∈ rest, isSafe d = true := by
      rcases hc with ⟨_, hrest⟩ | rfl
      · exact hrest
      · exact absurd hdigit (by decide)
    have hhead : ∀ d, (rest ++ behind).head? = some d →
        isSafe d = true ∨ d = '\'' ∨ d = ' ' := by
      intro d hd
      cases rest with
      | nil => exact .inr (.inr (hbehind d hd))
      | cons e rest =>
        obtain rfl := Option.some.inj hd
        exact .inl (hrest _ List.mem_cons_self)
    rw [(first?_operators dialect hhead).1, Option.bind_none]
  · rfl

theorem takes_freshToken (hgap : gap = [] ∨ gap = [' ']) (hbehind : EndsWord behind) :
    Takes (freshToken nested) (gap ++ quote word) behind (.word (.ofQuoted word)) := by
  refine Takes.bind (takes_skipSpace hgap (beginsToken_quote word behind)) ?_
  refine Takes.get fun r hr _ => ?_
  obtain ⟨hredirections, hoperators⟩ := first?_operators (t := quote word ++ behind) r.dialect
    fun c hc => (head?_quote hc).imp_right .inl
  split
  · next hnil =>
    rw [hr, List.append_eq_nil_iff] at hnil
    obtain ⟨c, rest, hquote, _⟩ := quote_eq_cons word
    exact absurd (hquote.symm.trans hnil.1) nofun
  · next hnewline =>
    rw [hr] at hnewline
    exact absurd (congrArg List.head? hnewline) (head?_quote_ne (by decide))
  · rw [hr, descriptorAt?_quote r.dialect hbehind, hredirections, hoperators]
    exact (takes_wordAt hbehind).map _

theorem takes_freshToken_end : Takes (freshToken nested) [] [] .endOfText := by
  refine Takes.bind (t := []) (u := []) (takes_skipSpace (.inl rfl) (by simp [BeginsToken])) ?_
  refine Takes.get fun r hr _ => ?_
  rw [hr]
  exact takes_pure _ _

end Tokens

end Read

/-- The reader in front of a text, with nothing asked of the next token. -/
def Reader.before (r : Reader) (rest : Text) (line : Nat) (pushed : Option Token) : Reader :=
  { r with rest, line, pushed, skipsNewlines := false, findsKeywords := false }

/-- The token stays as it is read: it is no keyword, and no short name for a text. -/
def Token.IsSettled (t : Token) (r : Reader) : Prop :=
  ∀ w name, t = .word w → w.plain? = some name →
    r.findsKeywords = false ∨ name ∉ Read.keywords r.dialect ∧ r.aliases.get? name = none

namespace Read

section Tokens

variable {nested : Nested} {r : Reader} {t : Token} {rest front behind word : Text} {line : Nat}

theorem run_tokenWith {n : Nat} (hskips : r.skipsNewlines = false)
    (hread : (r.pushed.elim (freshToken nested) pure).run (r.before r.rest r.line none) =
      .ok (t, r.before rest line none)) (hsettled : t.IsSettled r) :
    (tokenWith nested (n + 1)).run r = .ok (t, r.before rest line none) := by
  unfold tokenWith
  refine (run_bind_of_ok (x := get) rfl).trans ?_
  refine (run_bind_of_ok (x := set _) rfl).trans ?_
  rw [hskips]
  -- a token that was put back and one from the text are settled alike
  cases hpushed : r.pushed
  all_goals
    rw [hpushed] at hread
    refine (run_bind_of_ok hread).trans ?_
    refine (run_bind_of_ok (x := pure t) rfl).trans ?_
    cases t with
    | word w =>
      dsimp only
      cases hname : w.plain? with
      | none => rfl
      | some name =>
        rcases hsettled w name rfl hname with hfinds | ⟨hkeyword, halias⟩
        · rw [hfinds]
          rfl
        · dsimp only
          rw [List.contains_eq_mem, decide_eq_false hkeyword]
          split
          · rfl
          · have hnone : aliasOf? (r.before rest line none) name = none := by
              rw [aliasOf?, Reader.before, halias]
              rfl
            refine (run_bind_of_ok (x := get) rfl).trans ?_
            rw [hnone]
            rfl
    | _ => rfl

theorem run_token_eq (nested : Nested) (r : Reader) :
    (token nested).run r = (tokenWith nested (r.aliases.entries.length + 1)).run r :=
  rfl

theorem run_token_pushed :
    (token nested).run (r.before rest line (some t)) = .ok (t, r.before rest line none) := by
  rw [run_token_eq]
  exact run_tokenWith rfl rfl fun _ _ _ _ => .inl rfl

theorem run_token (hpushed : r.pushed = none) (hskips : r.skipsNewlines = false)
    (hfresh : Takes (freshToken nested) front behind t) (hrest : r.rest = front ++ behind)
    (hsize : r.rest.length ≤ r.size) (hsettled : t.IsSettled r) :
    (token nested).run r = .ok (t, r.before behind (r.line + front.count '\n') none) := by
  have hread := hfresh (r.before r.rest r.line none) hrest hsize
  rw [run_token_eq]
  refine run_tokenWith hskips ?_ hsettled
  rw [hpushed]
  exact hread

theorem run_token_word (hsize : (' ' :: quote word ++ behind).length ≤ r.size)
    (hbehind : EndsWord behind) :
    (token nested).run (r.before (' ' :: quote word ++ behind) line none) =
      .ok (.word (.ofQuoted word),
        r.before behind (line + (' ' :: quote word).count '\n') none) := by
  have hfresh : Takes (freshToken nested) ([' '] ++ quote word) behind (.word (.ofQuoted word)) :=
    takes_freshToken (.inr rfl) hbehind
  exact run_token rfl rfl hfresh rfl hsize fun _ _ _ _ => .inl rfl

theorem run_push :
    (push t).run (r.before rest line none) = .ok ((), r.before rest line (some t)) :=
  rfl

theorem run_token_end :
    (token nested).run (r.before [] line none) = .ok (.endOfText, r.before [] line none) :=
  run_token rfl rfl takes_freshToken_end rfl (Nat.zero_le _) fun _ _ _ _ => .inl rfl

end Tokens

end Read

/-! A line of words as a command. -/

/-- The words of a line behind the first. -/
def laterWords (words : List Text) : Text := words.flatMap fun word => ' ' :: quote word

theorem joinWords_cons (name : Text) (words : List Text) :
    joinWords (name :: words) = quote name ++ laterWords words := by
  induction words generalizing name with
  | nil =>
    rw [joinWords, List.map_singleton, List.intercalate_singleton]
    exact (List.append_nil _).symm
  | cons word words ih =>
    have hrest := ih word
    unfold joinWords at hrest ⊢
    rw [List.map_cons, List.map_cons, List.intercalate_cons_cons, ← List.map_cons, hrest,
      List.append_assoc]
    rfl

theorem endsWord_laterWords (words : List Text) : EndsWord (laterWords words) := by
  intro c hc
  cases words with
  | nil => exact absurd hc nofun
  | cons word words => exact (Option.some.inj hc).symm

theorem length_le_laterWords (words : List Text) : words.length ≤ (laterWords words).length := by
  induction words with
  | nil => exact Nat.le_refl 0
  | cons word words ih =>
    have hcons : laterWords (word :: words) = ' ' :: quote word ++ laterWords words :=
      List.flatMap_cons
    rw [hcons, List.length_append, List.length_cons, List.length_cons]
    omega

/-- A word that begins a simple command: it is quoted, or neither a keyword, nor a short name
for a text, nor an assignment. -/
def IsCommandName (dialect : Dialect) (aliases : SortedMap Text) (name : Text) : Prop :=
  quote name = name →
    name ∉ Read.keywords dialect ∧ aliases.get? name = none ∧ '=' ∉ name

section CommandName

variable {dialect : Dialect} {aliases : SortedMap Text} {name : Text}

theorem IsCommandName.isSettled {r : Reader} (h : IsCommandName r.dialect r.aliases name) :
    (Token.word (.ofQuoted name)).IsSettled r := by
  rintro w t heq hplain
  obtain rfl := Token.word.inj heq
  rcases quote_cases name with ⟨_, _, hquote, hword⟩ | ⟨_, hword⟩
  · rw [hword] at hplain
    obtain rfl := Option.some.inj hplain
    exact .inr ⟨(h hquote).1, (h hquote).2.1⟩
  · rw [hword] at hplain
    exact absurd hplain nofun

theorem IsCommandName.assignment? (h : IsCommandName dialect aliases name) :
    assignment? (.ofQuoted name) = none := by
  rcases quote_cases name with ⟨_, _, hquote, hword⟩ | ⟨_, hword⟩
  · have htake : name.takeWhile (· != '=') = name := by
      rw [List.takeWhile_eq_self_iff]
      intro c hc
      rw [bne_iff_ne]
      rintro rfl
      exact (h hquote).2.2 hc
    rw [hword, Shell.assignment?, htake, List.drop_length]
  · rw [hword]
    rfl

end CommandName

namespace Grammar

open Read

variable {g : Grammar} {r : Reader} {name word rest behind : Text} {words : List Text} {w : Word}
  {ws : List Word} {line first : Nat}

theorem run_piece_first (hassigns : assignment? w = none) :
    (g.piece first {}).run (r.before rest line (some (.word w))) =
      .ok (.inl { words := [w] }, r.before rest line none) := by
  refine (run_bind_of_ok run_token_pushed).trans ?_
  dsimp only
  rw [if_pos List.isEmpty_nil, hassigns]
  rfl

theorem run_piece_word (hws : ws ≠ []) (hsize : (' ' :: quote word ++ behind).length ≤ r.size)
    (hbehind : EndsWord behind) :
    (g.piece first { words := ws }).run (r.before (' ' :: quote word ++ behind) line none) =
      .ok (.inl { words := ws ++ [.ofQuoted word] },
        r.before behind (line + (' ' :: quote word).count '\n') none) := by
  refine (run_bind_of_ok (run_token_word hsize hbehind)).trans ?_
  obtain ⟨w, ws, rfl⟩ := List.exists_cons_of_ne_nil hws
  rfl

theorem run_piece_end : (g.piece first { words := ws }).run (r.before [] line none) =
    .ok (.inr (.simple first [] ws []), r.before [] line (some .endOfText)) := by
  refine (run_bind_of_ok run_token_end).trans ?_
  -- one word alone could be the name of a function
  rcases ws with _ | ⟨w, _ | ⟨w', ws⟩⟩
  · rfl
  · rfl
  · rfl

/-- The words behind the first are taken one by one, and then the end of the text. -/
theorem run_turns_piece {n : Nat} (hn : words.length < n) (hws : ws ≠ [])
    (hsize : (laterWords words).length ≤ r.size) :
    (turns (g.piece first) n { words := ws }).run (r.before (laterWords words) line none) =
      .ok (.simple first [] (ws ++ words.map .ofQuoted) [],
        r.before [] (line + (laterWords words).count '\n') (some .endOfText)) := by
  induction words generalizing n ws line with
  | nil =>
    obtain ⟨m, rfl⟩ : ∃ m, n = m + 1 := ⟨n - 1, by omega⟩
    rw [List.map_nil, List.append_nil]
    exact run_bind_of_ok run_piece_end
  | cons word words ih =>
    obtain ⟨m, rfl⟩ : ∃ m, n = m + 1 := ⟨n - 1, by omega⟩
    have hcons : laterWords (word :: words) = ' ' :: quote word ++ laterWords words :=
      List.flatMap_cons
    rw [hcons] at hsize ⊢
    have hwords : (laterWords words).length ≤ r.size := by
      rw [List.length_append] at hsize
      omega
    have hws' : ws ++ [Word.ofQuoted word] ≠ [] := by simp
    refine (run_bind_of_ok (run_piece_word hws hsize (endsWord_laterWords words))).trans ?_
    dsimp only
    rw [ih (Nat.lt_of_succ_lt_succ hn) hws' hwords, List.append_assoc, List.singleton_append,
      ← List.map_cons, List.count_append, Nat.add_assoc]

section Levels

variable (hassigns : assignment? w = none) (hsize : (laterWords words).length ≤ r.size)

include hassigns hsize

theorem run_simple : g.simple.run (r.before (laterWords words) line (some (.word w))) =
    .ok (.simple line [] (w :: words.map .ofQuoted) [],
      r.before [] (line + (laterWords words).count '\n') (some .endOfText)) := by
  have hn : words.length < 2 * r.size + 7 := by
    have hlength := length_le_laterWords words
    omega
  refine (run_bind_of_ok (x := get) rfl).trans ?_
  refine (run_bind_of_ok (x := get) rfl).trans ?_
  refine (run_bind_of_ok (run_piece_first hassigns)).trans ?_
  exact run_turns_piece hn (List.cons_ne_nil _ _) hsize

/-! The levels of the grammar above a simple command each look at the token behind it, which
ends the text, and put it back. -/

theorem run_command : g.command.run (r.before (laterWords words) line (some (.word w))) =
    .ok (.simple line [] (w :: words.map .ofQuoted) [],
      r.before [] (line + (laterWords words).count '\n') (some .endOfText)) := by
  refine (run_bind_of_ok (x := get) rfl).trans ?_
  refine (run_bind_of_ok run_token_pushed).trans ?_
  refine (run_bind_of_ok run_push).trans ?_
  exact run_simple hassigns hsize

theorem run_pipeline : g.pipeline.run (r.before (laterWords words) line (some (.word w))) =
    .ok (.simple line [] (w :: words.map .ofQuoted) [],
      r.before [] (line + (laterWords words).count '\n') (some .endOfText)) := by
  refine (run_bind_of_ok run_token_pushed).trans ?_
  refine (run_bind_of_ok run_push).trans ?_
  refine (run_bind_of_ok (run_command hassigns hsize)).trans ?_
  refine (run_bind_of_ok (x := get) rfl).trans ?_
  refine (run_bind_of_ok (run_bind_of_ok run_token_pushed)).trans ?_
  rfl

theorem run_andOr : g.andOr.run (r.before (laterWords words) line (some (.word w))) =
    .ok (.simple line [] (w :: words.map .ofQuoted) [],
      r.before [] (line + (laterWords words).count '\n') (some .endOfText)) := by
  refine (run_bind_of_ok (run_pipeline hassigns hsize)).trans ?_
  refine (run_bind_of_ok (x := get) rfl).trans ?_
  refine (run_bind_of_ok (run_bind_of_ok run_token_pushed)).trans ?_
  rfl

end Levels

theorem run_listTurn (hpushed : r.pushed = none) (hskips : r.skipsNewlines = false)
    (hrest : r.rest = joinWords (name :: words)) (hsize : r.rest.length ≤ r.size)
    (hname : IsCommandName r.dialect r.aliases name) :
    (g.listTurn true (.nothing, false)).run r =
      .ok (.inr (.simple (r.line + (quote name).count '\n') []
          ((name :: words).map .ofQuoted) []),
        r.before [] (r.line + r.rest.count '\n') (some .endOfText)) := by
  rw [joinWords_cons] at hrest
  let asked : Reader := { r with findsKeywords := true }
  have hasked : (expecting false true).run r = .ok ((), asked) := by
    show Except.ok ((), { r with
      skipsNewlines := r.skipsNewlines || false, findsKeywords := r.findsKeywords || true }) = _
    rw [Bool.or_false, Bool.or_true]
  have hfresh : Takes (freshToken g.nested) (quote name) (laterWords words)
      (.word (.ofQuoted name)) := takes_freshToken (.inl rfl) (endsWord_laterWords words)
  have htoken : (token g.nested).run asked = .ok (.word (.ofQuoted name),
      r.before (laterWords words) (r.line + (quote name).count '\n') none) :=
    run_token hpushed hskips hfresh hrest hsize (IsCommandName.isSettled (r := asked) hname)
  have hlater : (laterWords words).length ≤ r.size := by
    rw [hrest, List.length_append] at hsize
    omega
  rw [hrest, List.count_append, ← Nat.add_assoc]
  refine (run_bind_of_ok hasked).trans ?_
  refine (run_bind_of_ok htoken).trans ?_
  refine (run_bind_of_ok run_push).trans ?_
  refine (run_bind_of_ok (run_andOr (r := r) hname.assignment? hlater)).trans ?_
  refine (run_bind_of_ok run_token_pushed).trans ?_
  rfl

end Grammar

/-- A line of quoted words is read as one simple command, each word as it has been quoted. -/
theorem readLine_joinWords {r : Reader} {name : Text} {words : List Text}
    (hskips : r.skipsNewlines = false) (hrest : r.rest = joinWords (name :: words))
    (hsize : r.rest.length ≤ r.size) (hname : IsCommandName r.dialect r.aliases name) :
    readLine r = .ok
      (.simple (r.line + (quote name).count '\n') [] ((name :: words).map .ofQuoted) [],
        r.before [] (r.line + r.rest.count '\n') (some .endOfText)) := by
  have hturn := Grammar.run_listTurn (g := grammar (r.size + 2)) (r := { r with pushed := none })
    rfl hskips hrest hsize hname
  refine (Read.run_bind_of_ok (x := get) rfl).trans ?_
  exact Read.run_bind_of_ok hturn

end TypedCommand.Shell
