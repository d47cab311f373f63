import Mathlib.Logic.Function.Defs
import TypedCommand.Proofs.Words
import TypedCommand.Shell.Quote

/-!
A command line of quoted words is read back. A shell takes the characters of a line one by one:
a space outside of quotes ends a word, a quotation mark opens a stretch that runs to the next one
of its kind, and what stands there is taken as it is and belongs to the word that it touches. No
other character that a shell gives a meaning to stands outside of quotes in a joined line.
-/

namespace TypedCommand.Shell

/-- How a character of a line stands: outside of quotes, inside of a pair of the quotation mark
`q`, or as a quotation mark that opens or closes. -/
inductive Standing
  | bare
  | inside (q : Char)
  | mark
deriving DecidableEq

/-- The characters of a line with how they stand, behind a quotation mark that is still open. A
line that leaves one open is not complete. -/
def standingsFrom : Option Char → Text → Option (List (Standing × Char))
  | none, [] => some []
  | some _, [] => none
  | none, c :: rest =>
    if c = '\'' ∨ c = '"' then (standingsFrom (some c) rest).map ((.mark, c) :: ·)
    else (standingsFrom none rest).map ((.bare, c) :: ·)
  | some q, c :: rest =>
    if c = q then (standingsFrom none rest).map ((.mark, c) :: ·)
    else (standingsFrom (some q) rest).map ((.inside q, c) :: ·)

def standings? (line : Text) : Option (List (Standing × Char)) := standingsFrom none line

/-- The words of a line behind what has been read of a word, if one has begun. -/
def wordsFrom : Option Text → List (Standing × Char) → List Text
  | current, [] => current.toList
  | current, (standing, c) :: rest =>
    if standing = .bare ∧ c = ' ' then current.toList ++ wordsFrom none rest
    else if standing = .mark then wordsFrom (some (current.getD [])) rest
    else wordsFrom (some (current.getD [] ++ [c])) rest

def readWords (line : Text) : Option (List Text) := (standings? line).map (wordsFrom none)

def contents (items : List (Standing × Char)) : Text :=
  (items.filter (fun x => x.1 ≠ .mark)).map Prod.snd

def standingsOfChar (c : Char) : List (Standing × Char) :=
  if c = '\'' then [(.mark, '\''), (.mark, '"'), (.inside '"', '\''), (.mark, '"'), (.mark, '\'')]
  else [(.inside '\'', c)]

def standingsOf (word : Text) : List (Standing × Char) :=
  if !word.isEmpty && word.all isSafe then word.map ((.bare, ·))
  else (.mark, '\'') :: word.flatMap standingsOfChar ++ [(.mark, '\'')]

/-- Characters keep their place whatever they stand for. -/
theorem map_snd_standingsFrom {opened : Option Char} {line : Text}
    {items : List (Standing × Char)} (h : standingsFrom opened line = some items) :
    items.map Prod.snd = line := by
  induction line generalizing opened items with
  | nil =>
    cases opened with
    | none =>
      obtain rfl := Option.some.inj h
      rfl
    | some q => exact absurd h nofun
  | cons c line ih =>
    have hcons : ∀ {opened' standing},
        (standingsFrom opened' line).map ((standing, c) :: ·) = some items →
          items.map Prod.snd = c :: line := by
      intro opened' standing h
      obtain ⟨rest, hrest, rfl⟩ := Option.map_eq_some_iff.1 h
      rw [List.map_cons, ih hrest]
    cases opened with
    | none =>
      rw [standingsFrom] at h
      split at h
      · exact hcons h
      · exact hcons h
    | some q =>
      rw [standingsFrom] at h
      split at h
      · exact hcons h
      · exact hcons h

/-- A stretch of a line is read as these characters, whatever follows it: from `opened` before the
stretch the reader goes on with `opened'` behind it. -/
def Reads (opened : Option Char) (t : Text) (items : List (Standing × Char))
    (opened' : Option Char) : Prop :=
  ∀ rest, standingsFrom opened (t ++ rest) = (standingsFrom opened' rest).map (items ++ ·)

section Reads

variable {opened opened' opened'' : Option Char} {t t' : Text} {c q : Char}
  {items items' : List (Standing × Char)}

theorem reads_nil (opened : Option Char) : Reads opened [] [] opened := by
  intro rest
  exact Option.map_id'.symm

theorem Reads.append (h : Reads opened t items opened') (h' : Reads opened' t' items' opened'') :
    Reads opened (t ++ t') (items ++ items') opened'' := by
  intro rest
  rw [List.append_assoc, h, h', Option.map_map]
  simp only [Function.comp_def, List.append_assoc]

theorem reads_bare (h : c ≠ '\'' ∧ c ≠ '"') : Reads none [c] [(.bare, c)] none := by
  intro rest
  have hplain : ¬ (c = '\'' ∨ c = '"') := not_or.2 h
  rw [List.singleton_append, standingsFrom, if_neg hplain]
  rfl

theorem reads_open (h : c = '\'' ∨ c = '"') : Reads none [c] [(.mark, c)] (some c) := by
  intro rest
  rw [List.singleton_append, standingsFrom, if_pos h]
  rfl

theorem reads_inside (h : c ≠ q) : Reads (some q) [c] [(.inside q, c)] (some q) := by
  intro rest
  rw [List.singleton_append, standingsFrom, if_neg h]
  rfl

theorem reads_close (q : Char) : Reads (some q) [q] [(.mark, q)] none := by
  intro rest
  rw [List.singleton_append, standingsFrom, if_pos rfl]
  rfl

theorem reads_flatMap {f : Char → Text} {g : Char → List (Standing × Char)} {word : Text}
    (h : ∀ c ∈ word, Reads opened (f c) (g c) opened) :
    Reads opened (word.flatMap f) (word.flatMap g) opened := by
  induction word with
  | nil => exact reads_nil opened
  | cons c word ih =>
    obtain ⟨hc, hword⟩ := List.forall_mem_cons.1 h
    exact hc.append (ih hword)

theorem Reads.standings?_eq (h : Reads none t items none) : standings? t = some items := by
  have hwhole := h []
  rwa [List.append_nil, standingsFrom, Option.map_some, List.append_nil] at hwhole

end Reads

theorem isSafe_ne {c d : Char} (h : isSafe c = true) (hd : isSafe d = false) : c ≠ d := by
  rintro rfl
  exact absurd h (ne_true_of_eq_false hd)

/-- Between apostrophes each character is taken as it is, and an apostrophe leaves them and comes
back. -/
theorem reads_quoteChar (c : Char) :
    Reads (some '\'') (quoteChar c) (standingsOfChar c) (some '\'') := by
  unfold quoteChar standingsOfChar
  split
  · have hinside : Reads (some '"') ['\''] [(.inside '"', '\'')] (some '"') :=
      reads_inside (by decide)
    exact (reads_close '\'').append ((reads_open (.inr rfl)).append
      (hinside.append ((reads_close '"').append (reads_open (.inl rfl)))))
  · next hc => exact reads_inside hc

theorem reads_quote (word : Text) : Reads none (quote word) (standingsOf word) none := by
  unfold quote standingsOf
  split
  · next hsafe =>
    rw [Bool.and_eq_true, List.all_eq_true] at hsafe
    have hbare : Reads none (word.flatMap fun c => [c]) (word.flatMap fun c => [(.bare, c)]) none :=
      reads_flatMap fun c hc =>
        reads_bare ⟨isSafe_ne (hsafe.2 c hc) rfl, isSafe_ne (hsafe.2 c hc) rfl⟩
    rwa [List.flatMap_singleton', ← List.map_eq_flatMap] at hbare
  · have hbody := reads_flatMap fun c (_ : c ∈ word) => reads_quoteChar c
    exact (reads_open (.inl rfl)).append (hbody.append (reads_close '\''))

/-- The characters of a line of words: each word as it is quoted, with a bare space between. -/
theorem reads_joinWords (words : List Text) :
    Reads none (joinWords words) ([(.bare, ' ')].intercalate (words.map standingsOf)) none := by
  unfold joinWords
  induction words with
  | nil => exact reads_nil none
  | cons word words ih =>
    cases words with
    | nil => simpa using reads_quote word
    | cons next words =>
      have hspace : Reads none [' '] [(.bare, ' ')] none := reads_bare (by decide)
      simp only [List.map_cons, List.intercalate_cons_cons]
      exact ((reads_quote word).append hspace).append ih

section Words

variable {word : Text} {items rest : List (Standing × Char)}

/-- Characters among which no space is bare belong to one word. -/
theorem wordsFrom_append (h : ∀ x ∈ items, x ≠ (.bare, ' ')) (current : Text)
    (rest : List (Standing × Char)) :
    wordsFrom (some current) (items ++ rest) = wordsFrom (some (current ++ contents items)) rest := by
  induction items generalizing current with
  | nil => simp [contents]
  | cons x items ih =>
    obtain ⟨standing, c⟩ := x
    obtain ⟨hx, hitems⟩ := List.forall_mem_cons.1 h
    have hbare : ¬ (standing = .bare ∧ c = ' ') := by
      rintro ⟨rfl, rfl⟩
      exact hx rfl
    rw [List.cons_append, wordsFrom, if_neg hbare]
    by_cases hmark : standing = .mark
    · rw [if_pos hmark, Option.getD_some, ih hitems]
      simp [contents, hmark]
    · rw [if_neg hmark, Option.getD_some, ih hitems]
      simp [contents, hmark]

/-- The first character of a word begins it. -/
theorem wordsFrom_none (hitems : items ≠ []) (h : ∀ x ∈ items, x ≠ (.bare, ' ')) :
    wordsFrom none (items ++ rest) = wordsFrom (some (contents items)) rest := by
  obtain ⟨x, later, rfl⟩ := List.exists_cons_of_ne_nil hitems
  have hbegin : wordsFrom none (x :: (later ++ rest)) = wordsFrom (some []) (x :: (later ++ rest)) := by
    obtain ⟨standing, c⟩ := x
    have hbare : ¬ (standing = .bare ∧ c = ' ') := by
      rintro ⟨rfl, rfl⟩
      exact h _ List.mem_cons_self rfl
    rw [wordsFrom, wordsFrom, if_neg hbare, if_neg hbare]
    rfl
  rw [List.cons_append, hbegin, ← List.cons_append, wordsFrom_append h, List.nil_append]

/-- A character of a quoted word means nothing but itself to a shell: outside of quotes it is safe,
and between quotation marks it is an apostrophe. -/
def Harmless : Standing × Char → Prop
  | (.bare, c) => isSafe c = true
  | (.inside q, c) => q = '"' → c = '\''
  | (.mark, _) => True

theorem harmless_standingsOfChar (c : Char) : ∀ x ∈ standingsOfChar c, Harmless x := by
  unfold standingsOfChar
  split
  · simp [Harmless]
  · simp [Harmless]

theorem harmless_standingsOf (word : Text) : ∀ x ∈ standingsOf word, Harmless x := by
  intro x hx
  unfold standingsOf at hx
  split at hx
  · next hsafe =>
    rw [Bool.and_eq_true, List.all_eq_true] at hsafe
    obtain ⟨c, hc, rfl⟩ := List.mem_map.1 hx
    exact hsafe.2 c hc
  · rw [List.cons_append, List.mem_cons, List.mem_append, List.mem_flatMap,
      List.mem_singleton] at hx
    rcases hx with rfl | ⟨c, _, hx⟩ | rfl
    · trivial
    · exact harmless_standingsOfChar c x hx
    · trivial

theorem Harmless.ne_space {x : Standing × Char} (h : Harmless x) : x ≠ (.bare, ' ') := by
  rintro rfl
  exact absurd h (by decide : ¬ isSafe ' ' = true)

theorem contents_append (items items' : List (Standing × Char)) :
    contents (items ++ items') = contents items ++ contents items' := by
  rw [contents, List.filter_append, List.map_append]
  rfl

theorem contents_standingsOf (word : Text) : contents (standingsOf word) = word := by
  unfold standingsOf
  split
  · simp [contents, List.filter_map, Function.comp_def]
  · have hbody : ∀ word : Text, contents (word.flatMap standingsOfChar) = word := by
      intro word
      induction word with
      | nil => rfl
      | cons c word ih =>
        have hchar : contents (standingsOfChar c) = [c] := by
          unfold standingsOfChar
          split
          · next hc => rw [hc]; rfl
          · rfl
        rw [List.flatMap_cons, contents_append, hchar, ih, List.singleton_append]
    rw [← List.singleton_append, contents_append, contents_append, hbody]
    exact List.append_nil _

theorem standingsOf_ne_nil (word : Text) : standingsOf word ≠ [] := by
  unfold standingsOf
  split
  · next hsafe =>
    rw [Bool.and_eq_true] at hsafe
    simpa using hsafe.1
  · exact nofun

/-- A word is what is read of it as it is quoted. -/
theorem wordsFrom_standingsOf (word : Text) (rest : List (Standing × Char)) :
    wordsFrom none (standingsOf word ++ rest) = wordsFrom (some word) rest := by
  have hspace : ∀ x ∈ standingsOf word, x ≠ (.bare, ' ') :=
    fun x hx => (harmless_standingsOf word x hx).ne_space
  rw [wordsFrom_none (standingsOf_ne_nil word) hspace, contents_standingsOf]

theorem wordsFrom_intercalate (words : List Text) :
    wordsFrom none ([(.bare, ' ')].intercalate (words.map standingsOf)) = words := by
  induction words with
  | nil => rfl
  | cons word words ih =>
    cases words with
    | nil =>
      rw [List.map_singleton, List.intercalate_singleton, ← List.append_nil (standingsOf word),
        wordsFrom_standingsOf]
      rfl
    | cons next words =>
      simp only [List.map_cons, List.intercalate_cons_cons, List.append_assoc] at ih ⊢
      rw [wordsFrom_standingsOf, List.singleton_append, wordsFrom, if_pos ⟨rfl, rfl⟩, ih]
      rfl

end Words

/-- Words that are quoted and joined are read back, whatever they hold: a bare character of the
line is a space between two words or means nothing to a shell, and quotation marks hold nothing
but apostrophes. So different words make different lines. -/
theorem readWords_joinWords :
    (∀ words, readWords (joinWords words) = some words) ∧
    (∀ words, ∃ items, standings? (joinWords words) = some items ∧
      items.map Prod.snd = joinWords words ∧
      (∀ c, (.bare, c) ∈ items →
        c = ' ' ∨ c.isAlpha = true ∨ c.isDigit = true ∨ c ∈ "@%+=:,./-_".toList) ∧
      ∀ c, (.inside '"', c) ∈ items → c = '\'') ∧
    Function.Injective joinWords := by
  have hread : ∀ words, readWords (joinWords words) = some words := by
    intro words
    rw [readWords, (reads_joinWords words).standings?_eq, Option.map_some, wordsFrom_intercalate]
  refine ⟨hread, fun words => ?_, fun words words' heq => ?_⟩
  · have hitems := (reads_joinWords words).standings?_eq
    have hharmless : ∀ x ∈ [(.bare, ' ')].intercalate (words.map standingsOf),
        x = (.bare, ' ') ∨ Harmless x := by
      intro x hx
      rcases Text.mem_intercalate hx with hspace | ⟨_, hword, hx⟩
      · exact .inl (List.mem_singleton.1 hspace)
      · obtain ⟨word, _, rfl⟩ := List.mem_map.1 hword
        exact .inr (harmless_standingsOf word x hx)
    refine ⟨_, hitems, map_snd_standingsFrom hitems, fun c hc => ?_, fun c hc => ?_⟩
    · rcases hharmless _ hc with heq | hsafe
      · exact .inl (Prod.mk.inj heq).2
      · simpa [Harmless, isSafe, Text.isAlnum, or_assoc] using Or.inr hsafe
    · rcases hharmless _ hc with heq | hquoted
      · exact absurd heq (by simp)
      · exact hquoted rfl
  · have hsame := (hread words).symm.trans ((congrArg readWords heq).trans (hread words'))
    exact Option.some.inj hsame

/-- Apostrophes inside of a word and at both of its ends, an empty word, and what a shell would
expand. -/
theorem readWords_apostrophes :
    joinWords ["it's", "", "a b", "''", "$x\\\n"] =
      "'it'\"'\"'s' '' 'a b' ''\"'\"''\"'\"'' '$x\\\n'" ∧
    readWords "'it'\"'\"'s' '' 'a b' ''\"'\"''\"'\"'' '$x\\\n'" =
      some (["it's", "", "a b", "''", "$x\\\n"] : List Text) ∧
    joinWords ["a", "b"] ≠ joinWords ["a b"] := by
  obtain ⟨hread, _, hinjective⟩ := readWords_joinWords
  have hjoin : joinWords ["it's", "", "a b", "''", "$x\\\n"] =
      "'it'\"'\"'s' '' 'a b' ''\"'\"''\"'\"'' '$x\\\n'" := by decide
  refine ⟨hjoin, ?_, fun heq => ?_⟩
  · rw [← hjoin]
    exact hread _
  · exact absurd (hinjective heq) (by decide)

end TypedCommand.Shell
