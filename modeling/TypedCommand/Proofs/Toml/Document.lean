import TypedCommand.Proofs.Toml.Scalar
import TypedCommand.Toml.Document

/-!
Documents are read back statement by statement. A key ends where no word character
follows, a value ends with its line, and no statement begins like a gap, so the text of a
list of statements has that list as its only reading.
-/

namespace TypedCommand.Toml

open Text

/-- A value that statements hold: a single one, or an empty array. -/
def Node.IsWritten : Node → Prop
  | .scalar s => s.IsWritten
  | .array [] => True
  | _ => False

def Statement.IsWritten : Statement → Prop
  | header path => path ≠ [] ∧ path.length ≤ depthLimit
  | arrayHeader path => path ≠ [] ∧ path.length ≤ depthLimit
  | pair path value => path ≠ [] ∧ path.length ≤ depthLimit ∧ value.IsWritten

def Node.settle : Node → Node
  | .scalar s => .scalar s.settle
  | node => node

def Statement.settle : Statement → Statement
  | pair path value => .pair path value.settle
  | s => s

def IsKeyStart (c : Char) : Prop := isWordChar c = true ∨ c = '"' ∨ c = '\''

theorem IsKeyStart.ne {c d : Char} (h : IsKeyStart c) (hd : isWordChar d = false) (hquote : d ≠ '"')
    (happ : d ≠ '\'') : c ≠ d := by
  rintro rfl
  rcases h with h | h | h
  · simp [hd] at h
  · exact hquote h
  · exact happ h

/-- The first character of a statement: of a header, or of the key of a pair. -/
def IsStatementStart (c : Char) : Prop := c = '[' ∨ IsKeyStart c

theorem IsStatementStart.ne {c d : Char} (h : IsStatementStart c) (hd : isWordChar d = false)
    (hquote : d ≠ '"') (happ : d ≠ '\'') (hbracket : d ≠ '[') : c ≠ d := by
  rcases h with rfl | h
  · exact hbracket.symm
  · exact h.ne hd hquote happ

theorem readKeyString_basic (key rest : Text) :
    readKeyString (StringForm.basic.write key ++ rest) = some (key, rest) := by
  have hlength := length_le_basicBody false 0 0 key
  have hwrite : StringForm.basic.write key ++ rest =
      '"' :: (basicBody false 0 0 key ++ '"' :: rest) := by
    simp [StringForm.write]
  rw [hwrite, readKeyString, readBasic_basicBody]
  rw [List.length_cons, List.length_append]
  omega

theorem readKeyString_literal {key : Text} (hplain : ∀ c ∈ key, isPlain c = true)
    (hquote : '\'' ∉ key) (rest : Text) :
    readKeyString (StringForm.literal.write key ++ rest) = some (key, rest) := by
  have hwrite : StringForm.literal.write key ++ rest = '\'' :: (key ++ '\'' :: rest) := by
    simp [StringForm.write]
  rw [hwrite, readKeyString, readLiteral_append hplain hquote]

/-- A quoted key is read back, whatever stands behind it. -/
theorem readKeyString_quoted (key rest : Text) :
    readKeyString ((StringForm.ofKey key).write key ++ rest) = some (key, rest) := by
  unfold StringForm.ofKey
  dsimp only
  split
  · exact readKeyString_basic key rest
  · split
    · next hliteral =>
      simp only [Bool.and_eq_true, Bool.not_eq_true', List.all_eq_true, List.contains_eq_mem,
        decide_eq_false_iff_not] at hliteral
      exact readKeyString_literal hliteral.1 hliteral.2 rest
    · exact readKeyString_basic key rest

theorem readKeyString_bare {key : Text} (hne : key ≠ []) (hchars : ∀ c ∈ key, isWordChar c = true)
    (rest : Text) : readKeyString (key ++ rest) = none := by
  obtain ⟨c, key, rfl⟩ := List.exists_cons_of_ne_nil hne
  have hc := hchars c List.mem_cons_self
  unfold readKeyString
  split
  · next heq =>
    rw [(List.cons.inj heq).1] at hc
    exact absurd hc (by decide)
  · next heq =>
    rw [(List.cons.inj heq).1] at hc
    exact absurd hc (by decide)
  · rfl

/-- A bare key ends where no word character follows. -/
theorem readKeyPart_bare {key rest : Text} (hne : key ≠ [])
    (hchars : ∀ c ∈ key, isWordChar c = true)
    (hrest : ∀ c, rest.head? = some c → isWordChar c = false) :
    readKeyPart (key ++ rest) = some (key, rest) := by
  have htake : (key ++ rest).takeWhile isWordChar = key := by
    rw [List.takeWhile_append_of_pos hchars]
    cases rest with
    | nil => simp
    | cons c rest => rw [List.takeWhile_cons_of_neg (by simp [hrest c rfl]), List.append_nil]
  have hdrop : (key ++ rest).dropWhile isWordChar = rest := by
    rw [List.dropWhile_append_of_pos hchars]
    cases rest with
    | nil => rfl
    | cons c rest => rw [List.dropWhile_cons_of_neg (by simp [hrest c rfl])]
  unfold readKeyPart
  rw [readKeyString_bare hne hchars, htake, hdrop]
  dsimp only
  rw [if_neg (by simpa using hne)]

/-- A key is read back, if the text behind it does not prolong it. -/
theorem readKeyPart_writeKey (key : Text) {rest : Text}
    (hrest : ∀ c, rest.head? = some c → isWordChar c = false) :
    readKeyPart (writeKey key ++ rest) = some (key, rest) := by
  unfold writeKey
  split
  · next hbare =>
    simp only [Bool.and_eq_true, Bool.not_eq_true', List.isEmpty_eq_false_iff,
      List.all_eq_true] at hbare
    exact readKeyPart_bare hbare.1 hbare.2 hrest
  · rw [readKeyPart, readKeyString_quoted]

theorem exists_writeKey (key : Text) : ∃ c t, writeKey key = c :: t ∧ IsKeyStart c := by
  unfold writeKey
  split
  · next hbare =>
    simp only [Bool.and_eq_true, Bool.not_eq_true', List.isEmpty_eq_false_iff,
      List.all_eq_true] at hbare
    obtain ⟨c, t, rfl⟩ := List.exists_cons_of_ne_nil hbare.1
    exact ⟨c, t, rfl, Or.inl (hbare.2 c List.mem_cons_self)⟩
  · unfold StringForm.ofKey
    dsimp only
    split
    · exact ⟨_, _, rfl, Or.inr (Or.inl rfl)⟩
    · split
      · exact ⟨_, _, rfl, Or.inr (Or.inr rfl)⟩
      · exact ⟨_, _, rfl, Or.inr (Or.inl rfl)⟩

theorem exists_writePath {path : List Text} (h : path ≠ []) :
    ∃ c t, writePath path = c :: t ∧ IsKeyStart c := by
  obtain ⟨key, path, rfl⟩ := List.exists_cons_of_ne_nil h
  obtain ⟨c, t, hkey, hc⟩ := exists_writeKey key
  obtain ⟨t', hprefix⟩ := prefix_intercalate_cons ['.'] (writeKey key) (path.map writeKey)
  refine ⟨c, t ++ t', ?_, hc⟩
  rw [writePath, List.map_cons, ← hprefix, hkey, List.cons_append]

theorem skipSpaces_of_isKeyStart {c : Char} (h : IsKeyStart c) (t : Text) :
    skipSpaces (c :: t) = c :: t := by
  have hspace : isSpace c = false := by
    simp only [isSpace, Bool.or_eq_false_iff, beq_eq_false_iff_ne]
    exact ⟨h.ne (by decide) (by decide) (by decide), h.ne (by decide) (by decide) (by decide)⟩
  rw [skipSpaces, List.dropWhile_cons_of_neg (by simp [hspace])]

/-- A dotted key is read back up to a text that does not prolong it. -/
theorem readKeyParts_writePath {path : List Text} (hne : path ≠ []) {room : ℕ}
    (hroom : path.length ≤ room) {rest : Text}
    (hrest : ∀ c, rest.head? = some c → isWordChar c = false)
    (hdot : (skipSpaces rest).head? ≠ some '.') :
    readKeyParts room (writePath path ++ rest) = some (path, skipSpaces rest) := by
  induction path generalizing room with
  | nil => exact absurd rfl hne
  | cons key path ih =>
    obtain ⟨room, rfl⟩ : ∃ n, room = n + 1 := ⟨room - 1, by rw [List.length_cons] at hroom; omega⟩
    obtain ⟨c, t, hkey, hc⟩ := exists_writeKey key
    have hskip : ∀ u, skipSpaces (writeKey key ++ u) = writeKey key ++ u := by
      intro u
      rw [hkey, List.cons_append, skipSpaces_of_isKeyStart hc]
    cases path with
    | nil =>
      have hwrite : writePath [key] = writeKey key := by simp [writePath]
      rw [hwrite, readKeyParts, hskip, readKeyPart_writeKey key hrest]
      dsimp only [Option.bind_eq_bind, Option.bind_some]
      split
      · next heq => exact absurd (heq ▸ rfl) hdot
      · rfl
    | cons key' path =>
      have hwrite : writePath (key :: key' :: path) ++ rest =
          writeKey key ++ '.' :: (writePath (key' :: path) ++ rest) := by
        simp [writePath, List.intercalate_cons_cons]
      have hdotrest : ∀ c, ('.' :: (writePath (key' :: path) ++ rest)).head? = some c →
          isWordChar c = false := by
        intro c hc
        obtain rfl := Option.some.inj hc
        decide
      have hskipdot : skipSpaces ('.' :: (writePath (key' :: path) ++ rest)) =
          '.' :: (writePath (key' :: path) ++ rest) := rfl
      rw [hwrite, readKeyParts, hskip, readKeyPart_writeKey key hdotrest]
      dsimp only [Option.bind_eq_bind, Option.bind_some]
      simp only [hskipdot]
      rw [ih (by simp) (by simpa using hroom)]
      rfl

/-- The first character of a single value. -/
theorem exists_of_read {t rest : Text} {s : Scalar} (h : Scalar.read t = some (s, rest)) :
    ∃ c u, t = c :: u ∧ (isAtomChar c = true ∨ c = '"' ∨ c = '\'') := by
  by_cases hquote : t.head? = some '"' ∨ t.head? = some '\''
  · rcases hquote with hquote | hquote <;> obtain ⟨u, rfl⟩ := List.head?_eq_some_iff.1 hquote
    · exact ⟨_, _, rfl, Or.inr (Or.inl rfl)⟩
    · exact ⟨_, _, rfl, Or.inr (Or.inr rfl)⟩
  · cases t with
    | nil =>
      have hnone : Scalar.read [] = none := by decide
      simp [hnone] at h
    | cons c u =>
      refine ⟨c, u, rfl, Or.inl ?_⟩
      by_contra hatom
      rw [Scalar.read, if_neg hquote, List.takeWhile_cons_of_neg hatom,
        List.dropWhile_cons_of_neg hatom] at h
      have hnone : Scalar.ofAtom? [] = none := by decide
      have hdate : isDate [] = false := by decide
      simp [hnone, hdate] at h

/-- A value that ends its line is read back, settled. -/
theorem readValue_writeValue {value : Node} (h : value.IsWritten) (fuel room : ℕ) (rest : Text) :
    readValue (fuel + 2) (room + 1) (skipSpaces (' ' :: (writeValue value ++ '\n' :: rest))) =
      some (value.settle, '\n' :: rest) := by
  have hspace : ∀ t, skipSpaces (' ' :: t) = skipSpaces t := fun t => by
    rw [skipSpaces, List.dropWhile_cons_of_pos (by decide), skipSpaces]
  rw [hspace]
  cases value with
  | scalar s =>
    have hread := read_write h rest
    obtain ⟨c, u, hc, hstart⟩ := exists_of_read hread
    have hother : ∀ d, isAtomChar d = false → d ≠ '"' → d ≠ '\'' → c ≠ d := by
      rintro d hd hquote happ rfl
      simp [hd, hquote, happ] at hstart
    have hskip : skipSpaces (c :: u) = c :: u := by
      rw [skipSpaces, List.dropWhile_cons_of_neg]
      simp [isSpace, hother ' ' (by decide) (by decide) (by decide),
        hother '\t' (by decide) (by decide) (by decide)]
    rw [writeValue, hc, hskip]
    rw [hc] at hread
    unfold readValue
    split
    · exact absurd (List.cons.inj ‹_›).1 (hother '[' (by decide) (by decide) (by decide))
    · exact absurd (List.cons.inj ‹_›).1 (hother '{' (by decide) (by decide) (by decide))
    · exact absurd (List.cons.inj ‹_›).1 (hother '[' (by decide) (by decide) (by decide))
    · exact absurd (List.cons.inj ‹_›).1 (hother '{' (by decide) (by decide) (by decide))
    · rw [hread]
      rfl
  | array items =>
    cases items with
    | nil => rfl
    | cons item items => exact h.elim
  | tables items => exact h.elim
  | table origin entries => exact h.elim

/-- A gap ends where a statement begins. -/
theorem afterGap?_of_isStatementStart {c : Char} (h : IsStatementStart c) (fuel : ℕ) (t : Text) :
    afterGap? (fuel + 1) (c :: t) = some (c :: t) := by
  have hspace : c ≠ ' ' := h.ne (by decide) (by decide) (by decide) (by decide)
  have htab : c ≠ '\t' := h.ne (by decide) (by decide) (by decide) (by decide)
  have hline : c ≠ '\n' := h.ne (by decide) (by decide) (by decide) (by decide)
  have hreturn : c ≠ '\r' := h.ne (by decide) (by decide) (by decide) (by decide)
  have hcomment : c ≠ '#' := h.ne (by decide) (by decide) (by decide) (by decide)
  have hskip : skipSpaces (c :: t) = c :: t := by
    rw [skipSpaces, List.dropWhile_cons_of_neg]
    simp [isSpace, hspace, htab]
  rw [afterGap?, hskip, splitNewline_eq_none hline hreturn]
  dsimp only
  rw [if_neg]
  simpa using hcomment

section Line

variable {path : List Text} (hne : path ≠ []) (hlength : path.length ≤ depthLimit)

include hne hlength

theorem readStatement_header (rest : Text) :
    readStatement ((Statement.header path).write ++ rest) = some (.header path, rest) := by
  obtain ⟨c, t, hpath, hc⟩ := exists_writePath hne
  have hkey : readKey (writePath path ++ (']' :: '\n' :: rest)) =
      some (path, ']' :: '\n' :: rest) :=
    readKeyParts_writePath hne hlength (by simp; rfl) (by simp [skipSpaces, isSpace])
  have hwrite : (Statement.header path).write ++ rest =
      '[' :: (writePath path ++ (']' :: '\n' :: rest)) := by
    simp [Statement.write]
  rw [hwrite]
  unfold readStatement
  split
  · next heq =>
    rw [hpath] at heq
    have hbracket := (List.cons.inj (List.cons.inj heq).2).1
    exact absurd hbracket (hc.ne (by decide) (by decide) (by decide))
  · next heq =>
    rw [← (List.cons.inj heq).2, readHeader, hkey]
    rfl
  · next _ hno => exact (hno _ rfl).elim

theorem readStatement_arrayHeader (rest : Text) :
    readStatement ((Statement.arrayHeader path).write ++ rest) =
      some (.arrayHeader path, rest) := by
  have hkey : readKey (writePath path ++ (']' :: ']' :: '\n' :: rest)) =
      some (path, ']' :: ']' :: '\n' :: rest) :=
    readKeyParts_writePath hne hlength (by simp; rfl) (by simp [skipSpaces, isSpace])
  have hwrite : (Statement.arrayHeader path).write ++ rest =
      '[' :: '[' :: (writePath path ++ (']' :: ']' :: '\n' :: rest)) := by
    simp [Statement.write]
  rw [hwrite, readStatement, readHeader, hkey]
  rfl

theorem readStatement_pair {value : Node} (hvalue : value.IsWritten) (rest : Text) :
    readStatement ((Statement.pair path value).write ++ rest) =
      some (.pair path value.settle, rest) := by
  obtain ⟨c, t, hpath, hc⟩ := exists_writePath hne
  have hkey : readKey (writePath path ++ " = ".toList ++ (writeValue value ++ '\n' :: rest)) =
      some (path, '=' :: ' ' :: (writeValue value ++ '\n' :: rest)) := by
    rw [List.append_assoc]
    exact readKeyParts_writePath hne hlength (by simp; rfl) (by simp [skipSpaces, isSpace])
  have hwrite : (Statement.pair path value).write ++ rest =
      writePath path ++ " = ".toList ++ (writeValue value ++ '\n' :: rest) := by
    simp [Statement.write]
  have hbracket : ∀ u, writePath path ++ " = ".toList ++ (writeValue value ++ '\n' :: rest) ≠
      '[' :: u := by
    intro u heq
    rw [hpath] at heq
    exact hc.ne (by decide) (by decide) (by decide) (List.cons.inj heq).1
  rw [hwrite]
  unfold readStatement
  split
  · next heq => exact absurd heq (hbracket _)
  · next heq => exact absurd heq (hbracket _)
  · obtain ⟨fuel, hfuel⟩ : ∃ n, (writePath path ++ " = ".toList ++
        (writeValue value ++ '\n' :: rest)).length + 1 = n + 2 :=
      ⟨_, by rw [hpath]; rfl⟩
    rw [hkey, hfuel]
    simp only [Option.bind_eq_bind, Option.bind_some, depthLimit]
    rw [readValue_writeValue hvalue]
    rfl

end Line

/-- A statement and the end of its line. -/
theorem readStatement_write {s : Statement} (h : s.IsWritten) (rest : Text) :
    readStatement (s.write ++ rest) = some (s.settle, rest) := by
  cases s with
  | header path => exact readStatement_header h.1 h.2 rest
  | arrayHeader path => exact readStatement_arrayHeader h.1 h.2 rest
  | pair path value => exact readStatement_pair h.1 h.2.1 h.2.2 rest

theorem exists_write {s : Statement} (h : s.IsWritten) :
    ∃ c t, s.write = c :: t ∧ IsStatementStart c := by
  cases s with
  | header path => exact ⟨'[', _, rfl, Or.inl rfl⟩
  | arrayHeader path => exact ⟨'[', _, rfl, Or.inl rfl⟩
  | pair path value =>
    obtain ⟨c, t, hpath, hc⟩ := exists_writePath h.1
    exact ⟨c, _, by rw [Statement.write, hpath]; rfl, Or.inr hc⟩

theorem afterGap?_write {s : Statement} (h : s.IsWritten) (fuel : ℕ) (rest : Text) :
    afterGap? (fuel + 1) (s.write ++ rest) = some (s.write ++ rest) := by
  obtain ⟨c, t, hwrite, hc⟩ := exists_write h
  rw [hwrite]
  exact afterGap?_of_isStatementStart hc fuel (t ++ rest)

/-- One statement more behind a gap. -/
theorem readStatements_of_afterGap? {s : Statement} (h : s.IsWritten) {t rest : Text}
    (hgap : afterGap? (t.length + 1) t = some (s.write ++ rest)) (fuel : ℕ) :
    readStatements (fuel + 1) t = (readStatements fuel rest).map (s.settle :: ·) := by
  obtain ⟨c, u, hwrite, _⟩ := exists_write h
  have hread := readStatement_write h rest
  rw [hwrite] at hgap hread
  rw [readStatements, hgap]
  simp only [Option.bind_eq_bind, Option.bind_some, List.cons_append]
  rw [List.cons_append] at hread
  rw [hread, Option.bind_some]
  cases readStatements fuel rest <;> rfl

/-- Statements are read back one after the other. -/
theorem readStatements_writeStatements {statements : List Statement}
    (h : ∀ s ∈ statements, s.IsWritten) {fuel : ℕ} (hfuel : statements.length < fuel) :
    readStatements fuel (writeStatements statements) =
      some (statements.map Statement.settle) := by
  induction statements generalizing fuel with
  | nil =>
    obtain ⟨fuel, rfl⟩ : ∃ n, fuel = n + 1 := ⟨fuel - 1, by omega⟩
    rfl
  | cons s rest ih =>
    obtain ⟨fuel, rfl⟩ : ∃ n, fuel = n + 1 := ⟨fuel - 1, by omega⟩
    have hs := h s List.mem_cons_self
    have hwrite : writeStatements (s :: rest) =
        (if s.isHeader then ['\n'] else []) ++ (s.write ++ writeStatements rest) := by
      cases hheader : s.isHeader <;> simp [writeStatements, hheader]
    have hgap : afterGap? ((writeStatements (s :: rest)).length + 1) (writeStatements (s :: rest)) =
        some (s.write ++ writeStatements rest) := by
      rw [hwrite]
      cases s.isHeader
      · exact afterGap?_write hs _ _
      · exact afterGap?_write hs _ _
    rw [readStatements_of_afterGap? hs hgap, ih (fun x hx => h x (List.mem_cons_of_mem _ hx))
      (by simpa using hfuel)]
    rfl

theorem length_le_writeStatements (statements : List Statement) :
    statements.length ≤ (writeStatements statements).length := by
  induction statements with
  | nil => exact Nat.zero_le _
  | cons s rest ih =>
    have hwrite : 1 ≤ s.write.length := by cases s <;> simp [Statement.write]; omega
    have hcons : writeStatements (s :: rest) =
        (if s.isHeader then '\n' :: s.write else s.write) ++ writeStatements rest := rfl
    have hhead : 1 ≤ (if s.isHeader then '\n' :: s.write else s.write).length := by
      split <;> simp [hwrite]
    rw [hcons, List.length_append, List.length_cons]
    omega

/-- What is written is read back as the statements that were written, settled. -/
theorem read?_writeDocument {statements : List Statement} (h : ∀ s ∈ statements, s.IsWritten) :
    read? (writeDocument statements) =
      Entries.ofStatements (statements.map Statement.settle) := by
  cases statements with
  | nil => rfl
  | cons s rest =>
    have hs := h s List.mem_cons_self
    obtain ⟨c, t, hwrite, hc⟩ := exists_write hs
    have hmark : (writeDocument (s :: rest)).head? ≠ some '\uFEFF' := by
      rw [writeDocument, hwrite]
      simpa using hc.ne (d := '\uFEFF') (by decide) (by decide) (by decide) (by decide)
    have hlength : rest.length < (writeDocument (s :: rest)).length := by
      have hrest := length_le_writeStatements rest
      rw [writeDocument, hwrite, List.cons_append, List.length_cons, List.length_append]
      omega
    rw [writeDocument] at hmark hlength
    rw [read?, writeDocument, if_neg hmark,
      readStatements_of_afterGap? hs (afterGap?_write hs _ _),
      readStatements_writeStatements (fun x hx => h x (List.mem_cons_of_mem _ hx)) hlength]
    rfl

theorem Statement.write_settle (s : Statement) : s.settle.write = s.write := by
  cases s with
  | header path | arrayHeader path => rfl
  | pair path value =>
    cases value with
    | scalar x =>
      change writePath path ++ " = " ++ x.settle.write ++ "\n" =
        writePath path ++ " = " ++ x.write ++ "\n"
      rw [Toml.write_settle]
    | array | tables | table => rfl

/-- Statements have the text of what is left of them. -/
theorem writeDocument_settle (statements : List Statement) :
    writeDocument (statements.map Statement.settle) = writeDocument statements := by
  have hheader : ∀ s : Statement, s.settle.isHeader = s.isHeader := by
    intro s
    cases s <;> rfl
  cases statements with
  | nil => rfl
  | cons s rest =>
    rw [List.map_cons, writeDocument, writeDocument, writeStatements, writeStatements,
      List.flatMap_map]
    simp only [Statement.write_settle, hheader]

end TypedCommand.Toml
