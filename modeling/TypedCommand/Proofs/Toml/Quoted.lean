import Mathlib.Data.List.TakeWhile
import TypedCommand.Proofs.Words
import TypedCommand.Toml.Quoted

/-!
Quoted strings are read back. An escape stands for the character that it was made of, and
in a string over several lines no more than two quotes stand in a row before its end, so
that the closing quotes are found where they were written.
-/

namespace TypedCommand.Toml

open Text

/-- Control characters are among the first, so that each can be looked at by itself. -/
theorem hexEscape_of_fin : ∀ n : Fin 128, isControl (Char.ofNat n) = true →
    (hexEscape (Char.ofNat n)).take 2 = ['\\', 'u'] ∧
      ((hexEscape (Char.ofNat n)).drop 2).length = 4 ∧
      ((hexEscape (Char.ofNat n)).drop 2).all isHexDigit = true ∧
      valueIn 16 ((hexEscape (Char.ofNat n)).drop 2) = n.val := by
  decide +kernel

/-- The escape of a control character by its code point. -/
theorem readEscape_hexEscape {c : Char} (h : isControl c = true) :
    ∃ digits, hexEscape c = '\\' :: 'u' :: digits ∧
      ∀ rest, readEscape ('u' :: digits ++ rest) = some (c, rest) := by
  have hlt : c.toNat < 128 := by
    simp only [isControl, Bool.or_eq_true, decide_eq_true_eq, beq_iff_eq] at h
    omega
  have hc : Char.ofNat c.toNat = c := Char.ofNat_toNat c
  obtain ⟨htake, hlength, hhex, hvalue⟩ := hexEscape_of_fin ⟨c.toNat, hlt⟩ (by rwa [hc])
  rw [hc] at htake hlength hhex hvalue
  have hsplit := List.take_append_drop 2 (hexEscape c)
  rw [htake] at hsplit
  refine ⟨(hexEscape c).drop 2, hsplit.symm, fun rest => ?_⟩
  change readCodePoint 4 ((hexEscape c).drop 2 ++ rest) = _
  unfold readCodePoint
  rw [List.take_left' hlength, List.drop_left' hlength]
  dsimp only
  rw [hvalue, if_pos ⟨hlength, hhex, Or.inl (by omega)⟩, hc]

/-- What stands for a character in a basic string: the character itself, or an escape. -/
inductive StandsFor (multiline : Bool) (limit quotes : ℕ) : Text → Char → Prop
  | quote (hlt : quotes < limit) : StandsFor multiline limit quotes ['"'] '"'
  | newline (hmultiline : multiline = true) : StandsFor multiline limit quotes ['\n'] '\n'
  | plain {c : Char} (hquote : c ≠ '"') (hslash : c ≠ '\\') (hnewline : c ≠ '\n')
      (hreturn : c ≠ '\r') (hplain : isPlain c = true) : StandsFor multiline limit quotes [c] c
  | escape {c d : Char} {e : Text} (hspace : isSpace d = false) (hnewline : d ≠ '\n')
      (hreturn : d ≠ '\r') (hread : ∀ rest, readEscape (d :: e ++ rest) = some (c, rest)) :
      StandsFor multiline limit quotes ('\\' :: d :: e) c

theorem standsFor_basicChar (multiline : Bool) (limit quotes : ℕ) (c : Char) :
    StandsFor multiline limit quotes (basicChar multiline limit quotes c) c := by
  unfold basicChar
  split_ifs with hquote hlt hslash htab hnewline hmultiline hback hfeed hreturn hcontrol
  · subst hquote
    exact .quote hlt
  · subst hquote
    exact .escape rfl (by decide) (by decide) fun _ => rfl
  · subst hslash
    exact .escape rfl (by decide) (by decide) fun _ => rfl
  · subst htab
    exact .escape rfl (by decide) (by decide) fun _ => rfl
  · subst hnewline
    exact .newline hmultiline
  · subst hnewline
    exact .escape rfl (by decide) (by decide) fun _ => rfl
  · subst hback
    exact .escape rfl (by decide) (by decide) fun _ => rfl
  · subst hfeed
    exact .escape rfl (by decide) (by decide) fun _ => rfl
  · subst hreturn
    exact .escape rfl (by decide) (by decide) fun _ => rfl
  · obtain ⟨digits, heq, hread⟩ := readEscape_hexEscape hcontrol
    rw [heq]
    exact .escape rfl (by decide) (by decide) hread
  · exact .plain hquote hslash hnewline hreturn (by simp [isPlain, hcontrol])

theorem length_le_basicBody (multiline : Bool) (limit quotes : ℕ) (t : Text) :
    t.length ≤ (basicBody multiline limit quotes t).length := by
  induction t generalizing quotes with
  | nil => exact Nat.zero_le _
  | cons c t ih =>
    have hchar : 1 ≤ (basicChar multiline limit quotes c).length := by
      have hstands := standsFor_basicChar multiline limit quotes c
      generalize basicChar multiline limit quotes c = written at hstands
      cases hstands <;> simp
    rw [basicBody, List.length_append, List.length_cons]
    have := ih (if c = '"' ∧ quotes < limit then quotes + 1 else 0)
    omega

/-- A basic string on one line is read up to its closing quote. -/
theorem readBasic_basicBody (t rest : Text) {fuel : ℕ} (hfuel : t.length < fuel) :
    readBasic fuel (basicBody false 0 0 t ++ '"' :: rest) = some (t, rest) := by
  induction t generalizing fuel with
  | nil =>
    obtain ⟨fuel, rfl⟩ := Nat.exists_eq_add_of_lt hfuel
    rfl
  | cons c t ih =>
    obtain ⟨fuel, rfl⟩ : ∃ n, fuel = n + 1 := ⟨fuel - 1, by omega⟩
    have hrest : readBasic fuel (basicBody false 0 0 t ++ '"' :: rest) = some (t, rest) :=
      ih (by rw [List.length_cons] at hfuel; omega)
    have hbody : basicBody false 0 0 (c :: t) = basicChar false 0 0 c ++ basicBody false 0 0 t := by
      simp [basicBody]
    have hstands := standsFor_basicChar false 0 0 c
    rw [hbody, List.append_assoc]
    generalize basicChar false 0 0 c = written at hstands
    cases hstands with
    | quote hlt => exact absurd hlt (Nat.lt_irrefl 0)
    | newline hmultiline => simp at hmultiline
    | plain hquote hslash _ _ hplain =>
      rw [List.singleton_append, readBasic, if_neg hquote, if_neg hslash, if_pos hplain, hrest]
      rfl
    | escape _ _ _ hread =>
      rw [List.cons_append, readBasic, if_neg (by decide), if_pos rfl, hread]
      dsimp only [Option.bind_eq_bind, Option.bind_some]
      rw [hrest]
      rfl

/-- A literal string on one line is read up to its closing quote. -/
theorem readLiteral_append {t : Text} (hplain : ∀ c ∈ t, isPlain c = true) (hquote : '\'' ∉ t)
    (rest : Text) : readLiteral (t ++ '\'' :: rest) = some (t, rest) := by
  induction t with
  | nil => rfl
  | cons c t ih =>
    rw [List.mem_cons, not_or] at hquote
    rw [List.cons_append, readLiteral, if_neg (Ne.symm hquote.1),
      if_pos (hplain c List.mem_cons_self),
      ih (fun d hd => hplain d (List.mem_cons_of_mem _ hd)) hquote.2]
    rfl

/-- Three quotes that follow no more than two close a string, and those two belong to it. -/
theorem readClosing_append (quote : Char) {t rest : Text}
    (hrun : (t.takeWhile (· == quote)).length ≤ 2) (hrest : rest.head? ≠ some quote) :
    readClosing quote (t ++ (List.replicate 3 quote ++ rest)) =
      if t.all (· == quote) then some (t, rest) else none := by
  unfold readClosing
  dsimp only
  by_cases hall : t.all (· == quote) = true
  · have hquotes : t = List.replicate t.length quote := by
      refine List.eq_replicate_iff.2 ⟨rfl, fun c hc => ?_⟩
      simpa using List.all_eq_true.1 hall c hc
    have htake : t.takeWhile (· == quote) = t := by
      rw [hquotes]
      simp
    have hnone : rest.takeWhile (· == quote) = [] := by
      cases rest with
      | nil => rfl
      | cons c rest =>
        have hc : c ≠ quote := by simpa using hrest
        rw [List.takeWhile_cons_of_neg (by simpa using hc)]
    have hcount : ((t ++ (List.replicate 3 quote ++ rest)).takeWhile (· == quote)).length =
        t.length + 3 := by
      rw [hquotes, ← List.append_assoc, List.replicate_append_replicate,
        List.takeWhile_append_of_pos (by simp), hnone]
      simp
    rw [htake] at hrun
    rw [if_pos hall, hcount, if_neg (by omega), Nat.min_eq_left (by omega), Nat.add_sub_cancel,
      ← hquotes, ← List.append_assoc, List.drop_left' (by simp)]
  · obtain ⟨c, hc, hne⟩ : ∃ c ∈ t, (c == quote) = false := by simpa using hall
    have htake : (t ++ (List.replicate 3 quote ++ rest)).takeWhile (· == quote) =
        t.takeWhile (· == quote) := by
      rw [List.takeWhile_append, if_neg]
      intro hlength
      have hprefix := List.takeWhile_prefix (p := (· == quote)) (l := t)
      have heq := hprefix.eq_of_length hlength
      have hquote := List.mem_takeWhile_imp (heq ▸ hc)
      rw [hne] at hquote
      simp at hquote
    rw [htake, if_pos (by omega), if_neg hall]

/-- No more than two quotes stand in a row in a basic string over several lines. -/
theorem length_takeWhile_basicBody {quotes : ℕ} (hquotes : quotes ≤ 2) (t : Text) :
    ((basicBody true 2 quotes t).takeWhile (· == '"')).length ≤ 2 - quotes := by
  induction t generalizing quotes with
  | nil => exact Nat.zero_le _
  | cons c t ih =>
    have hstands := standsFor_basicChar true 2 quotes c
    rw [basicBody]
    generalize basicChar true 2 quotes c = written at hstands
    cases hstands with
    | quote hlt =>
      rw [if_pos ⟨rfl, hlt⟩, List.singleton_append, List.takeWhile_cons_of_pos rfl,
        List.length_cons]
      have := ih (show quotes + 1 ≤ 2 by omega)
      omega
    | newline => exact Nat.zero_le _
    | plain hquote =>
      rw [List.singleton_append, List.takeWhile_cons_of_neg (by simpa using hquote)]
      exact Nat.zero_le _
    | escape => exact Nat.zero_le _

/-- A body of quotes alone is the text of those quotes. -/
theorem eq_basicBody_of_all {quotes : ℕ} {t : Text}
    (h : (basicBody true 2 quotes t).all (· == '"') = true) : basicBody true 2 quotes t = t := by
  induction t generalizing quotes with
  | nil => rfl
  | cons c t ih =>
    have hstands := standsFor_basicChar true 2 quotes c
    rw [basicBody] at h ⊢
    rw [List.all_append, Bool.and_eq_true] at h
    generalize basicChar true 2 quotes c = written at hstands h
    cases hstands with
    | quote =>
      rw [ih h.2]
      rfl
    | newline => simp at h
    | plain hquote => simp [hquote] at h
    | escape => simp at h

theorem splitNewline_newline (t : Text) : splitNewline ('\n' :: t) = some (['\n'], t) := rfl

theorem splitNewline_eq_none {c : Char} {t : Text} (hn : c ≠ '\n') (hr : c ≠ '\r') :
    splitNewline (c :: t) = none := by
  unfold splitNewline
  split
  · next h => exact absurd (List.cons.inj h).1 hn
  · next h => exact absurd (List.cons.inj h).1 hr
  · rfl

theorem skipLineBreak_eq_none {c : Char} {t : Text} (hs : isSpace c = false) (hn : c ≠ '\n')
    (hr : c ≠ '\r') : skipLineBreak (c :: t) = none := by
  rw [skipLineBreak, skipSpaces, List.dropWhile_cons_of_neg (by simp [hs]),
    splitNewline_eq_none hn hr]

/-- A basic string over several lines is read up to its closing quotes. -/
theorem readMultilineBasic_basicBody (t : Text) {rest : Text} (hrest : rest.head? ≠ some '"')
    {quotes fuel : ℕ} (hquotes : quotes ≤ 2) (hfuel : t.length < fuel) :
    readMultilineBasic fuel (basicBody true 2 quotes t ++ (List.replicate 3 '"' ++ rest)) =
      some (t, rest) := by
  -- the quotes directly before the text are counted, so never more than two are left open
  induction t generalizing quotes fuel with
  | nil =>
    obtain ⟨fuel, rfl⟩ : ∃ n, fuel = n + 1 := ⟨fuel - 1, by omega⟩
    have hclosing := readClosing_append '"' (t := []) (by simp) hrest
    rw [basicBody, List.nil_append] at *
    change readMultilineBasic (fuel + 1) ('"' :: '"' :: '"' :: rest) = _
    rw [readMultilineBasic, show '"' :: '"' :: '"' :: rest = List.replicate 3 '"' ++ rest from rfl,
      hclosing]
    rfl
  | cons c t ih =>
    obtain ⟨fuel, rfl⟩ : ∃ n, fuel = n + 1 := ⟨fuel - 1, by omega⟩
    have hlength : t.length < fuel := by
      rw [List.length_cons] at hfuel
      omega
    have hrun := length_takeWhile_basicBody hquotes (c :: t)
    have hclosing := readClosing_append '"' (by omega) hrest
      (t := basicBody true 2 quotes (c :: t))
    by_cases hall : (basicBody true 2 quotes (c :: t)).all (· == '"') = true
    · rw [if_pos hall] at hclosing
      rw [eq_basicBody_of_all hall] at hclosing ⊢
      rw [List.cons_append, readMultilineBasic, ← List.cons_append, hclosing]
    · rw [if_neg hall] at hclosing
      rw [basicBody, List.append_assoc] at hclosing ⊢
      have hstands := standsFor_basicChar true 2 quotes c
      generalize basicChar true 2 quotes c = written at hstands hclosing
      cases hstands with
      | quote hlt =>
        rw [if_pos ⟨rfl, hlt⟩, List.singleton_append] at hclosing ⊢
        rw [readMultilineBasic, hclosing]
        dsimp only
        rw [if_neg (by decide), splitNewline_eq_none (by decide) (by decide)]
        dsimp only
        rw [if_pos (by decide), ih (by omega) hlength]
        rfl
      | newline =>
        rw [if_neg (by simp), List.singleton_append] at hclosing ⊢
        rw [readMultilineBasic, hclosing]
        dsimp only
        rw [if_neg (by decide), splitNewline_newline]
        dsimp only
        rw [ih (Nat.zero_le _) hlength]
        rfl
      | plain hquote hslash hnewline hreturn hplain =>
        rw [if_neg (fun hc => hquote hc.1), List.singleton_append] at hclosing ⊢
        rw [readMultilineBasic, hclosing]
        dsimp only
        rw [if_neg hslash, splitNewline_eq_none hnewline hreturn]
        dsimp only
        rw [if_pos hplain, ih (Nat.zero_le _) hlength]
        rfl
      | escape hspace hnewline hreturn hread =>
        have hnext : (if c = '"' ∧ quotes < 2 then quotes + 1 else 0) ≤ 2 := by
          split <;> omega
        have htail := ih hnext hlength
        rw [List.cons_append] at hclosing ⊢
        rw [readMultilineBasic, hclosing]
        dsimp only
        rw [if_pos rfl, List.cons_append, skipLineBreak_eq_none hspace hnewline hreturn]
        dsimp only
        rw [← List.cons_append, hread]
        dsimp only [Option.bind_eq_bind, Option.bind_some]
        rw [htail]
        rfl

theorem length_takeWhile_le_two {quote : Char} {t : Text} (h : ¬ List.replicate 3 quote <:+: t) :
    (t.takeWhile (· == quote)).length ≤ 2 := by
  by_contra hlong
  have hquotes : t.takeWhile (· == quote) =
      List.replicate (t.takeWhile (· == quote)).length quote :=
    List.eq_replicate_iff.2 ⟨rfl, fun c hc => by simpa using List.mem_takeWhile_imp hc⟩
  have hsplit : (t.takeWhile (· == quote)).length =
      3 + ((t.takeWhile (· == quote)).length - 3) := by omega
  rw [hsplit, ← List.replicate_append_replicate] at hquotes
  exact h ((List.prefix_append _ _).trans (hquotes ▸ List.takeWhile_prefix _)).isInfix

/-- A literal string over several lines is read up to its closing quotes, if no three
quotes stand in a row in it. -/
theorem readMultilineLiteral_append {t rest : Text} (hrest : rest.head? ≠ some '\'')
    (hplain : ∀ c ∈ t, isPlain c = true ∨ c = '\n') (hrun : ¬ List.replicate 3 '\'' <:+: t)
    {fuel : ℕ} (hfuel : t.length < fuel) :
    readMultilineLiteral fuel (t ++ (List.replicate 3 '\'' ++ rest)) = some (t, rest) := by
  induction t generalizing fuel with
  | nil =>
    obtain ⟨fuel, rfl⟩ : ∃ n, fuel = n + 1 := ⟨fuel - 1, by omega⟩
    have hclosing := readClosing_append '\'' (t := []) (by simp) hrest
    rw [List.nil_append] at *
    change readMultilineLiteral (fuel + 1) ('\'' :: '\'' :: '\'' :: rest) = _
    rw [readMultilineLiteral,
      show '\'' :: '\'' :: '\'' :: rest = List.replicate 3 '\'' ++ rest from rfl, hclosing]
    rfl
  | cons c t ih =>
    obtain ⟨fuel, rfl⟩ : ∃ n, fuel = n + 1 := ⟨fuel - 1, by omega⟩
    have hclosing := readClosing_append '\'' (length_takeWhile_le_two hrun) hrest
    have htail : readMultilineLiteral fuel (t ++ (List.replicate 3 '\'' ++ rest)) =
        some (t, rest) := by
      apply ih (fun d hd => hplain d (List.mem_cons_of_mem _ hd))
      · exact fun h => hrun (h.trans (List.infix_cons (List.infix_refl t)))
      · rw [List.length_cons] at hfuel
        omega
    rw [List.cons_append] at hclosing ⊢
    rw [readMultilineLiteral, hclosing]
    by_cases hall : (c :: t).all (· == '\'') = true
    · rw [if_pos hall]
    · rw [if_neg hall]
      dsimp only
      by_cases hn : c = '\n'
      · rw [hn, splitNewline_newline]
        dsimp only
        rw [htail]
        rfl
      · have hc : isPlain c = true := (hplain c List.mem_cons_self).resolve_right hn
        have hr : c ≠ '\r' := fun hr => by
          rw [hr] at hc
          exact absurd hc (by decide)
        rw [splitNewline_eq_none hn hr]
        dsimp only
        rw [if_pos hc, htail]
        rfl

/-- A run that has begun is no longer than the run it becomes. -/
theorem exists_run_of_current {p : Char → Bool} {current : Text} (hne : current ≠ []) (t : Text) :
    ∃ r ∈ runsFrom p current t, current.length ≤ r.length := by
  induction t generalizing current with
  | nil =>
    rw [runsFrom, if_neg (by simpa using hne)]
    exact ⟨current, List.mem_singleton_self _, Nat.le_refl _⟩
  | cons c t ih =>
    rw [runsFrom]
    split
    · obtain ⟨r, hr, hle⟩ := ih (show current ++ [c] ≠ [] by simp)
      rw [List.length_append] at hle
      exact ⟨r, hr, by omega⟩
    · rw [if_neg (by simpa using hne)]
      exact ⟨current, List.mem_cons_self, Nat.le_refl _⟩

theorem exists_long_run {quote : Char} {t : Text} (h : List.replicate 3 quote <:+: t)
    (current : Text) : ∃ r ∈ runsFrom (· == quote) current t, 3 ≤ r.length := by
  obtain ⟨before, after, rfl⟩ := h
  induction before generalizing current with
  | nil =>
    rw [List.nil_append, runsFrom_append (by simp)]
    obtain ⟨r, hr, hle⟩ := exists_run_of_current (p := (· == quote))
      (show current ++ List.replicate 3 quote ≠ [] by simp) after
    rw [List.length_append, List.length_replicate] at hle
    exact ⟨r, hr, by omega⟩
  | cons c before ih =>
    rw [List.cons_append, List.cons_append, runsFrom]
    split
    · exact ih (current ++ [c])
    · split
      · exact ih []
      · obtain ⟨r, hr, hle⟩ := ih []
        exact ⟨r, List.mem_cons_of_mem _ hr, hle⟩

theorem le_foldl_max {l : List ℕ} {a n : ℕ} (h : n ≤ a ∨ ∃ m ∈ l, n ≤ m) : n ≤ l.foldl max a := by
  induction l generalizing a with
  | nil => simpa using h
  | cons m l ih =>
    rw [List.foldl_cons]
    apply ih
    rcases h with h | ⟨m', hm', h⟩
    · exact Or.inl (Nat.le_trans h (Nat.le_max_left _ _))
    · rcases List.mem_cons.1 hm' with rfl | hm'
      · exact Or.inl (Nat.le_trans h (Nat.le_max_right _ _))
      · exact Or.inr ⟨m', hm', h⟩

/-- Where no run is longer than two, no three quotes stand in a row. -/
theorem not_infix_of_longestRun {quote : Char} {t : Text} (h : longestRun quote t ≤ 2) :
    ¬ List.replicate 3 quote <:+: t := by
  intro hinfix
  obtain ⟨r, hr, hle⟩ := exists_long_run hinfix []
  have hlong : 3 ≤ longestRun quote t :=
    le_foldl_max (Or.inr ⟨r.length, List.mem_map_of_mem hr, hle⟩)
  omega

theorem readString_of_basic {t : Text} (h : ∀ rest, t ≠ '"' :: '"' :: rest) :
    readString ('"' :: t) = readBasic (t.length + 1) t := by
  unfold readString
  split
  · next heq => exact absurd (List.cons.inj heq).2 (h _)
  · next heq =>
    rw [← (List.cons.inj heq).2]
    rfl
  · next heq => simp at heq
  · next heq => simp at heq
  · next hbasic _ _ => exact absurd rfl (hbasic t)

theorem readString_of_literal {t : Text} (h : ∀ rest, t ≠ '\'' :: '\'' :: rest) :
    readString ('\'' :: t) = readLiteral t := by
  unfold readString
  split
  · next heq => simp at heq
  · next heq => simp at heq
  · next heq => exact absurd (List.cons.inj heq).2 (h _)
  · next heq => rw [← (List.cons.inj heq).2]
  · next hliteral => exact absurd rfl (hliteral t)

/-- The newline that is written behind opening quotes is the one that reading drops. -/
theorem dropFirstNewline_firstNewline {t body : Text}
    (h : '\n' ∉ t → ∀ c, body.head? = some c → c ≠ '\n' ∧ c ≠ '\r') :
    dropFirstNewline (firstNewline t ++ body) = body := by
  unfold firstNewline
  split
  · rfl
  · next hnone =>
    have hnone : '\n' ∉ t := by simpa using hnone
    cases body with
    | nil => rfl
    | cons c body =>
      obtain ⟨hn, hr⟩ := h hnone c rfl
      rw [List.nil_append, dropFirstNewline, splitNewline_eq_none hn hr]

theorem head?_basicBody {multiline : Bool} {limit quotes : ℕ} {t rest : Text} (h : '\n' ∉ t)
    (hrest : ∀ c, rest.head? = some c → c ≠ '\n' ∧ c ≠ '\r') {c : Char}
    (hc : (basicBody multiline limit quotes t ++ rest).head? = some c) : c ≠ '\n' ∧ c ≠ '\r' := by
  cases t with
  | nil => exact hrest c hc
  | cons d t =>
    have hstands := standsFor_basicChar multiline limit quotes d
    rw [basicBody] at hc
    generalize basicChar multiline limit quotes d = written at hstands hc
    cases hstands with
    | quote =>
      obtain rfl := Option.some.inj hc
      decide
    | newline => exact absurd List.mem_cons_self h
    | plain _ _ hnewline hreturn =>
      obtain rfl := Option.some.inj hc
      exact ⟨hnewline, hreturn⟩
    | escape =>
      obtain rfl := Option.some.inj hc
      decide

/-- A text in the basic form is read back, whatever the text. -/
theorem readString_basic (t : Text) {rest : Text} (hrest : rest.head? ≠ some '"') :
    readString (StringForm.basic.write t ++ rest) = some (t, rest) := by
  have hwrite : StringForm.basic.write t ++ rest =
      '"' :: (basicBody false 0 0 t ++ '"' :: rest) := by
    simp [StringForm.write]
  have hlength := length_le_basicBody false 0 0 t
  rw [hwrite, readString_of_basic, readBasic_basicBody]
  · rw [List.length_append]
    omega
  · intro rest' heq
    cases t with
    | nil =>
      rw [basicBody, List.nil_append, List.cons.injEq] at heq
      exact hrest (heq.2 ▸ rfl)
    | cons c t =>
      have hstands := standsFor_basicChar false 0 0 c
      rw [basicBody] at heq
      generalize basicChar false 0 0 c = written at hstands heq
      cases hstands with
      | quote hlt => exact absurd hlt (Nat.lt_irrefl 0)
      | newline hmultiline => simp at hmultiline
      | plain hquote => exact hquote (List.cons.inj heq).1
      | escape => simp at heq

theorem readString_literal {t rest : Text} (hne : t ≠ []) (hplain : ∀ c ∈ t, isPlain c = true)
    (hquote : '\'' ∉ t) : readString (StringForm.literal.write t ++ rest) = some (t, rest) := by
  have hwrite : StringForm.literal.write t ++ rest = '\'' :: (t ++ '\'' :: rest) := by
    simp [StringForm.write]
  rw [hwrite, readString_of_literal, readLiteral_append hplain hquote]
  intro rest' heq
  obtain ⟨c, t, rfl⟩ := List.exists_cons_of_ne_nil hne
  exact hquote ((List.cons.inj heq).1 ▸ List.mem_cons_self)

theorem readString_multilineBasic (t : Text) {rest : Text} (hrest : rest.head? ≠ some '"') :
    readString (StringForm.multilineBasic.write t ++ rest) = some (t, rest) := by
  have hwrite : StringForm.multilineBasic.write t ++ rest = '"' :: '"' :: '"' ::
      (firstNewline t ++ (basicBody true 2 0 t ++ (List.replicate 3 '"' ++ rest))) := by
    simp [StringForm.write]
  have hlength := length_le_basicBody true 2 0 t
  rw [hwrite, readString, dropFirstNewline_firstNewline,
    readMultilineBasic_basicBody t hrest (Nat.zero_le _)]
  · simp only [List.length_cons, List.length_append]
    omega
  · exact fun hn c hc => head?_basicBody hn (by simp) hc

theorem readString_multilineLiteral {t rest : Text} (hrest : rest.head? ≠ some '\'')
    (hplain : ∀ c ∈ t, isPlain c = true ∨ c = '\n') (hrun : longestRun '\'' t ≤ 2) :
    readString (StringForm.multilineLiteral.write t ++ rest) = some (t, rest) := by
  have hwrite : StringForm.multilineLiteral.write t ++ rest = '\'' :: '\'' :: '\'' ::
      (firstNewline t ++ (t ++ (List.replicate 3 '\'' ++ rest))) := by
    simp [StringForm.write]
  rw [hwrite, readString, dropFirstNewline_firstNewline,
    readMultilineLiteral_append hrest hplain (not_infix_of_longestRun hrun)]
  · simp only [List.length_cons, List.length_append]
    omega
  · intro hn c hc
    cases t with
    | nil =>
      obtain rfl := Option.some.inj hc
      decide
    | cons d t =>
      obtain rfl := Option.some.inj hc
      have hne : d ≠ '\n' := fun heq => hn (heq ▸ List.mem_cons_self)
      refine ⟨hne, fun hr => ?_⟩
      have hd := (hplain d List.mem_cons_self).resolve_right hne
      rw [hr] at hd
      exact absurd hd (by decide)

/-- A string is read back as the text that it was written for. -/
theorem readString_writeString (t : Text) {rest : Text} (hquote : rest.head? ≠ some '"')
    (happ : rest.head? ≠ some '\'') : readString (writeString t ++ rest) = some (t, rest) := by
  have hplain : needsEscape t = false → ∀ c ∈ t, isPlain c = true ∨ c = '\n' := by
    intro h c hc
    have hany := List.any_eq_false.1 h c hc
    simpa [imp_iff_not_or, or_comm] using hany
  unfold writeString StringForm.ofText
  dsimp only
  split
  · exact readString_basic t hquote
  · next hbasic =>
    split
    · next hliteral =>
      simp only [Bool.and_eq_true, Bool.not_eq_true', List.contains_eq_mem,
        decide_eq_false_iff_not] at hliteral hbasic
      obtain ⟨⟨hesc, hnewline⟩, happ'⟩ := hliteral
      refine readString_literal ?_ (fun c hc => ?_) happ'
      · rintro rfl
        simp [hesc] at hbasic
      · exact (hplain hesc c hc).resolve_right fun hn => hnewline (hn ▸ hc)
    · split
      · exact readString_multilineBasic t hquote
      · split
        · next hmulti =>
          simp only [Bool.and_eq_true, Bool.not_eq_true', decide_eq_true_eq] at hmulti
          exact readString_multilineLiteral happ (hplain hmulti.1) hmulti.2
        · split
          · exact readString_multilineBasic t hquote
          · exact readString_basic t hquote

end TypedCommand.Toml
