import Mathlib.Data.List.Basic
import Mathlib.Data.List.TakeWhile
import TypedCommand.Declaration.Flags

/-!
Words and names. Words that hold no blank, written with a space between, are read back
as they were; a trimmed text neither begins nor ends with a blank; a name is what can
stand in a command name and behind the dashes of a flag.
-/

namespace TypedCommand.Text

/-- A word of a command name, or what follows the dashes of a flag. -/
structure IsName (t : Text) : Prop where
  ne_nil : t ≠ []
  no_dash : t.head? ≠ some '-'
  chars : ∀ c ∈ t, isWordChar c = true

structure IsIdentifier (t : Text) : Prop where
  ne_nil : t ≠ []
  chars : ∀ c ∈ t, isIdentifierChar c = true

structure IsWord (t : Text) : Prop where
  ne_nil : t ≠ []
  chars : ∀ c ∈ t, isBlank c = false

theorem isName_iff {t : Text} : Flags.isName t = true ↔ IsName t := by
  simp only [Flags.isName, Bool.and_eq_true, Bool.not_eq_true', List.isEmpty_eq_false_iff,
    bne_iff_ne, List.all_eq_true]
  exact ⟨fun ⟨⟨h, h'⟩, h''⟩ => ⟨h, h', h''⟩, fun h => ⟨⟨h.ne_nil, h.no_dash⟩, h.chars⟩⟩

theorem isLower_iff {c : Char} : c.isLower = true ↔ 97 ≤ c.toNat ∧ c.toNat ≤ 122 := by
  change (decide (97 ≤ c.toNat) && decide (c.toNat ≤ 122)) = true ↔ _
  rw [Bool.and_eq_true, decide_eq_true_eq, decide_eq_true_eq]

theorem isDigit_iff {c : Char} : c.isDigit = true ↔ 48 ≤ c.toNat ∧ c.toNat ≤ 57 := by
  change (decide (48 ≤ c.toNat) && decide (c.toNat ≤ 57)) = true ↔ _
  rw [Bool.and_eq_true, decide_eq_true_eq, decide_eq_true_eq]

theorem isAlnum_iff {c : Char} : isAlnum c = true ↔
    (48 ≤ c.toNat ∧ c.toNat ≤ 57) ∨ (65 ≤ c.toNat ∧ c.toNat ≤ 90) ∨
      (97 ≤ c.toNat ∧ c.toNat ≤ 122) := by
  have hupper : c.isUpper = true ↔ 65 ≤ c.toNat ∧ c.toNat ≤ 90 := by
    change decide (65 ≤ c.toNat ∧ c.toNat ≤ 90) = true ↔ _
    rw [decide_eq_true_eq]
  change ((c.isUpper || c.isLower) || c.isDigit) = true ↔ _
  rw [Bool.or_eq_true, Bool.or_eq_true, hupper, isLower_iff, isDigit_iff]
  omega

theorem toNat_toLower (c : Char) : c.toLower.toNat =
    if 65 ≤ c.toNat ∧ c.toNat ≤ 90 then c.toNat + 32 else c.toNat := by
  unfold Char.toLower
  simp only [UInt32.le_iff_toNat_le, ge_iff_le]
  change (if h : 65 ≤ c.toNat ∧ c.toNat ≤ 90 then _ else c : Char).toNat = _
  split
  · next h =>
    change (c.val + 32).toNat = c.val.toNat + 32
    have hn : c.val.toNat ≤ 90 := h.2
    rw [UInt32.toNat_add]
    exact Nat.mod_eq_of_lt (by change c.val.toNat + 32 < 4294967296; omega)
  · rfl

theorem isAlnum_toLower (c : Char) : isAlnum c.toLower = isAlnum c := by
  rw [Bool.eq_iff_iff, isAlnum_iff, isAlnum_iff, toNat_toLower]
  split <;> omega

theorem isWordChar_iff {c : Char} : isWordChar c = true ↔
    isAlnum c = true ∨ c.toNat = 95 ∨ c.toNat = 45 := by
  have heq : ∀ d : Char, c = d ↔ c.toNat = d.toNat := fun d => ⟨congrArg _, Char.toNat_inj.1⟩
  simp only [isWordChar, isIdentifierChar, Bool.or_eq_true, beq_iff_eq, heq, or_assoc]
  exact Iff.rfl

theorem isBlank_eq_false_of_isWordChar {c : Char} (h : isWordChar c = true) :
    isBlank c = false := by
  have hrange := isWordChar_iff.1 h
  rw [isAlnum_iff] at hrange
  simp only [isBlank, Bool.or_eq_false_iff, Bool.and_eq_false_iff, decide_eq_false_iff_not,
    beq_eq_false_iff_ne]
  omega

theorem isWordChar_of_isIdentifierChar {c : Char} (h : isIdentifierChar c = true) :
    isWordChar c = true := by
  simp [isWordChar, h]

theorem IsIdentifier.isName {t : Text} (h : IsIdentifier t) : IsName t := by
  refine ⟨h.ne_nil, fun hdash => ?_, fun c hc => isWordChar_of_isIdentifierChar (h.chars c hc)⟩
  have hchar := h.chars '-' (List.mem_of_mem_head? hdash)
  exact absurd hchar (by decide)

theorem IsName.isWord {t : Text} (h : IsName t) : IsWord t :=
  ⟨h.ne_nil, fun c hc => isBlank_eq_false_of_isWordChar (h.chars c hc)⟩

theorem mem_intercalate {α : Type} {sep : List α} {ts : List (List α)} {c : α}
    (h : c ∈ sep.intercalate ts) : c ∈ sep ∨ ∃ t ∈ ts, c ∈ t := by
  induction ts with
  | nil => simp at h
  | cons t ts ih =>
    cases ts with
    | nil => exact Or.inr ⟨t, List.mem_cons_self, by simpa using h⟩
    | cons t' ts =>
      rw [List.intercalate_cons_cons, List.mem_append, List.mem_append] at h
      rcases h with (h | h) | h
      · exact Or.inr ⟨t, List.mem_cons_self, h⟩
      · exact Or.inl h
      · exact (ih h).imp id fun ⟨t, ht, hc⟩ => ⟨t, List.mem_cons_of_mem _ ht, hc⟩

theorem map_intercalate {α β : Type} (f : α → β) (sep : List α) (items : List (List α)) :
    (sep.intercalate items).map f = (sep.map f).intercalate (items.map (List.map f)) := by
  induction items with
  | nil => rfl
  | cons item items ih =>
    cases items with
    | nil => simp
    | cons next items =>
      rw [List.intercalate_cons_cons, List.map_append, List.map_append, ih]
      exact (List.intercalate_cons_cons ..).symm

theorem infix_intercalate {sep w : Text} {ws : List Text} (h : w ∈ ws) :
    w <:+: sep.intercalate ws := by
  induction ws with
  | nil => exact absurd h List.not_mem_nil
  | cons first rest ih =>
    cases rest with
    | nil =>
      obtain rfl := List.mem_singleton.1 h
      simp
    | cons second rest =>
      rw [List.intercalate_cons_cons]
      rcases List.mem_cons.1 h with rfl | h
      · exact ((List.prefix_append _ sep).trans (List.prefix_append _ _)).isInfix
      · exact (ih h).trans (List.suffix_append _ _).isInfix

theorem prefix_intercalate_cons (sep t : Text) (ts : List Text) :
    t <+: sep.intercalate (t :: ts) := by
  cases ts with
  | nil => simp
  | cons t' ts =>
    rw [List.intercalate_cons_cons, List.append_assoc]
    exact List.prefix_append _ _

/-- Characters of the class prolong the current run. -/
theorem runsFrom_append {p : Char → Bool} {t : Text} (ht : ∀ c ∈ t, p c = true)
    (current rest : Text) : runsFrom p current (t ++ rest) = runsFrom p (current ++ t) rest := by
  induction t generalizing current with
  | nil => simp
  | cons c t ih =>
    have hc : p c = true := ht c List.mem_cons_self
    rw [List.cons_append, runsFrom, if_pos hc, ih (fun d hd => ht d (List.mem_cons_of_mem _ hd))]
    simp

/-- Every run is a non-empty stretch of characters of the class. -/
theorem mem_runsFrom {p : Char → Bool} {current t r : Text} (hcurrent : ∀ c ∈ current, p c = true)
    (hr : r ∈ runsFrom p current t) : r ≠ [] ∧ ∀ c ∈ r, p c = true := by
  induction t generalizing current with
  | nil =>
    rw [runsFrom] at hr
    split at hr
    · simp at hr
    · next hne =>
      obtain rfl := List.mem_singleton.1 hr
      exact ⟨by simpa using hne, hcurrent⟩
  | cons c t ih =>
    rw [runsFrom] at hr
    split at hr
    · next hc =>
      refine ih (fun d hd => ?_) hr
      rcases List.mem_append.1 hd with hd | hd
      · exact hcurrent d hd
      · exact List.mem_singleton.1 hd ▸ hc
    · split at hr
      · exact ih (by simp) hr
      · next hne =>
        rcases List.mem_cons.1 hr with rfl | hr
        · exact ⟨by simpa using hne, hcurrent⟩
        · exact ih (by simp) hr

theorem isWord_of_mem_words {t w : Text} (h : w ∈ words t) : IsWord w := by
  obtain ⟨hne, hchars⟩ := mem_runsFrom (by simp) h
  exact ⟨hne, fun c hc => by simpa using hchars c hc⟩

/-- A character outside the class ends a run, and what follows is read on its own. -/
theorem runsFrom_append_cons {p : Char → Bool} {c : Char} (hc : p c = false)
    (current t rest : Text) :
    runsFrom p current (t ++ c :: rest) = runsFrom p current t ++ runsFrom p [] rest := by
  induction t generalizing current with
  | nil =>
    rw [List.nil_append, runsFrom, runsFrom, hc]
    cases current <;> rfl
  | cons d t ih =>
    rw [List.cons_append, runsFrom, runsFrom]
    cases hd : p d with
    | true => exact ih (current ++ [d])
    | false =>
      cases current with
      | nil => exact ih []
      | cons e current => exact congrArg ((e :: current) :: ·) (ih [])

/-- Characters outside the class are passed over until a run begins. -/
theorem runsFrom_gap {p : Char → Bool} {gap : Text} (hgap : ∀ c ∈ gap, p c = false)
    (rest : Text) : runsFrom p [] (gap ++ rest) = runsFrom p [] rest := by
  induction gap with
  | nil => rfl
  | cons c gap ih =>
    obtain ⟨hc, hgap⟩ := List.forall_mem_cons.1 hgap
    rw [List.cons_append, runsFrom, hc]
    exact ih hgap

/-- A gap parts the runs before it from those behind it, whatever it consists of. -/
theorem runs_append_gap {p : Char → Bool} {gap : Text} (hgap : ∀ c ∈ gap, p c = false)
    (hne : gap ≠ []) (t rest : Text) : runs p (t ++ (gap ++ rest)) = runs p t ++ runs p rest := by
  cases gap with
  | nil => exact absurd rfl hne
  | cons c gap =>
    obtain ⟨hc, hgap⟩ := List.forall_mem_cons.1 hgap
    unfold runs
    rw [List.cons_append, runsFrom_append_cons hc, runsFrom_gap hgap]

theorem runsFrom_ne_nil {p : Char → Bool} {current : Text} (hne : current ≠ []) (t : Text) :
    runsFrom p current t ≠ [] := by
  induction t generalizing current with
  | nil => simp [runsFrom, hne]
  | cons c t ih =>
    rw [runsFrom]
    split
    · exact ih (by simp)
    · simp [hne]

theorem runs_eq_nil_iff {p : Char → Bool} {t : Text} :
    runs p t = [] ↔ ∀ c ∈ t, p c = false := by
  constructor
  · intro h
    induction t with
    | nil => exact List.forall_mem_nil _
    | cons c t ih =>
      rw [runs, runsFrom] at h
      split at h
      · exact absurd h (runsFrom_ne_nil (by simp) t)
      · next hc => exact List.forall_mem_cons.2 ⟨eq_false_of_ne_true hc, ih h⟩
  · intro h
    have hnone := runsFrom_gap h []
    rwa [List.append_nil] at hnone

/-- Where no character changes its class, the runs of the changed text are the changed runs. -/
theorem runsFrom_map {p : Char → Bool} {f : Char → Char} (hf : ∀ c, p (f c) = p c)
    (current t : Text) :
    runsFrom p (current.map f) (t.map f) = (runsFrom p current t).map (·.map f) := by
  induction t generalizing current with
  | nil => cases current <;> rfl
  | cons c t ih =>
    rw [List.map_cons, runsFrom, runsFrom, hf]
    cases p c with
    | true =>
      have hrest := ih (current ++ [c])
      rwa [List.map_append] at hrest
    | false =>
      cases current with
      | nil => exact ih []
      | cons d current => exact congrArg ((d :: current).map f :: ·) (ih [])

theorem words_of_isWord {w : Text} (h : IsWord w) : words w = [w] := by
  have hchars : ∀ c ∈ w, (!isBlank c) = true := by
    intro c hc
    rw [h.chars c hc]
    rfl
  have hrun := runsFrom_append hchars [] []
  rw [List.append_nil] at hrun
  rw [words, runs, hrun, runsFrom]
  simp [h.ne_nil]

/-- Texts with a space between neighbours have the words of each text, one after the other. -/
theorem words_intercalate_eq_flatMap (ts : List Text) :
    words ([' '].intercalate ts) = ts.flatMap words := by
  induction ts with
  | nil => rfl
  | cons t ts ih =>
    cases ts with
    | nil => simp
    | cons t' ts =>
      have hblank : (!isBlank ' ') = false := rfl
      have hsplit : words (t ++ ' ' :: [' '].intercalate (t' :: ts)) =
          words t ++ words ([' '].intercalate (t' :: ts)) :=
        runsFrom_append_cons hblank [] t _
      rw [List.intercalate_cons_cons, List.append_assoc, List.singleton_append, hsplit, ih]
      rfl

/-- Words with a space between neighbours are read back. -/
theorem words_intercalate {ws : List Text} (h : ∀ w ∈ ws, IsWord w) :
    words ([' '].intercalate ws) = ws := by
  have hwords : ws.flatMap words = ws.flatMap (fun w => [w]) :=
    List.flatMap_congr fun w hw => words_of_isWord (h w hw)
  rw [words_intercalate_eq_flatMap, hwords, List.flatMap_singleton']

/-- The words of a text with blanks around and between them. -/
inductive Spaced : List Text → Text → Prop
  | nil {gap : Text} (hgap : ∀ c ∈ gap, isBlank c = true) : Spaced [] gap
  | cons {gap w rest : Text} {ws : List Text} (hgap : ∀ c ∈ gap, isBlank c = true)
      (hw : IsWord w) (hend : ∀ c ∈ rest.head?, isBlank c = true) (h : Spaced ws rest) :
      Spaced (w :: ws) (gap ++ (w ++ rest))

/-- A word with nothing before it. -/
theorem Spaced.word {w rest : Text} {ws : List Text} (hw : IsWord w)
    (hend : ∀ c ∈ rest.head?, isBlank c = true) (h : Spaced ws rest) :
    Spaced (w :: ws) (w ++ rest) := by
  have hgap : ∀ c ∈ ([] : Text), isBlank c = true := by simp
  exact .cons hgap hw hend h

theorem Spaced.blank {ws : List Text} {t : Text} {c : Char} (hc : isBlank c = true)
    (h : Spaced ws t) : Spaced ws (c :: t) := by
  cases h with
  | nil hgap => exact .nil (List.forall_mem_cons.2 ⟨hc, hgap⟩)
  | cons hgap hw hend h =>
    rw [← List.cons_append]
    exact .cons (List.forall_mem_cons.2 ⟨hc, hgap⟩) hw hend h

/-- What has been read of a word and the rest of the text are spaced words. -/
theorem spaced_runsFrom {current : Text} (hcurrent : ∀ c ∈ current, isBlank c = false)
    (t : Text) : Spaced (runsFrom (fun c => !isBlank c) current t) (current ++ t) := by
  induction t generalizing current with
  | nil =>
    rw [runsFrom]
    cases current with
    | nil => exact .nil (by simp)
    | cons c current =>
      exact .word ⟨by simp, hcurrent⟩ (by simp) (.nil (by simp))
  | cons c t ih =>
    rw [runsFrom]
    cases hc : isBlank c with
    | false =>
      have hcurrent' : ∀ d ∈ current ++ [c], isBlank d = false :=
        List.forall_mem_append.2 ⟨hcurrent, List.forall_mem_singleton.2 hc⟩
      have hrest := ih hcurrent'
      rwa [List.append_assoc] at hrest
    | true =>
      have hnone : ∀ d ∈ ([] : Text), isBlank d = false := by simp
      have hrest : Spaced (runsFrom (fun c => !isBlank c) [] t) (c :: t) := (ih hnone).blank hc
      cases current with
      | nil => exact hrest
      | cons d current =>
        exact .word ⟨by simp, hcurrent⟩ (by simpa using hc) hrest

/-- The words of a text are those that it is made of with blanks around and between them. -/
theorem words_eq_iff {t : Text} {ws : List Text} : words t = ws ↔ Spaced ws t := by
  constructor
  · rintro rfl
    have hnone : ∀ c ∈ ([] : Text), isBlank c = false := by simp
    exact spaced_runsFrom hnone t
  · intro h
    have hblanks : ∀ {gap : Text}, (∀ c ∈ gap, isBlank c = true) →
        ∀ c ∈ gap, (!isBlank c) = false := by
      intro gap hgap c hc
      rw [hgap c hc]
      rfl
    rw [words, runs]
    induction h with
    | nil hgap =>
      have hpassed := runsFrom_gap (hblanks hgap) []
      rw [List.append_nil] at hpassed
      exact hpassed
    | @cons gap w rest ws hgap hw hend _ ih =>
      have hchars : ∀ c ∈ w, (!isBlank c) = true := by
        intro c hc
        rw [hw.chars c hc]
        rfl
      rw [runsFrom_gap (hblanks hgap), runsFrom_append hchars, List.nil_append]
      cases rest with
      | nil =>
        rw [← ih, runsFrom, runsFrom]
        simp [hw.ne_nil]
      | cons c rest =>
        have hc : isBlank c = true := hend c rfl
        rw [← ih, runsFrom, runsFrom, hc]
        simp [hw.ne_nil]

/-- A unified name has the words that it was made of. -/
theorem words_unify (t : Text) : words (unify t) = words t :=
  words_intercalate fun _ hw => isWord_of_mem_words hw

theorem unify_eq_iff {t u : Text} : unify t = unify u ↔ words t = words u := by
  constructor
  · intro h
    rw [← words_unify t, h, words_unify]
  · intro h
    rw [unify, h, unify]

/-- Nothing is left at the front of a text without its blanks there. -/
theorem head?_trimStart {p : Char → Bool} {t : Text} {c : Char}
    (h : (trimStart p t).head? = some c) : p c = false := by
  have hfront := List.head?_dropWhile_not p t
  rw [trimStart] at h
  rwa [h] at hfront

theorem getLast?_trimEnd {p : Char → Bool} {t : Text} {c : Char}
    (h : (trimEnd p t).getLast? = some c) : p c = false := by
  rw [trimEnd, List.getLast?_reverse] at h
  exact head?_trimStart h

theorem trimEnd_prefix (p : Char → Bool) (t : Text) : trimEnd p t <+: t := by
  have h := List.reverse_prefix.2 (List.dropWhile_suffix p (l := t.reverse))
  rwa [List.reverse_reverse] at h

/-- What is trimmed at the end of a text is of the class. -/
theorem exists_trimEnd (p : Char → Bool) (t : Text) :
    ∃ rest, t = trimEnd p t ++ rest ∧ ∀ c ∈ rest, p c = true := by
  have hsplit := congrArg List.reverse (List.takeWhile_append_dropWhile (p := p) (l := t.reverse))
  rw [List.reverse_append, List.reverse_reverse] at hsplit
  refine ⟨_, hsplit.symm, fun c hc => ?_⟩
  exact List.mem_takeWhile_imp (List.mem_reverse.1 hc)

/-- Trimming does not go beyond a character outside the class. -/
theorem trimEnd_append {p : Char → Bool} {t : Text} (h : ∀ c ∈ t.getLast?, p c = false)
    (rest : Text) : trimEnd p (t ++ rest) = t ++ trimEnd p rest := by
  have hend : trimEnd p t = t := by
    obtain rfl | ⟨front, c, rfl⟩ := List.eq_nil_or_concat t
    · rfl
    · rw [List.concat_eq_append] at h ⊢
      have hc : ¬ p c = true := by simp [h c List.getLast?_concat]
      rw [trimEnd, List.reverse_concat, List.dropWhile_cons_of_neg hc, List.reverse_cons,
        List.reverse_reverse]
  unfold trimEnd at hend ⊢
  rw [List.reverse_append, List.dropWhile_append]
  split
  · next hempty => rw [hend, List.isEmpty_iff.1 hempty, List.reverse_nil, List.append_nil]
  · rw [List.reverse_append, List.reverse_reverse]

/-- A trimmed text begins with no blank. -/
theorem head?_trim {t : Text} {c : Char} (h : (trim t).head? = some c) : isBlank c = false := by
  obtain ⟨rest, hrest⟩ := trimEnd_prefix isBlank (trimStart isBlank t)
  refine head?_trimStart (t := t) ?_
  rw [← hrest, List.head?_append]
  simp [show (trimEnd isBlank (trimStart isBlank t)).head? = some c from h]

/-- A trimmed text ends with no blank. -/
theorem getLast?_trim {t : Text} {c : Char} (h : (trim t).getLast? = some c) :
    isBlank c = false := getLast?_trimEnd h

end TypedCommand.Text
