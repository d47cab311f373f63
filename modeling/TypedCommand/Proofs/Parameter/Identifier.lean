import TypedCommand.Parameter
import TypedCommand.Proofs.Words

/-!
The identifiers that texts are named by. They have a normal form: lower-case letters and digits
in groups, a single underscore between neighbours, a letter at the front. A text that has this
form already is its own identifier, and two texts that differ in the case of letters, or in what
stands around and between their runs of letters and digits, have the same one.
-/

namespace TypedCommand.Parameter

open Text

def isSmall (c : Char) : Bool := c.isLower || c.isDigit

/-- How an identifier goes on behind a letter or a digit: `[a-z0-9]*(_[a-z0-9]+)*`. -/
inductive Continues : Text → Prop
  | nil : Continues []
  | char {c : Char} {t : Text} (hc : isSmall c = true) (h : Continues t) : Continues (c :: t)
  | group {c : Char} {t : Text} (hc : isSmall c = true) (h : Continues t) :
      Continues ('_' :: c :: t)

inductive Normal : Text → Prop
  | letter {c : Char} {t : Text} (hc : c.isLower = true) (h : Continues t) : Normal (c :: t)

variable {c : Char} {t u name : Text}

theorem isSmall_iff : isSmall c = true ↔
    (48 ≤ c.toNat ∧ c.toNat ≤ 57) ∨ (97 ≤ c.toNat ∧ c.toNat ≤ 122) := by
  rw [isSmall, Bool.or_eq_true, isLower_iff, isDigit_iff]
  exact or_comm

theorem isAlnum_of_isSmall (h : isSmall c = true) : isAlnum c = true := by
  rw [isSmall_iff] at h
  rw [isAlnum_iff]
  exact h.imp_right Or.inr

theorem toLower_of_isSmall (h : isSmall c = true) : c.toLower = c := by
  rw [isSmall_iff] at h
  refine Char.toNat_inj.1 ?_
  rw [toNat_toLower, if_neg (by omega)]

theorem isSmall_toLower (h : isAlnum c = true) : isSmall c.toLower = true := by
  rw [isAlnum_iff] at h
  rw [isSmall_iff, toNat_toLower]
  split <;> omega

/-! Joined groups have the normal form, but that a digit may come first. -/

theorem Continues.append (ht : ∀ c ∈ t, isSmall c = true) (hu : Continues u) :
    Continues (t ++ u) := by
  induction t with
  | nil => exact hu
  | cons c t ih =>
    obtain ⟨hc, ht⟩ := List.forall_mem_cons.1 ht
    exact .char hc (ih ht)

theorem exists_continues_intercalate {g : Text} {gs : List Text}
    (h : ∀ group ∈ g :: gs, group ≠ [] ∧ ∀ c ∈ group, isSmall c = true) :
    ∃ c rest, ['_'].intercalate (g :: gs) = c :: rest ∧ isSmall c = true ∧ Continues rest := by
  induction gs generalizing g with
  | nil =>
    obtain ⟨hne, hchars⟩ := h g List.mem_cons_self
    obtain ⟨c, rest, rfl⟩ := List.exists_cons_of_ne_nil hne
    obtain ⟨hc, hrest⟩ := List.forall_mem_cons.1 hchars
    have hend : Continues (rest ++ []) := .append hrest .nil
    rw [List.append_nil] at hend
    exact ⟨c, rest, List.intercalate_singleton, hc, hend⟩
  | cons g' gs ih =>
    obtain ⟨⟨hne, hchars⟩, hgroups⟩ := List.forall_mem_cons.1 h
    obtain ⟨c, rest, rfl⟩ := List.exists_cons_of_ne_nil hne
    obtain ⟨hc, hrest⟩ := List.forall_mem_cons.1 hchars
    obtain ⟨c', rest', hjoined, hc', hcontinues⟩ := ih hgroups
    refine ⟨c, rest ++ '_' :: c' :: rest', ?_, hc, .append hrest (.group hc' hcontinues)⟩
    rw [List.intercalate_cons_cons, hjoined, List.append_assoc]
    rfl

/-! The runs of a text in normal form are its groups: joined they give the text back. -/

theorem Continues.map_toLower (h : Continues t) : t.map Char.toLower = t := by
  induction h with
  | nil => rfl
  | char hc _ ih => rw [List.map_cons, toLower_of_isSmall hc, ih]
  | group hc _ ih =>
    rw [List.map_cons, List.map_cons, toLower_of_isSmall hc, ih]
    rfl

/-- What has been read of a group and what it goes on with are joined to the same text. -/
theorem Continues.intercalate_runsFrom (h : Continues t) {current : Text} (hne : current ≠ []) :
    ['_'].intercalate (runsFrom isAlnum current t) = current ++ t := by
  induction h generalizing current with
  | nil => simp [runsFrom, hne]
  | @char c t hc _ ih =>
    rw [runsFrom, if_pos (isAlnum_of_isSmall hc), ih (by simp), List.append_assoc]
    rfl
  | @group c t hc _ ih =>
    have hunderscore : ¬ isAlnum '_' = true := by decide
    have hempty : ¬ current.isEmpty = true := by simpa using hne
    have hjoined := ih (List.cons_ne_nil c [])
    obtain ⟨g, gs, hgroups⟩ :=
      List.exists_cons_of_ne_nil (runsFrom_ne_nil (p := isAlnum) (List.cons_ne_nil c []) t)
    rw [hgroups] at hjoined
    rw [runsFrom, if_neg hunderscore, if_neg hempty, runsFrom, if_pos (isAlnum_of_isSmall hc),
      List.nil_append, hgroups, List.intercalate_cons_cons, hjoined, List.append_assoc]
    rfl

/-! An identifier is made of the runs in lower case, and of nothing else. -/

def lowerRuns (t : Text) : List Text := (runs isAlnum t).map (·.map Char.toLower)

theorem lowerRuns_eq (t : Text) : lowerRuns t = runs isAlnum (t.map Char.toLower) :=
  (runsFrom_map isAlnum_toLower [] t).symm

theorem identifier?_congr (h : lowerRuns t = lowerRuns u) : identifier? t = identifier? u := by
  unfold lowerRuns at h
  unfold identifier?
  rw [h]

theorem identifier?_of_lowerRuns {r : Text} {rs : List Text} (h : lowerRuns t = r :: rs) :
    identifier? t = if (['_'].intercalate (r :: rs)).head?.any Char.isDigit then
      some ("num_" ++ ['_'].intercalate (r :: rs)) else some (['_'].intercalate (r :: rs)) := by
  unfold lowerRuns at h
  unfold identifier?
  rw [h]

theorem lowerRuns_eq_nil_iff : lowerRuns t = [] ↔ ∀ c ∈ t, isAlnum c = false := by
  rw [lowerRuns, List.map_eq_nil_iff, runs_eq_nil_iff]

theorem identifier?_eq_none_iff : identifier? t = none ↔ ∀ c ∈ t, isAlnum c = false := by
  rw [← lowerRuns_eq_nil_iff]
  cases hruns : lowerRuns t with
  | nil =>
    have hnone : identifier? t = identifier? [] := identifier?_congr hruns
    exact ⟨fun _ => rfl, fun _ => hnone⟩
  | cons r rs =>
    rw [identifier?_of_lowerRuns hruns]
    split <;> simp

theorem of_mem_lowerRuns {r : Text} (h : r ∈ lowerRuns t) :
    r ≠ [] ∧ ∀ c ∈ r, isSmall c = true := by
  obtain ⟨run, hmem, rfl⟩ := List.mem_map.1 h
  obtain ⟨hne, hchars⟩ := mem_runsFrom (List.forall_mem_nil _) hmem
  refine ⟨by simpa using hne, fun c hc => ?_⟩
  obtain ⟨d, hd, rfl⟩ := List.mem_map.1 hc
  exact isSmall_toLower (hchars d hd)

theorem normal_of_identifier? (h : identifier? t = some name) : Normal name := by
  cases hruns : lowerRuns t with
  | nil =>
    rw [identifier?_eq_none_iff.2 (lowerRuns_eq_nil_iff.1 hruns)] at h
    exact absurd h nofun
  | cons r rs =>
    obtain ⟨c, rest, hjoined, hc, hrest⟩ :=
      exists_continues_intercalate fun group hgroup => of_mem_lowerRuns (hruns ▸ hgroup)
    rw [identifier?_of_lowerRuns hruns, hjoined] at h
    split at h
    · -- the digit is the first character of a group behind `num`
      obtain rfl := Option.some.inj h
      exact .letter rfl (.char rfl (.char rfl (.group hc hrest)))
    · next hdigit =>
      obtain rfl := Option.some.inj h
      refine .letter ?_ hrest
      rw [isSmall, Bool.or_eq_true] at hc
      exact hc.resolve_right hdigit

theorem isIdentifierChar_of_isSmall (h : isSmall c = true) : isIdentifierChar c = true := by
  rw [isIdentifierChar, isAlnum_of_isSmall h, Bool.true_or]

theorem Continues.chars (h : Continues t) : ∀ c ∈ t, isIdentifierChar c = true := by
  induction h with
  | nil => exact List.forall_mem_nil _
  | char hc _ ih => exact List.forall_mem_cons.2 ⟨isIdentifierChar_of_isSmall hc, ih⟩
  | group hc _ ih =>
    exact List.forall_mem_cons.2
      ⟨rfl, List.forall_mem_cons.2 ⟨isIdentifierChar_of_isSmall hc, ih⟩⟩

/-- A name that is made of a text is an identifier. -/
theorem isIdentifier_of_identifier? (h : identifier? t = some name) : IsIdentifier name := by
  obtain @⟨c, rest, hc, hrest⟩ := normal_of_identifier? h
  have hsmall : isSmall c = true := by rw [isSmall, hc, Bool.true_or]
  exact ⟨List.cons_ne_nil c rest, (Continues.char hsmall hrest).chars⟩

theorem Normal.identifier?_eq (h : Normal t) : identifier? t = some t := by
  obtain @⟨c, rest, hc, hrest⟩ := h
  have hsmall : isSmall c = true := by rw [isSmall, hc, Bool.true_or]
  have hlower : (c :: rest).map Char.toLower = c :: rest :=
    (Continues.char hsmall hrest).map_toLower
  have hfrom : lowerRuns (c :: rest) = runsFrom isAlnum [c] rest := by
    rw [lowerRuns_eq, hlower, runs, runsFrom, if_pos (isAlnum_of_isSmall hsmall)]
    rfl
  have hjoined := hrest.intercalate_runsFrom (List.cons_ne_nil c [])
  obtain ⟨r, rs, hruns⟩ :=
    List.exists_cons_of_ne_nil (runsFrom_ne_nil (p := isAlnum) (List.cons_ne_nil c []) rest)
  have hdigit : ¬ c.isDigit = true := by
    rw [isLower_iff] at hc
    rw [isDigit_iff]
    omega
  rw [hruns] at hjoined hfrom
  rw [identifier?_of_lowerRuns hfrom, hjoined]
  exact if_neg hdigit

theorem identifier?_eq_of_map_toLower (h : t.map Char.toLower = u.map Char.toLower) :
    identifier? t = identifier? u := by
  refine identifier?_congr ?_
  rw [lowerRuns_eq, lowerRuns_eq, h]

section Gap

variable {gap gap' : Text} (hgap : ∀ c ∈ gap, isAlnum c = false)

include hgap

theorem identifier?_gap_append (t : Text) : identifier? (gap ++ t) = identifier? t := by
  refine identifier?_congr ?_
  unfold lowerRuns runs
  rw [runsFrom_gap hgap]

theorem lowerRuns_append_gap (hne : gap ≠ []) (t u : Text) :
    lowerRuns (t ++ (gap ++ u)) = lowerRuns t ++ lowerRuns u := by
  unfold lowerRuns
  rw [runs_append_gap hgap hne, List.map_append]

theorem identifier?_append_gap (t : Text) : identifier? (t ++ gap) = identifier? t := by
  by_cases hne : gap = []
  · rw [hne, List.append_nil]
  · refine identifier?_congr ?_
    have hparted := lowerRuns_append_gap hgap hne t []
    rwa [List.append_nil, show lowerRuns [] = [] from rfl, List.append_nil] at hparted

end Gap

/-- An identifier is made of every text with a letter or a digit of ASCII in it. It has the normal
form, so that it can be given as a name; the texts in normal form are those that stay as they are.
Neither the case of letters matters nor what stands around the runs of letters and digits and
between them. -/
theorem identifier?_normalizes (t : Text) :
    (identifier? t = none ↔ ∀ c ∈ t, isAlnum c = false) ∧
    (∀ name, identifier? t = some name → Normal name ∧ identifier? name = some name ∧
      ∀ fragment, Annotation.checkName fragment name = .ok ()) ∧
    (identifier? t = some t ↔ Normal t) ∧
    (∀ u : Text, t.map Char.toLower = u.map Char.toLower → identifier? t = identifier? u) ∧
    ∀ gap : Text, (∀ c ∈ gap, isAlnum c = false) →
      identifier? (gap ++ t) = identifier? t ∧ identifier? (t ++ gap) = identifier? t ∧
      ∀ gap' u : Text, (∀ c ∈ gap', isAlnum c = false) → gap ≠ [] → gap' ≠ [] →
        identifier? (t ++ (gap ++ u)) = identifier? (t ++ (gap' ++ u)) := by
  refine ⟨identifier?_eq_none_iff, fun name h => ?_,
    ⟨normal_of_identifier?, Normal.identifier?_eq⟩, fun u => identifier?_eq_of_map_toLower,
    fun gap hgap => ⟨identifier?_gap_append hgap t, identifier?_append_gap hgap t, ?_⟩⟩
  · have hchars := (isIdentifier_of_identifier? h).chars
    exact ⟨normal_of_identifier? h, (normal_of_identifier? h).identifier?_eq,
      fun _ => if_pos (List.all_eq_true.2 hchars)⟩
  · intro gap' u hgap' hne hne'
    refine identifier?_congr ?_
    rw [lowerRuns_append_gap hgap hne, lowerRuns_append_gap hgap' hne']

example : identifier? "--9-Lives" = some "num_9_lives".toList := by decide

end TypedCommand.Parameter
