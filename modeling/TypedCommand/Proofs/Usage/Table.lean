import Mathlib.Data.List.Forall2
import TypedCommand.Proofs.Declaration.Fields
import TypedCommand.Usage

/-!
The tables of the usage text. Each parameter has one row, in the table of the arguments or in
that of the options, and the rows keep the order of the parameters. Within a table the kinds
stand in one column: the labels are padded to the longest of them, and what is trimmed at the
end of a row stands behind the kind.
-/

namespace TypedCommand.Usage

open Text

def details (p : Parameter) : Text :=
  p.kind.name.padEnd 5 ++
    (match p.default with
      | some value => "  (defecto: " ++ value.text ++ ")"
      | none => []) ++
    (match p.help with
      | some help => "  " ++ help
      | none => [])

/-- A row of a table in which the kinds stand at a column: two spaces and the label, spaces up to
the column, and there the kind and the other details, without the blanks at the end. -/
structure IsRow (column : ℕ) (t : Text) (p : Parameter) (row : Text) : Prop where
  label : "  ".toList ++ t <+: row
  gap : ∀ i, 2 + t.length ≤ i → i < column → row[i]? = some ' '
  kind : p.kind.name <+: row.drop column
  details : ∃ blanks, row.drop column ++ blanks = details p ∧ ∀ c ∈ blanks, isBlank c = true
  trimmed : ∀ c ∈ row.getLast?, isBlank c = false

/-- One row for each parameter, in their order, with the kinds four characters behind the end of
the longest label. -/
def Aligned (label : Parameter → Text) (ps : List Parameter) (rows : List Text) : Prop :=
  ∃ width, (∀ p ∈ ps, (label p).length ≤ width) ∧ (ps ≠ [] → ∃ p ∈ ps, (label p).length = width) ∧
    List.Forall₂ (fun p row => IsRow (width + 4) (label p) p row) ps rows

/-- Lines under a heading that stands behind an empty line. Without lines there is no heading. -/
def underHeading (heading : Text) (rows : List Text) : List Text :=
  if rows = [] then [] else [] :: heading :: rows

variable {label : Parameter → Text} {ps : List Parameter} {p : Parameter} {width : ℕ}

/-! What the labels, the synopsis and the numbered lines show. -/

theorem name_infix_argumentLabel (p : Parameter) : p.name <:+: argumentLabel p := by
  have henclosed : ∀ (opening : Char) (closing : Text),
      p.name <:+: opening :: p.name ++ closing := by
    intro opening closing
    exact ⟨[opening], closing, rfl⟩
  unfold argumentLabel
  split
  · exact henclosed _ _
  · split
    · exact henclosed _ _
    · exact henclosed _ _

/-- The label of an option begins with its flags, and each of these stands in it. -/
theorem flags_infix_optionLabel {flags : Flags} (h : p.flags? = some flags) :
    ∀ flag ∈ flags.toList, flag <:+: optionLabel p := by
  intro flag hflag
  have hprefix : flags.text <+: optionLabel p := by
    unfold optionLabel
    rw [h]
    dsimp only [Option.map_some, Option.getD_some]
    split
    · exact List.prefix_rfl
    · rw [List.append_assoc, List.append_assoc]
      exact List.prefix_append _ _
  exact (infix_intercalate hflag).trans hprefix.isInfix

theorem name_infix_optionLabel (h : p.kind ≠ .bool) : p.name <:+: optionLabel p := by
  unfold optionLabel
  rw [if_neg h]
  exact ⟨_, _, rfl⟩

/-- The name of the command and the labels of its arguments stand in the synopsis. -/
theorem infix_synopsis (s : Specification) : s.commandName <:+: synopsis s ∧
    ∀ p ∈ s.parameters.filter (fun p => !p.isOption), argumentLabel p <:+: synopsis s := by
  constructor
  · refine infix_intercalate (List.mem_append_left _ (List.mem_append_left _ ?_))
    exact List.mem_cons_of_mem _ List.mem_cons_self
  · intro p hp
    refine infix_intercalate (List.mem_append_right _ ?_)
    exact List.mem_map.2 ⟨p, hp, rfl⟩

/-- What a step is about: its marker or its flag, if it has one, and its parameter. -/
def subjects : Step → List Text
  | .replace marker param => [marker, param]
  | .appendFlag flag param => [flag, param]
  | .captureRemaining marker param => marker.toList ++ [param]

theorem infix_inQuotes (t : Text) : t <:+: t.inQuotes :=
  ⟨['\''], ['\''], rfl⟩

theorem infix_describe {step : Step} {t : Text} (h : t ∈ subjects step) :
    t <:+: describe step := by
  have hquoted : ∀ front marker between param : Text, t ∈ [marker, param] →
      t <:+: front ++ marker.inQuotes ++ between ++ param := by
    intro front marker between param ht
    rcases List.mem_pair.1 ht with rfl | rfl
    · have hinside : t.inQuotes <:+: front ++ t.inQuotes ++ between := ⟨front, between, rfl⟩
      exact ((infix_inQuotes t).trans hinside).trans (List.prefix_append _ _).isInfix
    · exact (List.suffix_append _ _).isInfix
  cases step with
  | replace marker param => exact hquoted _ _ _ _ h
  | appendFlag flag param => exact hquoted _ _ _ _ h
  | captureRemaining marker param =>
    cases marker with
    | none =>
      obtain rfl := List.mem_singleton.1 h
      exact ⟨_, _, rfl⟩
    | some marker =>
      rcases List.mem_pair.1 h with rfl | rfl
      · exact (infix_inQuotes t).trans (List.suffix_append _ _).isInfix
      · have hinside : t <:+: "volcar ".toList ++ t ++ " en ".toList := ⟨_, _, rfl⟩
        exact hinside.trans (List.prefix_append _ _).isInfix

/-! A row. -/

theorem isBlank_getLast?_kindName {kind : Kind} : ∀ c ∈ kind.name.getLast?, isBlank c = false := by
  intro c hc
  have hword : isWordChar c := Annotation.mem_kindName (List.mem_of_getLast? hc)
  exact isBlank_eq_false_of_isWordChar hword

theorem kindName_prefix_details (p : Parameter) : p.kind.name <+: details p := by
  unfold details padEnd
  rw [List.append_assoc, List.append_assoc]
  exact List.prefix_append _ _

theorem kindName_prefix_trimEnd (p : Parameter) :
    p.kind.name <+: trimEnd isBlank (details p) := by
  obtain ⟨rest, hrest⟩ := kindName_prefix_details p
  rw [← hrest, trimEnd_append isBlank_getLast?_kindName]
  exact List.prefix_append _ _

/-- Two spaces behind a padded label prolong what it is padded with. -/
theorem padEnd_append_gap {t : Text} (h : t.length ≤ width) :
    t.padEnd width ++ "  ".toList = t ++ List.replicate (width + 2 - t.length) ' ' := by
  have hgap : "  ".toList = List.replicate 2 ' ' := rfl
  have hlength : width - t.length + 2 = width + 2 - t.length := by omega
  rw [padEnd, hgap, List.append_assoc, List.replicate_append_replicate, hlength]

/-- The blanks that are trimmed at the end of a row stand behind the kind. -/
theorem row_eq {t : Text} (h : t.length ≤ width) : row width t p =
    "  ".toList ++ t ++
      (List.replicate (width + 2 - t.length) ' ' ++ trimEnd isBlank (details p)) := by
  obtain ⟨rest, hrest⟩ := kindName_prefix_details p
  have hfront : ∀ c ∈ ("  ".toList ++ (t.padEnd width ++ "  ".toList) ++ p.kind.name).getLast?,
      isBlank c = false := by
    intro c hc
    rw [List.getLast?_append_of_ne_nil _ p.kind.name_ne_nil] at hc
    exact isBlank_getLast?_kindName c hc
  have hparts (indent label gap kind default help : Text) :
      indent ++ label ++ gap ++ kind ++ default ++ help =
        indent ++ (label ++ gap) ++ (kind ++ default ++ help) := by
    simp only [List.append_assoc]
  calc
    row width t p =
        trimEnd isBlank ("  ".toList ++ (t.padEnd width ++ "  ".toList) ++ details p) :=
      congrArg (trimEnd isBlank) (hparts ..)
    _ = "  ".toList ++ (t.padEnd width ++ "  ".toList) ++ trimEnd isBlank (details p) := by
      rw [← hrest, ← List.append_assoc, trimEnd_append hfront,
        trimEnd_append isBlank_getLast?_kindName, List.append_assoc]
    _ = _ := by rw [padEnd_append_gap h, List.append_assoc, List.append_assoc, List.append_assoc]

theorem isRow_row {t : Text} (h : t.length ≤ width) : IsRow (width + 4) t p (row width t p) := by
  have hfront : ("  ".toList ++ t).length = 2 + t.length := List.length_append
  have hgap : (List.replicate (width + 2 - t.length) ' ').length = width + 2 - t.length :=
    List.length_replicate
  have hcolumn : width + 4 =
      ("  ".toList ++ t ++ List.replicate (width + 2 - t.length) ' ').length := by
    rw [List.length_append, hfront, hgap]
    omega
  have hdrop : (row width t p).drop (width + 4) = trimEnd isBlank (details p) := by
    rw [row_eq h, ← List.append_assoc, hcolumn, List.drop_left]
  obtain ⟨blanks, hblanks, hclass⟩ := exists_trimEnd isBlank (details p)
  refine ⟨?_, fun i hlower hupper => ?_, ?_, ⟨blanks, by rw [hdrop, ← hblanks], hclass⟩,
    fun c hc => getLast?_trimEnd hc⟩
  · rw [row_eq h]
    exact List.prefix_append _ _
  · rw [row_eq h, List.getElem?_append_right (by omega), List.getElem?_append_left (by omega),
      List.getElem?_replicate_of_lt (by omega)]
  · rw [hdrop]
    exact kindName_prefix_trimEnd p

/-! A table. -/

/-- The width of the column of labels is the length of the longest label. -/
theorem labelWidth_spec (label : Parameter → Text) (ps : List Parameter) :
    (∀ p ∈ ps, (label p).length ≤ labelWidth label ps) ∧
      (ps ≠ [] → ∃ p ∈ ps, (label p).length = labelWidth label ps) := by
  unfold labelWidth
  cases hmax : (ps.map fun p => (label p).length).max? with
  | none =>
    obtain rfl := List.map_eq_nil_iff.1 (List.max?_eq_none_iff.1 hmax)
    exact ⟨List.forall_mem_nil _, fun hne => absurd rfl hne⟩
  | some longest =>
    obtain ⟨hmem, hle⟩ := List.max?_eq_some_iff.1 hmax
    have hwidth : (ps.map fun p => (label p).length).foldl max 0 = longest := by
      rw [List.foldl_max, hmax]
      exact Nat.zero_max longest
    rw [hwidth]
    refine ⟨fun p hp => hle _ (List.mem_map.2 ⟨p, hp, rfl⟩), fun _ => ?_⟩
    obtain ⟨p, hp, hlength⟩ := List.mem_map.1 hmem
    exact ⟨p, hp, hlength⟩

/-- A table is its heading and the rows of its parameters, which are aligned. -/
theorem exists_aligned (heading : Text) (label : Parameter → Text) (ps : List Parameter) :
    ∃ rows, table heading label ps = underHeading heading rows ∧ Aligned label ps rows := by
  obtain ⟨hle, hlongest⟩ := labelWidth_spec label ps
  refine ⟨ps.map fun p => row (labelWidth label ps) (label p) p, ?_, labelWidth label ps, hle,
    hlongest, ?_⟩
  · cases ps <;> rfl
  · rw [List.forall₂_map_right_iff, List.forall₂_same]
    exact fun p hp => isRow_row (hle p hp)

/-- The steps of a plan have the numbers from one on, in their order. -/
structure IsNumbered (plan : List Step) (rows : List Text) : Prop where
  length_eq : rows.length = plan.length
  row : ∀ i step, plan[i]? = some step →
    rows[i]? = some ("  " ++ Text.ofNat (i + 1) ++ ". " ++ describe step)

theorem exists_numbered (plan : List Step) :
    ∃ rows, planLines plan = underHeading "Plan:" rows ∧ IsNumbered plan rows := by
  refine ⟨plan.zipIdx.map fun p => "  " ++ Text.ofNat (p.2 + 1) ++ ". " ++ describe p.1,
    ?_, ?_, fun i step hstep => ?_⟩
  · cases plan <;> rfl
  · rw [List.length_map, List.length_zipIdx]
  · rw [List.getElem?_map, List.getElem?_zipIdx, hstep]
    simp

/-- The usage text consists of the synopsis, the template and up to three parts with a heading.
Under the one heading each parameter that is no option has a row, under the other each option, in
the order of the specification; under the third the steps of the plan are numbered. A heading is
left out if there is nothing to stand under it, and in each of the two tables the kinds begin four
characters behind the end of the longest label. The label of an argument shows its name, that of
an option its flags and, if it takes a value, its name; a step shows what it is about. -/
theorem render_lists (s : Specification) : (∃ arguments options steps : List Text,
    render s = ['\n'].intercalate
      (["Uso: " ++ synopsis s, [], "Comando:".toList, "  " ++ s.template] ++
        underHeading "Argumentos:" arguments ++ underHeading "Opciones:" options ++
        underHeading "Plan:" steps) ∧
    Aligned argumentLabel (s.parameters.filter (fun p => !p.isOption)) arguments ∧
    Aligned optionLabel (s.parameters.filter (·.isOption)) options ∧
    IsNumbered s.plan steps) ∧
    (s.commandName <:+: synopsis s ∧
      ∀ p ∈ s.parameters.filter (fun p => !p.isOption), argumentLabel p <:+: synopsis s) ∧
    (∀ p, p.name <:+: argumentLabel p) ∧
    (∀ p flags, p.flags? = some flags → ∀ flag ∈ flags.toList, flag <:+: optionLabel p) ∧
    (∀ p, p.kind ≠ .bool → p.name <:+: optionLabel p) ∧
    ∀ step, ∀ t ∈ subjects step, t <:+: describe step := by
  refine ⟨?_, infix_synopsis s, name_infix_argumentLabel, fun _ _ => flags_infix_optionLabel,
    fun _ => name_infix_optionLabel, fun _ _ => infix_describe⟩
  obtain ⟨arguments, harguments, halignedArguments⟩ :=
    exists_aligned "Argumentos:" argumentLabel s.arguments
  obtain ⟨options, hoptions, halignedOptions⟩ := exists_aligned "Opciones:" optionLabel s.options
  obtain ⟨steps, hsteps, hnumbered⟩ := exists_numbered s.plan
  refine ⟨arguments, options, steps, ?_, halignedArguments, halignedOptions, hnumbered⟩
  rw [render, lines, harguments, hoptions, hsteps]

end TypedCommand.Usage
