import TypedCommand.Proofs.Arguments.Encoding
import TypedCommand.Proofs.Resolution
import TypedCommand.Usage

/-!
What the synopsis promises. It lists the positional parameters in the order in which a call fills
them, and puts the required ones into angle brackets; these come first, because the calling order
puts them there. So where every option has a default, a call of plain words is refused for a word
too many where the list ends without a variadic parameter, and for a missing argument exactly if
it has fewer words than the synopsis has placeholders.
-/

namespace TypedCommand

open Text Parameter Specification

namespace Usage

def optionsHeading (s : Specification) : List Text :=
  if s.options.isEmpty then [] else ["[OPCIONES]".toList]

def isPlaceholder (w : Text) : Bool := w.head? == some '<' && w.getLast? == some '>'

def placeholders (t : Text) : List Text := t.words.filter isPlaceholder

variable {s : Specification} {p : Parameter}

theorem isWord_argumentLabel (h : IsIdentifier p.name) : IsWord (argumentLabel p) := by
  have hname : ∀ c ∈ p.name, isBlank c = false := h.isName.isWord.chars
  have henclosed : ∀ (opening : Char) (closing : Text), isBlank opening = false →
      closing.all (fun c => !isBlank c) = true → IsWord (opening :: p.name ++ closing) := by
    intro opening closing hopening hclosing
    have hclosing' : ∀ c ∈ closing, isBlank c = false := by
      intro c hc
      simpa using List.all_eq_true.1 hclosing c hc
    exact ⟨nofun, List.forall_mem_cons.2 ⟨hopening, List.forall_mem_append.2 ⟨hname, hclosing'⟩⟩⟩
  unfold argumentLabel
  split
  · exact henclosed '[' "...]" rfl rfl
  · split
    · exact henclosed '<' ">" rfl rfl
    · exact henclosed '[' "]" rfl rfl

/-- The words of the synopsis: the name, and a label for each parameter that is no option. -/
theorem words_synopsis (hforms : ∀ p ∈ s.parameters, p.WellFormed) :
    (synopsis s).words =
      rootWord :: s.path ++ optionsHeading s ++ s.arguments.map argumentLabel := by
  have hheading : (optionsHeading s).flatMap words = optionsHeading s := by
    unfold optionsHeading
    split <;> rfl
  have hlabels : (s.arguments.map argumentLabel).flatMap words =
      s.arguments.map argumentLabel := by
    rw [List.flatMap_map, List.map_eq_flatMap]
    apply List.flatMap_congr
    intro p hp
    exact words_of_isWord (isWord_argumentLabel (hforms p (List.mem_of_mem_filter hp)).name)
  have hsynopsis : synopsis s =
      [' '].intercalate ([rootWord, s.commandName] ++ optionsHeading s ++
        s.arguments.map argumentLabel) := rfl
  rw [hsynopsis, words_intercalate_eq_flatMap, List.flatMap_append, List.flatMap_append, hheading,
    hlabels]
  have hname : [rootWord, s.commandName].flatMap words = rootWord :: s.path := by
    simp only [List.flatMap_cons, List.flatMap_nil, List.append_nil]
    rfl
  rw [hname]

/-- The label of a parameter is a placeholder exactly if the parameter is required. -/
theorem isPlaceholder_argumentLabel (p : Parameter) :
    isPlaceholder (argumentLabel p) = p.isRequired := by
  unfold isPlaceholder argumentLabel
  cases hvariadic : p.isVariadic with
  | true =>
    have hrequired : p.isRequired = false := by simp [isRequired, hvariadic]
    rw [hrequired]
    rfl
  | false =>
    cases hrequired : p.isRequired with
    | true =>
      have hlast : (('<' :: p.name) ++ ['>']).getLast? = some '>' := List.getLast?_concat
      exact beq_iff_eq.2 hlast
    | false => rfl

theorem isPositional_eq (p : Parameter) : p.isPositional = (!p.isOption && !p.isVariadic) := by
  unfold isPositional isOption flags? isVariadic
  cases p.pattern <;> rfl

/-- What is no option is positional or, behind all positional parameters, variadic. -/
theorem arguments_eq_append (horder : InCallingOrder s.parameters) :
    s.arguments = s.positionals ++ s.parameters.filter (·.isVariadic) := by
  obtain ⟨required, optional, variadic, hsplit, hrequired, hoptional, hvariadic, _⟩ := horder
  have hfront : ∀ p ∈ required ++ optional, p.isVariadic = false := by
    intro p hp
    rcases List.mem_append.1 hp with hp | hp
    · exact isVariadic_of_isRequired (hrequired p hp)
    · exact (hoptional p hp).2
  have hback : ∀ p ∈ variadic, p.isPositional = false ∧ p.isOption = false := by
    intro p hp
    have hp' := hvariadic p hp
    unfold isPositional isOption flags?
    unfold isVariadic at hp'
    cases hpattern : p.pattern <;> simp [hpattern, Pattern.isVariadic, Pattern.flags?] at hp' ⊢
  have harguments : (required ++ optional).filter (fun p => !p.isOption) =
      (required ++ optional).filter (·.isPositional) := by
    apply List.filter_congr
    intro p hp
    rw [isPositional_eq, hfront p hp, Bool.not_false, Bool.and_true]
  have hlast : variadic.filter (fun p => !p.isOption) = variadic.filter (·.isVariadic) := by
    apply List.filter_congr
    intro p hp
    rw [(hback p hp).2, hvariadic p hp, Bool.not_false]
  have hnone : variadic.filter (·.isPositional) = [] :=
    List.filter_eq_nil_iff.2 fun p hp => by simp [(hback p hp).1]
  have hnone' : (required ++ optional).filter (·.isVariadic) = [] :=
    List.filter_eq_nil_iff.2 fun p hp => by simp [hfront p hp]
  have happend : ∀ f : Parameter → Bool, s.parameters.filter f =
      (required ++ optional).filter f ++ variadic.filter f := by
    intro f
    rw [hsplit, List.filter_append]
  -- up to the variadic parameter the two filters pick the same, and behind it one picks nothing
  unfold arguments positionals
  rw [happend, happend, happend, harguments, hlast, hnone, hnone', List.append_nil,
    List.nil_append]

/-- The required parameters stand before all others, and the positional parameters begin with
them. -/
structure RequiredFirst (s : Specification) (required rest : List Parameter) : Prop where
  parameters : s.parameters = required ++ rest
  positionals : s.positionals = required ++ rest.filter (·.isPositional)
  front : ∀ p ∈ required, p.isRequired = true
  behind : ∀ p ∈ rest, p.isRequired = false

theorem exists_requiredFirst (horder : InCallingOrder s.parameters)
    (hoptions : ∀ p ∈ s.options, p.default ≠ none) :
    ∃ required rest, RequiredFirst s required rest := by
  obtain ⟨required, optional, variadic, hsplit, hrequired, hoptional, hvariadic, _⟩ := horder
  have hrest : ∀ p ∈ optional ++ variadic, p.isRequired = false := by
    intro p hp
    rcases List.mem_append.1 hp with hp | hp
    · exact (hoptional p hp).1
    · rw [isRequired, hvariadic p hp, Bool.not_true, Bool.and_false]
  rw [List.append_assoc] at hsplit
  have hpositional : required.filter (·.isPositional) = required := by
    apply List.filter_eq_self.2
    intro p hp
    have hdefault : p.default = none := by
      have hp' := hrequired p hp
      rw [isRequired, Bool.and_eq_true, Option.isNone_iff_eq_none] at hp'
      exact hp'.1
    have hoption : ¬ p.isOption = true := by
      intro htrue
      have hmem : p ∈ s.parameters := hsplit ▸ List.mem_append_left _ hp
      exact hoptions p (List.mem_filter.2 ⟨hmem, htrue⟩) hdefault
    rw [isPositional_eq, eq_false_of_ne_true hoption, isVariadic_of_isRequired (hrequired p hp)]
    rfl
  have hpositionals : s.positionals =
      required ++ (optional ++ variadic).filter (·.isPositional) := by
    rw [positionals, hsplit, List.filter_append, hpositional]
  exact ⟨required, _, hsplit, hpositionals, hrequired, hrest⟩

/-- The placeholders of the synopsis are the labels of the required parameters. -/
theorem placeholders_synopsis (hpath : ∀ w ∈ s.path, IsName w)
    (hforms : ∀ p ∈ s.parameters, p.WellFormed) :
    placeholders (synopsis s) = (s.arguments.filter (·.isRequired)).map argumentLabel := by
  have hfront : ∀ w ∈ rootWord :: s.path ++ optionsHeading s, ¬ isPlaceholder w = true := by
    intro w hw hplaceholder
    have hhead : w.head? = some '<' := by
      rw [isPlaceholder, Bool.and_eq_true, beq_iff_eq] at hplaceholder
      exact hplaceholder.1
    rw [List.cons_append, List.mem_cons, List.mem_append] at hw
    rcases hw with rfl | hw | hw
    · exact absurd hhead (by decide)
    · exact absurd ((hpath w hw).chars _ (List.mem_of_mem_head? hhead)) (by decide)
    · unfold optionsHeading at hw
      split at hw
      · exact absurd hw List.not_mem_nil
      · obtain rfl := List.mem_singleton.1 hw
        exact absurd hhead (by decide)
  have hlabels : isPlaceholder ∘ argumentLabel = (·.isRequired) :=
    funext isPlaceholder_argumentLabel
  rw [placeholders, words_synopsis hforms, List.filter_append, List.filter_eq_nil_iff.2 hfront,
    List.nil_append, List.filter_map, hlabels]

theorem RequiredFirst.filter_arguments {required rest : List Parameter}
    (h : RequiredFirst s required rest) (horder : InCallingOrder s.parameters) :
    s.arguments.filter (·.isRequired) = required := by
  have hnone : ∀ p ∈ rest.filter (·.isPositional) ++ s.parameters.filter (·.isVariadic),
      ¬ p.isRequired = true := by
    intro p hp hrequired
    rcases List.mem_append.1 hp with hp | hp
    · have hfalse := h.behind p (List.mem_of_mem_filter hp)
      exact absurd (hfalse.symm.trans hrequired) nofun
    · have hvariadic : p.isVariadic = true := (List.mem_filter.1 hp).2
      rw [isRequired, hvariadic, Bool.not_true, Bool.and_false] at hrequired
      exact absurd hrequired nofun
  rw [arguments_eq_append horder, h.positionals, List.append_assoc, List.filter_append,
    List.filter_eq_self.2 h.front, List.filter_eq_nil_iff.2 hnone, List.append_nil]

end Usage

namespace Arguments

open Usage Invocation TypedCommand.Group

/-- The words are given to the positional parameters in turn, and those for which there is none
are left over. -/
structure InTurn (s : Specification) (words : List Text) (a : Arguments) : Prop where
  leftovers : a.leftovers = words.drop s.positionals.length
  values : ∀ name text, a.values.get? name = some text ↔
    ∃ p, (p, text) ∈ s.positionals.zip words ∧ p.name = name

variable {s : Specification} {words : List Text} {a : Arguments} {p : Parameter}

theorem zip_take_length {α β : Type} (l : List α) (m : List β) :
    l.zip (m.take l.length) = l.zip m := by
  induction l generalizing m with
  | nil => rfl
  | cons x l ih =>
    cases m with
    | nil => rfl
    | cons y m => exact congrArg ((x, y) :: ·) (ih m)

section Plain

variable (hplain : ∀ w ∈ words, w.head? ≠ some '-')

include hplain

/-- Plain words are shared out, if there is a place for each of them. -/
theorem bind_plain (hnames : (s.parameters.map (·.name)).Nodup)
    (hroom : s.hasVariadic = true ∨ words.length ≤ s.positionals.length) :
    ∃ a, bind s words = .ok (.arguments a) ∧ InTurn s words a := by
  -- the call of a choice without options, with no terminator in front of its plain words
  let c : Choice s := {
    options := []
    texts := words.take s.positionals.length
    leftovers := words.drop s.positionals.length
    declared := List.forall_mem_nil _
    distinct := List.nodup_nil
    length_le := List.length_take_le _ _
    room := by
      intro hne
      have hlength : s.positionals.length < words.length := by
        by_contra hle
        exact hne (List.drop_eq_nil_of_le (by omega))
      exact ⟨List.length_take_of_le hlength.le, hroom.resolve_right (by omega)⟩ }
  have hwords : c.texts ++ c.leftovers = words := List.take_append_drop _ _
  have hzip : s.positionals.zip c.texts = s.positionals.zip words := zip_take_length _ _
  have hdash : ∀ w ∈ c.texts ++ c.leftovers, w.head? = some '-' → w = ['-'] := by
    intro w hw hdash
    exact absurd hdash (hplain w (hwords ▸ hw))
  have hrun := foldlM_plain (p := { waiting := s.positionals }) c rfl rfl (Or.inr hdash)
  rw [hwords] at hrun
  obtain ⟨hgiven, hleftovers⟩ := filterMap_plainGroups c
  refine ⟨_, bind_eq_arguments.2 ⟨_, hrun, rfl, rfl⟩, ?_, fun name text => ?_⟩
  · rw [gather_leftovers, hleftovers]
    rfl
  · rw [gather_values, hgiven, SortedMap.get?_empty, Option.or_none, ← hzip]
    exact getLast?_of_nodup (nodup_given hnames c)

/-- Without a variadic parameter, the first word that no positional parameter waits for is
refused. -/
theorem bind_surplus {front rest : List Text} {word : Text} (hwords : words = front ++ word :: rest)
    (hlength : front.length = s.positionals.length) (hvariadic : s.hasVariadic = false) :
    bind s words = .error (.unexpectedArgument word) := by
  subst hwords
  have hdash : ∀ w ∈ front ++ word :: rest, w.head? = some '-' → w = ['-'] :=
    fun w hw hdash => absurd hdash (hplain w hw)
  obtain ⟨hfront, hword⟩ := List.forall_mem_append.1 hdash
  have hrun := foldlM_texts (s := s) (p := { waiting := s.positionals }) rfl rfl (Or.inr hfront)
    hlength.le
  have hempty : s.positionals.drop front.length = [] := by
    rw [hlength, List.drop_length]
  apply bind_eq_error.2
  left
  rw [foldlM_append_of_ok hrun, List.foldlM_cons, hempty,
    take_eq_takePlain rfl (Or.inr (hword word List.mem_cons_self)), takePlain]
  simp only [hvariadic]
  rfl

end Plain

section InTurn

variable (hturn : InTurn s words a) (hnames : (s.parameters.map (·.name)).Nodup)
  (hp : p ∈ s.parameters)

include hturn hnames hp

/-- A text that a parameter is given is the word in its place. -/
theorem InTurn.mem_zip {text : Text} (htext : a.values.get? p.name = some text) :
    (p, text) ∈ s.positionals.zip words := by
  obtain ⟨q, hq, hname⟩ := (hturn.values _ _).1 htext
  have hmem : q ∈ s.parameters := List.mem_of_mem_filter (List.of_mem_zip hq).1
  have hqp : q = p := List.inj_on_of_nodup_map hnames hmem hp hname
  exact hqp ▸ hq

/-- The parameters that are given a word are the first positional ones. -/
theorem InTurn.given_iff :
    a.values.get? p.name ≠ none ↔ p ∈ s.positionals.take words.length := by
  rw [← map_fst_zip_eq_take]
  constructor
  · intro hne
    obtain ⟨text, htext⟩ := Option.ne_none_iff_exists'.1 hne
    exact List.mem_map_of_mem (hturn.mem_zip hnames hp htext)
  · intro hmem
    obtain ⟨⟨q, text⟩, hq, rfl⟩ := List.mem_map.1 hmem
    have htext : a.values.get? q.name = some text := (hturn.values _ _).2 ⟨q, hq, rfl⟩
    rw [htext]
    nofun

/-- Where all words convert, a parameter is at fault exactly if it is required and there was no
word for it. -/
theorem InTurn.fault_iff (hconvert : ∀ e ∈ s.positionals.zip words, e.1.kind.read? e.2 ≠ none)
    (e : InvocationError) :
    Fault a p e ↔ p.isRequired = true ∧ p ∉ s.positionals.take words.length ∧
      e = .missingArgument p.name := by
  rw [← hturn.given_iff hnames hp, not_ne_iff]
  constructor
  · intro hfault
    cases hfault with
    | invalidValue _ htext hread =>
      exact absurd hread (hconvert _ (hturn.mem_zip hnames hp htext))
    | missingArgument _ hrequired htext => exact ⟨hrequired, htext, rfl⟩
  · rintro ⟨hrequired, htext, rfl⟩
    exact .missingArgument (isVariadic_of_isRequired hrequired) hrequired htext

end InTurn

section Required

variable {required rest : List Parameter} (hfirst : RequiredFirst s required rest)
  (hturn : InTurn s words a) (hnames : (s.parameters.map (·.name)).Nodup)
  (hconvert : ∀ e ∈ s.positionals.zip words, e.1.kind.read? e.2 ≠ none)

include hfirst hturn hnames hconvert

/-- Too few words leave out the parameter that is listed behind those that are given one. -/
theorem InTurn.resolve_missing (hlength : words.length < required.length) :
    ∃ p, s.positionals[words.length]? = some p ∧
      resolve s a = .error (.missingArgument p.name) := by
  obtain ⟨front, p, back, hfront, rfl⟩ : ∃ front p back, front.length = words.length ∧
      required = front ++ p :: back := by
    refine ⟨required.take words.length, required[words.length], required.drop (words.length + 1),
      List.length_take_of_le hlength.le, ?_⟩
    rw [List.getElem_cons_drop, List.take_append_drop]
  -- the parameters before `p` are those of the words, as `p` has its place among the required ones
  have hparameters : s.parameters = front ++ p :: (back ++ rest) := by
    rw [hfirst.parameters, List.append_assoc, List.cons_append]
  have hpositionals : s.positionals = front ++ p :: (back ++ rest.filter (·.isPositional)) := by
    rw [hfirst.positionals, List.append_assoc, List.cons_append]
  have htake : s.positionals.take words.length = front := by
    rw [hpositionals, ← hfront, List.take_left]
  have hfault : ∀ q ∈ s.parameters, ∀ e, Fault a q e ↔
      q.isRequired = true ∧ q ∉ front ∧ e = .missingArgument q.name := by
    intro q hq e
    rw [hturn.fault_iff hnames hq hconvert, htake]
  refine ⟨p, ?_, resolve_eq_error.2 ⟨front, p, back ++ rest, hparameters, ?_, ?_⟩⟩
  · rw [hpositionals, ← hfront, List.getElem?_append_right le_rfl, Nat.sub_self]
    rfl
  · have hp : p ∈ s.parameters := hparameters ▸ List.mem_append_right _ List.mem_cons_self
    have hother : p ∉ front := by
      intro hmem
      rw [hparameters, List.map_append, List.nodup_append] at hnames
      exact hnames.2.2 _ (List.mem_map_of_mem hmem) _ List.mem_cons_self rfl
    exact (hfault p hp _).2 ⟨hfirst.front p (by simp), hother, rfl⟩
  · intro q hq e
    have hmem : q ∈ s.parameters := hparameters ▸ List.mem_append_left _ hq
    rw [hfault q hmem e]
    rintro ⟨_, hnot, _⟩
    exact hnot hq

/-- With a word for each required parameter nothing is missing. -/
theorem InTurn.exists_resolve (hlength : required.length ≤ words.length) :
    ∃ context, resolve s a = .ok context := by
  cases hresolve : resolve s a with
  | ok context => exact ⟨context, rfl⟩
  | error e =>
    obtain ⟨before, p, after, hbefore, hfault, _⟩ := resolve_eq_error.1 hresolve
    have hp : p ∈ s.parameters := hbefore ▸ List.mem_append_right _ List.mem_cons_self
    obtain ⟨hrequired, hnot, _⟩ := (hturn.fault_iff hnames hp hconvert e).1 hfault
    have hmem : p ∈ required := by
      rw [hfirst.parameters] at hp
      rcases List.mem_append.1 hp with hp | hp
      · exact hp
      · exact absurd ((hfirst.behind p hp).symm.trans hrequired) nofun
    rw [hfirst.positionals, List.take_append, List.take_of_length_le hlength] at hnot
    exact absurd (List.mem_append_left _ hmem) hnot

end Required

/-- The synopsis states what a call is held to. It lists the positional parameters in turn, and
plain words are given to them in that order: a word that has no place among them is refused, and
of words that convert there are too few exactly if they are fewer than the placeholders. -/
theorem bind_of_synopsis {template declaration : Text} (h : ofText template declaration = .ok s)
    (hoptions : ∀ p ∈ s.options, p.default ≠ none) :
    (synopsis s).words = rootWord :: s.path ++ optionsHeading s ++
        s.positionals.map argumentLabel ++
        (s.parameters.filter (·.isVariadic)).map argumentLabel ∧
      ∀ words : List Text, (∀ w ∈ words, w.head? ≠ some '-') →
        (s.hasVariadic = false → ∀ hlength : s.positionals.length < words.length,
          bind s words = .error (.unexpectedArgument words[s.positionals.length])) ∧
        (s.hasVariadic = true ∨ words.length ≤ s.positionals.length →
          ∃ a, bind s words = .ok (.arguments a) ∧ InTurn s words a ∧
            ((∀ e ∈ s.positionals.zip words, e.1.kind.read? e.2 ≠ none) →
              (words.length < (placeholders (synopsis s)).length →
                ∃ p, s.positionals[words.length]? = some p ∧
                  resolve s a = .error (.missingArgument p.name)) ∧
              ((placeholders (synopsis s)).length ≤ words.length →
                ∃ context, resolve s a = .ok context))) := by
  obtain ⟨hforms, hdistinct, horder⟩ := parameters_of_ofText h
  obtain ⟨_, hpath, _⟩ := commandName_of_ofText h
  obtain ⟨required, rest, hfirst⟩ := exists_requiredFirst horder hoptions
  have hlabels : (placeholders (synopsis s)).length = required.length := by
    rw [placeholders_synopsis hpath hforms, hfirst.filter_arguments horder, List.length_map]
  refine ⟨?_, fun words hplain => ⟨fun hvariadic hlength => ?_, fun hroom => ?_⟩⟩
  · rw [words_synopsis hforms, arguments_eq_append horder, List.map_append, ← List.append_assoc]
  · have hwords : words = words.take s.positionals.length ++
        words[s.positionals.length] :: words.drop (s.positionals.length + 1) := by
      rw [List.getElem_cons_drop, List.take_append_drop]
    exact bind_surplus hplain hwords (List.length_take_of_le hlength.le) hvariadic
  · obtain ⟨a, hbind, hturn⟩ := bind_plain hplain hdistinct.names hroom
    refine ⟨a, hbind, hturn, fun hconvert => ?_⟩
    rw [hlabels]
    exact ⟨hturn.resolve_missing hfirst hdistinct.names hconvert,
      hturn.exists_resolve hfirst hdistinct.names hconvert⟩

set_option maxRecDepth 4000 in
/-- The optional parameter is written first and listed last. -/
theorem bind_of_synopsis_reordered : ∃ s a,
    ofText "seq -s SEP FROM TO" "just seq TO[to:int=9] -s SEP[sep:str=x] FROM[from:int]" = .ok s ∧
      synopsis s = "just seq [OPCIONES] <from> [to]" ∧
      bind s ["1", "2", "3"] = .error (.unexpectedArgument "3") ∧
      bind s [] = .ok (.arguments a) ∧ resolve s a = .error (.missingArgument "from") := by
  have h : ofText "seq -s SEP FROM TO" "just seq TO[to:int=9] -s SEP[sep:str=x] FROM[from:int]" =
      .ok {
        commandName := "seq"
        template := "seq -s SEP FROM TO"
        parameters := [
          ⟨"from", "FROM", .int, none, none, .positional⟩,
          ⟨"to", "TO", .int, some (.int 9), none, .positional⟩,
          ⟨"sep", "SEP", .str, some (.str "x"), none, .option ⟨some "-s", none⟩⟩]
        plan := [.replace "FROM" "from", .replace "TO" "to", .replace "SEP" "sep"] } := by
    decide +kernel
  obtain ⟨_, hcalls⟩ := bind_of_synopsis h (by decide)
  have hsurplus := (hcalls ["1", "2", "3"] (by decide)).1 rfl (by decide)
  obtain ⟨a, hbind, _, hresolve⟩ := (hcalls [] (by decide)).2 (Or.inr (by decide))
  obtain ⟨p, hp, hmissing⟩ := (hresolve (by decide)).1 (by decide +kernel)
  obtain rfl := Option.some.inj hp
  exact ⟨_, a, h, rfl, hsurplus, hbind, hmissing⟩

end Arguments
end TypedCommand
