import TypedCommand.Invocation
import TypedCommand.Proofs.Toml.Scalar
import TypedCommand.Usage

/-!
A specification that has been written and read back has lost the signs of the defaults
that are not numbers. No call can tell: such a default has one text with either sign, and
nothing but its text and its kind is ever asked for.
-/

namespace TypedCommand

def Value.settle : Value → Value
  | float x => .float x.settle
  | v => v

def Parameter.settle (p : Parameter) : Parameter :=
  { p with default := p.default.map Value.settle }

/-- The specification that is left of a specification when it has been written. -/
def Specification.settle (s : Specification) : Specification :=
  { s with parameters := s.parameters.map Parameter.settle }

namespace Binary64

theorem settle_of_not_isNaN {x : Binary64} (h : x.isNaN = false) : x.settle = x := by
  rw [settle, if_neg (by simp [h])]

theorem settle_of_isNaN {x : Binary64} (h : x.isNaN = true) : x.settle = notANumber false := by
  rw [settle, if_pos h]

theorem settle_settle (x : Binary64) : x.settle.settle = x.settle := by
  cases h : x.isNaN with
  | false => rw [settle_of_not_isNaN h, settle_of_not_isNaN h]
  | true =>
    rw [settle_of_isNaN h]
    rfl

theorem text_settle (x : Binary64) : x.settle.text = x.text := by
  cases h : x.isNaN with
  | false => rw [settle_of_not_isNaN h]
  | true =>
    rw [settle_of_isNaN h, text, text, if_pos h]
    rfl

end Binary64

namespace Value

theorem settle_settle (v : Value) : v.settle.settle = v.settle := by
  cases v with
  | float x => exact congrArg float x.settle_settle
  | str t => rfl
  | int n => rfl
  | bool b => rfl

@[simp]
theorem kind_settle (v : Value) : v.settle.kind = v.kind := by cases v <;> rfl

@[simp]
theorem text_settle (v : Value) : v.settle.text = v.text := by
  cases v with
  | float x => exact Binary64.text_settle x
  | str t => rfl
  | int n => rfl
  | bool b => rfl

end Value

namespace Parameter

variable (p : Parameter)

theorem settle_settle : p.settle.settle = p.settle := by
  have hvalue : Value.settle ∘ Value.settle = Value.settle := funext Value.settle_settle
  rw [settle, settle, Option.map_map, hvalue]

@[simp]
theorem name_settle : p.settle.name = p.name := rfl

@[simp]
theorem kind_settle : p.settle.kind = p.kind := rfl

@[simp]
theorem isVariadic_settle : p.settle.isVariadic = p.isVariadic := rfl

@[simp]
theorem isRequired_settle : p.settle.isRequired = p.isRequired := by
  simp [isRequired, settle, isVariadic]

end Parameter

namespace Specification

variable (s : Specification)

/-- Writing once more loses nothing more. -/
theorem settle_settle : s.settle.settle = s.settle := by
  have hparameter : Parameter.settle ∘ Parameter.settle = Parameter.settle :=
    funext Parameter.settle_settle
  rw [settle, settle, List.map_map, hparameter]

@[simp]
theorem commandName_settle : s.settle.commandName = s.commandName := rfl

theorem option?_settle (flag : Text) :
    s.settle.option? flag = (s.option? flag).map Parameter.settle := by
  rw [option?, option?, settle, List.find?_map]
  rfl

theorem parameter?_settle (name : Text) :
    s.settle.parameter? name = (s.parameter? name).map Parameter.settle := by
  rw [parameter?, parameter?, settle, List.find?_map]
  rfl

theorem positionals_settle : s.settle.positionals = s.positionals.map Parameter.settle := by
  rw [positionals, positionals, settle, List.filter_map]
  rfl

theorem options_settle : s.settle.options = s.options.map Parameter.settle := by
  rw [options, options, settle, List.filter_map]
  rfl

theorem arguments_settle : s.settle.arguments = s.arguments.map Parameter.settle := by
  rw [arguments, arguments, settle, List.filter_map]
  rfl

theorem hasVariadic_settle : s.settle.hasVariadic = s.hasVariadic := by
  rw [hasVariadic, hasVariadic, settle, List.any_map]
  rfl

end Specification

namespace Arguments

def Progress.settle (p : Progress) : Progress :=
  { p with
    waiting := p.waiting.map Parameter.settle
    awaiting := p.awaiting.map fun (flag, option) => (flag, option.settle) }

variable (s : Specification) (word : Text) (p : Progress)

theorem takePlain_settle :
    takePlain s.settle word p.settle = (takePlain s word p).map Progress.settle := by
  unfold takePlain
  rw [s.hasVariadic_settle]
  cases hwaiting : p.waiting with
  | nil =>
    simp only [Progress.settle, hwaiting, List.map_nil]
    split <;> simp [Except.map, Progress.settle]
  | cons next waiting => simp [Progress.settle, hwaiting, Except.map, give]

theorem takeFlag_settle :
    takeFlag s.settle word p.settle = (takeFlag s word p).map Progress.settle := by
  unfold takeFlag
  rw [takePlain_settle, s.hasVariadic_settle]
  dsimp only
  rw [s.option?_settle]
  cases s.option? (splitFlag word).1 with
  | none =>
    dsimp only [Option.map_none]
    split
    · rfl
    · split
      · rfl
      · split <;> rfl
  | some option =>
    cases (splitFlag word).2 with
    | some value => rfl
    | none =>
      dsimp only [Option.map_some]
      rw [option.kind_settle]
      split <;> rfl

/-- A word means the same whether the parameters are settled or not. -/
theorem take_settle : take s.settle p.settle word = (take s p word).map Progress.settle := by
  unfold take
  rw [takePlain_settle, takeFlag_settle]
  cases hawaiting : p.awaiting with
  | some awaiting =>
    simp only [Progress.settle, hawaiting, Option.map_some]
    rfl
  | none =>
    simp only [Progress.settle, hawaiting, Option.map_none]
    split
    · rfl
    · split
      · simp [Except.map, Progress.settle]
      · split <;> rfl

theorem foldlM_take_settle (words : List Text) :
    words.foldlM (take s.settle) p.settle = (words.foldlM (take s) p).map Progress.settle := by
  induction words generalizing p with
  | nil => rfl
  | cons word words ih =>
    rw [List.foldlM_cons, List.foldlM_cons, take_settle]
    cases take s p word with
    | error stop => rfl
    | ok p => exact ih p

/-- The words of a call are shared out alike. -/
theorem bind_settle (words : List Text) : bind s.settle words = bind s words := by
  have hstart : ({ waiting := s.settle.positionals } : Progress) =
      Progress.settle { waiting := s.positionals } := by
    rw [s.positionals_settle]
    rfl
  rw [bind, bind, hstart, foldlM_take_settle]
  cases words.foldlM (take s) { waiting := s.positionals } with
  | error stop => cases stop <;> rfl
  | ok p =>
    simp only [Except.map, Progress.settle]
    cases p.awaiting <;> rfl

end Arguments

namespace Invocation

variable (s : Specification)

theorem resolve_settle (a : Arguments) : resolve s.settle a = resolve s a := by
  have hstep : ∀ (context : Context) (p : Parameter),
      resolveParameter a context p.settle = resolveParameter a context p := by
    intro context p
    simp only [resolveParameter, Parameter.name_settle, Parameter.kind_settle,
      Parameter.isRequired_settle]
  rw [resolve, resolve, Specification.settle, List.filter_map, List.foldlM_map]
  simp only [hstep]
  rfl

/-- What is asked of the value of a parameter, if that is its text or its kind. -/
theorem map_valueOf_settle {β : Type} (f : Value → β) (hf : ∀ v, f v.settle = f v)
    (context : Context) (name : Text) :
    (valueOf s.settle context name).map f = (valueOf s context name).map f := by
  unfold valueOf
  rw [s.parameter?_settle]
  cases s.parameter? name with
  | none => rfl
  | some p =>
    dsimp only [Option.map_some]
    cases context.values.get? name with
    | some value => rfl
    | none =>
      cases hdefault : p.default with
      | none => simp [Parameter.settle, hdefault]
      | some value =>
        simp only [Parameter.settle, hdefault, Option.map_some, Option.orElse_eq_orElse,
          Option.orElse_eq_or, Option.none_or, Value.kind_settle, Value.text_settle]
        split
        · exact congrArg Except.ok (hf value)
        · rfl

theorem replacementOf_settle (context : Context) (step : Step) :
    replacementOf s.settle context step = replacementOf s context step := by
  cases step with
  | replace marker param =>
    exact map_valueOf_settle s (fun value => [(marker, value.text)])
      (fun v => by rw [v.text_settle]) context param
  | appendFlag flag param => rfl
  | captureRemaining marker param => cases marker <;> rfl

def appendedText (flag : Text) (value : Value) : Text :=
  if value = .bool false then []
  else if value = .bool true then ' ' :: flag
  else ' ' :: flag ++ ' ' :: value.text

theorem optionText_appendFlag (context : Context) (flag param : Text) :
    optionText s context (.appendFlag flag param) =
      (valueOf s context param).map (appendedText flag) := by
  rw [optionText]
  cases valueOf s context param with
  | error e => rfl
  | ok value =>
    cases value with
    | bool b => cases b <;> rfl
    | str t => rfl
    | int n => rfl
    | float x => rfl

theorem optionText_settle (context : Context) (step : Step) :
    optionText s.settle context step = optionText s context step := by
  cases step with
  | appendFlag flag param =>
    rw [optionText_appendFlag, optionText_appendFlag]
    refine map_valueOf_settle s (appendedText flag) (fun v => ?_) context param
    cases v with
    | float x => exact congrArg (fun t => ' ' :: flag ++ ' ' :: t) (Binary64.text_settle x)
    | str t => rfl
    | int n => rfl
    | bool b => rfl
  | replace marker param => rfl
  | captureRemaining marker param => rfl

theorem interpolate_settle (context : Context) :
    interpolate s.settle context = interpolate s context := by
  have halias : s.settle.isStaticAlias = s.isStaticAlias := by
    simp [Specification.isStaticAlias, Specification.settle]
  have hreplacement : replacementOf s.settle context = replacementOf s context :=
    funext (replacementOf_settle s context)
  have hoption : optionText s.settle context = optionText s context :=
    funext (optionText_settle s context)
  rw [interpolate, interpolate, halias, hreplacement, hoption]
  rfl

/-- Arguments give the same command. -/
theorem command_settle (a : Arguments) : command s.settle a = command s a := by
  rw [command, command, resolve_settle]
  congr 1
  exact funext (interpolate_settle s)

end Invocation

namespace Usage

theorem argumentLabel_settle (p : Parameter) : argumentLabel p.settle = argumentLabel p := by
  simp only [argumentLabel, Parameter.isVariadic_settle, Parameter.isRequired_settle,
    Parameter.name_settle]

theorem optionLabel_settle (p : Parameter) : optionLabel p.settle = optionLabel p := rfl

theorem row_settle (width : Nat) (label : Text) (p : Parameter) :
    row width label p.settle = row width label p := by
  cases hdefault : p.default <;> simp [row, Parameter.settle, hdefault]

theorem table_settle (heading : Text) {label : Parameter → Text}
    (hlabel : ∀ p, label p.settle = label p) (ps : List Parameter) :
    table heading label (ps.map Parameter.settle) = table heading label ps := by
  have hwidth : labelWidth label (ps.map Parameter.settle) = labelWidth label ps := by
    simp [labelWidth, Function.comp_def, hlabel]
  cases ps with
  | nil => rfl
  | cons p ps =>
    rw [table, table, hwidth]
    simp [Function.comp_def, hlabel, row_settle]

theorem synopsis_settle (s : Specification) : synopsis s.settle = synopsis s := by
  have hlabels : argumentLabel ∘ Parameter.settle = argumentLabel := funext argumentLabel_settle
  rw [synopsis, synopsis, s.options_settle, s.arguments_settle, List.isEmpty_map, List.map_map,
    hlabels, s.commandName_settle]

theorem render_settle (s : Specification) : render s.settle = render s := by
  rw [render, render, lines, lines, synopsis_settle, s.arguments_settle, s.options_settle,
    table_settle _ argumentLabel_settle, table_settle _ optionLabel_settle]
  rfl

end Usage
end TypedCommand
