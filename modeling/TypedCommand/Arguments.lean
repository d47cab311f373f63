import TypedCommand.Specification
import TypedCommand.SortedMap

/-!
The words of a call, shared out among the parameters of a specification. Each word is
read once, from left to right, and what it means depends on the words before it only:
a declared flag, the value of the flag before it, the terminator `--`, a positional
argument, or a word left over for the variadic parameter.
-/

namespace TypedCommand

/-- Why a call cannot be turned into a command. -/
inductive InvocationError
  | invalidValue (name : Text) (failure : ConversionFailure)
  | missingArgument (name : Text)
  | missingOptionValue (flag : Text)
  | unknownOption (flag : Text)
  | unexpectedArgument (word : Text)
deriving DecidableEq

namespace InvocationError

def message : InvocationError → Text
  | invalidValue name failure =>
    "Argumento " ++ name.inQuotes ++ " inválido: " ++ failure.message
  | missingArgument name => "Falta el argumento obligatorio " ++ name.inQuotes ++ "."
  | missingOptionValue flag => "La opción " ++ flag.inQuotes ++ " necesita un valor."
  | unknownOption flag => "Opción desconocida " ++ flag.inQuotes ++ "."
  | unexpectedArgument word => "Argumento inesperado " ++ word.inQuotes ++ "."

def causes : InvocationError → List Text
  | invalidValue name failure => [(invalidValue name failure).message, failure.message]
  | e => [e.message]

end InvocationError

/-- The texts given to parameters, by name, and the words left over. -/
structure Arguments where
  values : SortedMap Text := SortedMap.empty
  leftovers : List Text := []

/-- What a call asks for: a command with arguments, or the usage text. -/
inductive Binding
  | arguments (arguments : Arguments)
  | help

namespace Arguments

def give (a : Arguments) (p : Parameter) (text : Text) : Arguments :=
  { a with values := a.values.insert p.name text }

def leave (a : Arguments) (word : Text) : Arguments :=
  { a with leftovers := a.leftovers ++ [word] }

/-- The state between two words: what has been given, the positional parameters that
wait for a word, whether the terminator has come, and the flag whose value is next. -/
structure Progress where
  given : Arguments := {}
  waiting : List Parameter
  terminated : Bool := false
  awaiting : Option (Text × Parameter) := none

inductive Stop
  | help
  | failure (error : InvocationError)

/-- A word that reads as a number below zero: a minus, a digit or a point, and the rest
of a decimal. -/
def isNegativeNumber : Text → Bool
  | '-' :: c :: rest =>
    (c.isDigit || c == '.') && (Text.toBinary64? ('-' :: c :: rest)).isSome
  | _ => false

/-- The flag of a word and the value written with it: a word with two dashes is cut at
its first equals sign. -/
def splitFlag (word : Text) : Text × Option Text :=
  if "--".toList.isPrefixOf word then
    match word.dropWhile (· != '=') with
    | _ :: value => (word.takeWhile (· != '='), some value)
    | [] => (word, none)
  else (word, none)

/-- A word that is no flag goes to the next positional parameter, else to the words
left over. -/
def takePlain (s : Specification) (word : Text) (p : Progress) : Except Stop Progress :=
  match p.waiting with
  | next :: waiting => .ok { p with given := p.given.give next word, waiting }
  | [] =>
    if s.hasVariadic then .ok { p with given := p.given.leave word }
    else .error (.failure (.unexpectedArgument word))

/-- A word that begins with a dash, before the terminator. A declared flag comes
before all else, so `-1` can be one. -/
def takeFlag (s : Specification) (word : Text) (p : Progress) : Except Stop Progress :=
  let (flag, inline) := splitFlag word
  match s.option? flag, inline with
  | some option, some value => .ok { p with given := p.given.give option value }
  | some option, none =>
    if option.kind = .bool then .ok { p with given := p.given.give option "true" }
    else .ok { p with awaiting := some (flag, option) }
  | none, _ =>
    if isNegativeNumber word then takePlain s word p
    else if flag = "-h".toList ∨ flag = "--help".toList then .error .help
    else if s.hasVariadic then .ok { p with given := p.given.leave word }
    else .error (.failure (.unknownOption flag))

def take (s : Specification) (p : Progress) (word : Text) : Except Stop Progress :=
  match p.awaiting with
  | some (_, option) => .ok { p with given := p.given.give option word, awaiting := none }
  | none =>
    if p.terminated then takePlain s word p
    else if word = "--".toList then .ok { p with terminated := true }
    else if word.head? = some '-' ∧ 1 < word.length then takeFlag s word p
    else takePlain s word p

def bind (s : Specification) (words : List Text) : Except InvocationError Binding :=
  match words.foldlM (take s) { waiting := s.positionals } with
  | .error .help => .ok .help
  | .error (.failure e) => .error e
  | .ok p => match p.awaiting with
    | some (flag, _) => .error (.missingOptionValue flag)
    | none => .ok (.arguments p.given)

end Arguments
end TypedCommand
