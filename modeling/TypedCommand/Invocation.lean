import TypedCommand.Arguments

/-!
From arguments to a command. The texts of a call are converted to the kinds of their
parameters and give a context; the plan puts the values of a context into the template
in one pass, then appends the forwarded options, then the words left over.
-/

namespace TypedCommand

/-- The typed values of one call, by parameter name, and the words left over. -/
structure Context where
  values : SortedMap Value := SortedMap.empty
  leftovers : List Text := []

namespace Invocation

def resolveParameter (a : Arguments) (context : Context) (p : Parameter) :
    Except InvocationError Context :=
  match a.values.get? p.name with
  | some text => match p.kind.read text with
    | .ok value => .ok { context with values := context.values.insert p.name value }
    | .error failure => .error (.invalidValue p.name failure)
  | none => if p.isRequired then .error (.missingArgument p.name) else .ok context

/-- Converts the arguments of a call. The first parameter that has a text of another
kind, or is required and has none, is the one that is reported. -/
def resolve (s : Specification) (a : Arguments) : Except InvocationError Context :=
  (s.parameters.filter (fun p => !p.isVariadic)).foldlM (resolveParameter a)
    { leftovers := a.leftovers }

/-- The value of a parameter, given or by default; it has to be of the declared kind. -/
def valueOf (s : Specification) (context : Context) (name : Text) :
    Except InvocationError Value :=
  match s.parameter? name with
  | none => .error (.missingArgument name)
  | some p => match context.values.get? name <|> p.default with
    | none => .error (.missingArgument name)
    | some value =>
      if value.kind = p.kind then .ok value
      else .error (.invalidValue name ⟨value.text, p.kind⟩)

def joinedLeftovers (context : Context) : Text := [' '].intercalate context.leftovers

def replacementOf (s : Specification) (context : Context) :
    Step → Except InvocationError (List (Text × Text))
  | .replace marker param => do
    let value ← valueOf s context param
    return [(marker, value.text)]
  | .captureRemaining (some marker) _ => .ok [(marker, joinedLeftovers context)]
  | _ => .ok []

def optionText (s : Specification) (context : Context) : Step → Except InvocationError Text
  | .appendFlag flag param => do
    match ← valueOf s context param with
    | .bool false => return []
    | .bool true => return ' ' :: flag
    | value => return ' ' :: flag ++ ' ' :: value.text
  | _ => .ok []

def appendsLeftovers (s : Specification) : Bool :=
  s.plan.any fun
    | .captureRemaining none _ => true
    | _ => false

def remainingText (s : Specification) (context : Context) : Text :=
  if appendsLeftovers s && !context.leftovers.isEmpty then ' ' :: joinedLeftovers context
  else []

/-- The command that a context gives. Values go in as they are, without quotes. -/
def interpolate (s : Specification) (context : Context) : Except InvocationError Text :=
  if s.isStaticAlias then .ok s.template
  else do
    let replacements ← s.plan.mapM (replacementOf s context)
    let options ← s.plan.mapM (optionText s context)
    return Template.substitute replacements.flatten s.template ++ options.flatten ++
      remainingText s context

def command (s : Specification) (a : Arguments) : Except InvocationError Text :=
  resolve s a >>= interpolate s

end Invocation
end TypedCommand
