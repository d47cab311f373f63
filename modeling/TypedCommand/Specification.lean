import TypedCommand.Parameter
import TypedCommand.Template

/-!
Specifications: a template with its parameters and the plan by which their values go
into it. A declaration is compiled against a template, and every marker that a value
replaces has to occur there.
-/

namespace TypedCommand

inductive Step
  /-- The value replaces each occurrence of the marker in the template. -/
  | replace (marker param : Text)
  /-- The flag and the value are appended; a true value appends the flag alone, a
  false one nothing. -/
  | appendFlag (flag param : Text)
  /-- The words left over replace the marker or, without one, are appended. -/
  | captureRemaining (marker : Option Text) (param : Text)
deriving DecidableEq

/-- A command that can be called: its name, the command text with the markers in it,
its parameters in calling order, and the plan. -/
structure Specification where
  commandName : Text
  template : Text
  parameters : List Parameter
  plan : List Step
deriving DecidableEq

namespace Specification

def path (s : Specification) : List Text := s.commandName.words

def isStaticAlias (s : Specification) : Bool := s.parameters.isEmpty

def parameter? (s : Specification) (name : Text) : Option Parameter :=
  s.parameters.find? (fun p => p.name == name)

def option? (s : Specification) (flag : Text) : Option Parameter :=
  s.parameters.find? (fun p => p.flags?.any (·.accepts flag))

def positionals (s : Specification) : List Parameter :=
  s.parameters.filter (·.isPositional)

def options (s : Specification) : List Parameter := s.parameters.filter (·.isOption)

/-- The parameters that are no options: the positional ones and the variadic one. -/
def arguments (s : Specification) : List Parameter := s.parameters.filter (fun p => !p.isOption)

def hasVariadic (s : Specification) : Bool := s.parameters.any (·.isVariadic)

def inlineMarkers (parameters : List Parameter) : List Text :=
  (parameters.filter (·.isInline)).map (·.marker)

/-- The step of a parameter, given which markers are picked in the template. -/
def stepOf (template : Text) (picked : Text → Bool) (p : Parameter) :
    Except DeclarationError Step :=
  match p.pattern with
  | .forwarded _ => .ok (.appendFlag p.marker p.name)
  | .variadic =>
    .ok (.captureRemaining (if picked p.marker then some p.marker else none) p.name)
  | _ =>
    if picked p.marker then .ok (.replace p.marker p.name)
    else .error (.unresolvedMarker p.marker p.name template)

def compile (template : Text) (d : Declaration) : Except DeclarationError Specification := do
  let template := template.trim
  if template.isEmpty then .error (.malformed d.name .templateEmpty)
  else
    let parameters ← Parameter.ofAnnotations d.annotations
    let picked := Template.picks (inlineMarkers parameters) template
    let plan ← parameters.mapM (stepOf template picked)
    return { commandName := d.name, template, parameters, plan }

def ofText (template declaration : Text) : Except DeclarationError Specification :=
  Declaration.read declaration >>= compile template

end Specification
end TypedCommand
