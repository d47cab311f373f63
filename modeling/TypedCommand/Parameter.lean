import TypedCommand.Declaration

/-!
The parameters of a specification. `Parameter.ofAnnotations` names the annotations,
converts their defaults and puts the parameters in calling order: required ones, then
optional ones, then the variadic one.
-/

namespace TypedCommand

/-- A parameter: its marker is the text that its value replaces or, for a forwarded
option, the flag that is appended. -/
structure Parameter where
  name : Text
  marker : Text
  kind : Kind
  default : Option Value
  help : Option Text
  pattern : Pattern
deriving DecidableEq

namespace Parameter

def flags? (p : Parameter) : Option Flags := p.pattern.flags?

def isOption (p : Parameter) : Bool := p.flags?.isSome

def isVariadic (p : Parameter) : Bool := p.pattern.isVariadic

def isPositional (p : Parameter) : Bool := p.pattern == .positional

/-- Without a default a parameter has to be given, but for the variadic one. -/
def isRequired (p : Parameter) : Bool := p.default.isNone && !p.isVariadic

def isInline (p : Parameter) : Bool :=
  match p.pattern with
  | .forwarded _ => false
  | _ => true

/-- The calling order: required, optional, variadic, each group in its given order. -/
def reorder (ps : List Parameter) : List Parameter :=
  ps.filter (·.isRequired) ++ ps.filter (fun p => !p.isRequired && !p.isVariadic) ++
    ps.filter (·.isVariadic)

/-- The name of a variadic parameter that has neither a name nor a marker. -/
def variadicName : Text := "args"

/-- An identifier made of any text: its runs of letters and digits in lower case,
joined by underscores, behind `num_` if a digit would come first. -/
def identifier? (t : Text) : Option Text :=
  match (Text.runs Text.isAlnum t).map (·.map Char.toLower) with
  | [] => none
  | runs =>
    let joined := ['_'].intercalate runs
    if joined.head?.any Char.isDigit then some ("num_" ++ joined) else some joined

def nameSource (a : Annotation) : Text :=
  match a.pattern with
  | .option flags => flags.bareName
  | .forwarded flags => flags.bareName
  | .variadic => if a.marker.isEmpty then variadicName else a.marker
  | .positional => a.marker

def nameOf (a : Annotation) : Except DeclarationError Text :=
  match a.name with
  | some name => .ok name
  | none => match identifier? (nameSource a) with
    | some name => .ok name
    | none => .error (.malformed a.fragment (.nameNotDerivable (nameSource a)))

/-- The default of an annotation as a value of its kind. A truth option without a
default is false. -/
def defaultOf (name : Text) (a : Annotation) : Except DeclarationError (Option Value) :=
  match a.default with
  | some text => match a.kind.read text with
    | .ok value => .ok (some value)
    | .error failure => .error (.invalidDefault name failure)
  | none => .ok (if a.kind = .bool && a.pattern.flags?.isSome then some (.bool false) else none)

/-- The names, markers and flags that earlier parameters of a declaration use. -/
structure Taken where
  names : List Text := []
  markers : List Text := []
  flags : List Text := []

/-- The given flags in addition to those already taken, unless one is among them. -/
def claimFlags (taken : List Text) : List Text → Except DeclarationError (List Text)
  | [] => .ok taken
  | flag :: rest =>
    if taken.contains flag then .error (.repeatedName flag) else claimFlags (flag :: taken) rest

def placeOf (a : Annotation) : Option Text :=
  match a.pattern with
  | .forwarded _ => none
  | _ => if a.marker.isEmpty then none else some a.marker

def ofAnnotation (taken : Taken) (a : Annotation) :
    Except DeclarationError (Parameter × Taken) := do
  let name ← nameOf a
  if taken.names.contains name then .error (.repeatedName name)
  else if (placeOf a).any taken.markers.contains then
    .error (.malformed a.fragment (.markerRepeated a.marker))
  else
    let default ← defaultOf name a
    let flags ← claimFlags taken.flags ((a.pattern.flags?.map Flags.toList).getD [])
    let parameter : Parameter :=
      { name, marker := a.marker, kind := a.kind, default, help := a.help, pattern := a.pattern }
    return (parameter, {
      names := name :: taken.names
      markers := (placeOf a).toList ++ taken.markers
      flags })

def inOrder (taken : Taken) : List Annotation → Except DeclarationError (List Parameter)
  | [] => .ok []
  | a :: rest => do
    let (parameter, taken) ← ofAnnotation taken a
    return parameter :: (← inOrder taken rest)

def ofAnnotations (annotations : List Annotation) : Except DeclarationError (List Parameter) :=
  reorder <$> inOrder {} annotations

end Parameter
end TypedCommand
