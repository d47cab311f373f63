import TypedCommand.Declaration.Flags
import TypedCommand.Declaration.Token

/-!
Annotations. The text between the brackets is either three dots, with an optional help
text, or a head, a kind, a default and a help text, each of them optional. The marker
and the flags written before the word decide which of the four patterns it declares.
-/

namespace TypedCommand

/-- How a parameter is given on the command line, and what its value does. -/
inductive Pattern
  /-- A plain word; its value replaces the marker. -/
  | positional
  /-- The value behind a flag; it replaces the marker. -/
  | option (flags : Flags)
  /-- The value behind a flag; it is appended to the command, after the flag that is
  the marker. -/
  | forwarded (flags : Flags)
  /-- All words that nothing else takes. -/
  | variadic
deriving DecidableEq

namespace Pattern

def flags? : Pattern → Option Flags
  | option flags => some flags
  | forwarded flags => some flags
  | positional => none
  | variadic => none

def isVariadic (p : Pattern) : Bool := p == variadic

end Pattern

/-- An annotated word, before it has a name of its own. The default is still a text,
without its quotes; the fragment is the word as written. -/
structure Annotation where
  marker : Text
  name : Option Text
  kind : Kind
  default : Option Text
  help : Option Text
  pattern : Pattern
  fragment : Text
deriving DecidableEq

namespace Annotation

/-- The fields of the text between the brackets of an annotation. -/
structure Body where
  head : Text
  kind : Kind
  default : Option Text
  help : Option Text
deriving DecidableEq

def splitBefore (p : Char → Bool) (t : Text) : Text × Text :=
  (t.takeWhile (fun c => !p c), t.dropWhile (fun c => !p c))

def readKind (fragment : Text) : Text → Except DeclarationError (Kind × Text)
  | ':' :: rest =>
    let (name, rest) := splitBefore (fun c => c == '=' || c == '#') rest
    if name.isEmpty then .error (.malformed fragment .kindMissing)
    else match Kind.ofName? name with
      | some kind => .ok (kind, rest)
      | none => .error (.unknownKind name fragment)
  | t => .ok (.str, t)

def readDefault (fragment : Text) : Text → Except DeclarationError (Option Text × Text)
  | '=' :: rest =>
    match rest with
    | [] => .ok (some [], [])
    | q :: inner =>
      if q = '"' ∨ q = '\'' then
        match splitBefore (· == q) inner with
        | (_, []) => .error (.malformed fragment .quoteNotClosed)
        | (value, _ :: rest) =>
          if rest.isEmpty || rest.head? == some '#' then .ok (some value, rest)
          else .error (.malformed fragment .textAfterQuoted)
      else
        let (value, rest) := splitBefore (· == '#') (q :: inner)
        if value.any Text.isBlank then .error (.malformed fragment .defaultWithBlank)
        else .ok (some value, rest)
  | t => .ok (none, t)

def readHelp (fragment : Text) : Text → Except DeclarationError (Option Text)
  | [] => .ok none
  | _ :: help =>
    if help.contains '=' then .error (.malformed fragment .helpWithEquals)
    else .ok (some help)

/-- The fields of an annotation: `head`, `:kind`, `=default`, `#help`, in this order. -/
def Body.read (fragment : Text) (body : Text) : Except DeclarationError Body := do
  let (head, rest) := splitBefore (fun c => c == ':' || c == '=' || c == '#') body
  let (kind, rest) ← readKind fragment rest
  let (default, rest) ← readDefault fragment rest
  let help ← readHelp fragment rest
  return { head, kind, default, help }

def checkName (fragment name : Text) : Except DeclarationError Unit :=
  if name.all Text.isIdentifierChar then .ok ()
  else .error (.malformed fragment (.nameInvalid name))

def readFlags (fragment : Text) (reason : Reason) (t : Text) : Except DeclarationError Flags :=
  match Flags.ofText? t with
  | some flags => .ok flags
  | none => .error (.malformed fragment reason)

def readVariadic (fragment marker : Text) (flags : Option Flags) (rest : Text) :
    Except DeclarationError Annotation :=
  let withHelp (help : Option Text) : Annotation :=
    { marker, name := none, kind := .str, default := none, help, pattern := .variadic, fragment }
  if flags.isSome then .error (.malformed fragment .flagOnVariadic)
  else match rest with
    | [] => .ok (withHelp none)
    | '#' :: help => .ok (withHelp (some help))
    | _ => .error (.malformed fragment .textAfterDots)

/-- The name and the flags of a word whose marker is the flag `own`: the head is a
name for it, or other flags to give it by, or empty, and then it is given by `own`. -/
def readForwardedHead (fragment : Text) (own : Flags) (head : Text) :
    Except DeclarationError (Option Text × Flags) :=
  if head.head? = some '-' then
    (readFlags fragment .headFlagInvalid head).map fun flags => (none, flags)
  else if head.isEmpty then .ok (none, own)
  else (checkName fragment head).map fun _ => (some head, Flags.ofName head)

def readForwarded (fragment marker : Text) (flags : Option Flags) (body : Body) :
    Except DeclarationError Annotation :=
  if flags.isSome then .error (.malformed fragment .flagOnFlag)
  else do
    let own ← readFlags fragment .markerFlagInvalid marker
    let (name, flags) ← readForwardedHead fragment own body.head
    return {
      marker := own.primary, name, kind := body.kind, default := body.default,
      help := body.help, pattern := .forwarded flags, fragment }

/-- The annotation of a word whose marker is replaced in the template: an option when
flags stand before the word, a positional one otherwise. -/
def readReplaced (fragment marker : Text) (flags : Option Flags) (body : Body) :
    Except DeclarationError Annotation :=
  if marker.isEmpty then .error (.malformed fragment .markerMissing)
  else (checkName fragment body.head).map fun _ => {
    marker, name := if body.head.isEmpty then none else some body.head, kind := body.kind,
    default := body.default, help := body.help,
    pattern := match flags with
      | some flags => .option flags
      | none => .positional
    fragment }

/-- The annotation of a word with the given marker and text between brackets, where
`flags` stand before it. -/
def read (fragment marker body : Text) (flags : Option Flags) :
    Except DeclarationError Annotation :=
  match body with
  | '.' :: '.' :: '.' :: rest => readVariadic fragment marker flags rest
  | _ => do
    let fields ← Body.read fragment body
    if marker.head? = some '-' then readForwarded fragment marker flags fields
    else readReplaced fragment marker flags fields

end Annotation
end TypedCommand
