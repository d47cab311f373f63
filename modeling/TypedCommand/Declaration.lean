import TypedCommand.Declaration.Annotation

/-!
Declarations: the words of a command name, then annotated words, each of which may
follow a word that gives its flags. The word that calls the program itself may stand
in front.
-/

namespace TypedCommand

def rootWord : Text := "just"

/-- A command name by its words, and the annotations in the order of writing. -/
structure Declaration where
  path : List Text
  annotations : List Annotation
deriving DecidableEq

namespace Declaration

def name (d : Declaration) : Text := [' '].intercalate d.path

def isFlagWord (t : Token) : Bool := t.isBare && t.marker.head? == some '-'

/-- The words of the command name at the front of a declaration, and the tokens from
the first flag or annotation on. -/
def readPath : List Token → Except DeclarationError (List Text × List Token)
  | [] => .ok ([], [])
  | token :: rest =>
    if token.isBare && !isFlagWord token then
      if token.marker.all Text.isWordChar then
        (readPath rest).map fun (path, tokens) => (token.marker :: path, tokens)
      else .error (.malformed token.raw .commandWordInvalid)
    else .ok ([], token :: rest)

/-- The annotations of the tokens behind the command name. `pending` holds the flags
of a flag word and the word itself until the annotated word that they belong to;
`collected` says that a variadic annotation has been read. -/
def readAnnotations (collected : Bool) (pending : Option (Flags × Text)) :
    List Token → Except DeclarationError (List Annotation)
  | [] => match pending with
    | some (_, raw) => .error (.malformed raw .flagWithoutMarker)
    | none => .ok []
  | token :: rest => match token.body with
    | none =>
      if isFlagWord token then
        match pending with
        | some (_, raw) => .error (.malformed raw .flagWithoutMarker)
        | none => match Flags.ofText? token.marker with
          | some flags => readAnnotations collected (some (flags, token.raw)) rest
          | none => .error (.malformed token.raw .flagInvalid)
      else .error (.malformed token.raw .wordAfterParameters)
    | some body => do
      let a ← Annotation.read token.raw token.marker body (pending.map Prod.fst)
      let variadic := a.pattern.isVariadic
      if variadic && collected then .error (.secondVariadic token.raw)
      else (a :: ·) <$> readAnnotations (collected || variadic) none rest

/-- The tokens without a bare word in front that calls the program. -/
def dropRootWord : List Token → List Token
  | [] => []
  | token :: rest => if token = { marker := rootWord } then rest else token :: rest

def read (text : Text) : Except DeclarationError Declaration := do
  let tokens ← Token.read text
  let (path, tokens) ← readPath (dropRootWord tokens)
  let annotations ← readAnnotations false none tokens
  if path.isEmpty then .error (.malformed text.trim .commandNameMissing)
  else return { path, annotations }

end Declaration
end TypedCommand
