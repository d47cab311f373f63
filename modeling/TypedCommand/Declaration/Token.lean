import TypedCommand.Declaration.Error

/-!
The words of a declaration. A word is a marker, then at most one annotation in
brackets. Blanks and brackets inside a quoted default belong to it; a quote opens only
directly behind an equals sign, and brackets do not nest.
-/

namespace TypedCommand

/-- A word of a declaration: its marker, and the text between its brackets if it is
annotated. -/
structure Token where
  marker : Text
  body : Option Text := none
deriving DecidableEq

namespace Token

def raw (t : Token) : Text :=
  match t.body with
  | none => t.marker
  | some body => t.marker ++ '[' :: body ++ [']']

def isBare (t : Token) : Bool := t.body.isNone

inductive Reading
  | outside (marker : Text)
  | inside (marker body : Text)
  | quoted (marker body : Text) (quote : Char)
  | closed (marker body : Text)

namespace Reading

def raw : Reading → Text
  | outside marker => marker
  | inside marker body => marker ++ '[' :: body
  | quoted marker body _ => marker ++ '[' :: body
  | closed marker body => marker ++ '[' :: body ++ [']']

def finish : Reading → Except DeclarationError Token
  | outside marker => .ok { marker }
  | closed marker body => .ok { marker, body := some body }
  | reading@(inside _ _) => .error (.malformed reading.raw .bracketNotClosed)
  | reading@(quoted _ _ _) => .error (.malformed reading.raw .quoteNotClosed)

end Reading

def readFrom : Reading → Text → Except DeclarationError (List Token)
  | .outside [], [] => .ok []
  | reading, [] => reading.finish.map ([·])
  | .quoted marker body quote, c :: rest =>
    if c = quote then readFrom (.inside marker (body ++ [c])) rest
    else readFrom (.quoted marker (body ++ [c]) quote) rest
  | .inside marker body, c :: rest =>
    if c = ']' then readFrom (.closed marker body) rest
    else if c = '[' then
      .error (.malformed ((Reading.inside marker body).raw ++ [c]) .nestedBracket)
    else if (c = '"' ∨ c = '\'') ∧ body.getLast? = some '=' then
      readFrom (.quoted marker (body ++ [c]) c) rest
    else readFrom (.inside marker (body ++ [c])) rest
  | .outside marker, c :: rest =>
    if Text.isBlank c then
      if marker.isEmpty then readFrom (.outside []) rest
      else (readFrom (.outside []) rest).map ({ marker } :: ·)
    else if c = '[' then readFrom (.inside marker []) rest
    else if c = ']' then .error (.malformed (marker ++ [c]) .bracketNotOpened)
    else readFrom (.outside (marker ++ [c])) rest
  | .closed marker body, c :: rest =>
    if Text.isBlank c then
      (readFrom (.outside []) rest).map ({ marker, body := some body } :: ·)
    else
      .error (.malformed ((Reading.closed marker body).raw ++ [c])
        (if c = '[' then .annotatedTwice
          else if c = ']' then .bracketNotOpened
          else .textAfterBracket))

def read (declaration : Text) : Except DeclarationError (List Token) :=
  readFrom (.outside []) declaration

end Token
end TypedCommand
