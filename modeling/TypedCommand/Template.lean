import TypedCommand.Text

/-!
Templates. A text is cut into pieces by a set of markers: at each place the longest
marker that begins there is one piece, and a character at which none begins is another.
Replacing markers maps the pieces, so what is put in is never looked at again.
-/

namespace TypedCommand

inductive Piece
  | literal (c : Char)
  | marker (m : Text)
deriving DecidableEq

/-- An occurrence of a marker, by its place in bytes of UTF-8. -/
structure Occurrence where
  start : Nat
  marker : Text
deriving DecidableEq

def Piece.text : Piece → Text
  | literal c => [c]
  | marker m => m

namespace Template

/-- The longest marker that a text begins with. The empty marker is none. -/
def longestAt (markers : List Text) (t : Text) : Option Text :=
  markers.foldl (fun best m =>
    if !m.isEmpty && m.isPrefixOf t && decide ((best.getD []).length < m.length) then some m
    else best) none

/-- The pieces of a text of which the first `skip` characters belong to a marker found
before. -/
def piecesFrom (markers : List Text) : Nat → Text → List Piece
  | _, [] => []
  | skip + 1, _ :: rest => piecesFrom markers skip rest
  | 0, c :: rest =>
    match longestAt markers (c :: rest) with
    | some m => .marker m :: piecesFrom markers (m.length - 1) rest
    | none => .literal c :: piecesFrom markers 0 rest

def pieces (markers : List Text) (t : Text) : List Piece := piecesFrom markers 0 t

def occurrencesFrom : Nat → List Piece → List Occurrence
  | _, [] => []
  | start, .literal c :: rest => occurrencesFrom (start + c.utf8Size) rest
  | start, .marker m :: rest => ⟨start, m⟩ :: occurrencesFrom (start + Text.byteSize m) rest

def scan (markers : List Text) (t : Text) : List Occurrence :=
  occurrencesFrom 0 (pieces markers t)

def picks (markers : List Text) (t : Text) (m : Text) : Bool :=
  (pieces markers t).contains (.marker m)

/-- The text that a piece becomes. The first replacement of a marker counts. -/
def replacePiece (replacements : List (Text × Text)) : Piece → Text
  | .literal c => [c]
  | .marker m => ((replacements.find? (fun r => r.1 == m)).map Prod.snd).getD []

def substitute (replacements : List (Text × Text)) (t : Text) : Text :=
  (pieces (replacements.map Prod.fst) t).flatMap (replacePiece replacements)

end Template
end TypedCommand
