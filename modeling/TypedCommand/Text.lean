/-!
Texts are lists of characters, read from the front. A blank is a character with
the Unicode property White_Space; words are the longest stretches without one.
Maximal stretches of any class of characters are cut out by `Text.runs`.
-/

namespace TypedCommand

abbrev Text := List Char

instance : Coe String Text := ⟨String.toList⟩

namespace Text

def isBlank (c : Char) : Bool :=
  let n := c.toNat
  (9 ≤ n && n ≤ 13) || n == 0x20 || n == 0x85 || n == 0xA0 || n == 0x1680 ||
    (0x2000 ≤ n && n ≤ 0x200A) || n == 0x2028 || n == 0x2029 || n == 0x202F ||
    n == 0x205F || n == 0x3000

def isAlnum (c : Char) : Bool := c.isAlpha || c.isDigit

def isIdentifierChar (c : Char) : Bool := isAlnum c || c == '_'

def isWordChar (c : Char) : Bool := isIdentifierChar c || c == '-'

def trimStart (p : Char → Bool) (t : Text) : Text := t.dropWhile p

def trimEnd (p : Char → Bool) (t : Text) : Text := (t.reverse.dropWhile p).reverse

def trim (t : Text) : Text := trimEnd isBlank (trimStart isBlank t)

/-- The runs of a class in a text, when the characters of `current` already stand
directly before it: a run is complete at the first character outside the class. -/
def runsFrom (p : Char → Bool) (current : Text) : Text → List Text
  | [] => if current.isEmpty then [] else [current]
  | c :: rest =>
    if p c then runsFrom p (current ++ [c]) rest
    else if current.isEmpty then runsFrom p [] rest
    else current :: runsFrom p [] rest

def runs (p : Char → Bool) (t : Text) : List Text := runsFrom p [] t

def words (t : Text) : List Text := runs (fun c => !isBlank c) t

/-- The words of a text with one space between neighbours, so that two spellings of
one name that differ in blanks alone become equal. -/
def unify (t : Text) : Text := [' '].intercalate (words t)

def padEnd (width : Nat) (t : Text) : Text := t ++ List.replicate (width - t.length) ' '

def inQuotes (t : Text) : Text := '\'' :: t ++ ['\'']

def byteSize (t : Text) : Nat := t.foldl (fun n c => n + c.utf8Size) 0

end Text
end TypedCommand
