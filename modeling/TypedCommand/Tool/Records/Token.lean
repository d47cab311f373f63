import TypedCommand.Shell.Format

/-!
The words of scripts for records: names, numbers, texts, regular expressions and marks, each
with its line. A slash begins a regular expression where nothing stands that could be
divided.
-/

namespace TypedCommand

namespace Tool

namespace Records

inductive Token
  | newline
  | number (shown : Text) (x : Binary64)
  | text (t : Text)
  | regex (source : Text)
  | name (t : Text)
  /-- A name with an opening bracket directly behind it. -/
  | called (t : Text)
  | word (t : Text)
  | builtin (t : Text)
  | mark (t : Text)

structure PlacedToken where
  line : Nat
  token : Token

structure Fault where
  line : Nat
  said : Text

def words : List Text :=
  ["BEGIN", "END", "function", "if", "else", "while", "for", "do", "break", "continue", "next",
    "nextfile", "exit", "return", "delete", "print", "printf", "getline", "in"].map String.toList

def builtins : List (Text × Nat × Nat) :=
  [("length", 0, 1), ("substr", 2, 3), ("index", 2, 2), ("split", 2, 3), ("sub", 2, 3), ("gsub", 2, 3),
    ("match", 2, 2), ("sprintf", 1, 1000), ("sin", 1, 1), ("cos", 1, 1), ("atan2", 2, 2), ("exp", 1, 1),
    ("log", 1, 1), ("sqrt", 1, 1), ("int", 1, 1), ("rand", 0, 0), ("srand", 0, 1), ("tolower", 1, 1),
    ("toupper", 1, 1), ("system", 1, 1), ("close", 1, 1), ("fflush", 0, 1)].map
      fun (name, bounds) => (String.toList name, bounds)

def marks : List Text :=
  ["&&", "||", "==", "<=", ">=", "!=", "++", "--", "+=", "-=", "*=", "/=", "%=", "^=", ">>", "!~",
    "\x7b", "\x7d", "(", ")", "[", "]", ";", ",", "+", "-", "*", "/", "%", "^", "!", ">", "<", "|", "?",
    ":", "~", "$", "="].map String.toList

def Token.shown : Token → Text
  | newline => "end of line"
  | number shown _ => shown
  | text t => t
  | regex source => '/' :: source ++ ['/']
  | name t => t
  | called t => t
  | word t => t
  | builtin t => t
  | mark t => t

def Token.endsOperand : Token → Bool
  | number _ _ => true
  | text _ => true
  | name _ => true
  | builtin _ => true
  | mark t => [[')'], [']'], ['$'], ['+', '+'], ['-', '-']].contains t
  | _ => false

def escapedText : Text → Text × Text
  | '"' :: rest => (['"'], rest)
  | '\\' :: rest => (['\\'], rest)
  | c :: rest =>
    if Shell.Format.isOctal c then
      let digits := (c :: rest.take 2).takeWhile Shell.Format.isOctal
      ([Shell.Format.byte (Shell.Arithmetic.valueIn 8 digits)], (c :: rest).drop digits.length)
    else if c = 'x' && (rest.head?.any fun d => d.isDigit || "abcdefABCDEF".toList.contains d) then
      let digits := (rest.take 2).takeWhile fun d => d.isDigit || "abcdefABCDEF".toList.contains d
      ([Shell.Format.byte (Shell.Arithmetic.valueIn 16 digits)], rest.drop digits.length)
    else match Shell.Format.namedEscape? c with
      | some d => ([d], rest)
      | none => (['\\', c], rest)
  | [] => (['\\'], [])

def unescaped : Nat → Text → Text
  | 0, t => t
  | _, [] => []
  | n + 1, c :: rest =>
    if c = '\\' then
      let (shown, rest) := escapedText rest
      shown ++ unescaped n rest
    else c :: unescaped n rest

/-- What stands before a closing mark that no backslash stands before, with a line break
behind a backslash left out, and what follows the mark. -/
def untilMark (mark : Char) : Text → Option (Text × Text)
  | [] => none
  | '\\' :: '\n' :: rest => untilMark mark rest
  | '\\' :: c :: rest => (untilMark mark rest).map fun (t, rest) => ('\\' :: c :: t, rest)
  | c :: rest =>
    if c = mark then some ([], rest)
    else if c = '\n' then none
    else (untilMark mark rest).map fun (t, rest) => (c :: t, rest)

/-- A token at the front of a text that begins with neither a blank nor a line break. -/
def takeToken (line : Nat) (mayBeRegex : Bool) (t : Text) : Except Fault (Token × Text) :=
  let runaway (kind : Text) : Fault :=
    ⟨line, "runaway " ++ kind ++ " constant ".toList ++ t.takeWhile (· != '\n') ++ " ...".toList⟩
  match t with
  | '"' :: rest =>
    match untilMark '"' rest with
    | some (body, rest) => .ok (.text (unescaped (body.length + 1) body), rest)
    | none => .error (runaway "string")
  | c :: rest =>
    if c = '/' && mayBeRegex then
      match untilMark '/' rest with
      | some (body, rest) => .ok (.regex body, rest)
      | none => .error ⟨line, "runaway regular expression ".toList ++ t.takeWhile (· != '\n') ++ " ...".toList⟩
    else if c.isDigit || (c = '.' && rest.head?.any Char.isDigit) then
      let length := Shell.Format.decimalLength t
      .ok (.number (t.take length) (Shell.Format.readFloating (t.take length)).value, t.drop length)
    else if c.isAlpha || c = '_' then
      let name := t.takeWhile Text.isIdentifierChar
      let rest := t.drop name.length
      let token : Token :=
        if words.contains name then .word name
        else if (builtins.lookup name).isSome then .builtin name
        else if rest.head? = some '(' then .called name
        else .name name
      .ok (token, rest)
    else match marks.find? (·.isPrefixOf t) with
      | some m => .ok (.mark m, t.drop m.length)
      | none => .error ⟨0, Text.ofNat line ++ ": unexpected character '".toList ++ [c, '\'']⟩
  | [] => .ok (.newline, [])

def takeTokens : Nat → Nat → Bool → Text → Except Fault (List PlacedToken)
  | 0, _, _, _ => .ok []
  | _, _, _, [] => .ok []
  | n + 1, line, mayBeRegex, c :: rest =>
    if c = ' ' || c = '\t' || c = '\r' then takeTokens n line mayBeRegex rest
    else if c = '\n' then do return ⟨line, .newline⟩ :: (← takeTokens n (line + 1) true rest)
    else if c = '\\' && rest.head? = some '\n' then takeTokens n (line + 1) mayBeRegex (rest.drop 1)
    else if c = '#' then takeTokens n line mayBeRegex (rest.dropWhile (· != '\n'))
    else do
      let (token, after) ← takeToken line mayBeRegex (c :: rest)
      return ⟨line, token⟩ :: (← takeTokens n line (!token.endsOperand) after)

end Records
end Tool
end TypedCommand
