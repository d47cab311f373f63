import TypedCommand.Text

/-!
Words quoted for a shell. A word of safe characters stands as it is; any other is put
between apostrophes, and an apostrophe in it between quotation marks.
-/

namespace TypedCommand

namespace Shell

def isSafe (c : Char) : Bool := Text.isAlnum c || "@%+=:,./-_".toList.contains c

/-- A character inside apostrophes: an apostrophe closes them, stands in quotation
marks and opens them again. -/
def quoteChar (c : Char) : Text := if c = '\'' then "'\"'\"'".toList else [c]

def quote (word : Text) : Text :=
  if !word.isEmpty && word.all isSafe then word
  else '\'' :: word.flatMap quoteChar ++ ['\'']

def joinWords (words : List Text) : Text := [' '].intercalate (words.map quote)

end Shell
end TypedCommand
