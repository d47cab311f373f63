import TypedCommand.Number.Integer

/-!
Command lines as they are read: words made of parts, and commands made of words. A word is
a chain of parts and a command nests only commands, so that what is done with either is a
recursion on it. A command in a word is kept as its text and read when the word is expanded.
-/

namespace TypedCommand

namespace Shell

/-- What is asked of a parameter. The alternatives to its value come in two forms; `orEmpty`
says that an empty value counts as none. -/
inductive Use
  | value
  | size
  | default (orEmpty : Bool)
  | assign (orEmpty : Bool)
  | demand (orEmpty : Bool)
  | instead (orEmpty : Bool)
  | trimStart (longest : Bool)
  | trimEnd (longest : Bool)
  | slice
  | replace
  | unknown
deriving DecidableEq

/-- A word: text, the values of parameters, what commands print, and computed numbers. -/
inductive Word
  | done
  | text (quoted : Bool) (text : Text) (rest : Word)
  | parameter (quoted : Bool) (name : Text) (use : Use) (operand : Word) (rest : Word)
  | output (quoted : Bool) (script : Text) (rest : Word)
  | number (quoted : Bool) (expression : Word) (rest : Word)

namespace Word

def cons (quoted : Bool) (t : Text) : Word → Word
  | .text q u rest => if q = quoted then .text q (t ++ u) rest else .text quoted t (.text q u rest)
  | w => .text quoted t w

def append : Word → Word → Word
  | .done, v => v
  | .text q t rest, v => cons q t (rest.append v)
  | .parameter q n u operand rest, v => .parameter q n u operand (rest.append v)
  | .output q s rest, v => .output q s (rest.append v)
  | .number q e rest, v => .number q e (rest.append v)

def ofText (t : Text) : Word := .text true t .done

def plain? : Word → Option Text
  | .text false t .done => some t
  | _ => none

def isAllArguments : Word → Bool
  | .parameter _ ['@'] .value .done .done => true
  | _ => false

def isDone : Word → Bool
  | .done => true
  | _ => false

def isQuoted : Word → Bool
  | .done => false
  | .text q _ rest => q || rest.isQuoted
  | .parameter q _ _ _ rest => q || rest.isQuoted
  | .output q _ rest => q || rest.isQuoted
  | .number q _ rest => q || rest.isQuoted

end Word

inductive Opening
  | input
  | output
  | append
  | overwrite
  | both
deriving DecidableEq

def Opening.reads (o : Opening) : Bool := o == .input || o == .both

inductive Redirection
  | file (descriptor : Nat) (opening : Opening) (name : Word)
  | copy (descriptor : Nat) (source : Word)
  | document (descriptor : Nat) (content : Word)
  | outputs (appends : Bool) (name : Word)

/-- A command. The arms of a choice are a chain of their own, each with its patterns and
the arms behind it. -/
inductive Command
  | nothing
  | simple (line : Nat) (assignments : List (Text × Word)) (words : List Word)
      (redirections : List Redirection)
  | redirected (line : Nat) (redirections : List Redirection) (body : Command)
  | pipe (left right : Command)
  | both (left right : Command)
  | either (left right : Command)
  | sequence (left right : Command)
  | negated (body : Command)
  | background (body : Command)
  | subshell (line : Nat) (body : Command)
  | conditional (test yes no : Command)
  | loop (isUntil : Bool) (test body : Command)
  | each (line : Nat) (name : Text) (items : Option (List Word)) (body : Command)
  | choose (line : Nat) (subject : Word) (arms : Command)
  | arm (patterns : List Word) (body rest : Command)
  | define (name : Text) (body : Command)
  | condition (line : Nat) (words : List Word)
  | compute (line : Nat) (expression : Word)

def isName : Text → Bool
  | [] => false
  | c :: rest => (c.isAlpha || c == '_') && rest.all Text.isIdentifierChar

/-- The commands that belong to the language: a failure of one of them ends the shell. -/
def specialCommands : List Text :=
  [".", ":", "break", "continue", "eval", "exec", "exit", "export", "local", "readonly",
    "return", "set", "shift", "times", "trap", "unset"].map String.toList

/-- Which shell reads a command line: one that keeps to the common language, or one with
additions of its own. -/
inductive Dialect
  | common
  | extended
deriving DecidableEq

end Shell
end TypedCommand
