import TypedCommand.Text

/-!
The flags of an option: a short one such as `-m`, a long one such as `--messages`, or
both. A flag specification writes them with a slash between, in either order.
-/

namespace TypedCommand

/-- The flags of an option, each with its dashes. -/
structure Flags where
  short : Option Text := none
  long : Option Text := none
deriving DecidableEq, Inhabited

namespace Flags

def isName (t : Text) : Bool := !t.isEmpty && t.head? != some '-' && t.all Text.isWordChar

/-- The flags with one more; a second short or a second long flag is refused, and so
is a part that is no flag. -/
def add? (flags : Flags) (part : Text) : Option Flags :=
  match part with
  | '-' :: '-' :: name =>
    if flags.long.isSome || !isName name then none else some { flags with long := some part }
  | '-' :: name =>
    if flags.short.isSome || !isName name then none else some { flags with short := some part }
  | _ => none

def ofText? (t : Text) : Option Flags := (t.splitOn '/').foldlM add? {}

def ofName (name : Text) : Flags := { long := some ("--" ++ name) }

def toList (flags : Flags) : List Text := flags.short.toList ++ flags.long.toList

def accepts (flags : Flags) (word : Text) : Bool :=
  flags.short == some word || flags.long == some word

/-- The flag that stands for the option: the long one where there is one. -/
def primary (flags : Flags) : Text := (flags.long <|> flags.short).getD []

def bareName (flags : Flags) : Text := Text.trimStart (· == '-') flags.primary

def text (flags : Flags) : Text := ['/'].intercalate flags.toList

end Flags
end TypedCommand
