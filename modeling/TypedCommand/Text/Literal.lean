import TypedCommand.Text
import TypedCommand.Text.Joining
import TypedCommand.Text.Unseen

/-!
A text as a literal, from which it can be read back: between quotation marks, with what
cannot be seen alone, or would end the literal, written as an escape.
-/

namespace TypedCommand

namespace Text

def isHidden (c : Char) : Bool :=
  !(0x20 ≤ c.toNat && c.toNat < 0x7F) && (isJoining c || isUnseen c)

def literalOf (c : Char) : Text :=
  match c with
  | '\x00' => ['\\', '0']
  | '\t' => ['\\', 't']
  | '\n' => ['\\', 'n']
  | '\r' => ['\\', 'r']
  | '"' | '\\' => ['\\', c]
  | c =>
    if isHidden c then '\\' :: 'u' :: '\x7b' :: Nat.toDigits 16 c.toNat ++ ['\x7d'] else [c]

def literal (t : Text) : Text := '"' :: t.flatMap literalOf ++ ['"']

end Text
end TypedCommand
