import TypedCommand.Text

/-!
Texts as bytes in UTF-8. A sequence of bytes is a text of its own, in which each byte is
the character of its number; reading such a sequence gives the characters back, and says
where it is no UTF-8.
-/

namespace TypedCommand

namespace Text

/-- The bytes of a text, each as the character of its number. -/
def toBytes (t : Text) : Text :=
  t.flatMap fun c => (String.utf8EncodeChar c).map fun b => Char.ofNat b.toNat

def isContinuation (c : Char) : Bool := 0x80 ≤ c.toNat && c.toNat ≤ 0xBF

/-- The bytes that can follow a first byte, as bounds of the second one and the number of
all of them; a byte from the first half of the table stands for itself. -/
def followers (first : Nat) : Nat × Nat × Nat :=
  if first < 0x80 then (0, 0, 0)
  else if first < 0xC2 then (1, 0, 1)
  else if first < 0xE0 then (0x80, 0xBF, 1)
  else if first = 0xE0 then (0xA0, 0xBF, 2)
  else if first = 0xED then (0x80, 0x9F, 2)
  else if first < 0xF0 then (0x80, 0xBF, 2)
  else if first = 0xF0 then (0x90, 0xBF, 3)
  else if first < 0xF4 then (0x80, 0xBF, 3)
  else if first = 0xF4 then (0x80, 0x8F, 3)
  else (1, 0, 1)

def leadBits (first : Nat) : Nat :=
  if first < 0x80 then first
  else if first < 0xE0 then first - 0xC0
  else if first < 0xF0 then first - 0xE0
  else first - 0xF0

/-- The character at the front of a sequence of bytes, unless there is none, and the
number of bytes that belong together there. -/
def takeCharacter (first : Char) (rest : Text) : Option Char × Nat :=
  let (low, high, count) := followers first.toNat
  let second := (rest.take (min count 1)).takeWhile fun c => low ≤ c.toNat && c.toNat ≤ high
  let more := if second.isEmpty then [] else ((rest.drop 1).take (count - 1)).takeWhile isContinuation
  let found := second ++ more
  let value := found.foldl (fun n c => n * 64 + c.toNat % 64) (leadBits first.toNat)
  (if found.length = count then some (Char.ofNat value) else none, found.length + 1)

/-- The characters of a sequence of bytes, when some bytes are still to be passed over;
what is no character is `none`. -/
def charactersFrom : Nat → Text → List (Option Char)
  | _, [] => []
  | skip + 1, _ :: rest => charactersFrom skip rest
  | 0, c :: rest =>
    let (found, length) := takeCharacter c rest
    found :: charactersFrom (length - 1) rest

def ofBytes? (bytes : Text) : Option Text := (charactersFrom 0 bytes).mapM id

/-- The text of a sequence of bytes; what is no character becomes U+FFFD. -/
def ofBytes (bytes : Text) : Text := (charactersFrom 0 bytes).map (·.getD '\uFFFD')

end Text
end TypedCommand
