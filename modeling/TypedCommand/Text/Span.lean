/-!
A set of characters as the ascending list of the code points at which membership changes,
beginning outside the set: `[a, b, c]` holds the characters from `a` up to but without `b`,
and those from `c` on.
-/

namespace TypedCommand

namespace Text

/-- A character is in the set when an odd number of changes stand at or before it. -/
def inSpans (changes : List Nat) (c : Char) : Bool :=
  (changes.takeWhile (· ≤ c.toNat)).length % 2 == 1

end Text
end TypedCommand
