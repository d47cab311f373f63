import TypedCommand.Shell.Format
import TypedCommand.Tool.Call

/-!
Spans of time as they are given to programs: a number that may have a fraction, with a unit
behind it.
-/

namespace TypedCommand

namespace Tool

namespace Duration

def units : List (Char × Nat) := [('s', 1), ('m', 60), ('h', 3600), ('d', 86400)]

def splitUnit (t : Text) : Text × Nat :=
  match t.getLast?.bind fun u => units.lookup u with
  | some seconds => (t.dropLast, seconds)
  | none => (t, 1)

def isEndless (number : Text) : Bool := number = "infinity".toList || number = "inf".toList

def isValid (t : Text) : Bool :=
  let number := (splitUnit t).1
  isEndless number || (!number.isEmpty && Shell.Format.decimalLength number == number.length)

def thousandths? (t : Text) : Option Nat :=
  let (number, seconds) := splitUnit t
  if isEndless number then none
  else
    let x := (Shell.Format.readFloating number).value
    let (above, below) := if x.isFinite then x.ratio else (0, 1)
    some (above * seconds * 1000 / below)

def total? (ts : List Text) : Option Nat :=
  ts.foldl (fun sum t => return (← sum) + (← thousandths? t)) (some 0)

end Duration

end Tool
end TypedCommand
