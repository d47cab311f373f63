import TypedCommand.Number.Integer

/-!
Dates and times in a TOML document. Only their form and the ranges of their fields
matter here: which texts are dates, which are times of a day, and which are both.
-/

namespace TypedCommand

namespace Toml

def readTwoDigits : Text → Option (Nat × Text)
  | a :: b :: rest =>
    if a.isDigit && b.isDigit then some (Text.digitsValue [a, b], rest) else none
  | _ => none

def isLeapYear (year : Nat) : Bool := year % 4 == 0 && (year % 100 != 0 || year % 400 == 0)

def daysIn (year month : Nat) : Nat :=
  if month = 2 then (if isLeapYear year then 29 else 28)
  else if [4, 6, 9, 11].contains month then 30
  else 31

def afterDate? (t : Text) : Option Text :=
  if (t.take 4).length = 4 ∧ (t.take 4).all Char.isDigit then
    match t.drop 4 with
    | '-' :: rest => match readTwoDigits rest with
      | some (month, '-' :: rest) => match readTwoDigits rest with
        | some (day, rest) =>
          let year := Text.digitsValue (t.take 4)
          if 1 ≤ month ∧ month ≤ 12 ∧ 1 ≤ day ∧ day ≤ daysIn year month then some rest else none
        | none => none
      | _ => none
    | _ => none
  else none

def afterFraction? : Text → Option Text
  | '.' :: rest =>
    if rest.head?.any Char.isDigit then some (rest.dropWhile Char.isDigit) else none
  | t => some t

def afterSeconds? : Text → Option Text
  | ':' :: rest => match readTwoDigits rest with
    | some (second, rest) => if second ≤ 60 then afterFraction? rest else none
    | none => none
  | t => some t

def afterTime? (t : Text) : Option Text :=
  match readTwoDigits t with
  | some (hour, ':' :: rest) => match readTwoDigits rest with
    | some (minute, rest) => if hour ≤ 23 ∧ minute ≤ 59 then afterSeconds? rest else none
    | none => none
  | _ => none

def isOffset : Text → Bool
  | [] => true
  | [c] => c == 'Z' || c == 'z'
  | sign :: rest => match readTwoDigits rest with
    | some (hour, ':' :: rest) => match readTwoDigits rest with
      | some (minute, []) => (sign == '+' || sign == '-') && hour ≤ 23 && minute ≤ 59
      | _ => false
    | _ => false

def isDate (t : Text) : Bool := afterDate? t == some []

def isTimeWithOffset (t : Text) : Bool := (afterTime? t).any isOffset

/-- A date, a time of the day, or a date and a time with a letter between them. -/
def isDateTime (t : Text) : Bool :=
  match afterDate? t with
  | some [] => true
  | some (c :: rest) => (c == 'T' || c == 't') && isTimeWithOffset rest
  | none => afterTime? t == some []

end Toml
end TypedCommand
