import TypedCommand.Shell.Condition
import TypedCommand.Shell.Format
import TypedCommand.Tool.Duration

/-!
Programs that say what they are told to, or say only whether something is the case.
-/

namespace TypedCommand

namespace Tool

open Shell

def replaceEscapes : Nat → Text → Text × Bool
  | 0, t => (t, false)
  | _, [] => ([], false)
  | n + 1, '\\' :: c :: rest =>
    let (d, after) : Text × Text :=
      if c = '0' then
        let digits := (rest.take 3).takeWhile Format.isOctal
        ([Format.byte (Arithmetic.valueIn 8 digits)], rest.drop digits.length)
      else if c = 'x' && rest.head?.any (fun d => (Arithmetic.hexDigit? d).isSome) then
        let digits := (rest.take 2).takeWhile fun d => (Arithmetic.hexDigit? d).isSome
        ([Format.byte (Arithmetic.valueIn 16 digits)], rest.drop digits.length)
      else Format.escape .common (c :: rest)
    if c = 'c' then ([], true)
    else
      let (t, ends) := replaceEscapes n after
      (d ++ t, ends)
  | n + 1, c :: rest =>
    let (t, ends) := replaceEscapes n rest
    (c :: t, ends)

def echo (c : Call) : Reply :=
  let isOption (w : Text) : Bool :=
    match w with
    | '-' :: l :: rest => (l :: rest).all ("neE".toList.contains ·)
    | _ => false
  let options := c.arguments.takeWhile isOption
  let letters := options.flatten
  let t := [' '].intercalate (c.arguments.drop options.length)
  let escapes := (letters.reverse.find? fun l => l == 'e' || l == 'E') == some 'e'
  let (shown, ends) := if escapes then replaceEscapes (t.length + 1) t else (t, false)
  .ofText (shown ++ if ends || letters.contains 'n' then [] else ['\n'])

def formatFault : Format.Complaint → Text
  | .numberExpected a => Text.inQuotes a ++ ": expected a numeric value"
  | .notConverted a => Text.inQuotes a ++ ": value not completely converted"
  | .outOfRange a => Text.inQuotes a ++ ": Numerical result out of range"
  | .invalidDirective d => d ++ ": invalid conversion specification"
  | .directiveMissing => "%: invalid conversion specification"

def printf (c : Call) : Reply :=
  let arguments := if c.arguments.head? = some "--".toList then c.arguments.drop 1 else c.arguments
  match arguments with
  | [] => c.misused "missing operand"
  | format :: rest =>
    let p := Format.print .extended format rest
    let excess : Text := match p.rest with
      | [] => []
      | w :: _ =>
        if p.rest.length = rest.length && p.complaints.isEmpty && !p.ends then
          c.message ("warning: ignoring excess arguments, starting with " ++ Text.inQuotes w)
        else []
    { printed := [(2, p.complaints.flatMap fun e => c.message (formatFault e)), (2, excess), (1, p.out)]
      status := if p.complaints.isEmpty then 0 else 1 }

def succeeding (_ : Call) : Reply := {}

def failing (_ : Call) : Reply := { status := 1 }

def conditionFault : Condition.Complaint → Text
  | .unexpectedOperator _ next => "extra argument " ++ Text.inQuotes next
  | .argumentExpected w => "missing argument after " ++ Text.inQuotes w
  | .bracketExpected => "')' expected"
  | .illegalNumber w => "invalid integer " ++ Text.inQuotes w

def condition (c : Call) (words : List Text) : Except Text Bool := do
  let general (words : List Text) : Except Text Bool :=
    (Condition.holds true c.files c.directory words).mapError conditionFault
  match words with
  | [a, b] =>
    if a = ['!'] then return b.isEmpty
    else if a.head? != some '-' || a.length ≠ 2 then
      throw ("missing argument after " ++ Text.inQuotes b)
    else if Condition.prefixes.contains a then general words
    else throw (Text.inQuotes a ++ ": unary operator expected")
  | [a, b, d] =>
    if (Condition.infixes true).contains b && b != ['<'] && b != ['>'] then general words
    else if a = ['!'] && (d.isEmpty || b.head? = some '-') then return !(← general [b, d])
    else if a = ['('] && d = [')'] then return !b.isEmpty
    else if b = "-a".toList then return !a.isEmpty && !d.isEmpty
    else if b = "-o".toList then return !a.isEmpty || !d.isEmpty
    else throw (Text.inQuotes b ++ ": binary operator expected")
  | _ => general words

def conditionReply (c : Call) (words : List Text) : Reply :=
  match condition c words with
  | .ok value => { status := if value then 0 else 1 }
  | .error said => Reply.failed (c.name ++ ": " ++ said) 2

def test (c : Call) : Reply := conditionReply c c.arguments

def bracket (c : Call) : Reply :=
  match c.arguments.reverse with
  | [']'] :: words => conditionReply c words.reverse
  | _ => Reply.failed (c.name ++ ": missing ']'") 2

/-- Says the same again and again, as often as there can be a reader. Where there is none to
stop it, a number of lines stands for all of them. -/
def yes (c : Call) : Reply :=
  c.withOptions [] fun o =>
    let t := if o.operands.isEmpty then ['y'] else [' '].intercalate o.operands
    let count := (c.room.map fun n => n / (t.length + 1) + 1).getD 10000
    { printed := [(1, asLines (List.replicate count t))]
      sequel := some { procedure := .passes none (.ended 0) } }

def sleep (c : Call) : Reply :=
  c.withOptions [] fun o =>
    if o.operands.isEmpty then c.misused "missing operand"
    else match o.operands.filter fun w => !Duration.isValid w with
      | [] => Reply.proceeding (.passes (Duration.total? o.operands) (.ended 0))
      | bad =>
        let messages := bad.flatMap fun w => c.message ("invalid time interval " ++ Text.inQuotes w)
        { printed := [(2, messages ++ c.hint)], status := 1 }

end Tool
end TypedCommand
