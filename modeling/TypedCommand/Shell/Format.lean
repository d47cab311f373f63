import TypedCommand.Number.Decimal
import TypedCommand.Shell.Arithmetic
import TypedCommand.Text.Bytes

/-!
Formats: texts in which directives stand for arguments. A directive gives its argument a
width, a precision and a form; a backslash gives a character a meaning. A format is used
again as long as arguments remain.
-/

namespace TypedCommand

namespace Shell

namespace Format

open Arithmetic (valueIn hexDigit?)

def namedEscape? (c : Char) : Option Char :=
  [('a', '\x07'), ('b', '\x08'), ('e', '\x1b'), ('f', '\x0c'), ('n', '\n'), ('r', '\r'),
    ('t', '\t'), ('v', '\x0b'), ('\\', '\\')].lookup c

def isOctal (c : Char) : Bool := '0' ≤ c && c ≤ '7'

def byte (n : Nat) : Char := Char.ofNat (n % 256)

/-- The text that a backslash makes of what follows it, and what remains. Before a
character without a meaning it stands for itself. -/
def escape (dialect : Dialect) : Text → Text × Text
  | [] => (['\\'], [])
  | c :: rest =>
    match namedEscape? c with
    | some d => ([d], rest)
    | none =>
      if isOctal c then
        let digits := ((c :: rest).take 3).takeWhile isOctal
        ([byte (valueIn 8 digits)], (c :: rest).drop digits.length)
      else if dialect = .extended && c = 'x' then
        let digits := (rest.take 2).takeWhile fun d => (hexDigit? d).isSome
        if digits.isEmpty then (['\\'], c :: rest)
        else ([byte (valueIn 16 digits)], rest.drop digits.length)
      else if dialect = .extended && (c = 'u' || c = 'U') then
        let digits := (rest.take (if c = 'u' then 4 else 8)).takeWhile fun d => (hexDigit? d).isSome
        if digits.isEmpty then (['\\'], c :: rest)
        else (Text.toBytes [Char.ofNat (valueIn 16 digits)], rest.drop digits.length)
      else if dialect = .extended && c = '"' then (['"'], rest)
      else (['\\'], c :: rest)

/-- The text of an argument with its escapes replaced, and whether one of them ends the
output. Here the digits of a byte stand behind a zero. -/
def unescape (dialect : Dialect) : Nat → Text → Text × Bool
  | 0, t => (t, false)
  | _, [] => ([], false)
  | n + 1, '\\' :: rest =>
    match rest with
    | 'c' :: _ => ([], true)
    | _ =>
      let rest := match rest with
        | '0' :: d :: after => if isOctal d then d :: after else rest
        | _ => rest
      let (shown, rest) := escape dialect rest
      let (text, ends) := unescape dialect n rest
      (shown ++ text, ends)
  | n + 1, c :: rest =>
    let (text, ends) := unescape dialect n rest
    (c :: text, ends)

structure Directive where
  alternate : Bool := false
  leftAligned : Bool := false
  signed : Bool := false
  spaced : Bool := false
  zeroFilled : Bool := false
  width : Nat := 0
  precision : Option Nat := none

namespace Directive

def pad (d : Directive) (t : Text) : Text :=
  let blanks := List.replicate (d.width - t.length) ' '
  if d.leftAligned then t ++ blanks else blanks ++ t

/-- A number by its sign, a mark, and its digits. Zeros fill the width if they may. -/
def number (d : Directive) (mayFill : Bool) (negative : Bool) (mark digits : Text) : Text :=
  let sign : Text :=
    if negative then ['-'] else if d.signed then ['+'] else if d.spaced then [' '] else []
  let front := sign ++ mark
  if d.zeroFilled && !d.leftAligned && mayFill then
    front ++ List.replicate (d.width - front.length - digits.length) '0' ++ digits
  else d.pad (front ++ digits)

def wholeDigits (d : Directive) (digits : Text) : Text :=
  match d.precision with
  | some 0 => if digits = ['0'] then [] else digits
  | some p => List.replicate (p - digits.length) '0' ++ digits
  | none => digits

def integer (d : Directive) (n : Int) : Text :=
  d.number d.precision.isNone (n < 0) [] (d.wholeDigits (Text.ofNat n.natAbs))

def natural (d : Directive) (base : Nat) (upper : Bool) (n : Nat) : Text :=
  let digits := Nat.toDigits base n
  let digits := d.wholeDigits (if upper then digits.map Char.toUpper else digits)
  let digits := if d.alternate && base = 8 && digits.head? != some '0' then '0' :: digits else digits
  let mark : Text := if d.alternate && base = 16 && n ≠ 0 then (if upper then "0X" else "0x") else []
  { d with signed := false, spaced := false }.number d.precision.isNone false mark digits

def chars (d : Directive) (t : Text) : Text :=
  d.pad (match d.precision with
    | some p => t.take p
    | none => t)

def fixedDigits (alternate : Bool) (places num den : Nat) : Text :=
  let digits := Text.ofNat (Binary64.roundQuotient (num * Nat.pow 10 places) den)
  let filled := List.replicate (places + 1 - digits.length) '0' ++ digits
  let whole := filled.take (filled.length - places)
  if places = 0 then (if alternate then whole ++ ['.'] else whole)
  else whole ++ '.' :: filled.drop (filled.length - places)

/-- The exponent of ten of a positive ratio rounded to a number of places, and the number
that these places make. -/
def scientific (places num den : Nat) : Int × Nat :=
  if num = 0 then (0, 0)
  else
    let exponent := Decimal.order num den - 1
    let shift : Int := places - exponent
    let q := Binary64.roundQuotient (num * Nat.pow 10 shift.toNat) (den * Nat.pow 10 (-shift).toNat)
    if Nat.pow 10 (places + 1) ≤ q then (exponent + 1, q / 10) else (exponent, q)

def exponentText (upper : Bool) (e : Int) : Text :=
  let digits := Text.ofNat e.natAbs
  (if upper then 'E' else 'e') :: (if e < 0 then '-' else '+') ::
    (List.replicate (2 - digits.length) '0' ++ digits)

def scientificDigits (alternate upper : Bool) (places num den : Nat) : Text :=
  let (e, q) := scientific places num den
  let digits := Text.ofNat q
  let digits := digits ++ List.replicate (places + 1 - digits.length) '0'
  let fraction := digits.drop 1
  digits.take 1 ++ (if fraction.isEmpty && !alternate then [] else '.' :: fraction) ++
    exponentText upper e

def dropZeros (t : Text) : Text :=
  if t.contains '.' then Text.trimEnd (· == '.') (Text.trimEnd (· == '0') t) else t

def generalDigits (alternate upper : Bool) (precision num den : Nat) : Text :=
  let precision := max precision 1
  let (e, _) := scientific (precision - 1) num den
  if e < -4 ∨ (precision : Int) ≤ e then
    let t := scientificDigits alternate upper (precision - 1) num den
    if alternate then t
    else
      let body := t.takeWhile fun c => c != 'e' && c != 'E'
      dropZeros body ++ t.drop body.length
  else
    let t := fixedDigits alternate ((precision : Int) - 1 - e).toNat num den
    if alternate then t else dropZeros t

/-- A positive number in base sixteen with an exponent of two: so many binary places stand
behind its first digit, and the rest of it is rounded to a number of digits, if there is one. -/
def binaryDigits (d : Directive) (upper : Bool) (isWide : Bool) (x : Binary64) : Text :=
  let s := x.significand
  let length : Nat := if s = 0 then 0 else Nat.log2 s
  -- The first digit holds one bit, or four where numbers are kept with more of them.
  let lead : Nat := if isWide then 3 else 0
  let exponent : Int := if s = 0 then 0 else x.scale + length - lead
  let bits := s * Nat.pow 2 (60 + lead - length)
  let places := 15
  let kept := match d.precision with
    | some p => min p places
    | none => places
  let rounded := Binary64.roundQuotient (if s = 0 then 0 else bits) (Nat.pow 16 (places - kept))
  let unit := Nat.pow 16 kept
  let digits := Nat.toDigits 16 (rounded % unit)
  let fraction := if kept = 0 then [] else List.replicate (kept - digits.length) '0' ++ digits
  let fraction := match d.precision with
    | some p => fraction ++ List.replicate (p - kept) '0'
    | none => Text.trimEnd (· == '0') fraction
  let body := Nat.toDigits 16 (rounded / unit) ++ (if fraction.isEmpty then [] else '.' :: fraction) ++
    'p' :: (if exponent < 0 then '-' else '+') :: Text.ofNat exponent.natAbs
  if upper then body.map Char.toUpper else body

def floating (d : Directive) (letter : Char) (x : Binary64) (isWide : Bool := true) : Text :=
  let upper := letter.isUpper
  if x.isNaN then d.number false x.negative [] (if upper then "NAN" else "nan")
  else if x.isInfinite then d.number false x.negative [] (if upper then "INF" else "inf")
  else if letter.toLower = 'a' then
    d.number true x.negative (if upper then "0X" else "0x") (d.binaryDigits upper isWide x)
  else
    let (num, den) := x.ratio
    let precision := d.precision.getD 6
    let digits := match letter.toLower with
      | 'f' => fixedDigits d.alternate precision num den
      | 'e' => scientificDigits d.alternate upper precision num den
      | _ => generalDigits d.alternate upper precision num den
    d.number true x.negative [] digits

end Directive

inductive Complaint
  | numberExpected (argument : Text)
  | notConverted (argument : Text)
  | outOfRange (argument : Text)
  | invalidDirective (directive : Text)
  | directiveMissing
deriving DecidableEq

structure Reading (α : Type) where
  value : α
  rest : Text
  inRange : Bool := true

def isSpace (c : Char) : Bool := c == ' ' || (9 ≤ c.toNat && c.toNat ≤ 13)

def readInteger (isSigned : Bool) (t : Text) : Reading Int :=
  let body := t.dropWhile isSpace
  let (negative, digits) := Text.splitSign body
  if digits.head?.any Char.isDigit then
    let (n, rest) := Arithmetic.takeNumber digits
    let signed : Int := if negative then -(n : Int) else n
    if isSigned then
      if Text.isInt64 signed then ⟨signed, rest, true⟩
      else ⟨if negative then -0x8000000000000000 else 0x7FFFFFFFFFFFFFFF, rest, false⟩
    else if n < 0x10000000000000000 then ⟨signed % 0x10000000000000000, rest, true⟩
    else ⟨0xFFFFFFFFFFFFFFFF, rest, false⟩
  else ⟨0, t, true⟩

def decimalLength (t : Text) : Nat :=
  let whole := t.takeWhile Char.isDigit
  let rest := t.drop whole.length
  let fraction := match rest with
    | '.' :: more => '.' :: more.takeWhile Char.isDigit
    | _ => []
  if whole.isEmpty && fraction.length ≤ 1 then 0
  else
    let rest := rest.drop fraction.length
    let exponent := match rest with
      | e :: more =>
        if e = 'e' || e = 'E' then
          let sign := (more.take 1).takeWhile fun c => c == '-' || c == '+'
          let digits := (more.drop sign.length).takeWhile Char.isDigit
          if digits.isEmpty then 0 else 1 + sign.length + digits.length
        else 0
      | [] => 0
    whole.length + fraction.length + exponent

def readFloating (t : Text) : Reading Binary64 :=
  let body := t.dropWhile isSpace
  let (negative, digits) := Text.splitSign body
  let lower := digits.map Char.toLower
  let named := ["infinity".toList, "inf".toList, "nan".toList].find? (·.isPrefixOf lower)
  match named with
  | some name =>
    ⟨if name.head? = some 'n' then Binary64.notANumber negative else Binary64.infinity negative,
      digits.drop name.length, true⟩
  | none =>
    if "0x".toList.isPrefixOf lower then
      let (n, rest) := Arithmetic.takeNumber digits
      ⟨Binary64.nearest negative n 1, rest, true⟩
    else
      let length := decimalLength digits
      match Decimal.read? (digits.take length) with
      | some d => ⟨d.toBinary64 negative, digits.drop length, true⟩
      | none => ⟨Binary64.zero false, t, true⟩

/-- The number of an argument, and what is wrong with it; a quotation mark stands for the
number of the character behind it. -/
def argumentValue {α : Type} (ofNat : Nat → α) (read : Text → Reading α) (t : Text) :
    α × List Complaint :=
  match t with
  | [] => (ofNat 0, [])
  | c :: rest =>
    if c = '"' || c = '\'' then (ofNat (rest.headD (Char.ofNat 0)).toNat, [])
    else
      let r := read t
      (r.value,
        if r.rest.length = t.length then [.numberExpected t]
        else if !r.rest.isEmpty then [.notConverted t]
        else if !r.inRange then [.outOfRange t]
        else [])

/-- What one use of a format prints, or a use of a directive. -/
structure Print where
  out : Text := []
  rest : List Text := []
  complaints : List Complaint := []
  /-- Whether the output ends here. -/
  ends : Bool := false

def readFlags (t : Text) : Directive × Text :=
  let flags := t.takeWhile ("#-+ 0".toList.contains ·)
  ({ alternate := flags.contains '#', leftAligned := flags.contains '-',
     signed := flags.contains '+', spaced := flags.contains ' ',
     zeroFilled := flags.contains '0' }, t.drop flags.length)

def readSize (t : Text) (args : List Text) : Option Int × Text × List Text :=
  match t with
  | '*' :: rest => (some (readInteger true (args.headD [])).value, rest, args.drop 1)
  | t =>
    let digits := t.takeWhile Char.isDigit
    (if digits.isEmpty then none else some (Text.digitsValue digits : Int), t.drop digits.length, args)

/-- A directive behind its percent sign, as far as its letter, and the arguments that it
takes on the way. -/
def readDirective (t : Text) (args : List Text) : Directive × Text × List Text :=
  let (d, rest) := readFlags t
  let (width, rest, args) := readSize rest args
  let width := width.getD 0
  let d := { d with width := width.natAbs, leftAligned := d.leftAligned || width < 0 }
  match rest with
  | '.' :: rest =>
    let (precision, rest, args) := readSize rest args
    let precision := precision.getD 0
    ({ d with precision := if precision < 0 then none else some precision.toNat }, rest, args)
  | rest => (d, rest, args)

def quoted (t : Text) : Text :=
  if !t.isEmpty && t.all fun c => Text.isAlnum c || "%+,-./:=@_^".toList.contains c then t
  else Text.inQuotes (t.flatMap fun c => if c = '\'' then "'\\''".toList else [c])

def Directive.print (dialect : Dialect) (d : Directive) (letter : Char) (args : List Text) :
    Option Print :=
  let arg := args.headD []
  let rest := args.drop 1
  if letter = 's' then some { out := d.chars arg, rest }
  else if letter = 'b' then
    let (t, ends) := unescape dialect (arg.length + 1) arg
    some { out := d.chars t, rest, ends }
  else if letter = 'c' then
    some { out := d.pad (if arg.isEmpty then [Char.ofNat 0] else arg.take 1), rest }
  else if letter = 'd' || letter = 'i' then
    let (n, complaints) := argumentValue Int.ofNat (readInteger true) arg
    some { out := d.integer n, rest, complaints }
  else if "ouxX".toList.contains letter then
    let (n, complaints) := argumentValue Int.ofNat (readInteger false) arg
    let base := if letter = 'o' then 8 else if letter = 'u' then 10 else 16
    some { out := d.natural base (letter == 'X') n.toNat, rest, complaints }
  else if "aAeEfFgG".toList.contains letter then
    let (x, complaints) :=
      argumentValue (fun n => Binary64.nearest false n 1) readFloating arg
    some { out := d.floating letter x (dialect == .extended), rest, complaints }
  else if letter = 'q' && dialect = .extended then some { out := d.chars (quoted arg), rest }
  else none

def once (dialect : Dialect) : Nat → Text → List Text → Print
  | 0, _, rest => { rest }
  | _, [], rest => { rest }
  | n + 1, c :: t, args =>
    let after (p : Print) (t : Text) : Print :=
      if p.ends then p
      else
        let q := once dialect n t p.rest
        { q with out := p.out ++ q.out, complaints := p.complaints ++ q.complaints }
    if c = '\\' then
      match dialect, t with
      | .extended, 'c' :: _ => { ends := true }
      | _, _ =>
        let (shown, rest) := escape dialect t
        after { out := shown, rest := args } rest
    else if c != '%' then after { out := [c], rest := args } t
    else match t with
      | '%' :: t => after { out := ['%'], rest := args } t
      | _ =>
        let (d, rest, args) := readDirective t args
        -- Only the common language takes the size of a number for a directive.
        let sized := rest.dropWhile ("hlLjzt".toList.contains ·)
        let rest := if dialect = .extended && !sized.isEmpty then sized else rest
        match rest with
        | [] => { rest := [], complaints := [.directiveMissing], ends := true }
        | letter :: rest => match d.print dialect letter args with
          | some p => after p rest
          | none =>
            let shown := '%' :: t.take (t.length - rest.length)
            { rest := [], complaints := [.invalidDirective shown], ends := true }

def uses (dialect : Dialect) (format : Text) : Nat → List Text → Print
  | 0, rest => { rest }
  | n + 1, args =>
    let p := once dialect (format.length + 1) format args
    if p.ends || p.rest.isEmpty || p.rest.length = args.length then p
    else
      let q := uses dialect format n p.rest
      { q with out := p.out ++ q.out, complaints := p.complaints ++ q.complaints }

def print (dialect : Dialect) (format : Text) (args : List Text) : Print :=
  uses dialect format (args.length + 1) args

end Format

end Shell
end TypedCommand
