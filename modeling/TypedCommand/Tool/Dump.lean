import TypedCommand.Tool.Digest
import TypedCommand.Shell.Format

/-!
Files byte by byte: shown in columns, in one form or several, and compared.
-/

namespace TypedCommand

namespace Tool

inductive UnitForm
  | name
  | char
  | signed
  | unsigned
  | octal
  | hexadecimal
  | decimal
deriving DecidableEq

/-- A form in which bytes are shown: so many at a time, and perhaps as a text behind them. -/
structure Column where
  form : UnitForm
  size : Nat
  showsText : Bool := false

namespace Column

def width (c : Column) : Nat :=
  let bits := 8 * c.size
  match c.form with
  | .name => 3
  | .char => 3
  | .octal => (bits + 2) / 3
  | .hexadecimal => bits / 4
  | .unsigned => (Text.ofNat ((1 <<< bits) - 1)).length
  | .signed => (Text.ofNat (1 <<< (bits - 1))).length + 1
  | .decimal => if c.size = 4 then 15 else 24

def names : List Text :=
  ["nul", "soh", "stx", "etx", "eot", "enq", "ack", "bel", "bs", "ht", "nl", "vt", "ff", "cr", "so", "si",
    "dle", "dc1", "dc2", "dc3", "dc4", "nak", "syn", "etb", "can", "em", "sub", "esc", "fs", "gs", "rs",
    "us", "sp"].map String.toList

def isPrintable (c : Char) : Bool := 32 ≤ c.toNat && c.toNat < 127

def filled (width : Nat) (t : Text) : Text := List.replicate (width - t.length) '0' ++ t

def shown (c : Column) (bytes : Text) : Text :=
  let n := Digest.ofBytes bytes.reverse
  let first := bytes.headD ' '
  match c.form with
  | .name =>
    let n := first.toNat % 128
    if n = 127 then "del" else names.getD n [Char.ofNat n]
  | .char =>
    match [(0, '0'), (7, 'a'), (8, 'b'), (9, 't'), (10, 'n'), (11, 'v'), (12, 'f'), (13, 'r')].lookup n with
    | some letter => ['\\', letter]
    | none => if isPrintable first then [first] else filled 3 (Nat.toDigits 8 n)
  | .octal => filled c.width (Nat.toDigits 8 n)
  | .hexadecimal => filled c.width (Nat.toDigits 16 n)
  | .unsigned => Text.ofNat n
  | .signed =>
    let half := 1 <<< (8 * c.size - 1)
    Text.ofInt (if half ≤ n then (n : Int) - 2 * half else n)
  | .decimal =>
    let d : Shell.Format.Directive := { precision := some 17 }
    d.floating 'g' (Binary64.ofBits (UInt64.ofNat n)) false

def line (c : Column) (perLine room : Nat) (bytes : Text) : Text :=
  let count := perLine / c.size
  let extra := room - count * (c.width + 1)
  let parts := partsOf c.size bytes
  let pad (i : Nat) : Nat := extra * (count - i) / count - extra * (count - i - 1) / count
  let fields := ((List.range parts.length).zip parts).flatMap fun (i, part) =>
    let t := c.shown (part ++ List.replicate (c.size - part.length) (Char.ofNat 0))
    List.replicate (c.width + 1 + pad i - t.length) ' ' ++ t
  if c.showsText then
    let missing := (List.range (count - parts.length)).foldl
      (fun n i => n + c.width + 1 + pad (parts.length + i)) 0
    fields ++ List.replicate missing ' ' ++ "  >".toList ++
      bytes.map (fun b => if isPrintable b then b else '.') ++ ['<']
  else fields

def formOf? (c : Char) : Option (UnitForm × Nat) :=
  [('a', (.name, 1)), ('c', (.char, 1)), ('d', (.signed, 4)), ('u', (.unsigned, 4)), ('o', (.octal, 4)),
    ('x', (.hexadecimal, 4)), ('f', (.decimal, 8))].lookup c

def readAll (whole : Text) : Nat → Text → Except Text (List Column)
  | 0, _ => .ok []
  | _, [] => .ok []
  | n + 1, c :: rest =>
    match formOf? c with
    | none => .error ("invalid character ".toList ++ Text.inQuotes [c] ++ " in type string ".toList ++ Text.inQuotes whole)
    | some (form, size) => do
      let digits := rest.takeWhile Char.isDigit
      let named : Option Nat := match rest with
        | l :: _ => [('C', 1), ('S', 2), ('I', 4), ('L', 8), ('F', 4), ('D', 8)].lookup l
        | [] => none
      let isSized := form != .name && form != .char
      let (size, rest) : Nat × Text :=
        if !isSized then (size, rest)
        else if !digits.isEmpty then (Text.digitsValue digits, rest.drop digits.length)
        else match named with
          | some s => (s, rest.drop 1)
          | none => (size, rest)
      if !([1, 2, 4, 8].contains size) then
        throw ("invalid type string ".toList ++ Text.inQuotes whole ++ ";\nthis system doesn't provide a ".toList ++
          Text.ofNat size ++ "-byte integral type".toList)
      else
        let showsText := rest.head? == some 'z'
        let more ← readAll whole n (if showsText then rest.drop 1 else rest)
        return ⟨form, size, showsText⟩ :: more

end Column

/-- The positions and bytes of lines; one that is the same as the one before it gives nothing,
after a star for the first of these. -/
def dumpLines (address : Nat → Text) (columns : List Column) (room perLine : Nat) (keepsAll : Bool) :
    Nat → Option Text → Bool → List Text → Text
  | position, _, _, [] =>
    let t := address position
    if t.isEmpty then [] else t ++ ['\n']
  | position, previous, hasStar, bytes :: rest =>
    let next := position + bytes.length
    if !keepsAll && previous = some bytes && bytes.length = perLine && !rest.isEmpty then
      (if hasStar then [] else "*\n".toList) ++
        dumpLines address columns room perLine keepsAll next previous true rest
    else
      let start := address position
      let lines := (List.range columns.length).zip columns |>.flatMap fun (i, c) =>
        (if i = 0 then start else List.replicate start.length ' ') ++ c.line perLine room bytes ++ ['\n']
      lines ++ dumpLines address columns room perLine keepsAll next (some bytes) false rest

def od (c : Call) : Reply :=
  let forms := [valued 't' "format", valued 'A' "address-radix", valued 'j' "skip-bytes", valued 'N' "read-bytes",
    valued 'w' "width", flag 'v' "output-duplicates", flag 'a', flag 'b', flag 'c', flag 'd', flag 'f', flag 'i',
    flag 'l', flag 'o', flag 's', flag 'x', flag 'h']
  let words := c.arguments.map fun w => if w = "-w".toList then "-w32".toList else w
  let short : List (Char × String) :=
    [('a', "a"), ('b', "o1"), ('c', "c"), ('d', "u2"), ('f', "f4"), ('i', "d4"), ('l', "d8"), ('o', "o2"),
      ('s', "d2"), ('x', "x2"), ('h', "x2")]
  let called : Call := { c with arguments := words }
  called.withOptions forms fun o =>
    let specs := o.options.filterMap fun (letter, value) =>
      if letter = 't' then some value else (short.lookup letter).map String.toList
    let specs := if specs.isEmpty then ["o2".toList] else specs
    let columns? : Except Text (List (List Column)) :=
      specs.mapM fun s => Column.readAll s (s.length + 1) s
    match columns? with
    | .error said => Reply.failed (c.name ++ ": ".toList ++ said)
    | .ok columns =>
      let columns := columns.flatten
      let number (letter : Char) : Option Nat := (o.value? letter).bind natural?
      let parts := c.contents o.operands
      let errors := parts.flatMap fun (path, r) => match r with
        | .ok _ => []
        | .error e => c.message (Call.faultText path e)
      let text := parts.flatMap fun (_, r) => r.toOption.getD []
      let skipped := (number 'j').getD 0
      let text := text.drop skipped
      let text := match number 'N' with
        | some n => text.take n
        | none => text
      let perLine := (number 'w').getD 16
      let radix := (o.value? 'A').getD ['o']
      let address (n : Nat) : Text :=
        if radix = ['n'] then []
        else if radix = ['d'] then Column.filled 7 (Text.ofNat n)
        else if radix = ['x'] then Column.filled 6 (Nat.toDigits 16 n)
        else Column.filled 7 (Nat.toDigits 8 n)
      let room := (columns.map fun col => perLine / col.size * (col.width + 1)).foldl max 0
      let shown := if parts.all (fun p => p.2.toOption.isNone) then []
        else dumpLines address columns room perLine (o.has 'v') skipped none false (partsOf perLine text)
      { printed := [(2, errors), (1, shown)]
        status := if errors.isEmpty then 0 else 1
        readsInput := Call.usesInput o.operands }

def differences : Nat → Text → Text → List (Nat × Char × Char)
  | n, a :: as, b :: bs => if a = b then differences (n + 1) as bs else (n, a, b) :: differences (n + 1) as bs
  | _, _, _ => []

def visible (c : Char) : Text :=
  let n := c.toNat
  let low := n % 128
  let shown : Text := if low < 32 then ['^', Char.ofNat (low + 64)] else if low = 127 then ['^', '?'] else [Char.ofNat low]
  if 128 ≤ n then 'M' :: '-' :: shown else shown

def cmp (c : Call) : Reply :=
  let forms := [flag 's' "quiet", flag 's' "silent", flag 'l' "verbose", flag 'b' "print-bytes", valued 'n' "bytes",
    valued 'i' "ignore-initial"]
  let misused (said : Text) : Reply :=
    { printed := [(2, c.message said ++ c.message ("Try '".toList ++ c.name ++ " --help' for more information.".toList))]
      status := 2 }
  let octal (ch : Char) : Text :=
    let t := Nat.toDigits 8 ch.toNat
    List.replicate (3 - t.length) ' ' ++ t
  let run (o : Options) : Reply :=
    let compared (a b : Text) : Reply :=
      match c.content a, c.content b with
      | .error e, _ => Reply.failed (c.name ++ ": ".toList ++ a ++ ": ".toList ++ e.text) 2
      | _, .error e => Reply.failed (c.name ++ ": ".toList ++ b ++ ": ".toList ++ e.text) 2
      | .ok s, .ok t =>
        let skip := ((o.value? 'i').bind natural?).getD 0
        let cut (u : Text) : Text := match (o.value? 'n').bind natural? with
          | some n => (u.drop skip).take n
          | none => u.drop skip
        let s := cut s
        let t := cut t
        let found := differences 1 s t
        let ended : Text :=
          if s.length = t.length then []
          else
            let (name, u) := if s.length < t.length then (a, s) else (b, t)
            if u.isEmpty then c.message ("EOF on ".toList ++ name ++ " which is empty".toList)
            else
              let lines := u.count '\n'
              c.message ("EOF on ".toList ++ name ++ " after byte ".toList ++ Text.ofNat u.length ++
                (if o.has 'l' then [] else (if u.getLast? = some '\n' then ", line " else ", in line ").toList ++
                  Text.ofNat (if u.getLast? = some '\n' then lines else lines + 1)))
        let status := if found.isEmpty && s.length = t.length then 0 else 1
        if o.has 's' then { status }
        else if o.has 'l' then
          let width := (Text.ofNat (min s.length t.length)).length
          let lines := found.map fun (n, x, y) =>
            let place := Text.ofNat n
            List.replicate (width - place.length) ' ' ++ place ++ ' ' :: octal x ++
              (if o.has 'b' then ' ' :: Text.padEnd 4 (visible x) else []) ++ ' ' :: octal y ++
              (if o.has 'b' then ' ' :: visible y else [])
          { printed := [(2, ended), (1, asLines lines)], status }
        else match found with
          | (n, x, y) :: _ =>
            let line := (s.take (n - 1)).count '\n' + 1
            let shown := a ++ ' ' :: b ++ " differ: ".toList ++ (if o.has 'b' then "byte " else "char ").toList ++
              Text.ofNat n ++ ", line ".toList ++ Text.ofNat line ++
              (if o.has 'b' then " is ".toList ++ octal x ++ ' ' :: visible x ++ ' ' :: octal y ++ ' ' :: visible y
                else [])
            { printed := [(1, shown ++ ['\n'])], status }
          | [] => { printed := [(2, ended)], status }
    match o.operands with
    | [] => misused ("missing operand after ".toList ++ Text.inQuotes c.name)
    | [a] => { compared a ['-'] with readsInput := true }
    | [a, b] => { compared a b with readsInput := [a, b].contains ['-'] }
    | _ :: _ :: extra :: _ => misused ("extra operand ".toList ++ Text.inQuotes extra)
  c.withOptions forms run 2

end Tool
end TypedCommand
