import TypedCommand.Shell.Format
import TypedCommand.Tool.Call

/-!
Programs that put lines in order, and programs that compare files in order: sorting by keys,
dropping repeated lines, and joining two files line by line.
-/

namespace TypedCommand

namespace Tool

structure KeyOrder where
  ignoresBlanks : Bool := false
  foldsCase : Bool := false
  isDictionary : Bool := false
  kind : Char := 'c'
  isReversed : Bool := false

def orderingOf (letters : Text) : KeyOrder where
  ignoresBlanks := letters.contains 'b'
  foldsCase := letters.contains 'f'
  isDictionary := letters.contains 'd'
  kind := (letters.find? ("nghMV".toList.contains ·)).getD 'c'
  isReversed := letters.contains 'r'

/-- A part of a line by the numbers of its fields and of the characters in them. -/
structure SortKey where
  field : Nat := 1
  char : Nat := 1
  endField : Option Nat := none
  endChar : Nat := 0
  ordering : Option KeyOrder := none
  skipsStart : Bool := false
  skipsEnd : Bool := false

def isBlankChar (c : Char) : Bool := c == ' ' || c == '\t'

/-- A line without a number of fields at its front; a field begins with its blanks. -/
def dropBlankFields : Nat → Text → Text
  | 0, t => t
  | n + 1, t => dropBlankFields n ((t.dropWhile isBlankChar).dropWhile fun c => !isBlankChar c)

/-- A line without a number of fields at its front and the marks behind them; the mark of
the last one stays if it is asked for. -/
def dropMarkedFields (mark : Char) (keepsLast : Bool) : Nat → Text → Text
  | 0, t => t
  | n + 1, t =>
    let rest := t.dropWhile (· != mark)
    if n = 0 && keepsLast then rest else dropMarkedFields mark keepsLast n (rest.drop 1)

def SortKey.part (k : SortKey) (mark : Option Char) (line : Text) : Text :=
  let tail := match mark with
    | some m => dropMarkedFields m false (k.field - 1) line
    | none => dropBlankFields (k.field - 1) line
  let tail := if k.skipsStart then tail.dropWhile isBlankChar else tail
  let start := min (line.length - tail.length + (k.char - 1)) line.length
  let stop := match k.endField with
    | none => line.length
    | some f =>
      if k.endChar = 0 then
        line.length - (match mark with
          | some m => dropMarkedFields m true f line
          | none => dropBlankFields f line).length
      else
        let tail := match mark with
          | some m => dropMarkedFields m false (f - 1) line
          | none => dropBlankFields (f - 1) line
        let tail := if k.skipsEnd then tail.dropWhile isBlankChar else tail
        min (line.length - tail.length + k.endChar) line.length
  (line.take stop).drop start

def readPosition? (t : Text) : Option (Nat × Option Nat × Text) :=
  let field := t.takeWhile Char.isDigit
  if field.isEmpty then none
  else match t.drop field.length with
    | '.' :: rest =>
      let char := rest.takeWhile Char.isDigit
      some (Text.digitsValue field, some (Text.digitsValue char), rest.drop char.length)
    | rest => some (Text.digitsValue field, none, rest)

def readKey (t : Text) : Except Text SortKey :=
  let first := t.takeWhile (· != ',')
  let second := (t.drop first.length).drop 1
  let invalid (reason value : Text) : Except Text SortKey :=
    .error (reason ++ ": invalid field specification " ++ value.inQuotes)
  match readPosition? first with
  | none => .error ("invalid number at field start: invalid count at start of " ++ Text.inQuotes t)
  | some (field, char, letters) =>
    if field = 0 then invalid "field number is zero" t
    else if char = some 0 then invalid "character offset is zero" t
    else
      let key (endField : Option Nat) (endChar : Nat) (more : Text) : Except Text SortKey :=
        let all := letters ++ more
        .ok {
          field, char := char.getD 1, endField, endChar
          ordering := if all.isEmpty then none else some (orderingOf all)
          skipsStart := letters.contains 'b', skipsEnd := more.contains 'b' }
      if second.isEmpty then key none 0 []
      else match readPosition? second with
        | none => .error ("invalid number after ',': invalid count at start of " ++ Text.inQuotes second)
        | some (f, ch, more) => if f = 0 then invalid "field number is zero" t else key (some f) (ch.getD 0) more

def leadingNumber (t : Text) : Int × Nat :=
  let body := t.dropWhile isBlankChar
  let negative := body.head? = some '-'
  let digits := if negative then body.drop 1 else body
  let whole := digits.takeWhile Char.isDigit
  let fraction := match digits.drop whole.length with
    | '.' :: rest => rest.takeWhile Char.isDigit
    | _ => []
  let value : Int := Text.digitsValue (whole ++ fraction)
  (if negative then -value else value, fraction.length)

def compareNumbers (a b : Int × Nat) : Ordering :=
  compare (a.1 * (Nat.pow 10 b.2 : Nat)) (b.1 * (Nat.pow 10 a.2 : Nat))

def suffixRank (t : Text) : Int :=
  let body := t.dropWhile isBlankChar
  let negative := body.head? = some '-'
  let rest := (if negative then body.drop 1 else body).dropWhile fun c => c.isDigit || c == '.'
  let rank : Int := match rest.head? with
    | some c => (("KMGTPEZY".toList.idxOf? (if c = 'k' then 'K' else c)).map fun n => (n : Int) + 1).getD 0
    | none => 0
  if negative then -rank else rank

def monthRank (t : Text) : Nat :=
  let name := ((t.dropWhile isBlankChar).take 3).map Char.toUpper
  ((["JAN", "FEB", "MAR", "APR", "MAY", "JUN", "JUL", "AUG", "SEP", "OCT", "NOV",
    "DEC"].map String.toList).idxOf? name).map (· + 1) |>.getD 0

def compareVersions : Nat → Text → Text → Ordering
  | 0, _, _ => .eq
  | _, [], [] => .eq
  | _, [], _ => .lt
  | _, _, [] => .gt
  | n + 1, a :: as, b :: bs =>
    if a.isDigit && b.isDigit then
      let x := (a :: as).takeWhile Char.isDigit
      let y := (b :: bs).takeWhile Char.isDigit
      (compare (Text.digitsValue x) (Text.digitsValue y)).then
        (compareVersions n ((a :: as).drop x.length) ((b :: bs).drop y.length))
    else (compare a.toNat b.toNat).then (compareVersions n as bs)

def compareTexts : Text → Text → Ordering
  | [], [] => .eq
  | [], _ => .lt
  | _, [] => .gt
  | a :: as, b :: bs => (compare a.toNat b.toNat).then (compareTexts as bs)

def KeyOrder.compare (o : KeyOrder) (a b : Text) : Ordering :=
  let prepare (t : Text) : Text :=
    let t := if o.ignoresBlanks then t.dropWhile isBlankChar else t
    let t := if o.isDictionary then t.filter fun c => c.isAlphanum || isBlankChar c else t
    if o.foldsCase then t.map Char.toUpper else t
  let result := match o.kind with
    | 'n' => compareNumbers (leadingNumber a) (leadingNumber b)
    | 'g' =>
      let number (t : Text) : Int × Nat :=
        let body := t.dropWhile isBlankChar
        let (negative, digits) := Text.splitSign body
        match Decimal.read? (digits.take (Shell.Format.decimalLength digits)) with
        | some d =>
          let n : Int := d.digits * Nat.pow 10 d.exponent.toNat
          (if negative then -n else n, (-d.exponent).toNat)
        | none => (-(Nat.pow 10 400 : Nat), 0)
      compareNumbers (number a) (number b)
    | 'h' => (Ord.compare (suffixRank a) (suffixRank b)).then
        (compareNumbers (leadingNumber a) (leadingNumber b))
    | 'M' => Ord.compare (monthRank a) (monthRank b)
    | 'V' => compareVersions (a.length + b.length + 1) a b
    | _ => compareTexts (prepare a) (prepare b)
  if o.isReversed then result.swap else result

structure Sorting where
  keys : List SortKey := []
  mark : Option Char := none
  ordering : KeyOrder := {}
  isStable : Bool := false

def Sorting.compareKeys (s : Sorting) (a b : Text) : Ordering :=
  if s.keys.isEmpty then s.ordering.compare a b
  else s.keys.foldl (fun (r : Ordering) k =>
    r.then ((k.ordering.getD s.ordering).compare (k.part s.mark a) (k.part s.mark b))) .eq

def Sorting.compare (s : Sorting) (a b : Text) : Ordering :=
  let last := if s.isStable then .eq
    else if s.ordering.isReversed then (compareTexts a b).swap else compareTexts a b
  (s.compareKeys a b).then last

def distinctBy (same : Text → Text → Bool) : List Text → List Text
  | a :: b :: rest =>
    if same a b then distinctBy same (a :: rest) else a :: distinctBy same (b :: rest)
  | rest => rest
termination_by ls => ls.length

def disorder? (ok : Text → Text → Bool) : Nat → List Text → Option (Nat × Text)
  | n, a :: b :: rest => if ok a b then disorder? ok (n + 1) (b :: rest) else some (n + 1, b)
  | _, _ => none

def sort (c : Call) : Reply :=
  let forms := [flag 'r' "reverse", flag 'n' "numeric-sort", flag 'u' "unique", flag 'f' "ignore-case",
    flag 'b' "ignore-leading-blanks", flag 'd' "dictionary-order", flag 'g' "general-numeric-sort",
    flag 'h' "human-numeric-sort", flag 'M' "month-sort", flag 'V' "version-sort", flag 's' "stable",
    flag 'c' "check", flag 'C', flag 'm' "merge", flag 'i' "ignore-nonprinting",
    flag 'z' "zero-terminated", valued 'k' "key", valued 't' "field-separator", valued 'o' "output",
    valued 'S' "buffer-size", valued 'T']
  c.withOptions forms (fun o =>
    match (o.options.filter (·.1 == 'k')).mapM fun e => readKey e.2 with
    | .error message => Reply.failed (c.name ++ ": " ++ message) 2
    | .ok keys =>
      let s : Sorting := {
        keys
        mark := (o.value? 't').bind fun t => if t = "\\0".toList then some (Char.ofNat 0) else t.head?
        ordering := orderingOf (o.options.map Prod.fst)
        isStable := o.has 's' || o.has 'u' }
      let parts := c.contents o.operands
      match parts.findSome? fun (path, r) => match r with
        | .error e => some (path, e)
        | .ok _ => none with
      | some (path, e) =>
        Reply.failed (c.name ++ (if e = .isDirectory then ": read failed: ".toList
          else ": cannot read: ".toList) ++ Call.quoteName path ++ ": " ++ e.text) 2
      | none =>
        let separator := if o.has 'z' then Char.ofNat 0 else '\n'
        let lines := parts.flatMap fun p =>
          let t := p.2.toOption.getD []
          let pieces := t.splitOn separator
          if pieces.getLast? = some [] then pieces.dropLast else pieces
        if o.has 'c' || o.has 'C' then
          let ok (a b : Text) : Bool :=
            if o.has 'u' then (s.compareKeys a b) == .lt else s.compare a b != .gt
          match disorder? ok 1 lines with
          | none => { readsInput := Call.usesInput o.operands }
          | some (n, line) =>
            let message := c.name ++ ": " ++ o.operands.headD ['-'] ++ [':'] ++ Text.ofNat n ++
              ": disorder: " ++ line
            { (if o.has 'C' then { status := 1 } else Reply.failed message) with
              readsInput := Call.usesInput o.operands }
        else
          let sorted := lines.mergeSort fun a b => s.compare a b != .gt
          let shown := if o.has 'u' then distinctBy (fun a b => s.compareKeys a b == .eq) sorted else sorted
          let text := shown.flatMap (· ++ [separator])
          match o.value? 'o' with
          | none => { printed := [(1, text)], readsInput := Call.usesInput o.operands }
          | some path => match c.files.write c.directory path text with
            | .ok files => { files := some files, readsInput := Call.usesInput o.operands }
            | .error e => Reply.failed (c.name ++ ": open failed: " ++ Call.faultText path e) 2) 2

def groupsBy (same : Text → Text → Bool) : List Text → List (Text × Nat)
  | [] => []
  | a :: rest => match groupsBy same rest with
    | (b, n) :: more => if same a b then (a, n + 1) :: more else (a, 1) :: (b, n) :: more
    | [] => [(a, 1)]

def uniq (c : Call) : Reply :=
  let forms := [flag 'c' "count", flag 'd' "repeated", flag 'D' "all-repeated", flag 'u' "unique",
    flag 'i' "ignore-case", valued 'f' "skip-fields", valued 's' "skip-chars", valued 'w' "check-chars",
    flag 'z' "zero-terminated"]
  c.withOptions forms fun o =>
    let number (l : Char) : Nat := ((o.value? l).bind natural?).getD 0
    let key (t : Text) : Text :=
      let t := (dropBlankFields (number 'f') t).drop (number 's')
      let t := if o.has 'w' then t.take (number 'w') else t
      if o.has 'i' then t.map Char.toUpper else t
    let shown (t : Text) : Text :=
      let groups := groupsBy (fun a b => key a == key b) (linesOf t)
      let kept := groups.filter fun g =>
        (!o.has 'd' || 1 < g.2) && (!o.has 'D' || 1 < g.2) && (!o.has 'u' || g.2 == 1)
      asLines (kept.flatMap fun (line, n) =>
        let digits := Text.ofNat n
        if o.has 'c' then [List.replicate (7 - digits.length) ' ' ++ digits ++ ' ' :: line]
        else if o.has 'D' then List.replicate n line
        else [line])
    match o.operands with
    | [input, output] =>
      match c.content input with
      | .error e => Reply.failed (c.name ++ ": " ++ Call.faultText input e)
      | .ok t => match c.files.write c.directory output (shown t) with
        | .ok files => { files := some files, readsInput := input == ['-'] }
        | .error e => Reply.failed (c.name ++ ": " ++ Call.faultText output e)
    | _ :: _ :: extra :: _ => c.misused ("extra operand " ++ extra.inQuotes)
    | operands =>
      let path := operands.headD ['-']
      match c.content path with
      | .ok t => { printed := [(1, shown t)], readsInput := path == ['-'] }
      | .error .isDirectory =>
        Reply.failed (c.name ++ ": error reading " ++ path.inQuotes ++ ": Is a directory")
      | .error e => Reply.failed (c.name ++ ": " ++ Call.faultText path e)

/-- The lines of two sorted lists in order, each with where it stands: only in the first
list, only in the second, or in both. -/
def compareLines : Nat → List Text → List Text → List (Nat × Text)
  | 0, _, _ => []
  | _, as, [] => as.map ((0, ·))
  | _, [], bs => bs.map ((1, ·))
  | n + 1, a :: as, b :: bs => match compareTexts a b with
    | .lt => (0, a) :: compareLines n as (b :: bs)
    | .gt => (1, b) :: compareLines n (a :: as) bs
    | .eq => (2, a) :: compareLines n as bs

def withTwoFiles (c : Call) (o : Options) (run : Text → Text → Reply) (status : Nat := 1) : Reply :=
  match o.operands with
  | [a, b] => match c.content a, c.content b with
    | .ok x, .ok y => { run x y with readsInput := a == ['-'] || b == ['-'] }
    | .error e, _ => Reply.failed (c.name ++ ": " ++ Call.faultText a e) status
    | _, .error e => Reply.failed (c.name ++ ": " ++ Call.faultText b e) status
  | [] => c.misused "missing operand" status
  | [a] => c.misused ("missing operand after " ++ a.inQuotes) status
  | _ :: _ :: extra :: _ => c.misused ("extra operand " ++ extra.inQuotes) status

def comm (c : Call) : Reply :=
  c.withOptions [flag '1', flag '2', flag '3'] fun o =>
    withTwoFiles c o fun x y =>
      let hides (n : Nat) : Bool := o.has (Char.ofNat ('1'.toNat + n))
      let indent (n : Nat) : Text := List.replicate ((List.range n).filter fun k => !hides k).length '\t'
      let as := linesOf x
      let bs := linesOf y
      let rows := (compareLines (as.length + bs.length + 1) as bs).filter fun r => !hides r.1
      let ok (a b : Text) : Bool := compareTexts a b != .gt
      let faults := (if (disorder? ok 1 as).isSome then [1] else []) ++
        (if (disorder? ok 1 bs).isSome then [2] else [])
      let errors := faults.flatMap fun n => c.message ("file " ++ Text.ofNat n ++ " is not in sorted order")
      let errors := if faults.isEmpty then [] else errors ++ c.message "input is not in sorted order"
      Reply.ofTexts (rows.flatMap fun (n, t) => indent n ++ t ++ ['\n']) errors
        (if faults.isEmpty then 0 else 1)

def join (c : Call) : Reply :=
  c.withOptions [valued 't', valued 'a', valued 'v', valued '1', valued '2', valued 'j', flag 'i'] fun o =>
    withTwoFiles c o fun x y =>
      let mark := (o.value? 't').bind List.head?
      let fields (t : Text) : List Text := match mark with
        | some m => t.splitOn m
        | none => Text.runs (fun ch => !isBlankChar ch) t
      let index (l : Char) : Nat :=
        ((((o.value? l).or (o.value? 'j')).bind natural?).getD 1) - 1
      let key (n : Nat) (fs : List Text) : Text := fs[n]?.getD []
      let others (n : Nat) (fs : List Text) : List Text := fs.eraseIdx n
      let row (fs : List Text) : Text := [mark.getD ' '].intercalate fs ++ ['\n']
      let as := (linesOf x).map fields
      let bs := (linesOf y).map fields
      let i := index '1'
      let j := index '2'
      let shows (l : Char) (n : Text) : Bool := o.options.any fun e => e.1 == l && e.2 == n
      let alone (l : Char) (n : Text) : Bool := shows 'a' n || shows 'v' n || (l == 'x')
      let paired := as.flatMap fun a =>
        let partners := bs.filter fun b => key i a == key j b
        if partners.isEmpty then (if alone 'a' ['1'] then row (key i a :: others i a) else [])
        else if o.has 'v' then []
        else partners.flatMap fun b => row (key i a :: others i a ++ others j b)
      let lone := bs.flatMap fun b =>
        if alone 'a' ['2'] && !as.any (fun a => key i a == key j b) then row (key j b :: others j b) else []
      Reply.ofText (paired ++ lone)

end Tool
end TypedCommand
