import TypedCommand.Shell.Pattern
import TypedCommand.Tool.Call

/-!
Programs that work on parts of lines and on single characters: cutting out fields, putting
files side by side, and replacing characters by others.
-/

namespace TypedCommand

namespace Tool

structure Span where
  first : Nat
  last : Option Nat

def Span.has (s : Span) (n : Nat) : Bool := s.first ≤ n && s.last.all (n ≤ ·)

inductive SpanFault
  | zero
  | decreasing
  | noEnds
  | invalid (text : Text)

def readSpan (t : Text) : Except SpanFault Span :=
  let first := t.takeWhile (· != '-')
  match t.drop first.length with
  | [] => match natural? first with
    | some 0 => .error .zero
    | some n => .ok ⟨n, some n⟩
    | none => .error (.invalid t)
  | _ :: last =>
    if first.isEmpty && last.isEmpty then .error .noEnds
    else if (!first.isEmpty && (natural? first).isNone) || (!last.isEmpty && (natural? last).isNone) then
      .error (.invalid t)
    else
      let n := if first.isEmpty then 1 else Text.digitsValue first
      if n = 0 then .error .zero
      else if last.isEmpty then .ok ⟨n, none⟩
      else if Text.digitsValue last < n then .error .decreasing
      else .ok ⟨n, some (Text.digitsValue last)⟩

def readSpans (t : Text) : Except SpanFault (List Span) :=
  ((t.map fun c => if c = ' ' then ',' else c).splitOn ',').mapM readSpan

def pick {α : Type} (spans : List Span) (inverts : Bool) (items : List α) : List α :=
  (items.zipIdx.filter fun e => spans.any (·.has (e.2 + 1)) != inverts).map Prod.fst

def cut (c : Call) : Reply :=
  let forms := [valued 'd' "delimiter", valued 'f' "fields", valued 'c' "characters", valued 'b' "bytes",
    flag 's' "only-delimited", flag 'n', flag 'z' "zero-terminated", flag 'C' "complement",
    valued 'O' "output-delimiter"]
  c.withOptions forms fun o =>
    let lists := o.options.filter fun e => "fcb".toList.contains e.1
    match lists with
    | [] => c.misused "you must specify a list of bytes, characters, or fields"
    | _ :: _ :: _ => c.misused "only one list may be specified"
    | [(kind, list)] =>
      let noun : Text := if kind = 'f' then "field value" else "byte/character position"
      match readSpans list with
      | .error .zero =>
        c.misused (if kind = 'f' then "fields are numbered from 1"
          else "byte/character positions are numbered from 1")
      | .error .decreasing => c.misused "invalid decreasing range"
      | .error .noEnds => c.misused "invalid range with no endpoint: -"
      | .error (.invalid t) => c.misused ("invalid " ++ noun ++ ' ' :: t.inQuotes)
      | .ok spans =>
        let delimiter := (o.value? 'd').getD ['\t']
        if kind = 'f' && 1 < delimiter.length then c.misused "the delimiter must be a single character"
        else if kind != 'f' && o.has 'd' then
          c.misused "an input delimiter may be specified only when operating on fields"
        else if kind != 'f' && o.has 's' then
          c.misused ("suppressing non-delimited lines makes sense\n\tonly when operating on fields")
        else
          let mark := delimiter.headD (Char.ofNat 0)
          let glue := (o.value? 'O').getD [mark]
          let line (t : Text) : List Text :=
            if kind = 'f' then
              if t.contains mark then [glue.intercalate (pick spans (o.has 'C') (t.splitOn mark))]
              else if o.has 's' then []
              else [t]
            else [pick spans (o.has 'C') t]
          c.filter o.operands fun t => asLines ((linesOf t).flatMap line)

def readMarks : Text → List Text
  | '\\' :: 'n' :: rest => ['\n'] :: readMarks rest
  | '\\' :: 't' :: rest => ['\t'] :: readMarks rest
  | '\\' :: '0' :: rest => [] :: readMarks rest
  | '\\' :: c :: rest => [c] :: readMarks rest
  | c :: rest => [c] :: readMarks rest
  | [] => []

def joinBy (marks : List Text) (ts : List Text) : Text :=
  (ts.zipIdx.map fun (t, i) => if i = 0 then t
    else (marks[(i - 1) % marks.length]?.getD []) ++ t).flatten

def rowsOf : Nat → List (List Text) → List (List Text)
  | 0, _ => []
  | n + 1, columns =>
    if columns.all List.isEmpty then []
    else columns.map (·.headD []) :: rowsOf n (columns.map (·.drop 1))

/-- The columns of some operands, of which those that are a dash share the lines of the
input. -/
def deal (lines : List Text) (dashes : Nat) : List Text → Nat → List (Text × List Text)
  | [], _ => []
  | path :: rest, seen =>
    if path = ['-'] then
      (path, (lines.zipIdx.filter fun e => e.2 % dashes == seen).map Prod.fst) ::
        deal lines dashes rest (seen + 1)
    else (path, []) :: deal lines dashes rest seen

def paste (c : Call) : Reply :=
  c.withOptions [valued 'd' "delimiters", flag 's' "serial", flag 'z'] fun o =>
    let marks := readMarks ((o.value? 'd').getD ['\t'])
    let marks := if marks.isEmpty then [[]] else marks
    let operands := if o.operands.isEmpty then [['-']] else o.operands
    match operands.findSome? fun path => match c.content path with
      | .error e => some (path, e)
      | .ok _ => none with
    | some (path, e) => Reply.failed (c.name ++ ": " ++ Call.faultText path e)
    | none =>
      let lines (path : Text) : List Text := linesOf ((c.content path).toOption.getD [])
      let text :=
        if o.has 's' then operands.flatMap fun path => joinBy marks (lines path) ++ ['\n']
        else
          let dashes := operands.count ['-']
          let columns := (deal (linesOf c.input) dashes operands 0).map fun (path, shared) =>
            if path = ['-'] then shared else lines path
          let longest := columns.foldl (fun n col => max n col.length) 0
          (rowsOf (longest + 1) columns).flatMap fun row => joinBy marks row ++ ['\n']
      { printed := [(1, text)], readsInput := Call.usesInput operands }

/-- A member of a set of characters to be replaced: a character, a class, or a character
that fills the set up. -/
inductive SetItem
  | char (c : Char)
  | named (name : Text)
  | filler (c : Char) (count : Nat)

def takeSetChar : Text → Option (Char × Text)
  | [] => none
  | '\\' :: c :: rest =>
    let octal := ((c :: rest).take 3).takeWhile fun d => '0' ≤ d && d ≤ '7'
    if !octal.isEmpty then
      some (Char.ofNat (Nat.ofDigitChars 8 octal 0 % 256), (c :: rest).drop octal.length)
    else
      let named := [('n', '\n'), ('t', '\t'), ('r', '\r'), ('a', '\x07'), ('b', '\x08'), ('f', '\x0c'),
        ('v', '\x0b')].lookup c
      some (named.getD c, rest)
  | c :: rest => some (c, rest)

def readSet : Nat → Text → Except Text (List SetItem)
  | 0, _ => .ok []
  | n + 1, t =>
    let class? : Option (Text × Text) := match t with
      | '[' :: ':' :: inside =>
        let name := inside.takeWhile Char.isAlpha
        match inside.drop name.length with
        | ':' :: ']' :: rest => some (name, rest)
        | _ => none
      | _ => none
    let filler? : Option (Char × Nat × Text) := match t with
      | '[' :: c :: '*' :: inside =>
        let digits := inside.takeWhile Char.isDigit
        match inside.drop digits.length with
        | ']' :: rest => some (c, Text.digitsValue digits, rest)
        | _ => none
      | _ => none
    match class?, filler? with
    | some (name, rest), _ => do return .named name :: (← readSet n rest)
    | _, some (c, count, rest) => do return .filler c count :: (← readSet n rest)
    | none, none => match takeSetChar t with
      | none => .ok []
      | some (c, rest) => match rest with
        | '-' :: more => match takeSetChar more with
          | none => do return .char c :: (← readSet n rest)
          | some (d, after) =>
            if d < c then
              .error ("range-endpoints of '" ++ [c, '-', d] ++ "' are in reverse collating sequence order")
            else do
              let range := (List.range (d.toNat - c.toNat + 1)).map fun i =>
                SetItem.char (Char.ofNat (c.toNat + i))
              return range ++ (← readSet n after)
        | _ => do return .char c :: (← readSet n rest)

def allBytes : Text := (List.range 256).map Char.ofNat

/-- The characters of a set; a filler without a count makes it as long as a number says. -/
def expandSet (length : Nat) (items : List SetItem) : Text :=
  let size := items.foldl (fun n i => n + match i with
    | .char _ => 1
    | .named name => (allBytes.filter (Shell.Pattern.classNamed name)).length
    | .filler _ count => count) 0
  items.flatMap fun i => match i with
    | .char c => [c]
    | .named name => allBytes.filter (Shell.Pattern.classNamed name)
    | .filler c count => List.replicate (if count = 0 then length - size else count) c

def squeeze (p : Char → Bool) : Text → Text
  | a :: b :: rest => if a = b && p a then squeeze p (b :: rest) else a :: squeeze p (b :: rest)
  | rest => rest

def tr (c : Call) : Reply :=
  let forms := [flag 'd' "delete", flag 's' "squeeze-repeats", flag 'c' "complement", flag 'C',
    flag 't' "truncate-set1"]
  c.withOptions forms (fun o =>
    let deletes := o.has 'd'
    let squeezes := o.has 's'
    let inverts := o.has 'c' || o.has 'C'
    let reply (f : Text → Text) : Reply := { printed := [(1, f c.input)], readsInput := true }
    let set (t : Text) : Except Text (List SetItem) := readSet (t.length + 1) t
    let first (items : List SetItem) : Text :=
      let chars := expandSet 0 items
      if inverts then allBytes.filter fun ch => !chars.contains ch else chars
    match o.operands with
    | [] => c.misused "missing operand"
    | [a] =>
      if deletes && squeezes then
        c.misused ("missing operand after " ++ a.inQuotes ++
          "\nTwo strings must be given when both deleting and squeezing repeats.")
      else if !deletes && !squeezes then
        c.misused ("missing operand after " ++ a.inQuotes ++
          "\nTwo strings must be given when translating.")
      else match set a with
        | .error e => Reply.failed (c.name ++ ": " ++ e)
        | .ok items =>
          let chars := first items
          reply (if deletes then List.filter (fun ch => !chars.contains ch) else squeeze chars.contains)
    | [a, b] =>
      if deletes && !squeezes then
        c.misused ("extra operand " ++ b.inQuotes ++
          "\nOnly one string may be given when deleting without squeezing repeats.")
      else match set a, set b with
        | .error e, _ => Reply.failed (c.name ++ ": " ++ e)
        | _, .error e => Reply.failed (c.name ++ ": " ++ e)
        | .ok xs, .ok ys =>
          let source := first xs
          if deletes then
            let chars := expandSet 0 ys
            reply fun t => squeeze chars.contains (t.filter fun ch => !source.contains ch)
          else
            let target := expandSet source.length ys
            if target.isEmpty && !o.has 't' then
              Reply.failed (c.name ++ ": when not truncating set1, string2 must be non-empty")
            else
              let source := if o.has 't' then source.take target.length else source
              let filled := target ++ List.replicate (source.length - target.length) (target.getLast?.getD ' ')
              let table := (source.zip filled).reverse
              let translate (t : Text) : Text := t.map fun ch => (table.lookup ch).getD ch
              reply fun t => if squeezes then squeeze target.contains (translate t) else translate t
    | _ :: _ :: extra :: _ => c.misused ("extra operand " ++ extra.inQuotes)) 1 false

end Tool
end TypedCommand
