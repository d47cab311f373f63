import TypedCommand.Tool.Call

/-!
Checksums of files. A text is filled up to whole blocks, and each block changes a few words
that are the sum in the end. The constants are taken from square and cube roots of the first
primes, or from sines.
-/

namespace TypedCommand

namespace Tool

/-- A list cut into parts of one size, so many at most; the last can be shorter. -/
def cutUp {α : Type} (size : Nat) : Nat → List α → List (List α)
  | 0, _ => []
  | _, [] => []
  | n + 1, l => l.take size :: cutUp size n (l.drop size)

def partsOf {α : Type} (size : Nat) (l : List α) : List (List α) := cutUp size (l.length + 1) l

namespace Digest

structure Width where
  bits : Nat

namespace Width

def limit (w : Width) : Nat := 1 <<< w.bits

def add (w : Width) (x y : Nat) : Nat := (x + y) % w.limit

def addAll (w : Width) (xs : List Nat) : Nat := xs.foldl w.add 0

def rotateRight (w : Width) (n x : Nat) : Nat := (x >>> n) ||| ((x <<< (w.bits - n)) % w.limit)

def rotateLeft (w : Width) (n x : Nat) : Nat := w.rotateRight (w.bits - n) x

def complement (w : Width) (x : Nat) : Nat := w.limit - 1 - x

end Width

def ofBytes (t : Text) : Nat := t.foldl (fun n c => 256 * n + c.toNat) 0

def toBytes (count n : Nat) : Text :=
  (List.range count).reverse.map fun i => Char.ofNat ((n >>> (8 * i)) % 256)

def padded (block lengthBytes : Nat) (lastFirst : Bool) (t : Text) : Text :=
  let fill := (block - (t.length + 1 + lengthBytes) % block) % block
  let length := toBytes lengthBytes (8 * t.length)
  t ++ Char.ofNat 0x80 :: List.replicate fill (Char.ofNat 0) ++ (if lastFirst then length.reverse else length)

def wordsOf (size : Nat) (lastFirst : Bool) (block : Text) : List Nat :=
  (partsOf size block).map fun b => ofBytes (if lastFirst then b.reverse else b)

def primes (count : Nat) : List Nat :=
  ((List.range 420).filter fun n => 2 ≤ n && (List.range n).all fun d => d < 2 || n % d != 0).take count

def root (degree n : Nat) : Nat :=
  (List.range 80).reverse.foldl (fun r b => if Nat.pow (r + (1 <<< b)) degree ≤ n then r + (1 <<< b) else r) 0

def rootFraction (degree n : Nat) : Nat := root degree (n <<< (64 * degree)) % (1 <<< 64)

structure Turns where
  width : Width
  rounds : Nat
  /-- The turns of the schedule: two, and a shift. -/
  early : Nat × Nat × Nat
  late : Nat × Nat × Nat
  /-- The turns of a round. -/
  first : Nat × Nat × Nat
  second : Nat × Nat × Nat

def turns32 : Turns := ⟨⟨32⟩, 64, (7, 18, 3), (17, 19, 10), (2, 13, 22), (6, 11, 25)⟩

def turns64 : Turns := ⟨⟨64⟩, 80, (1, 8, 7), (19, 61, 6), (28, 34, 39), (14, 18, 41)⟩

/-- The words of a schedule, the last of them first, when so many are still to be made. -/
def schedule (t : Turns) : Nat → List Nat → List Nat
  | 0, ws => ws
  | n + 1, ws =>
    let mixed (turns : Nat × Nat × Nat) (x : Nat) : Nat :=
      t.width.rotateRight turns.1 x ^^^ t.width.rotateRight turns.2.1 x ^^^ (x >>> turns.2.2)
    let w := t.width.addAll
      [mixed t.late (ws.getD 1 0), ws.getD 6 0, mixed t.early (ws.getD 14 0), ws.getD 15 0]
    schedule t n (w :: ws)

def round (t : Turns) (state : List Nat) (input : Nat × Nat) : List Nat :=
  let mixed (turns : Nat × Nat × Nat) (x : Nat) : Nat :=
    t.width.rotateRight turns.1 x ^^^ t.width.rotateRight turns.2.1 x ^^^ t.width.rotateRight turns.2.2 x
  match state with
  | [a, b, c, d, e, f, g, h] =>
    let choice := (e &&& f) ^^^ (t.width.complement e &&& g)
    let majority := (a &&& b) ^^^ (a &&& c) ^^^ (b &&& c)
    let x := t.width.addAll [h, mixed t.second e, choice, input.1, input.2]
    [t.width.addAll [x, mixed t.first a, majority], a, b, c, t.width.add d x, e, f, g]
  | other => other

def compress (t : Turns) (constants state words : List Nat) : List Nat :=
  let ws := (schedule t (t.rounds - 16) words.reverse).reverse
  List.zipWith t.width.add state ((constants.zip ws).foldl (round t) state)

def hex (digits n : Nat) : Text :=
  let shown := Nat.toDigits 16 n
  List.replicate (digits - shown.length) '0' ++ shown

def sum32 (start : List Nat) (shown : Nat) (t : Text) : Text :=
  let constants := (primes 64).map fun p => rootFraction 3 p >>> 32
  let blocks := (partsOf 64 (padded 64 8 false t)).map (wordsOf 4 false)
  ((blocks.foldl (compress turns32 constants) start).take shown).flatMap (hex 8)

def sum64 (start : List Nat) (shown : Nat) (t : Text) : Text :=
  let constants := (primes 80).map (rootFraction 3)
  let blocks := (partsOf 128 (padded 128 16 false t)).map (wordsOf 8 false)
  ((blocks.foldl (compress turns64 constants) start).take shown).flatMap (hex 16)

def sha256 : Text → Text := sum32 ((primes 8).map fun p => rootFraction 2 p >>> 32) 8

def sha224 : Text → Text :=
  sum32 (((primes 16).drop 8).map fun p => rootFraction 2 p % (1 <<< 32)) 7

def sha512 : Text → Text := sum64 ((primes 8).map (rootFraction 2)) 8

def sha384 : Text → Text := sum64 (((primes 16).drop 8).map (rootFraction 2)) 6

def oldStart : List Nat := [0x67452301, 0xefcdab89, 0x98badcfe, 0x10325476]

def oldSchedule : Nat → List Nat → List Nat
  | 0, ws => ws
  | n + 1, ws =>
    let x := ws.getD 2 0 ^^^ ws.getD 7 0 ^^^ ws.getD 13 0 ^^^ ws.getD 15 0
    oldSchedule n (Width.rotateLeft ⟨32⟩ 1 x :: ws)

def oldRound (state : List Nat) (input : Nat × Nat) : List Nat :=
  let w : Width := ⟨32⟩
  match state with
  | [a, b, c, d, e] =>
    let (f, k) : Nat × Nat := match input.1 / 20 with
      | 0 => ((b &&& c) ||| (w.complement b &&& d), 0x5a827999)
      | 1 => (b ^^^ c ^^^ d, 0x6ed9eba1)
      | 2 => ((b &&& c) ||| (b &&& d) ||| (c &&& d), 0x8f1bbcdc)
      | _ => (b ^^^ c ^^^ d, 0xca62c1d6)
    [w.addAll [w.rotateLeft 5 a, f, e, k, input.2], a, w.rotateLeft 30 b, c, d]
  | other => other

def sha1 (t : Text) : Text :=
  let step (state words : List Nat) : List Nat :=
    let ws := (oldSchedule 64 words.reverse).reverse
    List.zipWith (Width.add ⟨32⟩) state (((List.range 80).zip ws).foldl oldRound state)
  let blocks := (partsOf 64 (padded 64 8 false t)).map (wordsOf 4 false)
  (blocks.foldl step (oldStart ++ [0xc3d2e1f0])).flatMap (hex 8)

def sine (n : Nat) : Nat := ((Float.sin n.toFloat).abs * 4294967296.0).toUInt64.toNat

def sineRound (words : List Nat) (state : List Nat) (i : Nat) : List Nat :=
  let w : Width := ⟨32⟩
  match state with
  | [a, b, c, d] =>
    let (f, g, turns) : Nat × Nat × List Nat := match i / 16 with
      | 0 => ((b &&& c) ||| (w.complement b &&& d), i, [7, 12, 17, 22])
      | 1 => ((d &&& b) ||| (w.complement d &&& c), 5 * i + 1, [5, 9, 14, 20])
      | 2 => (b ^^^ c ^^^ d, 3 * i + 5, [4, 11, 16, 23])
      | _ => (c ^^^ (b ||| w.complement d), 7 * i, [6, 10, 15, 21])
    let x := w.addAll [f, a, sine (i + 1), words.getD (g % 16) 0]
    [d, w.add b (w.rotateLeft (turns.getD (i % 4) 0) x), b, c]
  | other => other

def md5 (t : Text) : Text :=
  let step (state words : List Nat) : List Nat :=
    List.zipWith (Width.add ⟨32⟩) state ((List.range 64).foldl (sineRound words) state)
  let blocks := (partsOf 64 (padded 64 8 true t)).map (wordsOf 4 true)
  (blocks.foldl step oldStart).flatMap fun n => hex 8 (ofBytes (toBytes 4 n).reverse)

def shiftBit (crc : Nat) (bit : Nat) : Nat :=
  let next := (crc <<< 1) ||| bit
  if 0x80000000 ≤ crc then (next % 0x100000000) ^^^ 0x04c11db7 else next

def remainder (t : Text) : Nat :=
  let lengthBytes := (Nat.toDigits 16 t.length).length / 2 + (Nat.toDigits 16 t.length).length % 2
  let length := if t.isEmpty then [] else (toBytes lengthBytes t.length).reverse
  let bits := (t ++ length).flatMap fun c => (List.range 8).reverse.map fun i => (c.toNat >>> i) % 2
  0xFFFFFFFF - (bits ++ List.replicate 32 0).foldl shiftBit 0

def turned (t : Text) : Nat :=
  t.foldl (fun s c => ((s >>> 1) + ((s % 2) <<< 15) + c.toNat) % 0x10000) 0

end Digest

def sumLine? (digits : Nat) (line : Text) : Option (Text × Text) :=
  let line := if line.head? = some '\\' then line.drop 1 else line
  let sum := line.takeWhile fun c => c.isDigit || "abcdefABCDEF".toList.contains c
  match line.drop sum.length with
  | ' ' :: mark :: name =>
    if sum.length = digits && (mark = ' ' || mark = '*') && !name.isEmpty then some (sum.map Char.toLower, name)
    else none
  | _ => none

def sumWarning (c : Call) (count : Nat) (one many : String) : Text :=
  if count = 0 then []
  else c.message ("WARNING: ".toList ++ Text.ofNat count ++ ' ' :: (if count = 1 then one else many).toList)

def Call.checkSums (c : Call) (digest : Text → Text) (o : Options) (path : Text) : Text × Text × Nat :=
  match c.content path with
  | .error e => ([], c.message (Call.faultText path e), 1)
  | .ok t =>
    let lines := (linesOf t).map (sumLine? (digest []).length)
    let shownPath := if path = ['-'] then "'standard input'".toList else path
    let checked := lines.filterMap fun l => l.map fun (sum, name) => (name, (c.content name).map fun t => digest t == sum)
    if checked.isEmpty then ([], c.message (shownPath ++ ": no properly formatted checksum lines found".toList), 1)
    else
      let quiet := o.has 'Q' || o.has 'S'
      let out := checked.flatMap fun (name, r) => match r with
        | .ok true => if quiet then [] else name ++ ": OK\n".toList
        | .ok false => if o.has 'S' then [] else name ++ ": FAILED\n".toList
        | .error _ => if o.has 'S' then [] else name ++ ": FAILED open or read\n".toList
      let faults := checked.flatMap fun (name, r) => match r with
        | .error e => c.message (Call.faultText name e)
        | .ok _ => []
      let isWrong (r : Text × Except FileFault Bool) : Bool := match r.2 with
        | .ok same => !same
        | .error _ => false
      let wrong := checked.countP isWrong
      let absent := checked.countP fun r => r.2.toOption.isNone
      let improper := lines.countP (·.isNone)
      (out, faults ++ (if o.has 'S' then [] else
        sumWarning c improper "line is improperly formatted" "lines are improperly formatted" ++
        sumWarning c absent "listed file could not be read" "listed files could not be read" ++
        sumWarning c wrong "computed checksum did NOT match" "computed checksums did NOT match"),
        if wrong + absent = 0 then 0 else 1)

def Call.sums (c : Call) (tag : String) (digest : Text → Text) : Reply :=
  let forms := [flag 'b' "binary", flag 'c' "check", flag 't' "text", flag 'z' "zero", flag 'T' "tag",
    flag 'Q' "quiet", flag 'S' "status", flag 'w' "warn", flag 's' "strict", flag 'I' "ignore-missing"]
  c.withOptions forms fun o =>
    let operands := if o.operands.isEmpty then [['-']] else o.operands
    if o.has 'c' then
      let results := operands.map (c.checkSums digest o)
      { printed := [(1, results.flatMap (·.1)), (2, results.flatMap (·.2.1))]
        status := if results.all (·.2.2 == 0) then 0 else 1
        readsInput := Call.usesInput o.operands }
    else
      let ending : Char := if o.has 'z' then Char.ofNat 0 else '\n'
      let lines := (c.contents o.operands).map fun (path, r) => match r with
        | .ok t =>
          let shown : Text :=
            if o.has 'T' then tag.toList ++ " (".toList ++ path ++ ") = ".toList ++ digest t
            else digest t ++ (if o.has 'b' then " *" else "  ").toList ++ path
          ((1, shown ++ [ending]) : Nat × Text)
        | .error e => (2, c.message (Call.faultText path e))
      { printed := lines
        status := if lines.all (·.1 == 1) then 0 else 1
        readsInput := Call.usesInput o.operands }

def digests : List (Text × (Call → Reply)) :=
  [("md5sum", "MD5", Digest.md5), ("sha1sum", "SHA1", Digest.sha1), ("sha224sum", "SHA224", Digest.sha224),
    ("sha256sum", "SHA256", Digest.sha256), ("sha384sum", "SHA384", Digest.sha384),
    ("sha512sum", "SHA512", Digest.sha512)].map
      fun (name, tag, digest) => (String.toList name, fun c => c.sums tag digest)

def Call.eachFile (c : Call) (operands : List Text) (line : Text → Text → Text) : Reply :=
  let lines := (c.contents operands).map fun (path, r) => match r with
    | .ok t => ((1, line path t) : Nat × Text)
    | .error e => (2, c.message (Call.faultText path e))
  { printed := lines
    status := if lines.all (·.1 == 1) then 0 else 1
    readsInput := Call.usesInput operands }

def cksum (c : Call) : Reply :=
  c.withOptions [] fun o => c.eachFile o.operands fun path t =>
    Text.ofNat (Digest.remainder t) ++ ' ' :: Text.ofNat t.length ++
      (if o.operands.isEmpty then [] else ' ' :: path) ++ ['\n']

def sum (c : Call) : Reply :=
  c.withOptions [flag 'r', flag 's' "sysv"] fun o => c.eachFile o.operands fun path t =>
    let named := if o.operands.isEmpty then [] else ' ' :: path
    let right (width : Nat) (t : Text) : Text := List.replicate (width - t.length) ' ' ++ t
    if o.lastOf? ['r', 's'] = some 's' then
      let total := t.foldl (fun n ch => n + ch.toNat) 0
      let r := total % 0x10000 + total % 0x100000000 / 0x10000
      Text.ofNat (r % 0x10000 + r / 0x10000) ++ ' ' :: Text.ofNat ((t.length + 511) / 512) ++ named ++ ['\n']
    else
      let shown := Text.ofNat (Digest.turned t)
      List.replicate (5 - shown.length) '0' ++ shown ++ ' ' :: right 5 (Text.ofNat ((t.length + 1023) / 1024)) ++
        named ++ ['\n']

/-- The digits of a notation for bytes: each stands for so many bits, and a number of them
make up whole bytes. -/
structure Notation64 where
  digits : Text
  bits : Nat
  group : Nat

namespace Notation64

def base64 : Notation64 :=
  ⟨"ABCDEFGHIJKLMNOPQRSTUVWXYZabcdefghijklmnopqrstuvwxyz0123456789+/".toList, 6, 4⟩

def base32 : Notation64 := ⟨"ABCDEFGHIJKLMNOPQRSTUVWXYZ234567".toList, 5, 8⟩

def bytes (n : Notation64) : Nat := n.bits * n.group / 8

def encode (n : Notation64) (t : Text) : Text :=
  (partsOf n.bytes t).flatMap fun part =>
    let value := Digest.ofBytes part <<< (8 * (n.bytes - part.length))
    let used := (8 * part.length + n.bits - 1) / n.bits
    (List.range n.group).map fun i =>
      if i < used then n.digits.getD ((value >>> (n.bits * (n.group - 1 - i))) % (1 <<< n.bits)) '='
      else '='

def decodeGroups (n : Notation64) : List Text → Text × Bool
  | [] => ([], true)
  | part :: rest =>
    let used := part.takeWhile (· != '=')
    let values := used.map n.digits.idxOf
    let value := values.foldl (fun v d => (v <<< n.bits) ||| d) 0
    let whole := used.length * n.bits / 8
    let shown := Digest.toBytes whole (value >>> (used.length * n.bits - 8 * whole))
    let isRight := part.length = n.group && (part.drop used.length).all (· == '=') &&
      values.all (· < n.digits.length) && !used.isEmpty && (used.length == n.group || rest.isEmpty)
    if isRight then
      let (more, ok) := n.decodeGroups rest
      (shown ++ more, ok)
    else if values.all (· < n.digits.length) then (shown, false)
    else ([], false)

end Notation64

def Call.inNotation (c : Call) (n : Notation64) : Reply :=
  c.withOptions [flag 'd' "decode", flag 'i' "ignore-garbage", valued 'w' "wrap"] fun o =>
    match o.operands with
    | _ :: extra :: _ => c.misused ("extra operand ".toList ++ Call.quoteAlways extra)
    | operands =>
      match natural? ((o.value? 'w').getD "76".toList) with
      | none => Reply.failed (c.name ++ ": invalid wrap size: ".toList ++ Call.quoteAlways ((o.value? 'w').getD []))
      | some width =>
        let path := operands.headD ['-']
        match c.content path with
        | .error .isDirectory => Reply.failed (c.name ++ ": read error: Is a directory".toList)
        | .error e => Reply.failed (c.name ++ ": ".toList ++ Call.faultText path e)
        | .ok t =>
          let reply : Reply :=
            if o.has 'd' then
              let kept := t.filter fun ch => if o.has 'i' then n.digits.contains ch || ch = '=' else ch != '\n'
              let (shown, ok) := n.decodeGroups (partsOf n.group kept)
              if ok then .ofText shown
              else { printed := [(1, shown), (2, c.message "invalid input")], status := 1 }
            else
              let shown := n.encode t
              .ofText (if width = 0 then shown else asLines (partsOf width shown))
          { reply with readsInput := Call.usesInput operands }

def base64 (c : Call) : Reply := c.inNotation .base64

def base32 (c : Call) : Reply := c.inNotation .base32

end Tool
end TypedCommand
