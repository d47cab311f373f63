import TypedCommand.Registry
import TypedCommand.Toml.Document

/-!
The registry as a TOML document: one table for each specification, below it the tables
of its parameters and of the steps of its plan. What is written is read back as it was;
reading also takes documents written by hand.
-/

namespace TypedCommand

open Toml (Node Scalar Statement Entries)

namespace Registry.Format

def scalarOf : Value → Scalar
  | .str t => .string t
  | .int n => .integer n.toInt
  | .float x => .float x
  | .bool b => .boolean b

def pair (key : Text) (value : Scalar) : Statement := .pair [key] (.scalar value)

def textPair (key value : Text) : Statement := pair key (.string value)

def optionalText (key : Text) : Option Text → List Statement
  | some value => [textPair key value]
  | none => []

def patternName : Pattern → Text
  | .positional => "positional_replace"
  | .option _ => "option_replace"
  | .forwarded _ => "option_alias_append"
  | .variadic => "varargs"

def ofPattern (path : List Text) (p : Pattern) : List Statement :=
  [.header (path ++ ["kind".toList]), textPair "pattern" (patternName p)] ++
    match p.flags? with
    | none => []
    | some flags =>
      .header (path ++ ["kind".toList, "flags".toList]) ::
        (optionalText "short" flags.short ++ optionalText "long" flags.long)

def ofParameter (path : List Text) (p : Parameter) : List Statement :=
  let path := path ++ ["parameters".toList]
  [.arrayHeader path, textPair "name" p.name, textPair "marker" p.marker,
      textPair "type" p.kind.name] ++
    (p.default.toList.map fun v => pair "default" (scalarOf v)) ++
    optionalText "help" p.help ++ ofPattern path p.pattern

def stepPairs : Step → List Statement
  | .replace marker param =>
    [textPair "op" "replace", textPair "marker" marker, textPair "param" param]
  | .appendFlag flag param =>
    [textPair "op" "append_flag", textPair "flag" flag, textPair "param" param]
  | .captureRemaining marker param =>
    textPair "op" "capture_remaining" :: optionalText "marker" marker ++ [textPair "param" param]

def ofStep (path : List Text) (s : Step) : List Statement :=
  .arrayHeader (path ++ ["plan".toList]) :: stepPairs s

def emptyList {α : Type} (key : Text) (items : List α) : List Statement :=
  if items.isEmpty then [.pair [key] (.array [])] else []

def ofSpecification (path : List Text) (s : Specification) : List Statement :=
  [textPair "command_name" s.commandName, textPair "template" s.template] ++
    emptyList "parameters" s.parameters ++ emptyList "plan" s.plan ++
    s.parameters.flatMap (ofParameter path) ++ s.plan.flatMap (ofStep path)

def rootKey : Text := "extensions"

def statements (r : Registry) : List Statement :=
  if r.entries.isEmpty then [.header [rootKey]]
  else r.entries.flatMap fun (name, s) =>
    .header [rootKey, name] :: ofSpecification [rootKey, name] s

def write (r : Registry) : Text := Toml.writeDocument (statements r)

def writeSpecification (s : Specification) : Text := Toml.writeDocument (ofSpecification [] s)

/-- The fields of a record: by name from a table, by place from an array. A date or
time is a record without fields. Further entries of a table are looked at, further
items of an array are not. -/
def fields? (names : List Text) : Node → Option (Text → Option Node)
  | .table _ entries =>
    if Entries.isReadableBeside names entries then some (Entries.get? entries) else none
  | .array items => some fun key => items[names.idxOf key]?
  | .tables items => some fun key => (items[names.idxOf key]?).map (.table .header)
  | .scalar .dateTime => some fun _ => none
  | .scalar _ => none

/-- A node that can be kept before its kind is known: its integers have 64 bits. -/
def kept? (node : Node) : Option Node := if node.all Scalar.isNarrow then some node else none

def fits (names : List Text) : Node → Bool
  | .array items => items.length ≤ names.length
  | .tables items => items.length ≤ names.length
  | _ => true

def exactFields? (names : List Text) (node : Node) : Option (Text → Option Node) :=
  if fits names node then fields? names node else none

def text? : Node → Option Text
  | .scalar (.string t) => some t
  | _ => none

def required (get : Text → Option Node) (key : Text) : Option Text := get key >>= text?

def optional (get : Text → Option Node) (key : Text) : Option (Option Text) :=
  match get key with
  | some node => (text? node).map some
  | none => some none

def items (get : Text → Option Node) (key : Text) : Option (List Node) :=
  match get key with
  | none => some []
  | some (.array items) => some items
  | some (.tables items) => some (items.map (.table .header))
  | some _ => none

/-- A kind by its name, which can also be the only key of a table with nothing in it. -/
def kind? : Node → Option Kind
  | .scalar (.string name) => Kind.ofName? name
  | .table _ [(name, .table _ [])] => Kind.ofName? name
  | .table _ [(name, .array [])] => Kind.ofName? name
  | _ => none

/-- A value by its form in the document. An integer beyond 64 bits with a sign becomes
a number with a point, as far as 64 bits without a sign go. -/
def value? : Node → Option Value
  | .scalar (.string t) => some (.str t)
  | .scalar (.integer n) =>
    if Text.isInt64 n then some (.int (Int64.ofInt n))
    else if 0 ≤ n ∧ n < 0x10000000000000000 then some (.float (Binary64.nearest false n.toNat 1))
    else none
  | .scalar (.float x) => some (.float x)
  | .scalar (.boolean b) => some (.bool b)
  | _ => none

def flags? (node : Node) : Option Flags := do
  let get ← exactFields? ["short".toList, "long".toList] node
  return { short := ← optional get "short", long := ← optional get "long" }

def pattern? (node : Node) : Option Pattern := do
  let node ← kept? node
  let get ← fields? ["pattern".toList] node
  let name ← required get "pattern"
  if name = "positional_replace".toList then
    if fits ["pattern".toList] node then some .positional else none
  else if name = "varargs".toList then
    if fits ["pattern".toList] node then some .variadic else none
  else do
    let get ← exactFields? ["pattern".toList, "flags".toList] node
    let flags ← get "flags" >>= flags?
    if name = "option_replace".toList then some (.option flags)
    else if name = "option_alias_append".toList then some (.forwarded flags)
    else none

def parameter? (node : Node) : Option Parameter := do
  let get ← fields? ["name".toList, "marker".toList, "type".toList, "default".toList,
    "help".toList, "kind".toList] node
  return {
    name := ← required get "name"
    marker := ← required get "marker"
    kind := ← match get "type" with
      | some node => kind? node
      | none => some .str
    default := ← match get "default" with
      | some node => (value? node).map some
      | none => some none
    help := ← optional get "help"
    pattern := ← get "kind" >>= pattern? }

def step? (node : Node) : Option Step := do
  let node ← kept? node
  let get ← fields? ["op".toList] node
  let name ← required get "op"
  if name = "replace".toList then do
    let get ← exactFields? ["op".toList, "marker".toList, "param".toList] node
    return .replace (← required get "marker") (← required get "param")
  else if name = "append_flag".toList then do
    let get ← exactFields? ["op".toList, "flag".toList, "param".toList] node
    return .appendFlag (← required get "flag") (← required get "param")
  else if name = "capture_remaining".toList then do
    let get ← exactFields? ["op".toList, "marker".toList, "param".toList] node
    return .captureRemaining (← optional get "marker") (← required get "param")
  else none

def specification? (node : Node) : Option Specification := do
  let get ← fields? ["command_name".toList, "template".toList, "parameters".toList,
    "plan".toList] node
  return {
    commandName := ← required get "command_name"
    template := ← required get "template"
    parameters := ← items get "parameters" >>= List.mapM parameter?
    plan := ← items get "plan" >>= List.mapM step? }

def registry? (document : Entries) : Option Registry :=
  if document.isReadableBeside [rootKey] then
    match document.get? rootKey with
    | none => some SortedMap.empty
    | some (.table _ entries) => do
      let specs ← entries.mapM fun (name, node) => return (name, ← specification? node)
      return SortedMap.ofList specs
    | some _ => none
  else none

def read? (t : Text) : Option Registry := Toml.read? t >>= registry?

end Registry.Format
end TypedCommand
