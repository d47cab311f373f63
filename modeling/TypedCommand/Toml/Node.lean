import TypedCommand.Toml.Scalar

/-!
The tree of a TOML document, and the statements that build it. A header opens a table,
or one more table of an array of them; the pairs after it go into that table. A table
is defined once: what may still be added to it depends on how it came about.
-/

namespace TypedCommand

namespace Toml

inductive Origin
  /-- By a header of its own, or as the document itself. -/
  | header
  /-- On the way to a header below it. -/
  | implied
  /-- On the way to the key of a pair. -/
  | dotted
  /-- Between braces; nothing is added to it. -/
  | inline
deriving DecidableEq

/-- A value of a document. The tables of an array of tables are kept by their entries. -/
inductive Node
  | scalar (value : Scalar)
  | array (items : List Node)
  | tables (items : List (List (Text × Node)))
  | table (origin : Origin) (entries : List (Text × Node))

mutual

def Node.all (p : Scalar → Bool) : Node → Bool
  | .scalar value => p value
  | .array items => allItems p items
  | .tables items => allTables p items
  | .table _ entries => allEntries p entries

def Node.allItems (p : Scalar → Bool) : List Node → Bool
  | [] => true
  | item :: rest => item.all p && allItems p rest

def Node.allTables (p : Scalar → Bool) : List (List (Text × Node)) → Bool
  | [] => true
  | entries :: rest => allEntries p entries && allTables p rest

def Node.allEntries (p : Scalar → Bool) : List (Text × Node) → Bool
  | [] => true
  | (_, value) :: rest => value.all p && allEntries p rest

end

/-- The entries of a table, in the order in which they were made. -/
abbrev Entries := List (Text × Node)

inductive Statement
  | header (path : List Text)
  | arrayHeader (path : List Text)
  | pair (path : List Text) (value : Node)

namespace Entries

def get? (entries : Entries) (key : Text) : Option Node :=
  (entries.find? (fun e => e.1 == key)).map Prod.snd

def isReadableBeside (names : List Text) (entries : Entries) : Bool :=
  entries.all fun e => names.contains e.1 || e.2.all Scalar.isReadable

/-- Puts a value under a key, at the place of an earlier one or at the end. -/
def put (key : Text) (value : Node) : Entries → Entries
  | [] => [(key, value)]
  | (k, v) :: rest => if k = key then (key, value) :: rest else (k, v) :: put key value rest

/-- Changes the table at the end of a path of keys. Tables missing on the way are made
with the origin `made`; of an array of tables the last one is meant. A table made by a
header is closed to the keys of pairs, and one between braces to everything. -/
def modifyAt (made : Origin) (change : Origin → Entries → Option Entries) :
    List Text → Origin → Entries → Option Entries
  | [], origin, entries => change origin entries
  | key :: path, _, entries =>
    match entries.get? key with
    | none => do
      let below ← modifyAt made change path made []
      return entries.put key (.table made below)
    | some (.table origin below) =>
      if origin = .inline ∨ (made = .dotted ∧ origin = .header) then none
      else do
        let below ← modifyAt made change path origin below
        return entries.put key (.table origin below)
    | some (.tables items) => match items.getLast? with
      | none => none
      | some last => do
        let last ← modifyAt made change path .header last
        return entries.put key (.tables (items.dropLast ++ [last]))
    | some _ => none

/-- A table opened by a header: a new one, or one that headers below it implied. -/
def openTable (key : Text) (entries : Entries) : Option Entries :=
  match entries.get? key with
  | none => some (entries.put key (.table .header []))
  | some (.table .implied below) => some (entries.put key (.table .header below))
  | some _ => none

def openItem (key : Text) (entries : Entries) : Option Entries :=
  match entries.get? key with
  | none => some (entries.put key (.tables [[]]))
  | some (.tables items) => some (entries.put key (.tables (items ++ [[]])))
  | some _ => none

/-- A pair whose key has the given front and last part. The key is new, and a front
leads to a table that came about by such fronts alone. -/
def insertPair (front : List Text) (key : Text) (value : Node) (origin : Origin)
    (entries : Entries) : Option Entries :=
  modifyAt .dotted (fun origin entries =>
    if (front.isEmpty || origin == .dotted) && (entries.get? key).isNone then
      some (entries.put key value)
    else none) front origin entries

/-- The entries after one more statement; `here` is the path of the last header. -/
def add (here : List Text) (entries : Entries) : Statement → Option (List Text × Entries)
  | .header path => do
    let key ← path.getLast?
    let entries ← modifyAt .implied (fun _ => openTable key) path.dropLast .header entries
    return (path, entries)
  | .arrayHeader path => do
    let key ← path.getLast?
    let entries ← modifyAt .implied (fun _ => openItem key) path.dropLast .header entries
    return (path, entries)
  | .pair path value => do
    let key ← path.getLast?
    let entries ← modifyAt .implied (insertPair path.dropLast key value) here .header entries
    return (here, entries)

def ofStatements (statements : List Statement) : Option Entries :=
  (statements.foldlM (fun state s => add state.1 state.2 s) ([], [])).map Prod.snd

end Entries
end Toml
end TypedCommand
