import TypedCommand.Number.Arithmetic
import TypedCommand.Regex

/-!
A language for records and their fields: terms that give a value, statements, and rules that
say for which records statements are done.
-/

namespace TypedCommand

namespace Tool

namespace Records

inductive Relation
  | less
  | atMost
  | same
  | other
  | atLeast
  | greater

def Relation.holds : Relation → Ordering → Bool
  | less, o => o == .lt
  | atMost, o => o != .gt
  | same, o => o == .eq
  | other, o => o != .eq
  | atLeast, o => o != .lt
  | greater, o => o == .gt

inductive Term
  | number (x : Binary64)
  | text (t : Text)
  /-- A match of the record. -/
  | regex (r : Regex)
  | named (name : Text)
  | item (array : Text) (keys : List Term)
  | field (index : Term)
  | negation (e : Term)
  | opposite (e : Term)
  | numeric (e : Term)
  | computed (op : Char) (a b : Term)
  | joined (a b : Term)
  | compared (r : Relation) (a b : Term)
  | like (expected : Bool) (subject pattern : Term)
  | both (a b : Term)
  | either (a b : Term)
  | choice (condition a b : Term)
  | contains (keys : List Term) (array : Text)
  | assigned (op : Option Char) (target value : Term)
  | stepped (op : Char) (givesOld : Bool) (target : Term)
  | call (name : Text) (arguments : List Term)
  | builtin (name : Text) (arguments : List Term)
  | readsInput (target : Option Term)
  | readsFile (target : Option Term) (file : Term)
  | readsCommand (command : Term) (target : Option Term)

def Term.isTarget : Term → Bool
  | named _ => true
  | item _ _ => true
  | field _ => true
  | _ => false

inductive Destination
  | file (t : Term)
  | extended (t : Term)
  | command (t : Term)

inductive Statement
  | term (e : Term)
  | print (isFormatted : Bool) (arguments : List Term) (into : Option Destination)
  | sequence (a b : Statement)
  | nothing
  | choice (condition : Term) (a b : Statement)
  /-- A loop with its step; the body comes before the condition the first time or not. -/
  | loop (isBodyFirst : Bool) (condition : Option Term) (step body : Statement)
  | each (name array : Text) (body : Statement)
  | next
  | nextFile
  | exit (status : Option Term)
  | give (value : Option Term)
  | stopLoop
  | nextTurn
  | delete (array : Text) (keys : Option (List Term))

inductive Selector
  | atFirst
  | atLast
  | all
  | when (e : Term)
  | between (first last : Term)

structure Rule where
  selector : Selector
  body : Statement

structure Function where
  name : Text
  parameters : List Text
  body : Statement

structure Script where
  rules : List Rule := []
  functions : List Function := []

def Script.function? (s : Script) (name : Text) : Option Function := s.functions.find? (·.name == name)

end Records
end Tool
end TypedCommand
