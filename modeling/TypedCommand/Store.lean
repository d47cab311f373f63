import TypedCommand.Registry.Format

/-!
The registry as it is kept: the text of a file, or no file yet. Each request reads the
file anew; only one that is carried out writes it. What a request has written stays
written also if it fails afterwards.
-/

namespace TypedCommand

abbrev Store := Option Text

namespace Store

/-- The registry that a store holds. Without a file it is empty. -/
def registry (store : Store) : Except RegistryError Registry :=
  match store with
  | none => .ok SortedMap.empty
  | some content => match Registry.Format.read? content with
    | some r => .ok r
    | none => .error .unreadable

def load (store : Store) (name : Text) : Except RegistryError Specification := do
  (← store.registry).load name

def list (store : Store) : Except RegistryError (List Specification) :=
  Registry.list <$> store.registry

/-- The specification that the words of a call belong to, and the words behind its
path. -/
def resolve (store : Store) (words : List Text) :
    Except RegistryError (Option (Specification × List Text)) := do
  return (← store.registry).resolve words

/-- The registry that is to be written for a specification to be saved. -/
def saving (store : Store) (s : Specification) (overwrite : Bool) :
    Except RegistryError Registry := do
  (← store.registry).save s overwrite

def removing (store : Store) (name : Text) : Except RegistryError (Specification × Registry) := do
  (← store.registry).remove name

abbrev Access := EStateM RegistryError Store

def write (r : Registry) : Access Unit := set (some (Registry.Format.write r) : Store)

def save (s : Specification) (overwrite : Bool) : Access Unit := do
  write (← liftExcept ((← get).saving s overwrite))

def remove (name : Text) : Access Specification := do
  let (s, r) ← liftExcept ((← get).removing name)
  write r
  return s

end Store
end TypedCommand
