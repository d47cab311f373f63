import TypedCommand.Specification
import TypedCommand.SortedMap

/-!
The registered specifications, by name. No path is a front of another, so the words of
a call belong to one specification at most; the word for the built-in actions begins no
path.
-/

namespace TypedCommand

abbrev Registry := SortedMap Specification

def actionWord : Text := "ext"

/-- What keeps a request on the registry from being carried out. -/
inductive RegistryError
  | unreadable
  | alreadyExists (name : Text)
  | pathConflict (name existing : Text)
  | reservedName (word : Text)
  | notFound (name : Text)
deriving DecidableEq

def RegistryError.message (file : Text) : RegistryError → Text
  | unreadable => "Error al parsear TOML en " ++ file.inQuotes
  | alreadyExists name =>
    "La extensión " ++ name.inQuotes ++ " ya existe. Usa --force para reemplazarla."
  | pathConflict name existing =>
    "La extensión " ++ name.inQuotes ++ " choca con la ya registrada " ++ existing.inQuotes ++ "."
  | reservedName word =>
    word.inQuotes ++ " es una acción integrada y no puede iniciar el nombre de una extensión."
  | notFound name => "No existe ninguna extensión llamada " ++ name.inQuotes ++ "."

namespace Registry

/-- Whether a new specification can stand beside a registered one. An equal path is
let through only to be replaced. -/
def checkAgainst (s : Specification) (overwrite : Bool) (existing : Specification) :
    Except RegistryError Unit :=
  if existing.path = s.path then
    if overwrite then .ok () else .error (.alreadyExists s.commandName)
  else if s.path.isPrefixOf existing.path || existing.path.isPrefixOf s.path then
    .error (.pathConflict s.commandName existing.commandName)
  else .ok ()

def check (r : Registry) (s : Specification) (overwrite : Bool) : Except RegistryError Unit :=
  if s.path.head? = some actionWord then .error (.reservedName actionWord)
  else r.values.forM (checkAgainst s overwrite)

def save (r : Registry) (s : Specification) (overwrite : Bool) :
    Except RegistryError Registry := do
  r.check s overwrite
  return r.insert s.commandName s

def load (r : Registry) (name : Text) : Except RegistryError Specification :=
  match r.get? name.unify with
  | some s => .ok s
  | none => .error (.notFound name)

def remove (r : Registry) (name : Text) : Except RegistryError (Specification × Registry) :=
  (r.load name).map fun s => (s, r.erase name.unify)

def list (r : Registry) : List Specification := r.values

/-- The specification with the longest path that begins the given words, and the words
behind it. Of equally long paths the last counts. -/
def resolve (r : Registry) (words : List Text) : Option (Specification × List Text) :=
  (r.list.filter (fun s => s.path.isPrefixOf words)).foldl (fun best s =>
    match best with
    | some (b, _) =>
      if s.path.length < b.path.length then best else some (s, words.drop s.path.length)
    | none => some (s, words.drop s.path.length)) none

end Registry
end TypedCommand
