import TypedCommand.Arguments
import TypedCommand.Registry
import TypedCommand.Text.Literal

/-!
Why a run of the program fails, and how it says so: the failure itself, then what
caused it, one cause below the other.
-/

namespace TypedCommand

/-- Why there is no directory for the files of the program. -/
inductive DirectoryFault
  | unknown
  | notMade (path reason : Text)

def DirectoryFault.message : DirectoryFault → Text
  | unknown => "No se pudo encontrar el directorio de configuración del sistema."
  | notMade path reason =>
    "No se pudo crear el directorio de configuración en " ++ path.literal ++ ": " ++ reason

inductive Failure
  | noDirectory (fault : DirectoryFault)
  | inaccessible (reason : Text)
  | notMade (file reason : Text)
  | settingsUnreadable (file : Text)
  | registry (file : Text) (error : RegistryError)
  | declarationInvalid (declaration : Text) (error : DeclarationError)
  | declarationNotGiven
  | declarationOptionEmpty
  | templateNotGiven
  | notSaved (name : Text) (failure : Failure)
  | notConfirmed
  | shownNameNotGiven
  | removedNameNotGiven
  | unknownAction (word : Text)
  | unknownCommand (words : List Text)
  | callInvalid (synopsis : Text) (error : InvocationError)
  | notStarted (command reason : Text)
  | killed (command : Text)

namespace Failure

def documentInvalid : Text := "TOML parse error"

def terminalMissing : Text := "IO error: not a terminal"

def directoryCauses (fault : DirectoryFault) : List Text :=
  ("Error de rutas: " ++ fault.message) :: fault.message ::
    match fault with
    | .unknown => []
    | .notMade _ reason => [reason]

def registryCauses (file : Text) (e : RegistryError) : List Text :=
  match e with
  | .unreadable => [e.message file ++ ": " ++ documentInvalid, documentInvalid]
  | _ => [e.message file]

def causes : Failure → List Text
  | noDirectory fault => directoryCauses fault
  | inaccessible reason => ["Error de Ficheros: " ++ reason, reason]
  | notMade file reason => ["No se pudo crear " ++ file, reason]
  | settingsUnreadable file => registryCauses file .unreadable
  | registry file e => registryCauses file e
  | declarationInvalid declaration e =>
    ("Declaración inválida: " ++ declaration.inQuotes) :: e.causes
  | declarationNotGiven => ["No se pudo leer la declaración.", terminalMissing]
  | declarationOptionEmpty => ["La opción '-d' necesita una declaración."]
  | templateNotGiven => ["El comando 'ext add' requiere el comando a envolver."]
  | notSaved name failure =>
    ("No se pudo guardar la extensión " ++ name.inQuotes ++ ".") :: failure.causes
  | notConfirmed => ["No se pudo leer la confirmación.", terminalMissing]
  | shownNameNotGiven => ["El comando 'ext show' requiere el nombre de una extensión."]
  | removedNameNotGiven => ["El comando 'ext remove' requiere el nombre de una extensión."]
  | unknownAction word =>
    ["Acción desconocida " ++ (actionWord ++ ' ' :: word).inQuotes ++
      ". Usa: add, list, show, remove, edit o config."]
  | unknownCommand words =>
    ["No existe ninguna extensión para " ++ Text.inQuotes ([' '].intercalate words) ++
      ". Usa '" ++ rootWord ++ " ext list' para ver las registradas."]
  | callInvalid synopsis e => ("Uso: " ++ synopsis) :: e.causes
  | notStarted command reason =>
    ["El comando " ++ command.inQuotes ++ " no se pudo ejecutar: " ++ reason]
  | killed command =>
    ["El comando " ++ command.inQuotes ++ " finalizó con un código de error: None"]

/-- A cause: its first line behind a mark, its other lines below the first. -/
def indent (mark : Text) (cause : Text) : Text :=
  mark ++ (List.intercalate ('\n' :: List.replicate mark.length ' ') (cause.splitOn '\n'))

def causeLines : List Text → List Text
  | [cause] => [indent "    " cause]
  | causes => causes.zipIdx.map fun (cause, i) =>
    let number := Text.ofNat i
    indent (List.replicate (5 - number.length) ' ' ++ number ++ ": ") cause

def report (f : Failure) : Text :=
  match f.causes with
  | [] => []
  | [message] => "\nError: " ++ message ++ "\n"
  | message :: causes =>
    "\nError: " ++ message ++ "\n\nCaused by:\n" ++ ['\n'].intercalate (causeLines causes) ++
      "\n"

end Failure
end TypedCommand
