import TypedCommand.Value

/-!
What can be wrong with a declaration. Each cause is a constructor; the wording is in
`Reason.message` and `DeclarationError.message`.
-/

namespace TypedCommand

inductive Reason
  | nestedBracket
  | bracketNotOpened
  | bracketNotClosed
  | quoteNotClosed
  | annotatedTwice
  | textAfterBracket
  | commandNameMissing
  | commandWordInvalid
  | wordAfterParameters
  | flagInvalid
  | flagWithoutMarker
  | flagOnVariadic
  | flagOnFlag
  | markerFlagInvalid
  | headFlagInvalid
  | textAfterDots
  | markerMissing
  | markerRepeated (marker : Text)
  | nameInvalid (name : Text)
  | nameNotDerivable (source : Text)
  | kindMissing
  | textAfterQuoted
  | defaultWithBlank
  | helpWithEquals
  | templateEmpty
deriving DecidableEq

inductive DeclarationError
  | malformed (fragment : Text) (reason : Reason)
  | unknownKind (name fragment : Text)
  | secondVariadic (fragment : Text)
  | repeatedName (name : Text)
  | unresolvedMarker (marker name template : Text)
  | invalidDefault (name : Text) (failure : ConversionFailure)
deriving DecidableEq

def Reason.message : Reason → Text
  | nestedBracket => "corchetes anidados"
  | bracketNotOpened => "']' sin '[' de apertura"
  | bracketNotClosed => "falta el ']' de cierre"
  | quoteNotClosed => "comillas sin cerrar en el valor por defecto"
  | annotatedTwice => "más de una anotación en la misma palabra"
  | textAfterBracket => "texto tras el cierre de la anotación"
  | commandNameMissing => "falta el nombre del comando"
  | commandWordInvalid => "el nombre del comando solo admite letras, dígitos, '_' y '-'"
  | wordAfterParameters => "palabra sin anotación después de los parámetros"
  | flagInvalid => "flag inválida"
  | flagWithoutMarker => "la opción no va seguida de un marcador anotado"
  | flagOnVariadic => "una opción no puede ser variádica"
  | flagOnFlag => "una flag no puede ser el marcador de otra opción"
  | markerFlagInvalid => "flag original inválida"
  | headFlagInvalid => "flag de usuario inválida"
  | textAfterDots => "tras '...' solo puede ir '#ayuda'"
  | markerMissing => "falta el marcador a la izquierda de '['"
  | markerRepeated marker => "el marcador " ++ marker.inQuotes ++ " ya está declarado"
  | nameInvalid name =>
    name.inQuotes ++ " no es un nombre válido (solo letras, dígitos y '_')"
  | nameNotDerivable source =>
    "no se puede derivar un nombre de " ++ source.inQuotes ++ "; indíquelo explícitamente"
  | kindMissing => "':' sin tipo"
  | textAfterQuoted => "texto tras el valor entrecomillado"
  | defaultWithBlank => "un valor por defecto con espacios debe ir entre comillas"
  | helpWithEquals => "'=' después de '#'"
  | templateEmpty => "el comando a envolver está vacío"

namespace DeclarationError

def message : DeclarationError → Text
  | malformed fragment reason =>
    "Anotación mal formada en " ++ fragment.inQuotes ++ ": " ++ reason.message ++ "."
  | unknownKind name fragment =>
    "Tipo " ++ name.inQuotes ++ " desconocido en " ++ fragment.inQuotes ++
      ". Tipos válidos: str, int, float, bool."
  | secondVariadic fragment =>
    "Solo se admite un parámetro variádico (...) por declaración; " ++ fragment.inQuotes ++
      " sería el segundo."
  | repeatedName name =>
    "El nombre de parámetro " ++ name.inQuotes ++ " está repetido en la declaración."
  | unresolvedMarker marker name template =>
    "El marcador " ++ marker.inQuotes ++ " del parámetro " ++ name.inQuotes ++
      " no aparece en el comando " ++ template.inQuotes ++ "."
  | invalidDefault name failure =>
    "Valor por defecto inválido para " ++ name.inQuotes ++ ": " ++ failure.message

def causes : DeclarationError → List Text
  | invalidDefault name failure => [(invalidDefault name failure).message, failure.message]
  | e => [e.message]

end DeclarationError
end TypedCommand
