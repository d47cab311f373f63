import TypedCommand.Specification

/-!
The usage text of a specification: its synopsis, its template, a table of the
arguments, a table of the options, and the numbered steps of the plan. The columns of
a table are aligned by characters, and a line has no blanks at its end.
-/

namespace TypedCommand

namespace Usage

/-- A positional or variadic parameter in the synopsis: `<…>` if it is required. -/
def argumentLabel (p : Parameter) : Text :=
  if p.isVariadic then '[' :: p.name ++ "...]"
  else if p.isRequired then '<' :: p.name ++ ">"
  else '[' :: p.name ++ "]"

/-- The flags of an option, and its name in place of a value if it takes one. -/
def optionLabel (p : Parameter) : Text :=
  let flags := (p.flags?.map Flags.text).getD []
  if p.kind = .bool then flags else flags ++ " <" ++ p.name ++ ">"

def synopsis (s : Specification) : Text :=
  [' '].intercalate ([rootWord, s.commandName] ++
    (if s.options.isEmpty then [] else ["[OPCIONES]".toList]) ++
    s.arguments.map argumentLabel)

def row (width : Nat) (label : Text) (p : Parameter) : Text :=
  let default := match p.default with
    | some value => "  (defecto: " ++ value.text ++ ")"
    | none => []
  let help := match p.help with
    | some help => "  " ++ help
    | none => []
  Text.trimEnd Text.isBlank
    ("  " ++ label.padEnd width ++ "  " ++ p.kind.name.padEnd 5 ++ default ++ help)

def labelWidth (label : Parameter → Text) (ps : List Parameter) : Nat :=
  (ps.map (fun p => (label p).length)).foldl max 0

/-- A table of parameters under its heading, after an empty line; no parameters, no
table. -/
def table (heading : Text) (label : Parameter → Text) (ps : List Parameter) : List Text :=
  if ps.isEmpty then []
  else [] :: heading :: ps.map (fun p => row (labelWidth label ps) (label p) p)

def describe : Step → Text
  | .replace marker param => "reemplazar " ++ marker.inQuotes ++ " por " ++ param
  | .appendFlag flag param => "añadir " ++ flag.inQuotes ++ " con " ++ param
  | .captureRemaining (some marker) param =>
    "volcar " ++ param ++ " en " ++ marker.inQuotes
  | .captureRemaining none param => "añadir " ++ param ++ " al final"

def planLines (plan : List Step) : List Text :=
  if plan.isEmpty then []
  else [] :: "Plan:".toList ::
    plan.zipIdx.map (fun (step, i) => "  " ++ Text.ofNat (i + 1) ++ ". " ++ describe step)

def lines (s : Specification) : List Text :=
  ["Uso: " ++ synopsis s, [], "Comando:".toList, "  " ++ s.template] ++
    table "Argumentos:" argumentLabel s.arguments ++
    table "Opciones:" optionLabel s.options ++ planLines s.plan

def render (s : Specification) : Text := ['\n'].intercalate (lines s)

end Usage
end TypedCommand
