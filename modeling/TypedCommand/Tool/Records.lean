import TypedCommand.Tool.Records.Evaluation

/-!
A program that runs a script over records: the script and what it begins with stand among
the arguments, before the files that are read.
-/

namespace TypedCommand

namespace Tool

namespace Records

structure Settings where
  separator : Option Text := none
  assignments : List (Text × Text) := []
  script : Option Text := none
  files : List Text := []

def Settings.read (c : Call) : Nat → Settings → List Text → Except Text Settings
  | 0, s, ws => .ok { s with files := ws }
  | _, s, [] => .ok s
  | n + 1, s, w :: rest =>
    match w with
    | ['-', '-'] => .ok { s with files := rest }
    | '-' :: letter :: more =>
      if "Fvf".toList.contains letter then
        match if more.isEmpty then rest else more :: rest with
        | [] => .error ("option -".toList ++ letter :: " lacks argument".toList)
        | value :: rest =>
          if letter = 'F' then read c n { s with separator := some (unescaped (value.length + 1) value) } rest
          else if letter = 'v' then
            match Act.assignment? value with
            | some a => read c n { s with assignments := s.assignments ++ [a] } rest
            | none => .error ("improper assignment: -v ".toList ++ value)
          else
            match if value = ['-'] || value = "/dev/stdin".toList then .ok c.input
              else c.files.read c.directory value with
            | .ok t => read c n { s with script := some ((s.script.getD []) ++ t ++ ['\n']) } rest
            | .error fault =>
              .error ("cannot open \"".toList ++ value ++ "\" (".toList ++ fault.text ++ [')'])
      else .error ("not an option: ".toList ++ w)
    | _ => .ok { s with files := w :: rest }

def Settings.state (s : Settings) (c : Call) : State :=
  let arguments := c.name :: s.files
  let text (name value : String) : Text × Value := (name.toList, .text value.toList)
  { files := c.files
    directory := c.directory
    input := c.input
    inputIsCut := c.inputIsCut
    globals := SortedMap.ofList
      [text "OFS" " ", text "ORS" "\n", text "RS" "\n", text "SUBSEP" "\x1c", text "CONVFMT" "%.6g",
        text "OFMT" "%.6g", ("FS".toList, .text (s.separator.getD [' '])), ("NR".toList, .ofNat 0),
        ("FNR".toList, .ofNat 0), ("ARGC".toList, .ofNat arguments.length)]
    arrays := SortedMap.ofList
      [("ENVIRON".toList, ⟨true, c.bindings.entries.map fun (name, value) => (name, .given value)⟩),
        ("ARGV".toList, ⟨false, ((List.range arguments.length).zip arguments).map fun (i, w) =>
          (Text.ofNat i, .given w)⟩)] }

def procedure (c : Call) (s : Settings) (script : Script) : Procedure :=
  let act : Act Unit := do
    s.assignments.forM fun (name, value) => Act.assign name value
    Act.runScript script
  let shown (st : State) (next : Procedure) : Procedure :=
    st.pending.foldl (fun next (descriptor, t) => .shows descriptor t fun _ => next) next
  act (s.state c) (fun st _ => shown st (.ended st.status)) fun st stop =>
    match stop with
    | .failed said => shown st (.shows 2 (c.message said) fun _ => .ended 2)
    | _ => shown st (.ended st.status)

end Records

open Records in
def awk (c : Call) : Reply :=
  match Settings.read c (c.arguments.length + 1) {} c.arguments with
  | .error said => Reply.failed (c.name ++ ": " ++ said) 2
  | .ok s =>
    let (source, s) : Text × Settings := match s.script with
      | some t => (t, s)
      | none => (s.files.headD [], { s with files := s.files.drop 1 })
    match Script.read source with
    | .error fault =>
      let place : Text := if fault.line = 0 then [] else "line ".toList ++ Text.ofNat fault.line ++ ": ".toList
      Reply.failed (c.name ++ ": " ++ place ++ fault.said) 2
    | .ok script =>
      let readsInput := Act.readsRecords script &&
        (s.files.all (fun w => (Act.assignment? w).isSome) || s.files.contains ['-'])
      { readsInput, sequel := some { procedure := procedure c s script } }

end Tool
end TypedCommand
