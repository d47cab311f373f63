import TypedCommand.Tool.Call

/-!
What programs say whose standard input cannot be read or whose standard output cannot be
written: each of them finds out in its own way.
-/

namespace TypedCommand

namespace Tool

/-- The reply of a program that has found that its standard input cannot be read. What else it
has done stays done; `r` is its reply to an input that is empty. -/
def Call.refuse (c : Call) (fault : FileFault) (r : Reply) : Reply :=
  let said : Text := ": " ++ fault.text
  let line (t : Text) : Text := c.message (t ++ said)
  -- A descriptor that is closed is found out again when it is to be closed.
  let again (t : Text) : Text := if c.inputIsClosed then line t else []
  let shown := r.printed.flatMap fun e => if e.1 = 1 then e.2 else []
  let reply (before out after : Text) (status : Nat) : Reply :=
    { r with printed := [(2, before), (1, out), (2, after)], status }
  match String.ofList c.name with
  | "cat" => { r with printed := r.printed ++ [(2, again "closing standard input")] }
  | "head" => reply (line "error reading 'standard input'") [] (again ['-']) 1
  | "tail" =>
    reply (line (if c.inputIsClosed then "cannot fstat 'standard input'"
      else "error reading 'standard input'")) [] (again ['-']) 1
  | "wc" =>
    let counts := if c.inputIsClosed then [' '].intercalate (Text.words shown) ++ ['\n'] else shown
    reply (line "'standard input'") counts (again ['-']) 1
  | "od" => reply (line "'standard input'") shown (again "standard input") 1
  | "sort" =>
    reply (line (if c.inputIsClosed then "stat failed: -" else "read failed: -")) [] [] 2
  | "sed" => reply (line "read error on stdin") [] [] 4
  | "grep" | "egrep" | "fgrep" => reply ("grep: (standard input)".toList ++ said ++ ['\n']) [] [] 2
  | "tr" | "base32" | "base64" | "join" => reply (line "read error") [] [] 1
  | "factor" => reply (line "error reading input") [] [] 1
  | "tee" => reply (line "read error") [] (again "standard input") 1
  | "uniq" => reply (line "error reading '-'") [] [] 1
  | "comm" => reply (line ['-']) [] [] 1
  | "cmp" => reply (line ['-']) [] [] 2
  | "cut" | "expand" | "fold" | "nl" | "paste" => reply (line ['-']) [] (again ['-']) 1
  | "tac" =>
    let reason := if fault = .isDirectory then FileFault.invalid else fault
    reply (c.message ("'standard input': read error: " ++ reason.text)) [] (again ['-']) 1
  | name =>
    if name = "cksum" ∨ name.endsWith "sum" then reply (line ['-']) [] (again "standard input") 1
    else if name = "awk" then
      { printed := [(2, c.message ("read error (" ++ fault.text ++ [')']))], status := 2 }
    else r

def Call.unwritten (c : Call) (fault : WriteFault) : Text × Nat :=
  let said : Text := ": " ++ fault.text
  let common := c.message ("write error" ++ said)
  -- What has been open so far is found out before it is closed.
  let isOpen := fault ≠ .closed
  match String.ofList c.name with
  | "awk" => (c.message ("close failed on file \"/dev/stdout\" (" ++ fault.text ++ [')']), 2)
  | "env" => (common, 125)
  | "expr" | "tty" => (common, 3)
  | "find" =>
    (c.message ("'standard output'" ++ said) ++
      if isOpen then c.message "write error" else common, 1)
  | "grep" | "egrep" | "fgrep" => ("grep: write error".toList ++ said ++ ['\n'], 2)
  | "ls" | "printenv" => (common, 2)
  | "rev" => if fault = .full then (common, 1) else ([], 0)
  | "sed" => (c.message ((if isOpen then "couldn't flush stdout".toList
      else "couldn't close stdout") ++ said), 4)
  | "sort" => (c.message ("fflush failed: 'standard output'" ++ said) ++ c.message "write error", 2)
  | "tee" =>
    if fault = .broken then ([], 0) else (c.message ("'standard output'" ++ said), 1)
  | "which" => ("/usr/bin/which: 13: printf: printf: I/O error\n", 1)
  | "yes" => (c.message ("standard output" ++ said), 1)
  | name =>
    let isSum := name = "wc" ∨ name = "cksum" ∨ name.endsWith "sum"
    (if isOpen && isSum then c.message "write error" else common, 1)

def Call.answer (c : Call) (run : Call → Reply) : Reply :=
  match c.inputFault with
  | none => run c
  | some fault =>
    let r := run (if c.name = "cat".toList then c else { c with inputFault := none })
    if r.readsInput then c.refuse fault r else r

end Tool
end TypedCommand
