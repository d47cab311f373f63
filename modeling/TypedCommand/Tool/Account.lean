import TypedCommand.Tool.Call

/-!
Programs that say who runs them, and where. There is one account, whose number is zero.
-/

namespace TypedCommand

namespace Tool

def accountName : Text := "root"

def plainAnswer (answer : Text) (c : Call) : Reply :=
  c.withOptions [] fun o =>
    match o.operands with
    | [] => .ofText (answer ++ ['\n'])
    | w :: _ => c.misused ("extra operand " ++ Text.inQuotes w)

def whoami (c : Call) : Reply := plainAnswer accountName c

def arch (c : Call) : Reply := plainAnswer "x86_64" c

def logname (c : Call) : Reply :=
  c.withOptions [] fun o =>
    match o.operands with
    | [] => Reply.failed (c.name ++ ": no login name")
    | w :: _ => c.misused ("extra operand " ++ Text.inQuotes w)

def tty (c : Call) : Reply :=
  c.withOptions [flag 's' "silent", flag 's' "quiet"] (fun o =>
    match o.operands with
    | [] => { printed := if o.has 's' then [] else [(1, "not a tty\n")], status := 1 }
    | w :: _ => c.misused ("extra operand " ++ Text.inQuotes w) 2) 2

def nproc (c : Call) : Reply :=
  c.withOptions [flag 'a' "all", valued 'i' "ignore"] fun o =>
    match o.operands with
    | [] => .ofText "1\n"
    | w :: _ => c.misused ("extra operand " ++ Text.inQuotes w)

def accountNumbers (c : Call) : Reply :=
  c.withOptions [flag 'u' "user", flag 'g' "group", flag 'G' "groups", flag 'n' "name", flag 'r' "real",
      flag 'z' "zero", flag 'a', flag 'Z' "context"] fun o =>
    let one := o.has 'u' || o.has 'g' || o.has 'G'
    if 1 < ("ugG".toList.filter o.has).length then
      Reply.failed (c.name ++ ": cannot print \"only\" of more than one choice")
    else if !one && (o.has 'n' || o.has 'r') then
      Reply.failed (c.name ++ ": cannot print only names or real IDs in default format")
    else if !one && o.has 'z' then
      Reply.failed (c.name ++ ": option --zero not permitted in default format")
    else
      let shown : Text :=
        if one then (if o.has 'n' then accountName else "0")
        else "uid=0(root) gid=0(root) groups=0(root)"
      let line := shown ++ [if o.has 'z' then Char.ofNat 0 else '\n']
      let answer (w : Text) : Nat × Text :=
        if w = accountName || w = ['0'] then (1, line)
        else (2, c.message (Call.quoteAlways w ++ ": no such user"))
      let printed := if o.operands.isEmpty then [(1, line)] else o.operands.map answer
      { printed, status := if printed.any (·.1 == 2) then 1 else 0 }

def groups (c : Call) : Reply :=
  c.withOptions [] fun o =>
    if o.operands.isEmpty then .ofText (accountName ++ ['\n'])
    else
      let printed : List (Nat × Text) := o.operands.map fun w =>
        if w = accountName then (1, accountName ++ " : ".toList ++ accountName ++ ['\n'])
        else (2, c.message (Call.quoteAlways w ++ ": no such user"))
      { printed, status := if printed.any (·.1 == 2) then 1 else 0 }

def uname (c : Call) : Reply :=
  c.withOptions [flag 'a' "all", flag 's' "kernel-name", flag 'n' "nodename", flag 'r' "kernel-release",
      flag 'v' "kernel-version", flag 'm' "machine", flag 'p' "processor", flag 'i' "hardware-platform",
      flag 'o' "operating-system"] fun o =>
    match o.operands with
    | w :: _ => c.misused ("extra operand " ++ Text.inQuotes w)
    | [] =>
      let parts : List (Char × String) := [('s', "Linux"), ('n', "localhost"), ('r', "6.1.0"),
        ('v', "#1 SMP"), ('m', "x86_64"), ('p', "x86_64"), ('i', "x86_64"), ('o', "GNU/Linux")]
      let wanted := parts.filter fun (l, _) =>
        o.has l || (o.has 'a' && l != 'p' && l != 'i') || (o.options.isEmpty && l == 's')
      .ofText ([' '].intercalate (wanted.map fun e => e.2.toList) ++ ['\n'])

end Tool
end TypedCommand
