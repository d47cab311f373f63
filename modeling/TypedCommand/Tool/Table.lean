import TypedCommand.Tool.Account
import TypedCommand.Tool.Dump
import TypedCommand.Tool.Edit
import TypedCommand.Tool.Expression
import TypedCommand.Tool.Fields
import TypedCommand.Tool.Files
import TypedCommand.Tool.Find
import TypedCommand.Tool.Launcher
import TypedCommand.Tool.Lines
import TypedCommand.Tool.Order
import TypedCommand.Tool.Paths
import TypedCommand.Tool.Progression
import TypedCommand.Tool.Records
import TypedCommand.Tool.Say
import TypedCommand.Tool.Search

/-!
The small programs by their names.
-/

namespace TypedCommand

namespace Tool

def table : List (Text × (Call → Reply)) :=
  [("[", bracket), ("arch", arch), ("awk", awk), ("base32", base32), ("base64", base64),
    ("basename", basename), ("cat", cat), ("chmod", chmod), ("cksum", cksum), ("cmp", cmp), ("comm", comm),
    ("cp", cp), ("cut", cut), ("dirname", dirname), ("echo", echo),
    ("egrep", egrep), ("env", env), ("expand", expand), ("expr", expr), ("factor", factor),
    ("false", failing), ("fgrep", fgrep), ("find", find), ("fold", foldLines), ("grep", grep),
    ("groups", groups), ("head", head), ("id", accountNumbers), ("join", join), ("ln", ln), ("logname", logname), ("ls", ls),
    ("mkdir", mkdir), ("mv", mv), ("nice", nice), ("nl", nl), ("nohup", nohup), ("nproc", nproc), ("od", od),
    ("paste", paste), ("printenv", printenv), ("printf", printf), ("pwd", pwd),
    ("readlink", readlink), ("realpath", realpath), ("rev", rev), ("rm", rm), ("rmdir", rmdir),
    ("sed", sed), ("seq", seq), ("setsid", setsid), ("sleep", sleep), ("sort", sort),
    ("stat", stat), ("sum", sum), ("tac", tac), ("tail", tail), ("tee", tee), ("test", test),
    ("timeout", timeout), ("touch", touch), ("tr", tr), ("true", succeeding), ("truncate", truncate),
    ("tty", tty), ("uname", uname), ("uniq", uniq), ("unlink", unlink), ("wc", wc), ("which", which),
    ("whoami", whoami), ("xargs", xargs), ("yes", yes)].map
      (fun (name, run) => (String.toList name, run)) ++ digests

end Tool
end TypedCommand
