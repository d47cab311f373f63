import TypedCommand.Number.Integer

/-!
Signals: their names, their numbers, and what is said of a process that one of them has
ended.
-/

namespace TypedCommand

namespace Shell

namespace Signal

/-- The names of the signals, in the order of their numbers. The end of a shell has a name
among them, with the number zero. -/
def names : List Text :=
  ["EXIT", "HUP", "INT", "QUIT", "ILL", "TRAP", "ABRT", "BUS", "FPE", "KILL", "USR1", "SEGV",
    "USR2", "PIPE", "ALRM", "TERM", "16", "CHLD", "CONT", "STOP", "TSTP", "TTIN", "TTOU",
    "URG", "XCPU", "XFSZ", "VTALRM", "PROF", "WINCH", "IO", "PWR", "SYS"].map String.toList

def number? (name : Text) : Option Nat :=
  if Text.isDigits name then
    let n := Text.digitsValue name
    if n ≤ 64 then some n else none
  else names.findIdx? (· == name.map Char.toUpper)

def name (n : Nat) : Text :=
  match names[n]? with
  | some t => t
  | none =>
    if n = 34 then "RTMIN"
    else if n = 64 then "RTMAX"
    else if 34 < n && n < 50 then "RTMIN+" ++ Text.ofNat (n - 34)
    else if 50 ≤ n && n < 64 then "RTMAX-" ++ Text.ofNat (64 - n)
    else Text.ofNat n

def isIgnored (n : Nat) : Bool := n == 0 || n == 17 || n == 18 || n == 23 || n == 28

def report (n : Nat) : Text :=
  match n with
  | 1 => "Hangup"
  | 2 => []
  | 3 => "Quit"
  | 4 => "Illegal instruction"
  | 5 => "Trace/breakpoint trap"
  | 6 => "Aborted"
  | 7 => "Bus error"
  | 8 => "Floating point exception"
  | 9 => "Killed"
  | 10 => "User defined signal 1"
  | 11 => "Segmentation fault"
  | 12 => "User defined signal 2"
  | 13 => []
  | 14 => "Alarm clock"
  | 15 => "Terminated"
  | 16 => "Stack fault"
  | 24 => "CPU time limit exceeded"
  | 25 => "File size limit exceeded"
  | 26 => "Virtual timer expired"
  | 27 => "Profiling timer expired"
  | 29 => "I/O possible"
  | 30 => "Power failure"
  | 31 => "Bad system call"
  | n => "Real-time signal " ++ Text.ofNat (n - 34)

def description (n : Nat) : Text :=
  match n with
  | 2 => "Interrupt"
  | 13 => "Broken pipe"
  | n => report n

end Signal

end Shell
end TypedCommand
