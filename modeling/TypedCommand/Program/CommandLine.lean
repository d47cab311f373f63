import TypedCommand.Registry
import TypedCommand.Shell.Quote
import TypedCommand.Program.Failure

/-!
What the words of a command line ask for. Options of the program itself stand before
the first other word; from there on every word belongs to an action or to a call.
-/

namespace TypedCommand

/-- The options in front of a command line, and the words behind them. -/
inductive CommandLine
  | help
  | version
  | misuse (word : Text)
  | call (dryRun : Bool) (words : List Text)

namespace CommandLine

/-- The options of the program that consist of a letter, in one word behind one dash:
the dry run so far or since, unless one of them ends the reading. -/
def readLetters (word : Text) (dryRun : Bool) : Text → Except CommandLine Bool
  | [] => .ok dryRun
  | 'n' :: rest => if dryRun then .error (.misuse word) else readLetters word true rest
  | 'h' :: _ => .error .help
  | 'V' :: _ => .error .version
  | _ => .error (.misuse word)

def isOptionLetter (c : Char) : Bool := c == 'n' || c == 'h' || c == 'V'

def readFrom (dryRun : Bool) : List Text → CommandLine
  | [] => .call dryRun []
  | word :: rest =>
    let name := word.takeWhile (· != '=')
    if word = "--".toList then .call dryRun rest
    else if ["--dry-run".toList, "--help".toList, "--version".toList].contains name then
      if name != word then .misuse word
      else if name = "--help".toList then .help
      else if name = "--version".toList then .version
      else if dryRun then .misuse word
      else readFrom true rest
    else match word with
      | '-' :: c :: letters =>
        if (c :: letters).all isOptionLetter then
          match readLetters word dryRun (c :: letters) with
          | .ok dryRun => readFrom dryRun rest
          | .error line => line
        else .call dryRun (word :: rest)
      | _ => .call dryRun (word :: rest)

def read (words : List Text) : CommandLine := readFrom false words

end CommandLine

inductive Request
  | list
  | add (force : Bool) (declaration : Option Text) (template : Text)
  | showUsage (name : Text)
  | remove (confirmed : Bool) (name : Text)
  | edit
  | configure
  | invoke (words : List Text)

namespace Request

def templateOf : List Text → Except Failure Text
  | [] => .error .templateNotGiven
  | [word] => .ok word
  | words => .ok (Shell.joinWords words)

/-- The action that adds a specification: its options stand before the template. -/
def readAdd (force : Bool) (declaration : Option Text) : List Text → Except Failure Request
  | [] => .error .templateNotGiven
  | word :: rest =>
    if word = "-f".toList ∨ word = "--force".toList then readAdd true declaration rest
    else if word = "-d".toList ∨ word = "--declaration".toList then
      match rest with
      | [] => .error .declarationOptionEmpty
      | value :: rest => readAdd force (some value) rest
    else if "--declaration=".toList.isPrefixOf word then
      readAdd force (some (word.drop "--declaration=".length)) rest
    else if word = "--".toList then (templateOf rest).map (.add force declaration)
    else (templateOf (word :: rest)).map (.add force declaration)

def readRemove (words : List Text) : Except Failure Request :=
  let isConfirmation (word : Text) : Bool := word == "-y".toList || word == "--yes".toList
  let name := words.filter (fun w => !isConfirmation w)
  if name.isEmpty then .error .removedNameNotGiven
  else .ok (.remove (words.any isConfirmation) ([' '].intercalate name))

def readAction : List Text → Except Failure Request
  | [] => .ok .list
  | word :: rest =>
    if word = "list".toList ∨ word = "ls".toList then .ok .list
    else if word = "add".toList then readAdd false none rest
    else if word = "show".toList then
      if rest.isEmpty then .error .shownNameNotGiven
      else .ok (.showUsage ([' '].intercalate rest))
    else if word = "remove".toList ∨ word = "rm".toList then readRemove rest
    else if word = "edit".toList then .ok .edit
    else if word = "config".toList then .ok .configure
    else .error (.unknownAction word)

def read : List Text → Except Failure Request
  | [] => .ok .list
  | word :: rest => if word = actionWord then readAction rest else .ok (.invoke (word :: rest))

end Request
end TypedCommand
