import TypedCommand.FileTree

/-!
Patterns for texts and for paths. A pattern is a text in which some characters have a
meaning: a star stands for any text, a question mark for any character, and brackets for
any of the characters in them. A character without its meaning stands for itself.
-/

namespace TypedCommand

namespace Shell

abbrev Pattern := List (Char × Bool)

namespace Pattern

def classNamed (name : Text) (c : Char) : Bool :=
  let n := c.toNat
  let punctuation := 0x21 ≤ n && n ≤ 0x7E && !c.isAlphanum
  match String.ofList name with
  | "alpha" => c.isAlpha
  | "digit" => c.isDigit
  | "alnum" => c.isAlphanum
  | "upper" => c.isUpper
  | "lower" => c.isLower
  | "space" => n == 0x20 || (9 ≤ n && n ≤ 13)
  | "blank" => c == ' ' || c == '\t'
  | "punct" => punctuation
  | "print" => 0x20 ≤ n && n ≤ 0x7E
  | "graph" => 0x21 ≤ n && n ≤ 0x7E
  | "cntrl" => n < 0x20 || n == 0x7F
  | "xdigit" => c.isDigit || ('a' ≤ c && c ≤ 'f') || ('A' ≤ c && c ≤ 'F')
  | _ => false

inductive Member
  | range (first last : Char)
  | named (name : Text)

def Member.has (c : Char) : Member → Bool
  | .range first last => first ≤ c && c ≤ last
  | .named name => classNamed name c

inductive Step
  | char (c : Char)
  | one
  | many
  | set (negated : Bool) (members : List Member)

def takeClass? (t : Pattern) : Option (Text × Pattern) :=
  let name := (t.takeWhile (fun e => e.1.isAlpha)).map Prod.fst
  match t.drop name.length with
  | (':', _) :: (']', _) :: rest => some (name, rest)
  | _ => none

/-- The members of a set, and what follows its closing bracket, when the set is empty so
far or not. -/
def takeMembers : Nat → Bool → Pattern → Option (List Member × Pattern)
  | 0, _, _ => none
  | _, _, [] => none
  | n + 1, isFirst, (c, active) :: rest =>
    let item (m : Member) (rest : Pattern) : Option (List Member × Pattern) :=
      (takeMembers n false rest).map fun (ms, after) => (m :: ms, after)
    if c = ']' && active && !isFirst then some ([], rest)
    else
      let named := match rest with
        | (':', _) :: inside => if c = '[' && active then takeClass? inside else none
        | _ => none
      match named with
      | some (name, after) => item (.named name) after
      | none => match rest with
        | ('-', true) :: (d, a) :: after =>
          if d = ']' && a then item (.range c c) rest else item (.range c d) after
        | _ => item (.range c c) rest

def takeSet? (p : Pattern) : Option (Step × Pattern) :=
  let (negated, p) := match p with
    | ('!', true) :: rest => (true, rest)
    | ('^', true) :: rest => (true, rest)
    | p => (false, p)
  (takeMembers (p.length + 1) true p).map fun (ms, rest) => (.set negated ms, rest)

def stepsUpTo : Nat → Pattern → List Step
  | 0, _ => []
  | _, [] => []
  | n + 1, (c, active) :: rest =>
    if !active then .char c :: stepsUpTo n rest
    else if c = '*' then .many :: stepsUpTo n rest
    else if c = '?' then .one :: stepsUpTo n rest
    else if c = '[' then
      match takeSet? rest with
      | some (step, after) => step :: stepsUpTo n after
      | none => .char c :: stepsUpTo n rest
    else if c = '\\' then
      match rest with
      | (d, _) :: after => .char d :: stepsUpTo n after
      | [] => [.char c]
    else .char c :: stepsUpTo n rest

def steps (p : Pattern) : List Step := stepsUpTo p.length p

/-- Whether a text is one that steps stand for. Each star tries every rest of the text. -/
def accepts : List Step → Text → Bool
  | [], t => t.isEmpty
  | .many :: rest, t => (List.range (t.length + 1)).any fun n => accepts rest (t.drop n)
  | .one :: rest, _ :: t => accepts rest t
  | .char c :: rest, d :: t => c == d && accepts rest t
  | .set negated ms :: rest, d :: t => ms.any (·.has d) != negated && accepts rest t
  | _, [] => false

def isMatch (p : Pattern) (t : Text) : Bool := accepts (steps p) t

def trimStart (longest : Bool) (p : Pattern) (t : Text) : Text :=
  let lengths := List.range (t.length + 1)
  let s := steps p
  match (if longest then lengths.reverse else lengths).find? fun n => accepts s (t.take n) with
  | some n => t.drop n
  | none => t

def trimEnd (longest : Bool) (p : Pattern) (t : Text) : Text :=
  let lengths := List.range (t.length + 1)
  let s := steps p
  match (if longest then lengths else lengths.reverse).find? fun n => accepts s (t.drop n) with
  | some n => t.take n
  | none => t

/-- The text with what a pattern stands for replaced, once or everywhere; of several
matches at a place the longest counts. At the end of `front` the search goes on. -/
def replaceFrom (everywhere : Bool) (s : List Step) (put : Text) : Nat → Text → Text
  | 0, t => t
  | _, [] => []
  | n + 1, c :: t =>
    match (List.range (t.length + 1)).reverse.find? fun k => accepts s ((c :: t).take (k + 1)) with
    | some k =>
      let rest := t.drop k
      put ++ if everywhere then replaceFrom everywhere s put n rest else rest
    | none => c :: replaceFrom everywhere s put n t

def replace (everywhere : Bool) (p : Pattern) (put : Text) (t : Text) : Text :=
  if p.isEmpty then t else replaceFrom everywhere (steps p) put (t.length + 1) t

/-- Whether a pattern has a character with a meaning. A bracket that nothing closes has
none. -/
def isActive : Pattern → Bool
  | [] => false
  | (c, active) :: rest =>
    (active && (c == '*' || c == '?' || (c == '[' && rest.any (·.1 == ']')))) || isActive rest

def text (p : Pattern) : Text := p.map Prod.fst

def literal : Pattern → Text
  | ('\\', true) :: (c, _) :: rest => c :: literal rest
  | (c, _) :: rest => c :: literal rest
  | [] => []

/-- The names in a directory that a pattern stands for. A leading point has to be given. -/
def namesIn (t : FileTree) (directory : Text) (p : Pattern) : List Text :=
  let s := steps p
  let showsHidden := (p.head?.map Prod.fst) == some '.'
  let hidden := if showsHidden then [['.'], ['.', '.']] else []
  (hidden ++ t.children directory).filter fun name =>
    (showsHidden || name.head? != some '.') && accepts s name

def parts : Pattern → List Pattern
  | [] => [[]]
  | (c, active) :: rest =>
    if c = '/' then [] :: parts rest
    else match parts rest with
      | first :: others => ((c, active) :: first) :: others
      | [] => [[(c, active)]]

def pathsFrom (t : FileTree) (directory found : Text) : List Pattern → List Text
  | [] => [found]
  | [p] =>
    if p.isActive then
      match t.find? directory (if found.isEmpty then ['.'] else found) with
      | some (place, .directory) => (namesIn t place p).map (found ++ ·)
      | _ => []
    else
      let path := found ++ p.literal
      if (t.look? directory path).isSome then [path] else []
  | p :: rest =>
    if p.isActive then
      match t.find? directory (if found.isEmpty then ['.'] else found) with
      | some (place, .directory) =>
        (namesIn t place p).flatMap fun name =>
          pathsFrom t directory (found ++ name ++ ['/']) rest
      | _ => []
    else pathsFrom t directory (found ++ p.literal ++ ['/']) rest

def paths (t : FileTree) (directory : Text) (p : Pattern) : List Text :=
  (pathsFrom t directory [] (parts p)).mergeSort fun a b => !(b < a)

end Pattern

end Shell
end TypedCommand
