import TypedCommand.Specification

/-!
The tree of command names. Names share the words at their front: `docker` stands over
`docker ip` and `docker ps`. Siblings are in the order of their words, and a word on
which a name ends shows its template.
-/

namespace TypedCommand

/-- The words that can follow a given front of a name: empty, or a word with the
template of the name that ends there, the words below it, and its later siblings. -/
inductive NameForest
  | nil
  | cons (word : Text) (template : Option Text) (below : NameForest) (siblings : NameForest)

namespace NameForest

def isNil : NameForest → Bool
  | nil => true
  | cons .. => false

def branch (template : Text) : List Text → NameForest
  | [] => nil
  | [word] => cons word (some template) nil nil
  | word :: path => cons word none (branch template path) nil

def insert (template : Text) : List Text → NameForest → NameForest
  | [], forest => forest
  | path, nil => branch template path
  | word :: path, cons w t below siblings =>
    if word < w then
      match branch template (word :: path) with
      | cons w' t' below' _ => cons w' t' below' (cons w t below siblings)
      | nil => cons w t below siblings
    else if word = w then
      match path with
      | [] => cons w (some template) below siblings
      | _ => cons w t (insert template path below) siblings
    else cons w t below (insert template (word :: path) siblings)

/-- The lines of a forest below lines that end with the given guides: a word that has
a sibling after it hangs on a tee, and a bar goes on past the words below it. -/
def linesUnder (guides : Text) : NameForest → List Text
  | nil => []
  | cons word template below siblings =>
    let last := siblings.isNil
    let label := match template with
      | some template => word ++ " [" ++ template ++ "]"
      | none => word
    (guides ++ (if last then "└─".toList else "├─".toList) ++ label) ::
      (linesUnder (guides ++ if last then "   ".toList else "│  ".toList) below ++
        linesUnder guides siblings)

/-- The forest of the names of specifications; of equal names the last one counts. -/
def ofSpecifications (specs : List Specification) : NameForest :=
  specs.foldl (fun forest s => insert s.template s.path forest) nil

def render (specs : List Specification) : Text :=
  ['\n'].intercalate (linesUnder [] (ofSpecifications specs))

end NameForest
end TypedCommand
