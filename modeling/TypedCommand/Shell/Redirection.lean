import TypedCommand.Shell.Engine

/-!
Redirections followed: the words in them are expanded first, then each of them makes a
descriptor lead elsewhere, up to the first that cannot be followed.
-/

namespace TypedCommand

namespace Shell

namespace Act

inductive Target
  | file (descriptor : Nat) (opening : Opening) (path : Text)
  | copy (descriptor : Nat) (source : Option Nat)
  | document (descriptor : Nat) (content : Text)
  | outputs (appends : Bool) (path : Text)

def targetOf (g : Engine) : Redirection → Act Target
  | .file n opening w => do return .file n opening (← wordText (outputOf g) .front w)
  | .document n w => do return .document n (← wordText (outputOf g) .nowhere w)
  | .outputs appends w => do return .outputs appends (← wordText (outputOf g) .front w)
  | .copy n w => do
    match ← wordText (outputOf g) .front w with
    | ['-'] => return .copy n none
    | [c] =>
      if c.isDigit then return .copy n (some (c.toNat - '0'.toNat))
      else failWith "Syntax error: Bad fd number"
    | _ => failWith "Syntax error: Bad fd number"

def openingFault (dialect : Dialect) (isInput : Bool) (path : Text) (fault : FileFault) : Text :=
  match dialect with
  | .extended =>
    let said : Text := if fault = .present then "cannot overwrite existing file" else fault.text
    path ++ ": " ++ said
  | .common =>
    if isInput then "cannot open " ++ path ++ ": " ++ faultWith "No such file" fault
    else "cannot create " ++ path ++ ": " ++ faultWith "Directory nonexistent" fault

def openFile (opening : Opening) (path : Text) : Act (Except FileFault Channel) := do
  let p ← process
  -- What is in a file does not matter where it is only extended.
  let tree ← if opening == .append then pure (← world).files else files
  match opening with
  | .input =>
    match tree.find p.directory path with
    | .error fault => return .error fault
    | .ok (place, .file _ _) => return .ok (.file place 0 opening)
    | .ok (_, .program _) => return .ok (.source "\x7fELF" none)
    | .ok (_, .device pattern) => return .ok (.source (FileTree.deviceText pattern) none)
    | .ok _ => return .ok .directory
  | _ =>
    match tree.writable p.directory path with
    | .error fault => return .error fault
    | .ok (place, before) =>
      let keeps := match opening with
        | .append | .both => true
        | _ => false
      match before with
      | some (.device _) => return .ok (if place = FileTree.fullPlace then .full else .nowhere)
      | some (.file _ _) =>
        if opening == .output && p.options.keepsFiles then return .error .present
        if !keeps then setFiles (tree.fill place [])
        return .ok (.file place 0 opening)
      | _ =>
        let isLink := (tree.look? p.directory path).any (·.2.isLink)
        if opening == .output && p.options.keepsFiles && isLink then return .error .present
        setFiles ((← files).fill place [])
        return .ok (.file place 0 opening)

def redirectTo (descriptor : Nat) (opening : Opening) (path : Text) : Act Bool := do
  let failed (fault : FileFault) : Act Bool := do
    warn (openingFault (← process).dialect (opening == .input) path fault)
    return false
  match descriptorAt? path with
  | some n =>
    match ← channelOf? n with
    | some (channel, _) =>
      setDescriptor descriptor (some channel)
      return true
    | none => failed .missing
  | none =>
    match ← openFile opening path with
    | .ok c =>
      setDescriptor descriptor (some (← newChannel c))
      return true
    | .error fault => failed fault

def follow : Target → Act Bool
  | .file n opening path => redirectTo n opening path
  | .outputs appends path => do
    let done ← redirectTo 1 (if appends then .append else .output) path
    setDescriptor 2 ((← channelOf? 1).map Prod.fst)
    return done
  | .document n content => do
    setDescriptor n (some (← newChannel (.source content none)))
    return true
  | .copy n none => do
    setDescriptor n none
    return true
  | .copy n (some source) => do
    match ← channelOf? source with
    | some (channel, _) =>
      setDescriptor n (some channel)
      return true
    | none =>
      warn (Text.ofNat source ++ ": Bad file descriptor")
      return false

def followAll : List Target → Act Bool
  | [] => return true
  | t :: rest => do if ← follow t then followAll rest else return false

def redirectionStatus : Act Nat := do return if (← process).dialect = .extended then 1 else 2

def withRedirections (g : Engine) (rs : List Redirection) (act : Act Unit) : Act Unit := do
  let before := (← process).descriptors
  let targets ← rs.mapM (targetOf g)
  let restore := modifyProcess fun p => { p with descriptors := before }
  if ← followAll targets then ensuring act restore
  else
    restore
    setStatus (← redirectionStatus)

end Act

end Shell
end TypedCommand
