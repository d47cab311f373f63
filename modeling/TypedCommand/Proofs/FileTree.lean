import TypedCommand.FileTree
import TypedCommand.Proofs.Checked

/-!
Trees that have been extended by directories. Making directories puts one at a place where
nothing is, and leaves all else: a path that led somewhere leads there still, and every file
holds what it held.
-/

namespace TypedCommand.FileTree

/-- The second tree has all that the first has at its places, and besides that directories
alone. -/
structure Extends (t t' : FileTree) : Prop where
  kept : ∀ place entry, t.at? place = some entry → t'.at? place = some entry
  made : ∀ place entry, t'.at? place = some entry →
    t.at? place = some entry ∨ entry = .directory
  shared : t'.shared = t.shared

variable {t t' : FileTree} {directory path : Text}

theorem Extends.refl (t : FileTree) : t.Extends t := ⟨fun _ _ h => h, fun _ _ h => Or.inl h, rfl⟩

theorem Extends.trans {t'' : FileTree} (h : t.Extends t') (h' : t'.Extends t'') :
    t.Extends t'' where
  kept place entry ht := h'.kept place entry (h.kept place entry ht)
  made place entry ht := by
    rcases h'.made place entry ht with ht | hdirectory
    · exact h.made place entry ht
    · exact Or.inr hdirectory
  shared := h'.shared.trans h.shared

/-! Making directories. -/

theorem extends_put_directory {place : Text} (h : t.at? place = none) :
    t.Extends (t.put place .directory) := by
  have hput : ∀ other, (t.put place .directory).at? other =
      if other = place then some .directory else t.at? other :=
    fun other => SortedMap.get?_insert t.entries place other .directory
  refine ⟨fun other entry hentry => ?_, fun other entry hentry => ?_, rfl⟩
  · have hne : other ≠ place := by
      rintro rfl
      exact absurd (h.symm.trans hentry) nofun
    rw [hput, if_neg hne, hentry]
  · rw [hput] at hentry
    split at hentry
    · exact Or.inr (Option.some.inj hentry).symm
    · exact Or.inl hentry

theorem extends_makeAt {base : Text} {names : List Text} (h : t.makeAt base names = .ok t') :
    t.Extends t' := by
  obtain ⟨place, _, h⟩ := bind_eq_ok.1 h
  split at h
  · exact absurd h nofun
  · next hfree =>
    split at h
    · obtain rfl := Except.ok.inj h
      exact extends_put_directory (by simpa using hfree)
    · exact absurd h nofun

/-- Looking whether a directory is there already leaves the tree. -/
theorem fst_settled (t : FileTree) (walked : Except FileFault Text) (fault : FileFault) :
    (match walked with
      | .ok place => if (t.at? place).any Entry.isDirectory then (t, none) else (t, some fault)
      | .error _ => (t, some fault)).1 = t := by
  split
  · split <;> rfl
  · rfl

theorem extends_makeChain (base : Text) (chain : List (List Text)) (t : FileTree) :
    t.Extends (t.makeChain base chain).1 := by
  -- what has been made above stays, whether or not there is a place for the rest
  fun_induction makeChain t base chain with
  | case1 => exact .refl t
  | case2 names above t' hmade => exact extends_makeAt hmade
  | case3 names above _ t' fault hchain ih =>
    rw [hchain] at ih
    exact ih
  | case4 names above _ t' hchain t'' hmade ih =>
    rw [hchain] at ih
    exact ih.trans (extends_makeAt hmade)
  | case5 names above settle _ t' hchain fault _ ih =>
    rw [hchain] at ih
    have hsettle : (settle t' fault).1 = t' := fst_settled t' (t'.walk base names) fault
    rwa [hsettle]
  | case6 names above settle fault =>
    have hsettle : (settle t fault).1 = t := fst_settled t (t.walk base names) fault
    rw [hsettle]
    exact .refl t

theorem extends_makeDirectories (t : FileTree) (directory path : Text) :
    t.Extends (t.makeDirectories directory path).1 := by
  unfold makeDirectories
  split
  · exact .refl t
  · exact extends_makeChain _ _ t

/-! Paths. -/

/-- What a name in a directory leads to. -/
theorem walkNames_cons {follows : Bool} {through : Text → List Text → Except FileFault Text}
    {place name : Text} {rest : List Text} {entry : Entry} (h : t.at? place = some entry) :
    t.walkNames follows through place (name :: rest) =
      if !entry.isDirectory then .error .notDirectory
      else if name = ['.'] then t.walkNames follows through place rest
      else if name = ['.', '.'] then t.walkNames follows through (parent place) rest
      else if nameLimit < name.length then .error .nameTooLong
      else match t.at? (child place name) with
        | some (.link target) =>
          if rest.isEmpty && !follows then .ok (child place name)
          else through (start place target) (linkNames target ++ rest)
        | _ => t.walkNames follows through (child place name) rest := by
  rewrite [FileTree.walkNames, h]
  rfl

/-- What is new are directories, so no link is. -/
theorem Extends.not_link (h : t.Extends t') {place : Text}
    (hlink : ∀ target, t.at? place = some (.link target) → False) :
    ∀ target, t'.at? place = some (.link target) → False := by
  intro target htarget
  rcases h.made _ _ htarget with hthere | hdirectory
  · exact hlink target hthere
  · exact absurd hdirectory nofun

/-- Names that lead somewhere lead there still, if those behind a link do. -/
theorem Extends.walkNames (h : t.Extends t') {follows : Bool}
    {through through' : Text → List Text → Except FileFault Text}
    (hthrough : ∀ {place names found}, through place names = .ok found →
      through' place names = .ok found)
    {place found : Text} {names : List Text}
    (hwalk : t.walkNames follows through place names = .ok found) :
    t'.walkNames follows through' place names = .ok found := by
  -- each place on the way has the entry that it had
  fun_induction FileTree.walkNames t follows through place names with
  | case1 => exact hwalk
  | case2 => exact absurd hwalk nofun
  | case3 => exact absurd hwalk nofun
  | case4 place rest entry hentry hdirectory ih =>
    rw [walkNames_cons (h.kept _ _ hentry), if_neg hdirectory, if_pos rfl]
    exact ih hwalk
  | case5 place rest entry hentry hdirectory hself ih =>
    rw [walkNames_cons (h.kept _ _ hentry), if_neg hdirectory, if_neg hself, if_pos rfl]
    exact ih hwalk
  | case6 => exact absurd hwalk nofun
  | case7 place name rest entry hentry hdirectory hself hparent hlength next target hlink hlast =>
    rw [walkNames_cons (h.kept _ _ hentry), if_neg hdirectory, if_neg hself, if_neg hparent,
      if_neg hlength, h.kept _ _ hlink]
    exact (if_pos hlast).trans hwalk
  | case8 place name rest entry hentry hdirectory hself hparent hlength next target hlink hlast =>
    rw [walkNames_cons (h.kept _ _ hentry), if_neg hdirectory, if_neg hself, if_neg hparent,
      if_neg hlength, h.kept _ _ hlink]
    exact (if_neg hlast).trans (hthrough hwalk)
  | case9 place name rest entry hentry hdirectory hself hparent hlength next hlink ih =>
    rw [walkNames_cons (h.kept _ _ hentry), if_neg hdirectory, if_neg hself, if_neg hparent,
      if_neg hlength]
    split
    · next target htarget => exact absurd htarget (h.not_link hlink target)
    · exact ih hwalk

theorem Extends.walkFrom (h : t.Extends t') {follows : Bool} {links : Nat} {place found : Text}
    {names : List Text} (hwalk : t.walkFrom follows links place names = .ok found) :
    t'.walkFrom follows links place names = .ok found := by
  induction links generalizing place found names with
  | zero =>
    refine h.walkNames ?_ hwalk
    exact fun hnone => absurd hnone nofun
  | succ links ih => exact h.walkNames ih hwalk

theorem at?_of_locate {follows : Bool} {place : Text} {entry : Entry}
    (h : t.locate follows directory path = .ok (place, entry)) : t.at? place = some entry := by
  obtain ⟨place', _, h⟩ := bind_eq_ok.1 h
  split at h
  · exact absurd h nofun
  · next entry' hentry =>
    split at h
    · exact absurd h nofun
    · obtain ⟨rfl, rfl⟩ := Prod.mk.inj (Except.ok.inj h)
      exact hentry

theorem Extends.find (h : t.Extends t') {found : Text × Entry}
    (hfind : t.find directory path = .ok found) : t'.find directory path = .ok found := by
  obtain ⟨place, hplace, hfound⟩ := bind_eq_ok.1 hfind
  obtain ⟨_, hcheck, hwalk⟩ := bind_eq_ok.1 hplace
  refine bind_eq_ok.2 ⟨place, bind_eq_ok.2 ⟨_, hcheck, h.walkFrom hwalk⟩, ?_⟩
  cases hentry : t.at? place with
  | none =>
    rw [hentry] at hfound
    exact absurd hfound nofun
  | some entry =>
    rw [hentry] at hfound
    rwa [h.kept _ _ hentry]

/-- A file that a path leads to is read as before. -/
theorem Extends.read (h : t.Extends t') {content : Text}
    (hread : t.read directory path = .ok content) : t'.read directory path = .ok content := by
  obtain ⟨found, hfound, hread⟩ := bind_eq_ok.1 hread
  exact bind_eq_ok.2 ⟨found, h.find hfound, hread⟩

/-- A file that a path leads to now was there before. -/
theorem Extends.at?_file (h : t.Extends t') {place content : Text} {isExecutable : Bool}
    (hfind : t'.find directory path = .ok (place, .file content isExecutable)) :
    t.at? place = some (.file content isExecutable) :=
  (h.made _ _ (at?_of_locate hfind)).resolve_right nofun

end TypedCommand.FileTree
