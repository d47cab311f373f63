import TypedCommand.Toml.Node

/-!
Statements that are written from the top of a tree down, each table behind its header,
only ever change the table that was opened last. What they do below a key is what they
would do to that table as a document of its own.
-/

namespace TypedCommand.Toml

def Statement.below (path : List Text) : Statement → Statement
  | header rest => .header (path ++ rest)
  | arrayHeader rest => .arrayHeader (path ++ rest)
  | pair rest value => .pair rest value

def Statement.IsLocal : Statement → Prop
  | header path => path ≠ []
  | arrayHeader path => path ≠ []
  | pair path _ => ∃ key, path = [key]

/-- What is around the entries of a table under its key: nothing but the table, or the
tables before it in an array of them. -/
inductive Frame
  | opened
  | implied
  | item (before : List Entries)

def Frame.plug : Frame → Entries → Node
  | opened, entries => .table .header entries
  | implied, entries => .table .implied entries
  | item before, entries => .tables (before ++ [entries])

theorem Statement.isLocal_below {s : Statement} (h : s.IsLocal) (path : List Text) :
    (s.below path).IsLocal := by
  cases s with
  | header rest => exact List.append_ne_nil_of_right_ne_nil _ h
  | arrayHeader rest => exact List.append_ne_nil_of_right_ne_nil _ h
  | pair rest value => exact h

namespace Entries

theorem get?_append {front : Entries} {key : Text} (h : front.get? key = none) (back : Entries) :
    get? (front ++ back) key = back.get? key := by
  rw [get?, Option.map_eq_none_iff] at h
  rw [get?, get?, List.find?_append, h, Option.none_or]

theorem get?_append_singleton {front : Entries} {key : Text} (h : front.get? key = none)
    (node : Node) : get? (front ++ [(key, node)]) key = some node := by
  rw [get?_append h]
  simp [get?]

theorem get?_eq_none_iff {entries : Entries} {key : Text} :
    entries.get? key = none ↔ key ∉ entries.map Prod.fst := by
  simp only [get?, Option.map_eq_none_iff, List.find?_eq_none, beq_iff_eq, List.mem_map,
    not_exists, not_and]

theorem put_append_singleton {front : Entries} {key : Text} (h : front.get? key = none)
    (old new : Node) : put key new (front ++ [(key, old)]) = front ++ [(key, new)] := by
  induction front with
  | nil => simp [put]
  | cons e front ih =>
    have hne : e.1 ≠ key := fun he => by simp [get?, he] at h
    have hfront : get? front key = none := by
      rw [get?_eq_none_iff] at h ⊢
      exact fun hmem => h (List.mem_cons_of_mem _ hmem)
    rw [List.cons_append, put, if_neg hne, ih hfront]
    rfl

theorem put_of_get?_eq_none {entries : Entries} {key : Text} (h : entries.get? key = none)
    (node : Node) : put key node entries = entries ++ [(key, node)] := by
  induction entries with
  | nil => rfl
  | cons e entries ih =>
    have hne : e.1 ≠ key := fun he => by simp [get?, he] at h
    have hrest : get? entries key = none := by
      rw [get?_eq_none_iff] at h ⊢
      exact fun hmem => h (List.mem_cons_of_mem _ hmem)
    rw [put, if_neg hne, ih hrest]
    rfl

theorem modifyAt_origin (made : Origin) (change : Entries → Option Entries) (path : List Text)
    (origin origin' : Origin) (entries : Entries) :
    modifyAt made (fun _ => change) path origin entries =
      modifyAt made (fun _ => change) path origin' entries := by
  cases path <;> rfl

/-- A change below a key, where the table under that key is the last. -/
theorem modifyAt_plug {front : Entries} {key : Text} (h : front.get? key = none) (frame : Frame)
    (change : Entries → Option Entries) (path : List Text) (origin : Origin)
    (entries : Entries) :
    modifyAt .implied (fun _ => change) (key :: path) origin
        (front ++ [(key, frame.plug entries)]) =
      (modifyAt .implied (fun _ => change) path .header entries).map fun below =>
        front ++ [(key, frame.plug below)] := by
  rw [modifyAt, get?_append_singleton h]
  cases frame with
  | opened =>
    dsimp only [Frame.plug]
    rw [if_neg (by simp)]
    cases modifyAt .implied (fun _ => change) path .header entries with
    | none => rfl
    | some below => exact congrArg some (put_append_singleton h _ _)
  | implied =>
    dsimp only [Frame.plug]
    rw [if_neg (by simp), modifyAt_origin .implied change path .implied .header]
    cases modifyAt .implied (fun _ => change) path .header entries with
    | none => rfl
    | some below => exact congrArg some (put_append_singleton h _ _)
  | item before =>
    dsimp only [Frame.plug]
    rw [List.getLast?_concat]
    dsimp only
    rw [List.dropLast_concat]
    cases modifyAt .implied (fun _ => change) path .header entries with
    | none => rfl
    | some below => exact congrArg some (put_append_singleton h _ _)

/-- A change below a new key, as in an implied table without entries. -/
theorem modifyAt_of_get?_eq_none {entries : Entries} {key : Text} (h : entries.get? key = none)
    (change : Entries → Option Entries) (path : List Text) (origin : Origin) :
    modifyAt .implied (fun _ => change) (key :: path) origin entries =
      modifyAt .implied (fun _ => change) (key :: path) origin
        (entries ++ [(key, Frame.implied.plug [])]) := by
  rw [modifyAt_plug h, modifyAt, h, modifyAt_origin .implied change path .implied .header]
  dsimp only
  cases modifyAt .implied (fun _ => change) path .header [] with
  | none => rfl
  | some below => exact congrArg some (put_of_get?_eq_none h _)

/-- A pair with a single key goes into a table however that came about. -/
theorem insertPair_nil (key : Text) (value : Node) :
    insertPair [] key value = fun _ entries =>
      if (entries.get? key).isNone then some (entries.put key value) else none := by
  funext origin entries
  simp [insertPair, modifyAt]

theorem add_header (here : List Text) (entries : Entries) (path : List Text) (key : Text) :
    add here entries (.header (path ++ [key])) =
      (modifyAt .implied (fun _ => openTable key) path .header entries).map fun below =>
        (path ++ [key], below) := by
  simp only [add, List.getLast?_concat, List.dropLast_concat, Option.bind_eq_bind,
    Option.bind_some]
  cases modifyAt .implied (fun _ => openTable key) path .header entries <;> rfl

theorem add_arrayHeader (here : List Text) (entries : Entries) (path : List Text) (key : Text) :
    add here entries (.arrayHeader (path ++ [key])) =
      (modifyAt .implied (fun _ => openItem key) path .header entries).map fun below =>
        (path ++ [key], below) := by
  simp only [add, List.getLast?_concat, List.dropLast_concat, Option.bind_eq_bind,
    Option.bind_some]
  cases modifyAt .implied (fun _ => openItem key) path .header entries <;> rfl

theorem add_pair (here : List Text) (entries : Entries) (key : Text) (value : Node) :
    add here entries (.pair [key] value) =
      (modifyAt .implied (fun _ entries =>
        if (entries.get? key).isNone then some (entries.put key value) else none)
        here .header entries).map fun below => (here, below) := by
  simp only [add, List.getLast?_singleton, List.dropLast_singleton, Option.bind_eq_bind,
    Option.bind_some, insertPair_nil]
  cases modifyAt .implied _ here .header entries <;> rfl

/-- A statement below a key does to the table that was opened last under that key what
it does to a document. -/
theorem add_below {front : Entries} {key : Text} (h : front.get? key = none) (frame : Frame)
    {s : Statement} (hs : s.IsLocal) (here : List Text) (entries : Entries) :
    add (key :: here) (front ++ [(key, frame.plug entries)]) (s.below [key]) =
      (add here entries s).map fun state =>
        (key :: state.1, front ++ [(key, frame.plug state.2)]) := by
  cases s with
  | header path =>
    obtain ⟨path, last, rfl⟩ := (List.eq_nil_or_concat path).resolve_left hs
    rw [List.concat_eq_append, Statement.below, ← List.append_assoc, add_header, add_header,
      List.singleton_append, modifyAt_plug h, Option.map_map, Option.map_map]
    rfl
  | arrayHeader path =>
    obtain ⟨path, last, rfl⟩ := (List.eq_nil_or_concat path).resolve_left hs
    rw [List.concat_eq_append, Statement.below, ← List.append_assoc, add_arrayHeader,
      add_arrayHeader, List.singleton_append, modifyAt_plug h, Option.map_map, Option.map_map]
    rfl
  | pair path value =>
    obtain ⟨last, rfl⟩ := hs
    rw [Statement.below, add_pair, add_pair, modifyAt_plug h, Option.map_map, Option.map_map]
    rfl

/-- The state after some more statements: the path of the last header, and the entries. -/
def run (state : List Text × Entries) (statements : List Statement) :
    Option (List Text × Entries) :=
  statements.foldlM (fun state s => add state.1 state.2 s) state

theorem ofStatements_eq_run (statements : List Statement) :
    ofStatements statements = (run ([], []) statements).map Prod.snd := rfl

theorem run_cons (state : List Text × Entries) (s : Statement) (rest : List Statement) :
    run state (s :: rest) = (add state.1 state.2 s).bind fun state => run state rest := rfl

theorem run_append (state : List Text × Entries) (statements rest : List Statement) :
    run state (statements ++ rest) = (run state statements).bind fun state => run state rest :=
  List.foldlM_append

theorem run_below {front : Entries} {key : Text} (h : front.get? key = none) (frame : Frame)
    {statements : List Statement} (hlocal : ∀ s ∈ statements, s.IsLocal) (here : List Text)
    (entries : Entries) :
    run (key :: here, front ++ [(key, frame.plug entries)])
        (statements.map (Statement.below [key])) =
      (run (here, entries) statements).map fun state =>
        (key :: state.1, front ++ [(key, frame.plug state.2)]) := by
  induction statements generalizing here entries with
  | nil => rfl
  | cons s rest ih =>
    rw [List.map_cons, run_cons, run_cons, add_below h frame (hlocal s List.mem_cons_self)]
    cases add here entries s with
    | none => rfl
    | some state => exact ih (fun x hx => hlocal x (List.mem_cons_of_mem _ hx)) _ _

def Builds (statements : List Statement) (entries : Entries) : Prop :=
  (∀ s ∈ statements, s.IsLocal) ∧ ∃ here, run ([], []) statements = some (here, entries)

/-- Statements that put these entries behind others, whatever table was opened last. -/
def Adds (statements : List Statement) (added : Entries) : Prop :=
  (∀ s ∈ statements, s.IsLocal) ∧
    ∀ here entries, (∀ key ∈ added.map Prod.fst, get? entries key = none) →
      ∃ here', run (here, entries) statements = some (here', entries ++ added)

theorem adds_nil : Adds [] [] := by
  refine ⟨fun s hs => absurd hs List.not_mem_nil, fun here entries _ => ⟨here, ?_⟩⟩
  rw [List.append_nil]
  rfl

theorem adds_append {statements statements' : List Statement} {added added' : Entries}
    (h : Adds statements added) (h' : Adds statements' added')
    (hnodup : ((added ++ added').map Prod.fst).Nodup) :
    Adds (statements ++ statements') (added ++ added') := by
  rw [List.map_append, List.nodup_append] at hnodup
  obtain ⟨-, -, hdisjoint⟩ := hnodup
  refine ⟨fun s hs => (List.mem_append.1 hs).elim (h.1 s) (h'.1 s), fun here entries hnew => ?_⟩
  rw [List.map_append] at hnew
  obtain ⟨here, hrun⟩ := h.2 here entries fun key hkey => hnew key (List.mem_append_left _ hkey)
  have hnew' : ∀ key ∈ added'.map Prod.fst, get? (entries ++ added) key = none := by
    intro key hkey
    rw [get?_append (hnew key (List.mem_append_right _ hkey)), get?_eq_none_iff]
    exact fun hmem => hdisjoint key hmem key hkey rfl
  obtain ⟨here, hrun'⟩ := h'.2 here _ hnew'
  exact ⟨here, by rw [run_append, hrun, Option.bind_some, hrun', List.append_assoc]⟩

theorem isLocal_of_mem_map_below {statements : List Statement}
    (h : ∀ s ∈ statements, s.IsLocal) (path : List Text) {s : Statement}
    (hs : s ∈ statements.map (Statement.below path)) : s.IsLocal := by
  obtain ⟨s', hs', rfl⟩ := List.mem_map.1 hs
  exact Statement.isLocal_below (h s' hs') path

/-- A table behind its header. -/
theorem adds_table {statements : List Statement} {entries : Entries}
    (h : Builds statements entries) (key : Text) :
    Adds (.header [key] :: statements.map (Statement.below [key]))
      [(key, .table .header entries)] := by
  obtain ⟨hlocal, here, hrun⟩ := h
  refine ⟨fun s hs => ?_, fun here' front hnew => ⟨key :: here, ?_⟩⟩
  · rcases List.mem_cons.1 hs with rfl | hs
    · exact List.cons_ne_nil _ _
    · exact isLocal_of_mem_map_below hlocal _ hs
  · have hkey : get? front key = none := hnew key (by simp)
    have hheader : add here' front (.header [key]) =
        some ([key], front ++ [(key, Frame.opened.plug [])]) := by
      rw [← List.nil_append [key], add_header, modifyAt, openTable, hkey]
      exact congrArg some (congrArg (Prod.mk [key]) (put_of_get?_eq_none hkey _))
    rw [run_cons, hheader, Option.bind_some, run_below hkey .opened hlocal, hrun]
    rfl

/-- One more table behind the tables of an array. -/
theorem run_item {statements : List Statement} {entries : Entries}
    (h : Builds statements entries) {front : Entries} {key : Text} (hkey : front.get? key = none)
    (before : List Entries) (here : List Text) {state : Entries}
    (hstate : get? state key = none ∧ state = front ∧ before = [] ∨
      state = front ++ [(key, .tables before)]) :
    ∃ here', run (here, state)
        (.arrayHeader [key] :: statements.map (Statement.below [key])) =
      some (here', front ++ [(key, .tables (before ++ [entries]))]) := by
  obtain ⟨hlocal, here', hrun⟩ := h
  have hheader : add here state (.arrayHeader [key]) =
      some ([key], front ++ [(key, (Frame.item before).plug [])]) := by
    rw [← List.nil_append [key], add_arrayHeader, modifyAt, openItem]
    rcases hstate with ⟨hnone, rfl, rfl⟩ | rfl
    · rw [hnone]
      exact congrArg some (congrArg (Prod.mk [key]) (put_of_get?_eq_none hkey _))
    · rw [get?_append_singleton hkey]
      exact congrArg some (congrArg (Prod.mk [key]) (put_append_singleton hkey _ _))
  refine ⟨key :: here', ?_⟩
  rw [run_cons, hheader, Option.bind_some, run_below hkey (.item before) hlocal, hrun]
  rfl

section Items

variable {α : Type} {body : α → List Statement} {content : α → Entries}

def itemStatements (key : Text) (body : α → List Statement) (items : List α) : List Statement :=
  items.flatMap fun a => .arrayHeader [key] :: (body a).map (Statement.below [key])

def itemEntries (key : Text) (content : α → Entries) (items : List α) : Entries :=
  if items.isEmpty then [] else [(key, .tables (items.map content))]

theorem run_items {items : List α} (h : ∀ a ∈ items, Builds (body a) (content a))
    {front : Entries} {key : Text} (hkey : front.get? key = none) (before : List Entries)
    (here : List Text) :
    ∃ here', run (here, front ++ [(key, .tables before)]) (itemStatements key body items) =
      some (here', front ++ [(key, .tables (before ++ items.map content))]) := by
  induction items generalizing before here with
  | nil => exact ⟨here, by rw [List.map_nil, List.append_nil]; rfl⟩
  | cons a items ih =>
    obtain ⟨here₁, hrun₁⟩ := run_item (h a List.mem_cons_self) hkey before here
      (Or.inr rfl)
    obtain ⟨here₂, hrun₂⟩ := ih (fun b hb => h b (List.mem_cons_of_mem _ hb))
      (before ++ [content a]) here₁
    refine ⟨here₂, ?_⟩
    rw [itemStatements, List.flatMap_cons, run_append, hrun₁, Option.bind_some,
      ← itemStatements, hrun₂, List.map_cons, List.append_assoc, List.singleton_append]

/-- The tables of an array, one behind the other. -/
theorem adds_items {items : List α} (h : ∀ a ∈ items, Builds (body a) (content a)) (key : Text) :
    Adds (itemStatements key body items) (itemEntries key content items) := by
  cases items with
  | nil => exact adds_nil
  | cons a items =>
    refine ⟨fun s hs => ?_, fun here front hnew => ?_⟩
    · obtain ⟨b, hb, hs⟩ := List.mem_flatMap.1 hs
      rcases List.mem_cons.1 hs with rfl | hs
      · exact List.cons_ne_nil _ _
      · exact isLocal_of_mem_map_below (h b hb).1 _ hs
    · have hkey : get? front key = none := hnew key (by simp [itemEntries])
      obtain ⟨here₁, hrun₁⟩ := run_item (h a List.mem_cons_self) hkey [] here
        (Or.inl ⟨hkey, rfl, rfl⟩)
      obtain ⟨here₂, hrun₂⟩ := run_items (fun b hb => h b (List.mem_cons_of_mem _ hb)) hkey
        [content a] here₁
      refine ⟨here₂, ?_⟩
      rw [itemStatements, List.flatMap_cons, run_append, hrun₁, Option.bind_some,
        ← itemStatements]
      exact hrun₂

/-- Tables one behind the other, each behind a header of its own. -/
theorem adds_tables {items : List (Text × α)} (h : ∀ e ∈ items, Builds (body e.2) (content e.2))
    (hnodup : (items.map Prod.fst).Nodup) :
    Adds (items.flatMap fun e => .header [e.1] :: (body e.2).map (Statement.below [e.1]))
      (items.map fun e => (e.1, .table .header (content e.2))) := by
  induction items with
  | nil => exact adds_nil
  | cons e items ih =>
    have hrest := ih (fun b hb => h b (List.mem_cons_of_mem _ hb)) (List.nodup_cons.1 hnodup).2
    refine adds_append (adds_table (h e List.mem_cons_self) e.1) hrest ?_
    rw [List.map_append, List.map_map]
    exact hnodup

end Items

/-- Pairs go into the table that was opened last, here the document itself. -/
theorem run_pairs {pairs : Entries} (hnodup : (pairs.map Prod.fst).Nodup) {entries : Entries}
    (hnew : ∀ key ∈ pairs.map Prod.fst, get? entries key = none) :
    run ([], entries) (pairs.map fun e => .pair [e.1] e.2) = some ([], entries ++ pairs) := by
  induction pairs generalizing entries with
  | nil =>
    rw [List.append_nil]
    rfl
  | cons e pairs ih =>
    rw [List.map_cons, List.nodup_cons] at hnodup
    have hkey : get? entries e.1 = none := hnew e.1 (by simp)
    have hadd : add [] entries (.pair [e.1] e.2) = some ([], entries ++ [e]) := by
      rw [add_pair, modifyAt, if_pos (by rw [hkey]; rfl), put_of_get?_eq_none hkey]
      rfl
    have hnew' : ∀ key ∈ pairs.map Prod.fst, get? (entries ++ [e]) key = none := by
      intro key hmem
      rw [get?_append (hnew key (List.mem_cons_of_mem _ hmem)), get?_eq_none_iff]
      rintro hkey
      rw [List.map_singleton, List.mem_singleton] at hkey
      exact hnodup.1 (hkey ▸ hmem)
    rw [List.map_cons, run_cons, hadd, Option.bind_some, ih hnodup.2 hnew', List.append_assoc,
      List.singleton_append]

/-- A document has its pairs first, and then its tables. -/
theorem builds_of_adds {pairs added : Entries} {statements : List Statement}
    (h : Adds statements added) (hnodup : ((pairs ++ added).map Prod.fst).Nodup) :
    Builds ((pairs.map fun e => .pair [e.1] e.2) ++ statements) (pairs ++ added) := by
  rw [List.map_append, List.nodup_append] at hnodup
  obtain ⟨hpairs, -, hdisjoint⟩ := hnodup
  refine ⟨fun s hs => ?_, ?_⟩
  · rcases List.mem_append.1 hs with hs | hs
    · obtain ⟨e, _, rfl⟩ := List.mem_map.1 hs
      exact ⟨e.1, rfl⟩
    · exact h.1 s hs
  · have hnew : ∀ key ∈ added.map Prod.fst, get? pairs key = none := by
      intro key hkey
      rw [get?_eq_none_iff]
      exact fun hmem => hdisjoint key hmem key hkey rfl
    obtain ⟨here, hrun⟩ := h.2 [] pairs hnew
    refine ⟨here, ?_⟩
    rw [run_append, run_pairs hpairs (fun _ _ => rfl), Option.bind_some, List.nil_append, hrun]

/-- Tables below a key that has no header of its own. -/
theorem ofStatements_below {statements : List Statement} {added : Entries}
    (h : Adds statements added) {path : List Text} (hpath : path ≠ [])
    (hhead : statements.head? = some (.header path)) (key : Text) :
    ofStatements (statements.map (Statement.below [key])) =
      some [(key, .table .implied added)] := by
  obtain ⟨rest, rfl⟩ := List.head?_eq_some_iff.1 hhead
  obtain ⟨here, hrun⟩ := h.2 [] [] (fun _ _ => rfl)
  obtain ⟨path, last, rfl⟩ := (List.eq_nil_or_concat path).resolve_left hpath
  -- the first header implies the table of the key, as if that had been there before
  have himplied :
      run ([], []) ((Statement.header (path.concat last) :: rest).map (Statement.below [key])) =
        run ([key], [] ++ [(key, Frame.implied.plug [])])
          ((Statement.header (path.concat last) :: rest).map (Statement.below [key])) := by
    rw [List.map_cons, run_cons, run_cons, List.concat_eq_append, Statement.below,
      ← List.append_assoc, add_header, add_header, List.singleton_append,
      modifyAt_of_get?_eq_none rfl]
  rw [ofStatements_eq_run, himplied, run_below rfl .implied h.1, hrun]
  rfl

end Entries
end TypedCommand.Toml
