import Mathlib.Data.List.Infix
import Mathlib.Data.List.Sort
import TypedCommand.NameForest
import TypedCommand.Proofs.Checked

/-!
What the tree of names shows. Its lines are the fronts of the names in lexicographic order, each
front once and directly before those that go on from it. Whether a line hangs on a tee or on the
last branch, and which guides stand before it, is decided by the greatest of its siblings and of
the siblings of what it stands under; a template stands behind the fronts that are names.
-/

namespace TypedCommand

namespace NameForest

/-- The fronts of names in a forest with the templates that stand there, line by line. -/
def entries : NameForest → List (List Text × Option Text)
  | nil => []
  | cons word template below siblings =>
    ([word], template) :: (below.entries.map fun e => (word :: e.1, e.2)) ++ siblings.entries

def fronts (f : NameForest) : List (List Text) := f.entries.map Prod.fst

/-- What stands at a front of a name: nothing, or a word that may have a template. -/
def at? : List Text → NameForest → Option (Option Text)
  | _, nil => none
  | [], cons .. => none
  | word :: path, cons w template below siblings =>
    if word = w then if path = [] then some template else below.at? path
    else siblings.at? (word :: path)

def Above (word : Text) : NameForest → Prop
  | nil => True
  | cons w .. => word < w

def Ordered : NameForest → Prop
  | nil => True
  | cons word _ below siblings => below.Ordered ∧ siblings.Above word ∧ siblings.Ordered

section Entries

variable {word w : Text} {path : List Text} {f : NameForest}

theorem Above.trans (hlt : word < w) (h : f.Above w) : f.Above word := by
  cases f with
  | nil => trivial
  | cons => exact List.lt_trans hlt h

theorem fronts_cons (w : Text) (template : Option Text) (below siblings : NameForest) :
    (cons w template below siblings).fronts =
      [w] :: (below.fronts.map (w :: ·) ++ siblings.fronts) := by
  simp [fronts, entries]

theorem at?_nil (f : NameForest) : f.at? [] = none := by
  cases f <;> rfl

theorem at?_cons_self (word : Text) (path : List Text) (template : Option Text)
    (below siblings : NameForest) : (cons word template below siblings).at? (word :: path) =
      if path = [] then some template else below.at? path := by
  rw [at?, if_pos rfl]

theorem at?_cons_of_ne (h : word ≠ w) (path : List Text) (template : Option Text)
    (below siblings : NameForest) : (cons w template below siblings).at? (word :: path) =
      siblings.at? (word :: path) := by
  rw [at?, if_neg h]

/-- A word that comes before all words of a forest does not stand in it. -/
theorem at?_of_above (hordered : f.Ordered) (habove : f.Above word) (path : List Text) :
    f.at? (word :: path) = none := by
  induction f with
  | nil => rfl
  | cons w template below siblings _ ih =>
    obtain ⟨_, hsiblings, hrest⟩ := hordered
    have hlt : word < w := habove
    have hne : word ≠ w := fun heq => List.lt_irrefl w (heq ▸ hlt)
    rw [at?_cons_of_ne hne]
    exact ih hrest (hsiblings.trans hlt)

/-- The entries of an ordered forest are what stands at each place. -/
theorem mem_entries_iff (hordered : f.Ordered) {p : List Text} {t : Option Text} :
    (p, t) ∈ f.entries ↔ f.at? p = some t := by
  induction f generalizing p with
  | nil => simp [entries, at?]
  | cons w template below siblings ihBelow ihSiblings =>
    obtain ⟨hbelow, habove, hsiblings⟩ := hordered
    have hcons : (p, t) ∈ (cons w template below siblings).entries ↔
        (p = [w] ∧ t = template) ∨ (∃ path, below.at? path = some t ∧ p = w :: path) ∨
          siblings.at? p = some t := by
      rw [entries, List.cons_append, List.mem_cons, List.mem_append, List.mem_map,
        ihSiblings hsiblings, Prod.mk.injEq]
      refine or_congr_right (or_congr_left ⟨?_, ?_⟩)
      · rintro ⟨⟨path, t'⟩, hmem, heq⟩
        obtain ⟨rfl, rfl⟩ := Prod.mk.inj heq
        exact ⟨path, (ihBelow hbelow).1 hmem, rfl⟩
      · rintro ⟨path, hat, rfl⟩
        exact ⟨(path, t), (ihBelow hbelow).2 hat, rfl⟩
    rw [hcons]
    cases p with
    | nil => simp [at?_nil]
    | cons word path =>
      by_cases hw : word = w
      · subst hw
        rw [at?_cons_self, at?_of_above hsiblings habove]
        by_cases hpath : path = []
        · simp [hpath, at?_nil, eq_comm]
        · simp [hpath]
      · simp [at?_cons_of_ne hw, hw]

theorem mem_fronts_cons {p : List Text} {template : Option Text} {below siblings : NameForest} :
    p ∈ (cons w template below siblings).fronts ↔
    p = [w] ∨ (∃ path ∈ below.fronts, p = w :: path) ∨ p ∈ siblings.fronts := by
  simp only [fronts_cons, List.mem_cons, List.mem_append, List.mem_map, eq_comm (a := p)]

/-- Every front of a forest begins with one of its words. -/
theorem exists_of_mem_fronts (hordered : f.Ordered) (habove : f.Above word) {p : List Text}
    (hp : p ∈ f.fronts) : ∃ w path, p = w :: path ∧ word < w := by
  induction f with
  | nil => exact absurd hp List.not_mem_nil
  | cons w template below siblings _ ih =>
    obtain ⟨_, hsiblings, hrest⟩ := hordered
    rcases mem_fronts_cons.1 hp with rfl | ⟨path, _, rfl⟩ | hp
    · exact ⟨w, [], rfl, habove⟩
    · exact ⟨w, path, rfl, habove⟩
    · exact ih hrest (hsiblings.trans habove) hp

/-- The fronts that begin with a word come before those of a forest whose words are greater. -/
theorem lt_of_mem_fronts (hordered : f.Ordered) (habove : f.Above word) {p : List Text}
    (hp : p ∈ f.fronts) (path : List Text) : word :: path < p := by
  obtain ⟨w, path', rfl, hlt⟩ := exists_of_mem_fronts hordered habove hp
  exact List.cons_lt_cons_iff.2 (.inl hlt)

theorem mem_fronts_iff (hordered : f.Ordered) {p : List Text} :
    p ∈ f.fronts ↔ ∃ t, f.at? p = some t := by
  rw [fronts, List.mem_map]
  constructor
  · rintro ⟨⟨p, t⟩, hmem, rfl⟩
    exact ⟨t, (mem_entries_iff hordered).1 hmem⟩
  · rintro ⟨t, hat⟩
    exact ⟨(p, t), (mem_entries_iff hordered).2 hat, rfl⟩

theorem ne_nil_of_mem_fronts (hordered : f.Ordered) {p : List Text} (hp : p ∈ f.fronts) :
    p ≠ [] := by
  rintro rfl
  obtain ⟨t, ht⟩ := (mem_fronts_iff hordered).1 hp
  exact absurd ((at?_nil f).symm.trans ht) nofun

/-- The fronts of an ordered forest are in lexicographic order. -/
theorem pairwise_fronts (hordered : f.Ordered) : f.fronts.Pairwise (· < ·) := by
  induction f with
  | nil => exact .nil
  | cons w template below siblings ihBelow ihSiblings =>
    obtain ⟨hbelow, habove, hsiblings⟩ := hordered
    rw [fronts_cons, List.pairwise_cons, List.pairwise_append, List.pairwise_map]
    refine ⟨fun p hp => ?_, ?_, ihSiblings hsiblings, fun p hp q hq => ?_⟩
    · rcases List.mem_append.1 hp with hp | hp
      · obtain ⟨path, hpath, rfl⟩ := List.mem_map.1 hp
        obtain ⟨v, path, rfl⟩ := List.exists_cons_of_ne_nil (ne_nil_of_mem_fronts hbelow hpath)
        exact List.cons_lt_cons_iff.2 (.inr ⟨rfl, List.nil_lt_cons v path⟩)
      · exact lt_of_mem_fronts hsiblings habove hp []
    · exact (ihBelow hbelow).imp fun hlt => List.cons_lt_cons_iff.2 (.inr ⟨rfl, hlt⟩)
    · obtain ⟨path, _, rfl⟩ := List.mem_map.1 hp
      exact lt_of_mem_fronts hsiblings habove hq path

end Entries

section Insert

variable {word w template : Text} {path q : List Text} {f : NameForest}

theorem branch_cons (template word : Text) (path : List Text) :
    branch template (word :: path) =
      cons word (if path = [] then some template else none) (branch template path) nil := by
  cases path <;> rfl

theorem insert_nil (template : Text) (path : List Text) :
    insert template path nil = branch template path := by
  cases path <;> rfl

theorem insert_cons (template word w : Text) (path : List Text) (t : Option Text)
    (below siblings : NameForest) :
    insert template (word :: path) (cons w t below siblings) =
      if word < w then
        cons word (if path = [] then some template else none) (branch template path)
          (cons w t below siblings)
      else if word = w then
        cons w (if path = [] then some template else t) (insert template path below) siblings
      else cons w t below (insert template (word :: path) siblings) := by
  cases path <;> simp [insert, branch]

theorem Above.insert (h : f.Above w) (hlt : w < word) :
    (insert template (word :: path) f).Above w := by
  cases f with
  | nil =>
    rw [insert_nil, branch_cons]
    exact hlt
  | cons =>
    rw [insert_cons]
    split
    · exact hlt
    · split
      · exact h
      · exact h

theorem ordered_branch (template : Text) (path : List Text) : (branch template path).Ordered := by
  induction path with
  | nil => trivial
  | cons word path ih =>
    rw [branch_cons]
    exact ⟨ih, trivial, trivial⟩

theorem Ordered.insert (h : f.Ordered) (path : List Text) : (insert template path f).Ordered := by
  induction f generalizing path with
  | nil => exact insert_nil template path ▸ ordered_branch template path
  | cons w t below siblings ihBelow ihSiblings =>
    cases path with
    | nil => rwa [NameForest.insert]
    | cons word path =>
      obtain ⟨hbelow, habove, hsiblings⟩ := h
      rw [insert_cons]
      split
      · next hlt => exact ⟨ordered_branch template path, hlt, hbelow, habove, hsiblings⟩
      · next hnlt =>
        split
        · exact ⟨ihBelow hbelow path, habove, hsiblings⟩
        · next hne =>
          have hlt : w < word := by
            rcases List.le_iff_lt_or_eq.1 (List.not_lt.1 hnlt) with hlt | heq
            · exact hlt
            · exact absurd heq.symm hne
          exact ⟨hbelow, habove.insert hlt, ihSiblings hsiblings (word :: path)⟩

/-- What stands at `q` when a name is added to a forest in which `old` stands there. -/
def added (template : Text) (path q : List Text) (old : Option (Option Text)) :
    Option (Option Text) :=
  if q = path then some (some template) else if q <+: path then some (old.getD none) else old

theorem added_cons_self (template word : Text) (path q : List Text)
    (old : Option (Option Text)) :
    added template (word :: path) (word :: q) old = added template path q old := by
  simp [added, List.cons_prefix_cons]

theorem added_cons_of_ne (h : w ≠ word) (template : Text) (path q : List Text)
    (old : Option (Option Text)) : added template (word :: path) (w :: q) old = old := by
  simp [added, List.cons_prefix_cons, h]

theorem added_nil (template : Text) (path : List Text) (old : Option (Option Text)) :
    added template path [] old = some (if path = [] then some template else old.getD none) := by
  cases path <;> simp [added]

/-- A word that the added name goes through, over what the rest of the name was added to. -/
theorem at?_cons_added {t : Option Text} {below : NameForest} {old : Option (Option Text)}
    (hfirst : q = [] → old.getD none = t)
    (hbelow : q ≠ [] → below.at? q = added template path q old) (siblings : NameForest) :
    (cons word (if path = [] then some template else t) below siblings).at? (word :: q) =
      added template (word :: path) (word :: q) old := by
  rw [at?_cons_self, added_cons_self]
  split
  · next hnil => rw [hnil, added_nil, hfirst hnil]
  · next hne => exact hbelow hne

theorem at?_branch (hq : q ≠ []) : (branch template path).at? q = added template path q none := by
  induction path generalizing q with
  | nil => simp [branch, at?, added, hq]
  | cons word path ih =>
    obtain ⟨w, q, rfl⟩ := List.exists_cons_of_ne_nil hq
    rw [branch_cons]
    by_cases hw : w = word
    · subst hw
      exact at?_cons_added (fun _ => rfl) ih nil
    · rw [at?_cons_of_ne hw, added_cons_of_ne hw, at?]

/-- A name that is added stands at its place with its template, its fronts stand where they did
not stand before, and everything else is as it was. -/
theorem at?_insert (hordered : f.Ordered) (hq : q ≠ []) :
    (insert template path f).at? q = added template path q (f.at? q) := by
  induction f generalizing path q with
  | nil => rw [insert_nil, at?_branch hq, at?]
  | cons w t below siblings ihBelow ihSiblings =>
    obtain ⟨v, q, rfl⟩ := List.exists_cons_of_ne_nil hq
    cases path with
    | nil => simp [NameForest.insert, added]
    | cons word path =>
      rw [insert_cons]
      -- The added word comes before the first one, is the first one, or goes to its siblings.
      split
      · next hlt =>
        by_cases hv : v = word
        · subst hv
          rw [at?_of_above hordered hlt]
          exact at?_cons_added (fun _ => rfl) at?_branch _
        · rw [at?_cons_of_ne hv, added_cons_of_ne hv]
      · split
        · next heq =>
          subst heq
          by_cases hv : v = word
          · subst hv
            refine at?_cons_added (fun hnil => ?_) (fun hne => ?_) siblings
            · rw [at?_cons_self, if_pos hnil, Option.getD_some]
            · rw [at?_cons_self, if_neg hne]
              exact ihBelow hordered.1 hne
          · rw [at?_cons_of_ne hv, at?_cons_of_ne hv, added_cons_of_ne hv]
        · next hne =>
          by_cases hv : v = w
          · subst hv
            rw [at?_cons_self, at?_cons_self, added_cons_of_ne (Ne.symm hne)]
          · rw [at?_cons_of_ne hv, at?_cons_of_ne hv]
            exact ihSiblings hordered.2.2 hq

end Insert

section Lines

variable {w : Text} {template : Option Text} {below siblings f : NameForest}
  {p : List Text}

def ancestors (p : List Text) : List (List Text) := p.inits.tail.dropLast

/-- Of the names that differ from `p` in the last word at most, none comes behind it. -/
def Greatest (names : List (List Text)) (p : List Text) : Prop :=
  ∀ q ∈ names, q.dropLast = p.dropLast → ¬ p < q

instance (names : List (List Text)) (p : List Text) : Decidable (Greatest names p) :=
  inferInstanceAs (Decidable (∀ q ∈ names, q.dropLast = p.dropLast → ¬ p < q))

def note : Option Text → Text
  | some template => " [" ++ template ++ "]"
  | none => []

/-- The line of a front: a guide for each word above it, the branch that it hangs on, its last
word, and a template if one stands there. -/
def lineOf (greatest : List Text → Bool) (template? : List Text → Option Text) (p : List Text) :
    Text :=
  ((ancestors p).flatMap fun q => if greatest q then "   ".toList else "│  ".toList) ++
    (if greatest p then "└─".toList else "├─".toList) ++ p.getLast?.getD [] ++
    note (template? p)

theorem ancestors_cons (w : Text) (hp : p ≠ []) :
    ancestors (w :: p) = [w] :: (ancestors p).map (w :: ·) := by
  obtain ⟨v, p, rfl⟩ := List.exists_cons_of_ne_nil hp
  have hne : (v :: p).inits.tail.map (w :: ·) ≠ [] := by
    rw [List.inits_cons, List.tail_cons]
    cases p <;> simp
  have hcons : (w :: v :: p).inits.tail = [w] :: (v :: p).inits.tail.map (w :: ·) := by
    rw [List.inits_cons, List.tail_cons, List.inits_cons, List.map_cons, List.tail_cons]
  rw [ancestors, hcons, List.dropLast_cons_of_ne_nil hne, ← List.map_dropLast, ancestors]

theorem lineOf_cons (greatest : List Text → Bool) (template? : List Text → Option Text) (w : Text)
    (hp : p ≠ []) :
    lineOf greatest template? (w :: p) = (if greatest [w] then "   ".toList else "│  ".toList) ++
      lineOf (fun q => greatest (w :: q)) (fun q => template? (w :: q)) p := by
  have hlast : (w :: p).getLast? = p.getLast? := by
    obtain ⟨v, p, rfl⟩ := List.exists_cons_of_ne_nil hp
    rw [List.getLast?_cons_cons]
  simp only [lineOf, ancestors_cons w hp, List.flatMap_cons, List.flatMap_map, hlast,
    List.append_assoc]

theorem linesUnder_cons (guides w : Text) (template : Option Text)
    (below siblings : NameForest) :
    linesUnder guides (cons w template below siblings) =
      (guides ++ ((if siblings.isNil then "└─".toList else "├─".toList) ++ w ++ note template)) ::
        (linesUnder (guides ++ if siblings.isNil then "   ".toList else "│  ".toList) below ++
          linesUnder guides siblings) := by
  cases template <;> simp [linesUnder, note]

theorem greatest_first (hordered : (cons w template below siblings).Ordered) :
    Greatest (cons w template below siblings).fronts [w] ↔ siblings.isNil = true := by
  obtain ⟨hbelow, habove, hsiblings⟩ := hordered
  constructor
  · intro h
    cases siblings with
    | nil => rfl
    | cons v t below' siblings' =>
      have hmem : [v] ∈ (cons v t below' siblings').fronts := mem_fronts_cons.2 (.inl rfl)
      exact absurd (lt_of_mem_fronts hsiblings habove hmem [])
        (h [v] (mem_fronts_cons.2 (.inr (.inr hmem))) rfl)
  · intro hnil q hq hlast
    rcases mem_fronts_cons.1 hq with rfl | ⟨path, hpath, rfl⟩ | hq
    · exact List.lt_irrefl [w]
    · have hne := ne_nil_of_mem_fronts hbelow hpath
      rw [List.dropLast_cons_of_ne_nil hne] at hlast
      exact absurd hlast (List.cons_ne_nil _ _)
    · cases siblings with
      | nil => exact absurd hq List.not_mem_nil
      | cons => exact absurd hnil Bool.false_ne_true

theorem greatest_below (hordered : (cons w template below siblings).Ordered)
    (hp : p ∈ below.fronts) :
    Greatest (cons w template below siblings).fronts (w :: p) ↔ Greatest below.fronts p := by
  obtain ⟨hbelow, habove, hsiblings⟩ := hordered
  have hdrop : ∀ q ∈ below.fronts, (w :: q).dropLast = w :: q.dropLast :=
    fun q hq => List.dropLast_cons_of_ne_nil (ne_nil_of_mem_fronts hbelow hq)
  have hnlt : ∀ q : List Text, ¬ w :: p < w :: q ↔ ¬ p < q := by
    intro q
    simp
  rw [Greatest, hdrop p hp]
  constructor
  · intro h q hq hlast
    have hmem : w :: q ∈ (cons w template below siblings).fronts :=
      mem_fronts_cons.2 (.inr (.inl ⟨q, hq, rfl⟩))
    exact (hnlt q).1 (h (w :: q) hmem (by rw [hdrop q hq, hlast]))
  · intro h q hq hlast
    rcases mem_fronts_cons.1 hq with rfl | ⟨path, hpath, rfl⟩ | hq
    · exact absurd hlast.symm (List.cons_ne_nil _ _)
    · rw [hdrop path hpath] at hlast
      exact (hnlt path).2 (h path hpath (List.cons.inj hlast).2)
    · obtain ⟨v, path, rfl, hlt⟩ := exists_of_mem_fronts hsiblings habove hq
      cases path with
      | nil => exact absurd hlast.symm (List.cons_ne_nil _ _)
      | cons u path => exact absurd ((List.cons.inj hlast).1 ▸ hlt) (List.lt_irrefl w)

theorem greatest_siblings (hordered : (cons w template below siblings).Ordered)
    (hp : p ∈ siblings.fronts) :
    Greatest (cons w template below siblings).fronts p ↔ Greatest siblings.fronts p := by
  obtain ⟨hbelow, habove, hsiblings⟩ := hordered
  constructor
  · intro h q hq hlast
    exact h q (mem_fronts_cons.2 (.inr (.inr hq))) hlast
  · intro h q hq hlast
    have hlater := lt_of_mem_fronts hsiblings habove hp
    rcases mem_fronts_cons.1 hq with rfl | ⟨path, _, rfl⟩ | hq
    · exact List.lt_asymm (hlater [])
    · exact List.lt_asymm (hlater path)
    · exact h q hq hlast

/-- The lines of an ordered forest are those of its fronts. -/
theorem linesUnder_eq {greatest : List Text → Bool} {template? : List Text → Option Text}
    (hordered : f.Ordered) (guides : Text)
    (hgreatest : ∀ p ∈ f.fronts, (greatest p = true ↔ Greatest f.fronts p))
    (htemplate : ∀ e ∈ f.entries, template? e.1 = e.2) :
    linesUnder guides f = f.fronts.map fun p => guides ++ lineOf greatest template? p := by
  induction f generalizing guides greatest template? with
  | nil => rfl
  | cons w template below siblings ihBelow ihSiblings =>
    have hfirst : greatest [w] = siblings.isNil :=
      Bool.eq_iff_iff.2 ((hgreatest [w] (mem_fronts_cons.2 (.inl rfl))).trans
        (greatest_first hordered))
    have hlater : linesUnder guides siblings =
        siblings.fronts.map fun p => guides ++ lineOf greatest template? p := by
      refine ihSiblings hordered.2.2 guides (fun p hp => ?_) fun e he => htemplate e ?_
      · exact (hgreatest p (mem_fronts_cons.2 (.inr (.inr hp)))).trans
          (greatest_siblings hordered hp)
      · exact List.mem_append_right _ he
    -- Below a word the greatest siblings and the templates are asked for behind that word.
    have hbelow : linesUnder (guides ++ if greatest [w] then "   ".toList else "│  ".toList)
        below = below.fronts.map fun p => guides ++ lineOf greatest template? (w :: p) := by
      rw [@ihBelow (fun q => greatest (w :: q)) (fun q => template? (w :: q)) hordered.1 _
        (fun p hp => ?_) fun e he => ?_]
      · refine List.map_congr_left fun p hp => ?_
        rw [lineOf_cons greatest template? w (ne_nil_of_mem_fronts hordered.1 hp),
          List.append_assoc]
      · exact (hgreatest (w :: p) (mem_fronts_cons.2 (.inr (.inl ⟨p, hp, rfl⟩)))).trans
          (greatest_below hordered hp)
      · exact htemplate (w :: e.1, e.2)
          (List.mem_append_left _ (List.mem_cons_of_mem _ (List.mem_map_of_mem he)))
    have hself : template? [w] = template := htemplate ([w], template) List.mem_cons_self
    have hline : lineOf greatest template? [w] =
        (if greatest [w] then "└─".toList else "├─".toList) ++ w ++ note template := by
      rw [← hself]
      rfl
    rw [linesUnder_cons, ← hfirst, ← hline, hbelow, hlater, fronts_cons, List.map_cons,
      List.map_append, List.map_map]
    rfl

end Lines

section Names

variable {specs specs' : List Specification} {p q r : List Text}

def frontsOf (specs : List Specification) : List (List Text) :=
  specs.flatMap fun s => s.path.inits.tail

def lastTemplate? (specs : List Specification) (p : List Text) : Option Text :=
  (specs.reverse.find? fun s => s.path == p).map (·.template)

def line (specs : List Specification) : List Text → Text :=
  lineOf (fun p => decide (Greatest (frontsOf specs) p)) (lastTemplate? specs)

def FollowedByOwn (names : List (List Text)) : Prop :=
  ∀ before p after, names = before ++ p :: after → ∃ own later, after = own ++ later ∧
    (∀ q ∈ own, p <+: q) ∧ ∀ q ∈ before ++ later, ¬ p <+: q

theorem mem_frontsOf : p ∈ frontsOf specs ↔ p ≠ [] ∧ ∃ s ∈ specs, p <+: s.path := by
  have hinits : ∀ path : List Text, p ∈ path.inits.tail ↔ p ≠ [] ∧ p <+: path := by
    intro path
    cases path with
    | nil => simp
    | cons w path =>
      rw [List.inits_cons, List.tail_cons, List.mem_map, List.prefix_cons_iff]
      constructor
      · rintro ⟨t, ht, rfl⟩
        exact ⟨List.cons_ne_nil _ _, .inr ⟨t, rfl, (List.mem_inits t path).1 ht⟩⟩
      · rintro ⟨hp, rfl | ⟨t, rfl, ht⟩⟩
        · exact absurd rfl hp
        · exact ⟨t, (List.mem_inits t path).2 ht, rfl⟩
  simp only [frontsOf, List.mem_flatMap, hinits]
  constructor
  · rintro ⟨s, hs, hp, hfront⟩
    exact ⟨hp, s, hs, hfront⟩
  · rintro ⟨hp, s, hs, hfront⟩
    exact ⟨s, hs, hp, hfront⟩

theorem lastTemplate?_append_singleton (specs : List Specification) (s : Specification)
    (p : List Text) : lastTemplate? (specs ++ [s]) p =
      if s.path = p then some s.template else lastTemplate? specs p := by
  rw [lastTemplate?, List.reverse_append, List.reverse_singleton, List.singleton_append]
  by_cases h : s.path = p
  · rw [if_pos h, List.find?_cons_of_pos (by simpa using h)]
    rfl
  · rw [if_neg h, List.find?_cons_of_neg (by simpa using h)]
    rfl

theorem lastTemplate?_eq_none (h : ¬ ∃ s ∈ specs, p <+: s.path) : lastTemplate? specs p = none := by
  rw [lastTemplate?, Option.map_eq_none_iff, List.find?_eq_none]
  intro s hs heq
  have hpath : s.path = p := by simpa using heq
  exact h ⟨s, List.mem_reverse.1 hs, hpath ▸ List.prefix_refl p⟩

/-- Where each name is that of one specification, its template stands there. -/
theorem lastTemplate?_eq_some (hpaths : (specs.map (·.path)).Nodup) {t : Text} :
    lastTemplate? specs p = some t ↔ ∃ s ∈ specs, s.path = p ∧ s.template = t := by
  have hreverse : (specs.reverse.map (·.path)).Nodup := by
    rw [List.map_reverse]
    exact List.nodup_reverse.2 hpaths
  simp only [lastTemplate?, Option.map_eq_some_iff, find?_eq_some_of_nodup hreverse,
    List.mem_reverse, and_assoc]

theorem ofSpecifications_append_singleton (specs : List Specification) (s : Specification) :
    ofSpecifications (specs ++ [s]) = insert s.template s.path (ofSpecifications specs) := by
  rw [ofSpecifications, List.foldl_append]
  rfl

theorem ordered_ofSpecifications (specs : List Specification) :
    (ofSpecifications specs).Ordered := by
  induction specs using List.reverseRecOn with
  | nil => trivial
  | append_singleton specs s ih =>
    rw [ofSpecifications_append_singleton]
    exact ih.insert s.path

/-- In the tree of specifications stand the fronts of their names, with the template of the last
one that has the name. -/
theorem at?_ofSpecifications (specs : List Specification) (hq : q ≠ []) :
    (ofSpecifications specs).at? q =
      if ∃ s ∈ specs, q <+: s.path then some (lastTemplate? specs q) else none := by
  induction specs using List.reverseRecOn with
  | nil => simp [ofSpecifications, at?]
  | append_singleton specs s ih =>
    have hmem : (∃ s' ∈ specs ++ [s], q <+: s'.path) ↔
        (∃ s' ∈ specs, q <+: s'.path) ∨ q <+: s.path := by
      simp [or_and_right, exists_or]
    rw [ofSpecifications_append_singleton, at?_insert (ordered_ofSpecifications specs) hq, ih,
      added, lastTemplate?_append_singleton]
    by_cases hpath : q = s.path
    · rw [if_pos hpath, if_pos hpath.symm, if_pos (hmem.2 (.inr (hpath ▸ List.prefix_refl q)))]
    · rw [if_neg hpath, if_neg (Ne.symm hpath)]
      by_cases hfront : q <+: s.path
      · rw [if_pos hfront, if_pos (hmem.2 (.inr hfront))]
        split
        · rfl
        · next hnone => rw [lastTemplate?_eq_none hnone, Option.getD_none]
      · rw [if_neg hfront]
        exact if_congr (hmem.trans (or_iff_left hfront)).symm rfl rfl

theorem mem_fronts_ofSpecifications :
    p ∈ (ofSpecifications specs).fronts ↔ p ≠ [] ∧ ∃ s ∈ specs, p <+: s.path := by
  have hordered := ordered_ofSpecifications specs
  constructor
  · intro hmem
    have hp := ne_nil_of_mem_fronts hordered hmem
    obtain ⟨t, hat⟩ := (mem_fronts_iff hordered).1 hmem
    rw [at?_ofSpecifications specs hp] at hat
    split at hat
    · next h => exact ⟨hp, h⟩
    · exact absurd hat nofun
  · rintro ⟨hp, h⟩
    refine (mem_fronts_iff hordered).2 ⟨lastTemplate? specs p, ?_⟩
    rw [at?_ofSpecifications specs hp, if_pos h]

/-- What comes between a name and one that goes on from it goes on from it too. -/
theorem prefix_of_between (hpr : p < r) (hrq : r < q) (hfront : p <+: q) : p <+: r := by
  induction p generalizing q r with
  | nil => exact List.nil_prefix
  | cons w p ih =>
    cases r with
    | nil => exact absurd hpr (List.not_lt_nil _)
    | cons v r =>
      obtain ⟨q, rfl⟩ : ∃ q', q = w :: q' := by
        obtain ⟨rest, rfl⟩ := hfront
        exact ⟨p ++ rest, rfl⟩
      rcases List.cons_lt_cons_iff.1 hpr with hwv | ⟨rfl, hlt⟩
      · rcases List.cons_lt_cons_iff.1 hrq with hvw | ⟨rfl, _⟩
        · exact absurd hvw (List.lt_asymm hwv)
        · exact absurd hwv (List.lt_irrefl v)
      · rcases List.cons_lt_cons_iff.1 hrq with hww | ⟨_, hlt'⟩
        · exact absurd hww (List.lt_irrefl w)
        · exact List.cons_prefix_cons.2 ⟨rfl, ih hlt hlt' (List.cons_prefix_cons.1 hfront).2⟩

theorem not_lt_of_isPrefix (h : p <+: q) : ¬ q < p := by
  induction p generalizing q with
  | nil => exact List.not_lt_nil q
  | cons w p ih =>
    obtain ⟨rest, rfl⟩ := h
    intro hlt
    rcases List.cons_lt_cons_iff.1 hlt with hww | ⟨_, hlt⟩
    · exact List.lt_irrefl w hww
    · exact ih (List.prefix_append p rest) hlt

/-- In lexicographic order the names that go on from one stand directly behind it. -/
theorem followedByOwn_of_pairwise {names : List (List Text)} (h : names.Pairwise (· < ·)) :
    FollowedByOwn names := by
  rintro before p after rfl
  obtain ⟨_, hafter, hbefore⟩ := List.pairwise_append.1 h
  obtain ⟨hlater, hincreasing⟩ := List.pairwise_cons.1 hafter
  refine ⟨after.takeWhile fun q => decide (p <+: q), after.dropWhile fun q => decide (p <+: q),
    List.takeWhile_append_dropWhile.symm, fun q hq => ?_, fun q hq hfront => ?_⟩
  · exact of_decide_eq_true (List.all_eq_true.1 List.all_takeWhile q hq)
  · rcases List.mem_append.1 hq with hq | hq
    · exact not_lt_of_isPrefix hfront (hbefore q hq p List.mem_cons_self)
    · have hsuffix := List.dropWhile_suffix (fun q => decide (p <+: q)) (l := after)
      have hend := List.head?_dropWhile_not (fun q => decide (p <+: q)) after
      generalize after.dropWhile (fun q => decide (p <+: q)) = rest at hq hsuffix hend
      cases rest with
      | nil => exact List.not_mem_nil hq
      | cons r rest =>
        -- A name behind `r` that goes on from `p` would have `r` between itself and `p`.
        have hr : ¬ p <+: r := of_decide_eq_false hend
        rcases List.mem_cons.1 hq with rfl | hq
        · exact hr hfront
        · have hpr : p < r := hlater r (hsuffix.subset List.mem_cons_self)
          have hrq : r < q :=
            (List.pairwise_cons.1 (hincreasing.sublist hsuffix.sublist)).1 q hq
          exact hr (prefix_of_between hpr hrq hfront)

theorem greatest_congr {names names' : List (List Text)} (h : ∀ q, q ∈ names ↔ q ∈ names') :
    Greatest names p ↔ Greatest names' p :=
  forall_congr' fun q => imp_congr_left (h q)

theorem linesUnder_ofSpecifications (specs : List Specification) :
    linesUnder [] (ofSpecifications specs) = (ofSpecifications specs).fronts.map (line specs) := by
  have hordered := ordered_ofSpecifications specs
  have hnames : ∀ q, q ∈ frontsOf specs ↔ q ∈ (ofSpecifications specs).fronts :=
    fun q => mem_frontsOf.trans mem_fronts_ofSpecifications.symm
  refine linesUnder_eq hordered [] (fun p _ => ?_) fun e he => ?_
  · rw [decide_eq_true_iff]
    exact greatest_congr hnames
  · have hp := ne_nil_of_mem_fronts hordered (List.mem_map_of_mem he)
    have hat := (mem_entries_iff hordered).1 he
    rw [at?_ofSpecifications specs hp] at hat
    split at hat
    · exact Option.some.inj hat
    · exact absurd hat nofun

/-- Specifications of different names have the same lines in any order. -/
theorem line_perm (hpaths : (specs.map (·.path)).Nodup) (hperm : specs'.Perm specs) :
    line specs' = line specs := by
  have hgreatest : (fun p => decide (Greatest (frontsOf specs') p)) =
      fun p => decide (Greatest (frontsOf specs) p) := by
    funext p
    refine decide_eq_decide.2 (greatest_congr fun q => ?_)
    simp only [mem_frontsOf, hperm.mem_iff]
  have htemplate : lastTemplate? specs' = lastTemplate? specs := by
    funext p
    have hpaths' : (specs'.map (·.path)).Nodup := (hperm.map _).nodup_iff.2 hpaths
    refine Option.ext fun t => ?_
    simp only [lastTemplate?_eq_some hpaths, lastTemplate?_eq_some hpaths', hperm.mem_iff]
  rw [line, line, hgreatest, htemplate]

theorem fronts_perm (hperm : specs'.Perm specs) :
    (ofSpecifications specs').fronts = (ofSpecifications specs).fronts := by
  have hincreasing := pairwise_fronts (ordered_ofSpecifications specs)
  have hincreasing' := pairwise_fronts (ordered_ofSpecifications specs')
  refine hincreasing'.eq_of_mem_iff hincreasing fun p => ?_
  simp only [mem_fronts_ofSpecifications, hperm.mem_iff]

/-- The tree of specifications lists each front of a name once, in lexicographic order, so that
directly behind each stand those that go on from it. The line of a front has a guide for each
word above it, blank below the greatest of its siblings, a branch that closes at the greatest of
its siblings, its last word, and the template of the last specification with that name, if there
is one. If the names differ, the order of the specifications does not matter. -/
theorem render_lists_fronts (specs : List Specification) :
    (∃ names : List (List Text), names.Pairwise (· < ·) ∧
      (∀ p, p ∈ names ↔ p ≠ [] ∧ ∃ s ∈ specs, p <+: s.path) ∧ FollowedByOwn names ∧
      linesUnder [] (ofSpecifications specs) = names.map (line specs) ∧
      render specs = ['\n'].intercalate (names.map (line specs))) ∧
    ∀ specs' : List Specification, (specs.map (·.path)).Nodup → specs'.Perm specs →
      render specs' = render specs := by
  have hincreasing := pairwise_fronts (ordered_ofSpecifications specs)
  have hlines := linesUnder_ofSpecifications specs
  refine ⟨⟨_, hincreasing, fun _ => mem_fronts_ofSpecifications,
    followedByOwn_of_pairwise hincreasing, hlines, congrArg _ hlines⟩, ?_⟩
  intro specs' hpaths hperm
  rw [render, render, hlines, linesUnder_ofSpecifications, line_perm hpaths hperm,
    fronts_perm hperm]

/-- Names of which one goes through another, and one through a word that is no name. -/
def dockerAndGit : List Specification :=
  [⟨"docker ps", "docker ps", [], []⟩, ⟨"git st", "git status", [], []⟩,
    ⟨"docker", "docker info", [], []⟩, ⟨"docker ip", "docker inspect ID", [], []⟩]

theorem render_reverse_dockerAndGit :
    (dockerAndGit.map (·.path)).Nodup ∧ render dockerAndGit.reverse = render dockerAndGit ∧
    render dockerAndGit = ['\n'].intercalate ["├─docker [docker info]".toList,
      "│  ├─ip [docker inspect ID]".toList, "│  └─ps [docker ps]".toList, "└─git".toList,
      "   └─st [git status]".toList] := by
  have hpaths : (dockerAndGit.map (·.path)).Nodup := by decide
  obtain ⟨_, horder⟩ := render_lists_fronts dockerAndGit
  exact ⟨hpaths, horder _ hpaths (List.reverse_perm _), by decide⟩

end Names

end NameForest
end TypedCommand
