import TypedCommand.Proofs.Checked
import TypedCommand.Proofs.Settled
import TypedCommand.Proofs.Toml.Document
import TypedCommand.Proofs.Toml.Tree
import TypedCommand.Registry.Format

/-!
A registry is read back from its text as it was, settled. Each record is a document of its
own below the key that it stands under, so the records are read back one by one, and the
registry from the tables of its specifications.
-/

namespace TypedCommand

open Toml Toml.Entries

def Registry.settle (r : Registry) : Registry where
  entries := r.entries.map fun (name, s) => (name, s.settle)
  increasing := List.pairwise_map.2 (r.increasing.imp fun h => h)

namespace Registry.Format

def textEntry (key value : Text) : Text × Node := (key, .scalar (.string value))

def optionalEntry (key : Text) (value : Option Text) : Entries :=
  value.toList.map (textEntry key)

def patternEntries (p : Pattern) : Entries :=
  [textEntry "pattern" (patternName p)] ++
    match p.flags? with
    | none => []
    | some flags => [("flags".toList, .table .header
        (optionalEntry "short" flags.short ++ optionalEntry "long" flags.long))]

def parameterPairs (p : Parameter) : Entries :=
  [textEntry "name" p.name, textEntry "marker" p.marker, textEntry "type" p.kind.name] ++
    (p.default.toList.map fun v => ("default".toList, .scalar (scalarOf v))) ++
    optionalEntry "help" p.help

def parameterEntries (p : Parameter) : Entries :=
  parameterPairs p ++ [("kind".toList, .table .header (patternEntries p.pattern))]

def stepEntries : Step → Entries
  | .replace marker param =>
    [textEntry "op" "replace", textEntry "marker" marker, textEntry "param" param]
  | .appendFlag flag param =>
    [textEntry "op" "append_flag", textEntry "flag" flag, textEntry "param" param]
  | .captureRemaining marker param =>
    textEntry "op" "capture_remaining" :: optionalEntry "marker" marker ++
      [textEntry "param" param]

def emptyEntries {α : Type} (key : Text) (items : List α) : Entries :=
  if items.isEmpty then [(key, .array [])] else []

def specificationPairs (s : Specification) : Entries :=
  [textEntry "command_name" s.commandName, textEntry "template" s.template] ++
    emptyEntries "parameters" s.parameters ++ emptyEntries "plan" s.plan

def specificationEntries (s : Specification) : Entries :=
  specificationPairs s ++ (itemEntries "parameters" parameterEntries s.parameters ++
    itemEntries "plan" stepEntries s.plan)

def pairsOf (entries : Entries) : List Statement := entries.map fun e => .pair [e.1] e.2

theorem optionalText_eq (key : Text) (value : Option Text) :
    optionalText key value = pairsOf (optionalEntry key value) := by
  cases value <;> rfl

theorem emptyList_eq {α : Type} (key : Text) (items : List α) :
    emptyList key items = pairsOf (emptyEntries key items) := by
  cases items <;> rfl

theorem stepPairs_eq (s : Step) : stepPairs s = pairsOf (stepEntries s) := by
  cases s with
  | replace marker param => rfl
  | appendFlag flag param => rfl
  | captureRemaining marker param => cases marker <;> rfl

theorem map_below_pairsOf (path : List Text) (entries : Entries) :
    (pairsOf entries).map (Statement.below path) = pairsOf entries := by
  rw [pairsOf, List.map_map]
  rfl

theorem map_below_append (path path' : List Text) (statements : List Statement) :
    statements.map (Statement.below (path ++ path')) =
      (statements.map (Statement.below path')).map (Statement.below path) := by
  rw [List.map_map]
  refine List.map_congr_left fun s _ => ?_
  cases s <;> simp [Statement.below]

/-- Pairs alone make up a document. -/
theorem builds_pairsOf {entries : Entries} (h : (entries.map Prod.fst).Nodup) :
    Builds (pairsOf entries) entries := by
  have hbuilds : Builds (pairsOf entries ++ []) (entries ++ []) :=
    builds_of_adds adds_nil (by rwa [List.append_nil])
  rwa [List.append_nil, List.append_nil] at hbuilds

def patternBody (p : Pattern) : List Statement :=
  pairsOf [textEntry "pattern" (patternName p)] ++
    match p.flags? with
    | none => []
    | some flags => .header ["flags".toList] ::
        (pairsOf (optionalEntry "short" flags.short ++ optionalEntry "long" flags.long)).map
          (Statement.below ["flags".toList])

def parameterBody (p : Parameter) : List Statement :=
  pairsOf (parameterPairs p) ++
    .header ["kind".toList] :: (patternBody p.pattern).map (Statement.below ["kind".toList])

def specificationBody (s : Specification) : List Statement :=
  pairsOf (specificationPairs s) ++
    (itemStatements "parameters" parameterBody s.parameters ++
      itemStatements "plan" (fun step => pairsOf (stepEntries step)) s.plan)

theorem ofPattern_eq (path : List Text) (p : Pattern) :
    ofPattern path p = (.header ["kind".toList] ::
      (patternBody p).map (Statement.below ["kind".toList])).map (Statement.below path) := by
  unfold ofPattern patternBody
  cases p.flags? with
  | none => rfl
  | some flags =>
    simp only [optionalText_eq, pairsOf, List.map_append, List.map_cons, List.map_map,
      Statement.below, List.map_nil]
    rfl

theorem ofParameter_eq (path : List Text) (p : Parameter) :
    ofParameter path p = (.arrayHeader ["parameters".toList] ::
      (parameterBody p).map (Statement.below ["parameters".toList])).map
        (Statement.below path) := by
  have hpairs : [textPair "name" p.name, textPair "marker" p.marker, textPair "type" p.kind.name] ++
      (p.default.toList.map fun v => pair "default" (scalarOf v)) ++ optionalText "help" p.help =
        pairsOf (parameterPairs p) := by
    rw [parameterPairs, optionalText_eq, pairsOf, pairsOf, List.map_append, List.map_append,
      List.map_map]
    rfl
  have hbody : (parameterBody p).map (Statement.below ["parameters".toList]) =
      pairsOf (parameterPairs p) ++ ofPattern ["parameters".toList] p.pattern := by
    rw [parameterBody, List.map_append, map_below_pairsOf, ofPattern_eq]
  have hpattern : (ofPattern ["parameters".toList] p.pattern).map (Statement.below path) =
      ofPattern (path ++ ["parameters".toList]) p.pattern := by
    rw [ofPattern_eq (path ++ _), map_below_append, ← ofPattern_eq]
  rw [hbody, List.map_cons, List.map_append, map_below_pairsOf, hpattern, ← hpairs]
  simp only [ofParameter, Statement.below, List.cons_append, List.nil_append, List.append_assoc]

theorem ofStep_eq (path : List Text) (s : Step) :
    ofStep path s = (.arrayHeader ["plan".toList] ::
      (pairsOf (stepEntries s)).map (Statement.below ["plan".toList])).map
        (Statement.below path) := by
  rw [ofStep, stepPairs_eq, List.map_cons, map_below_pairsOf, map_below_pairsOf]
  rfl

theorem ofSpecification_eq (path : List Text) (s : Specification) :
    ofSpecification path s = (specificationBody s).map (Statement.below path) := by
  have hpairs : [textPair "command_name" s.commandName, textPair "template" s.template] ++
      emptyList "parameters" s.parameters ++ emptyList "plan" s.plan =
        pairsOf (specificationPairs s) := by
    rw [specificationPairs, emptyList_eq, emptyList_eq, pairsOf, pairsOf, pairsOf,
      List.map_append, List.map_append]
    rfl
  have hparameters : s.parameters.flatMap (ofParameter path) =
      (itemStatements "parameters" parameterBody s.parameters).map (Statement.below path) := by
    rw [itemStatements, List.map_flatMap]
    exact congrArg s.parameters.flatMap (funext (ofParameter_eq path))
  have hplan : s.plan.flatMap (ofStep path) =
      (itemStatements "plan" (fun step => pairsOf (stepEntries step)) s.plan).map
        (Statement.below path) := by
    rw [itemStatements, List.map_flatMap]
    exact congrArg s.plan.flatMap (funext (ofStep_eq path))
  rw [ofSpecification, hpairs, hparameters, hplan, specificationBody, List.map_append,
    List.map_append, map_below_pairsOf, List.append_assoc]

theorem builds_patternBody (p : Pattern) : Builds (patternBody p) (patternEntries p) := by
  unfold patternBody patternEntries
  cases p.flags? with
  | none => exact builds_of_adds adds_nil (by simp)
  | some flags =>
    have hflags : Builds (pairsOf (optionalEntry "short" flags.short ++
        optionalEntry "long" flags.long))
          (optionalEntry "short" flags.short ++ optionalEntry "long" flags.long) :=
      builds_pairsOf (by
        cases flags.short <;> cases flags.long <;> simp [optionalEntry, textEntry])
    exact builds_of_adds (adds_table hflags _) (by simp [textEntry])

theorem builds_parameterBody (p : Parameter) : Builds (parameterBody p) (parameterEntries p) := by
  refine builds_of_adds (adds_table (builds_patternBody p.pattern) _) ?_
  cases hdefault : p.default <;> cases hhelp : p.help <;>
    simp [parameterPairs, optionalEntry, textEntry, hdefault, hhelp]

theorem builds_step (s : Step) : Builds (pairsOf (stepEntries s)) (stepEntries s) := by
  refine builds_pairsOf ?_
  cases s with
  | replace marker param => simp [stepEntries, textEntry]
  | appendFlag flag param => simp [stepEntries, textEntry]
  | captureRemaining marker param =>
    cases marker <;> simp [stepEntries, optionalEntry, textEntry]

theorem builds_specificationBody (s : Specification) :
    Builds (specificationBody s) (specificationEntries s) := by
  have hnodup : ((specificationPairs s ++ (itemEntries "parameters" parameterEntries
      s.parameters ++ itemEntries "plan" stepEntries s.plan)).map Prod.fst).Nodup := by
    cases hparameters : s.parameters <;> cases hplan : s.plan <;>
      simp [specificationPairs, emptyEntries, itemEntries, textEntry, hparameters, hplan]
  have hitems := hnodup
  rw [List.map_append, List.nodup_append] at hitems
  exact builds_of_adds (adds_append (adds_items (fun p _ => builds_parameterBody p) _)
    (adds_items (fun step _ => builds_step step) _) hitems.2.1) hnodup

theorem nodup_names (r : Registry) : (r.entries.map Prod.fst).Nodup := by
  refine List.pairwise_map.2 (r.increasing.imp fun h heq => ?_)
  rw [heq] at h
  exact List.lt_irrefl _ h

def registryEntries (r : Registry) : Entries :=
  r.entries.map fun e => (e.1, .table .header (specificationEntries e.2))

/-- The tree of a registry's document. -/
theorem ofStatements_statements (r : Registry) :
    ∃ origin, ofStatements (statements r) =
      some [(rootKey, .table origin (registryEntries r))] := by
  cases hentries : r.entries with
  | nil =>
    refine ⟨.header, ?_⟩
    rw [statements, registryEntries, hentries]
    rfl
  | cons e rest =>
    refine ⟨.implied, ?_⟩
    have hstatements : statements r = (r.entries.flatMap fun e => .header [e.1] ::
        (specificationBody e.2).map (Statement.below [e.1])).map (Statement.below [rootKey]) := by
      rw [statements, if_neg (by simp [hentries]), List.map_flatMap]
      refine congrArg r.entries.flatMap (funext fun ⟨name, s⟩ => ?_)
      dsimp only
      rw [ofSpecification_eq, List.map_cons, ← map_below_append]
      rfl
    have hadds := adds_tables (fun e _ => builds_specificationBody e.2) (nodup_names r)
    rw [hstatements, ofStatements_below hadds (List.cons_ne_nil e.1 []) (by rw [hentries]; rfl),
      registryEntries, hentries]

theorem value?_scalarOf (v : Value) : value? (.scalar (scalarOf v)) = some v := by
  cases v with
  | int n =>
    have hbound : Text.isInt64 n.toInt = true := by
      have hlower := n.le_toInt
      have hupper := n.toInt_lt
      simp only [Text.isInt64, Bool.and_eq_true, decide_eq_true_eq]
      omega
    simp [scalarOf, value?, hbound]
  | str t => rfl
  | float x => rfl
  | bool b => rfl

theorem kind?_name (k : Kind) : kind? (.scalar (.string k.name)) = some k := by
  cases k <;> rfl

theorem pattern?_patternEntries (p : Pattern) :
    pattern? (.table .header (patternEntries p)) = some p := by
  cases p with
  | positional => rfl
  | variadic => rfl
  | option flags =>
    obtain ⟨short, long⟩ := flags
    cases short <;> cases long <;> rfl
  | forwarded flags =>
    obtain ⟨short, long⟩ := flags
    cases short <;> cases long <;> rfl

theorem step?_stepEntries (s : Step) : step? (.table .header (stepEntries s)) = some s := by
  cases s with
  | replace marker param => rfl
  | appendFlag flag param => rfl
  | captureRemaining marker param => cases marker <;> rfl

theorem parameter?_parameterEntries (p : Parameter) :
    parameter? (.table .header (parameterEntries p)) = some p := by
  obtain ⟨name, marker, kind, default, help, pattern⟩ := p
  let entries := parameterEntries ⟨name, marker, kind, default, help, pattern⟩
  have hfields : fields? ["name".toList, "marker".toList, "type".toList, "default".toList,
      "help".toList, "kind".toList] (.table .header entries) = some (get? entries) := by
    cases default <;> cases help <;> rfl
  have hdefault : get? entries "default" = default.map fun v => .scalar (scalarOf v) := by
    cases default <;> cases help <;> rfl
  have hhelp : optional (get? entries) "help" = some help := by
    cases default <;> cases help <;> rfl
  have hpattern : get? entries "kind" = some (.table .header (patternEntries pattern)) := by
    cases default <;> cases help <;> rfl
  have hname : required (get? entries) "name" = some name := rfl
  have hmarker : required (get? entries) "marker" = some marker := rfl
  have htype : get? entries "type" = some (.scalar (.string kind.name)) := rfl
  rw [parameter?, hfields]
  simp only [Option.bind_eq_bind, Option.bind_some, hname, hmarker, htype, hdefault, hhelp,
    hpattern, kind?_name, pattern?_patternEntries]
  cases default with
  | none => rfl
  | some value =>
    simp only [Option.map_some, value?_scalarOf]
    rfl

theorem mapM_of_forall {α β : Type} {f : α → Option β} {g : β → α} (h : ∀ b, f (g b) = some b)
    (items : List β) : (items.map g).mapM f = some items := by
  rw [List.mapM_map, mapM_eq_pure (f := f ∘ g) (g := id) fun b _ => h b, List.map_id]
  rfl

/-- A list of records: an array of tables, or an empty array. -/
def listNode {α : Type} (content : α → Entries) (list : List α) : Node :=
  if list.isEmpty then .array [] else .tables (list.map content)

theorem items_listNode {α : Type} {content : α → Entries} {list : List α}
    {get : Text → Option Node} {key : Text} (h : get key = some (listNode content list)) :
    items get key = some (list.map fun a => .table .header (content a)) := by
  rw [items, h]
  cases list with
  | nil => rfl
  | cons a list =>
    simp only [listNode, List.isEmpty_cons, Bool.false_eq_true, if_false, List.map_map]
    rfl

theorem specification?_specificationEntries (s : Specification) :
    specification? (.table .header (specificationEntries s)) = some s := by
  obtain ⟨commandName, template, parameters, plan⟩ := s
  let entries := specificationEntries ⟨commandName, template, parameters, plan⟩
  have hfields : fields? ["command_name".toList, "template".toList, "parameters".toList,
      "plan".toList] (.table .header entries) = some (get? entries) := by
    cases parameters <;> cases plan <;> rfl
  have hname : required (get? entries) "command_name" = some commandName := by
    cases parameters <;> cases plan <;> rfl
  have htemplate : required (get? entries) "template" = some template := by
    cases parameters <;> cases plan <;> rfl
  have hparameters : get? entries "parameters" = some (listNode parameterEntries parameters) := by
    cases parameters <;> cases plan <;> rfl
  have hplan : get? entries "plan" = some (listNode stepEntries plan) := by
    cases parameters <;> cases plan <;> rfl
  rw [specification?, hfields]
  simp only [Option.bind_eq_bind, Option.bind_some, hname, htemplate,
    items_listNode hparameters, items_listNode hplan]
  rw [mapM_of_forall parameter?_parameterEntries, mapM_of_forall step?_stepEntries]
  rfl

/-- The registry of its own tree. -/
theorem registry?_registryEntries (origin : Origin) (r : Registry) :
    registry? [(rootKey, .table origin (registryEntries r))] = some r := by
  have hspecs : (registryEntries r).mapM (fun e : Text × Node => do
      return (e.1, ← specification? e.2)) = some r.entries := by
    refine mapM_of_forall (fun e => ?_) r.entries
    dsimp only
    rw [specification?_specificationEntries]
    rfl
  have hget : get? [(rootKey, .table origin (registryEntries r))] rootKey =
      some (.table origin (registryEntries r)) := by
    simp [get?]
  have hreadable : isReadableBeside [rootKey] [(rootKey, .table origin (registryEntries r))] =
      true := rfl
  unfold registry?
  rw [if_pos hreadable, hget]
  change ((registryEntries r).mapM fun e : Text × Node => do
    return (e.1, ← specification? e.2)).bind (fun specs => some (SortedMap.ofList specs)) = some r
  rw [hspecs, Option.bind_some, SortedMap.ofList_entries]

section Settle

theorem map_settle_optionalText (key : Text) (value : Option Text) :
    (optionalText key value).map Statement.settle = optionalText key value := by
  cases value <;> rfl

theorem map_settle_ofPattern (path : List Text) (p : Pattern) :
    (ofPattern path p).map Statement.settle = ofPattern path p := by
  unfold ofPattern
  cases p.flags? with
  | none => rfl
  | some flags =>
    simp only [List.map_append, List.map_cons, map_settle_optionalText]
    rfl

theorem map_settle_ofParameter (path : List Text) (p : Parameter) :
    (ofParameter path p).map Statement.settle = ofParameter path p.settle := by
  have hscalar : ∀ v : Value, (scalarOf v).settle = scalarOf v.settle := fun v => by
    cases v <;> rfl
  have hdefault : (p.default.toList.map fun v => pair "default" (scalarOf v)).map
      Statement.settle = p.settle.default.toList.map fun v => pair "default" (scalarOf v) := by
    cases hdefault : p.default with
    | none => simp [Parameter.settle, hdefault]
    | some v =>
      simp [Parameter.settle, hdefault, pair, Statement.settle, Node.settle, hscalar]
  simp only [ofParameter, List.map_append, List.map_cons, map_settle_optionalText,
    map_settle_ofPattern, hdefault]
  rfl

theorem map_settle_ofStep (path : List Text) (s : Step) :
    (ofStep path s).map Statement.settle = ofStep path s := by
  cases s with
  | replace marker param => rfl
  | appendFlag flag param => rfl
  | captureRemaining marker param => cases marker <;> rfl

theorem map_settle_ofSpecification (path : List Text) (s : Specification) :
    (ofSpecification path s).map Statement.settle = ofSpecification path s.settle := by
  have hlist : ∀ {α : Type} (key : Text) (items : List α),
      (emptyList key items).map Statement.settle = emptyList key items := by
    intro α key items
    cases items <;> rfl
  have hparameters : emptyList "parameters" s.settle.parameters =
      emptyList "parameters" s.parameters := by
    cases hparameters : s.parameters <;> simp [Specification.settle, hparameters, emptyList]
  simp only [ofSpecification, List.map_append, List.map_flatMap, hlist, hparameters,
    map_settle_ofParameter, map_settle_ofStep]
  simp only [Specification.settle, List.flatMap_map]
  rfl

/-- Writing settles the values of a registry and changes nothing else. -/
theorem map_settle_statements (r : Registry) :
    (statements r).map Statement.settle = statements r.settle := by
  have hempty : r.settle.entries.isEmpty = r.entries.isEmpty := List.isEmpty_map
  rw [statements, statements, hempty]
  split
  · rfl
  · rw [List.map_flatMap, Registry.settle, List.flatMap_map]
    refine congrArg r.entries.flatMap (funext fun ⟨name, s⟩ => ?_)
    dsimp only
    rw [List.map_cons, map_settle_ofSpecification]
    rfl

end Settle

section IsWritten

theorem isWritten_pair (key : Text) {value : Scalar} (h : value.IsWritten) :
    (pair key value).IsWritten :=
  ⟨List.cons_ne_nil _ _, Nat.le_of_ble_eq_true rfl, h⟩

theorem isWritten_textPair (key value : Text) : (textPair key value).IsWritten :=
  isWritten_pair key trivial

theorem isWritten_scalarOf (v : Value) : (scalarOf v).IsWritten := by
  cases v with
  | int n =>
    have hlower := n.le_toInt
    have hupper := n.toInt_lt
    simp only [scalarOf, Scalar.IsWritten, isIntegerInRange, Bool.and_eq_true, decide_eq_true_eq]
    omega
  | str t => trivial
  | float x => trivial
  | bool b => trivial

theorem isWritten_optionalText (key : Text) (value : Option Text) :
    ∀ s ∈ optionalText key value, s.IsWritten := by
  cases value with
  | none => simp [optionalText]
  | some value => simp [optionalText, isWritten_textPair]

theorem isWritten_ofPattern {path : List Text} (h : path.length ≤ 3) (p : Pattern) :
    ∀ s ∈ ofPattern path p, s.IsWritten := by
  have hheader : ∀ names : List Text, names ≠ [] → names.length ≤ 2 →
      (Statement.header (path ++ names)).IsWritten := by
    intro names hne hlength
    refine ⟨List.append_ne_nil_of_right_ne_nil _ hne, ?_⟩
    rw [List.length_append, depthLimit]
    omega
  have hkind := hheader ["kind".toList] (by simp) (by simp)
  have hflags := hheader ["kind".toList, "flags".toList] (by simp) (by simp)
  unfold ofPattern
  simp only [List.forall_mem_append, List.forall_mem_cons]
  refine ⟨⟨hkind, isWritten_textPair _ _, List.forall_mem_nil _⟩, ?_⟩
  cases p.flags? with
  | none => simp
  | some flags =>
    simp only [List.forall_mem_append, List.forall_mem_cons]
    exact ⟨hflags, isWritten_optionalText _ _, isWritten_optionalText _ _⟩

theorem isWritten_ofParameter {path : List Text} (h : path.length ≤ 2) (p : Parameter) :
    ∀ s ∈ ofParameter path p, s.IsWritten := by
  have hlength : (path ++ ["parameters".toList]).length ≤ 3 := by
    rw [List.length_append, List.length_singleton]
    omega
  have hdefault : ∀ s ∈ p.default.toList.map fun v => pair "default" (scalarOf v), s.IsWritten := by
    intro s hs
    obtain ⟨v, _, rfl⟩ := List.mem_map.1 hs
    exact isWritten_pair _ (isWritten_scalarOf v)
  simp only [ofParameter, List.forall_mem_append, List.forall_mem_cons]
  exact ⟨⟨⟨⟨⟨by simp, hlength.trans (by decide)⟩, isWritten_textPair _ _, isWritten_textPair _ _,
    isWritten_textPair _ _, List.forall_mem_nil _⟩, hdefault⟩, isWritten_optionalText _ _⟩,
    isWritten_ofPattern hlength p.pattern⟩

theorem isWritten_ofStep {path : List Text} (h : path.length ≤ 2) (s : Step) :
    ∀ x ∈ ofStep path s, x.IsWritten := by
  have hlength : (path ++ ["plan".toList]).length ≤ depthLimit := by
    rw [List.length_append, List.length_singleton, depthLimit]
    omega
  rw [ofStep, List.forall_mem_cons]
  refine ⟨⟨by simp, hlength⟩, ?_⟩
  cases s with
  | replace marker param => simp [stepPairs, isWritten_textPair]
  | appendFlag flag param => simp [stepPairs, isWritten_textPair]
  | captureRemaining marker param =>
    simp only [stepPairs, List.forall_mem_append, List.forall_mem_cons, List.cons_append]
    exact ⟨isWritten_textPair _ _, isWritten_optionalText _ _, isWritten_textPair _ _,
      List.forall_mem_nil _⟩

theorem isWritten_emptyList {α : Type} (key : Text) (items : List α) :
    ∀ s ∈ emptyList key items, s.IsWritten := by
  cases items with
  | nil =>
    simp only [emptyList, List.isEmpty_nil, if_true, List.forall_mem_singleton]
    exact ⟨List.cons_ne_nil _ _, Nat.le_of_ble_eq_true rfl, trivial⟩
  | cons a items => simp [emptyList]

theorem isWritten_ofSpecification {path : List Text} (h : path.length ≤ 2) (s : Specification) :
    ∀ x ∈ ofSpecification path s, x.IsWritten := by
  simp only [ofSpecification, List.forall_mem_append, List.forall_mem_cons]
  refine ⟨⟨⟨⟨⟨isWritten_textPair _ _, isWritten_textPair _ _, List.forall_mem_nil _⟩,
    isWritten_emptyList _ _⟩, isWritten_emptyList _ _⟩, fun x hx => ?_⟩, fun x hx => ?_⟩
  · obtain ⟨p, _, hx⟩ := List.mem_flatMap.1 hx
    exact isWritten_ofParameter h p x hx
  · obtain ⟨step, _, hx⟩ := List.mem_flatMap.1 hx
    exact isWritten_ofStep h step x hx

theorem isWritten_statements (r : Registry) : ∀ s ∈ statements r, s.IsWritten := by
  unfold statements
  split
  · rw [List.forall_mem_singleton]
    exact ⟨List.cons_ne_nil _ _, Nat.le_of_ble_eq_true rfl⟩
  · intro s hs
    obtain ⟨⟨name, specification⟩, _, hs⟩ := List.mem_flatMap.1 hs
    rcases List.mem_cons.1 hs with rfl | hs
    · exact ⟨List.cons_ne_nil _ _, Nat.le_of_ble_eq_true rfl⟩
    · exact isWritten_ofSpecification (show [rootKey, name].length ≤ 2 from Nat.le_refl 2)
        specification s hs

end IsWritten

/-- A registry is read back from its text, settled. -/
theorem read?_write (r : Registry) : read? (write r) = some r.settle := by
  obtain ⟨origin, hentries⟩ := ofStatements_statements r.settle
  rw [read?, write, read?_writeDocument (isWritten_statements r), map_settle_statements, hentries]
  exact registry?_registryEntries origin r.settle

/-- A registry has the text of what is left of it. -/
theorem write_settle (r : Registry) : write r.settle = write r := by
  rw [write, write, ← map_settle_statements, writeDocument_settle]

end Registry.Format
end TypedCommand
