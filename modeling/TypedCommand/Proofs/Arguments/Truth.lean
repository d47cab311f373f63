import TypedCommand.Proofs.Arguments.Encoding
import TypedCommand.Proofs.Resolution

/-!
What a truth option can be in a call. Any of its flags alone makes it true. A text is given
to it only behind an equals sign, and that is read behind two dashes alone: an option without
a long flag is true wherever it occurs, and has its default elsewhere.
-/

namespace TypedCommand

open Parameter Specification

def Parameter.long? (p : Parameter) : Option Text := p.flags? >>= (·.long)

namespace Arguments

open TypedCommand.Group Invocation

theorem get?_give (a : Arguments) (p : Parameter) (text name : Text) :
    (a.give p text).values.get? name =
      if name = p.name then some text else a.values.get? name :=
  SortedMap.get?_insert a.values p.name name text

def value? (a : Arguments) (p : Parameter) : Option Value :=
  match a.values.get? p.name with
  | some text => p.kind.read? text
  | none => p.default

/-- It is the value in the context that a call is converted to. -/
theorem value?_of_resolved {ps : List Parameter} {a : Arguments} {context : Context}
    (h : Resolved a ps context) {p : Parameter} (hp : p ∈ ps) (hvariadic : p.isVariadic = false) :
    Invocation.value? context p = a.value? p := by
  unfold Invocation.value? value?
  cases htext : a.values.get? p.name with
  | some text =>
    obtain ⟨v, hread, _, hv⟩ := h.supplied p hp hvariadic text htext
    simp [hread, hv]
  | none =>
    have hnone : context.values.get? p.name = none := h.get?_eq_none htext
    simp [hnone]

/-- Some words of a call are bound, and the parameter has the value then. -/
def CanBe (s : Specification) (p : Parameter) (v : Value) : Prop :=
  ∃ words a, bind s words = .ok (.arguments a) ∧ a.value? p = some v

section Compiled

variable {template declaration : Text} {s : Specification}
  (h : ofText template declaration = .ok s) {p : Parameter} {a : Arguments} {words : List Text}

include h

/-- Where a call is converted, this is the value that goes into the command. -/
theorem valueOf_eq_ok_iff {context : Context} (hp : p ∈ s.parameters)
    (hvariadic : p.isVariadic = false) (hresolve : resolve s a = .ok context) (v : Value) :
    valueOf s context p.name = .ok v ↔ a.value? p = some v := by
  have hresolved := resolved_of_resolve h hresolve
  have hvalue := value?_of_resolved hresolved hp hvariadic
  rw [valueOf_eq_ok (parameters_of_ofText h).2.1.names hp, hvalue]
  refine ⟨And.left, fun hv => ⟨hv, ?_⟩⟩
  obtain ⟨w, hw, hkind⟩ := hresolved.exists_value h hp hvariadic
  rw [hvalue, hv] at hw
  rwa [Option.some.inj hw]

omit h in
/-- A long flag is the only one that begins with two dashes. -/
theorem long?_eq_some (hforms : ∀ p ∈ s.parameters, p.WellFormed) {flag : Text}
    (hdeclares : Declares s flag p) (hdashes : "--".toList <+: flag) : p.long? = some flag := by
  obtain ⟨hmem, flags, hflags, hflag⟩ := hdeclares
  have hform := (hforms p hmem).flags flags hflags
  rcases List.mem_append.1 hflag with hshort | hlong
  · obtain ⟨name, rfl, hname⟩ := hform.short _ (Option.mem_toList.1 hshort)
    obtain ⟨rest, hrest⟩ := hdashes
    have hdash : name = '-' :: rest := (List.cons.inj hrest).2.symm
    exact absurd (hdash ▸ rfl) hname.no_dash
  · simp [long?, hflags, Option.mem_toList.1 hlong]

omit h in
/-- Without a long flag nothing but true is given to a truth option. -/
theorem text_eq_true (hforms : ∀ p ∈ s.parameters, p.WellFormed) (hp : p ∈ s.options)
    (hbool : p.kind = .bool) (hlong : p.long? = none) {g : Group} (hg : g.Declared s) {text : Text}
    (hgiven : g.given? = some (p, text)) : text = "true".toList := by
  cases g with
  | terminator | leftover => exact absurd hgiven nofun
  | switch flag option =>
    obtain ⟨_, rfl⟩ := Prod.mk.inj (Option.some.inj hgiven)
    rfl
  | inline flag value option =>
    obtain ⟨rfl, _⟩ := Prod.mk.inj (Option.some.inj hgiven)
    exact absurd (hlong.symm.trans (long?_eq_some hforms hg.1 hg.2.1)) nofun
  | valued flag value option =>
    obtain ⟨rfl, _⟩ := Prod.mk.inj (Option.some.inj hgiven)
    exact absurd hbool hg.2
  | positional word parameter =>
    obtain ⟨rfl, _⟩ := Prod.mk.inj (Option.some.inj hgiven)
    exact absurd rfl (ne_of_positional hg hp)

/-- Without a long flag a truth option is true or what it is by default, whatever the words of
a call are. -/
theorem value?_of_no_long (hp : p ∈ s.options) (hbool : p.kind = .bool) (hlong : p.long? = none)
    (hbind : bind s words = .ok (.arguments a)) :
    a.value? p = some (.bool true) ∨ a.value? p = p.default := by
  obtain ⟨hforms, hdistinct, _⟩ := parameters_of_ofText h
  obtain ⟨progress, hrun, _, rfl⟩ := bind_eq_arguments.1 hbind
  obtain ⟨groups, hreached⟩ := reached_of_foldlM hforms (reached_start s) hrun
  unfold value?
  cases htext : progress.given.values.get? p.name with
  | none => exact Or.inr rfl
  | some text =>
    left
    obtain ⟨q, hq, hname, g, hg, hgiven⟩ := hreached.exists_of_get? htext
    have hqp : q = p :=
      List.inj_on_of_nodup_map hdistinct.names hq (List.mem_of_mem_filter hp) hname
    subst hqp
    rw [text_eq_true hforms hp hbool hlong (hreached.declared g hg) hgiven, hbool]
    rfl

/-- The words of one option group are a call that gives its text to the option. -/
theorem value?_of_words {g : Group} (hg : g.Declared s) (hoption : g.isOption = true)
    {text : Text} (hgiven : g.given? = some (p, text)) :
    ∃ a, bind s g.words = .ok (.arguments a) ∧ a.value? p = p.kind.read? text := by
  obtain ⟨hforms, hdistinct, _⟩ := parameters_of_ofText h
  have hrun := foldlM_option (p := { waiting := s.positionals }) hforms hdistinct.flags hg hoption
    rfl rfl
  refine ⟨gather {} g, bind_eq_arguments.2 ⟨_, hrun, rfl, rfl⟩, ?_⟩
  have hgather : gather {} g = ({} : Arguments).give p text := by
    unfold gather
    rw [hgiven]
  have htext : (gather {} g).values.get? p.name = some text := by
    rw [hgather, get?_give, if_pos rfl]
  unfold value?
  rw [htext]

theorem canBe_true (hp : p ∈ s.options) (hbool : p.kind = .bool) : CanBe s p (.bool true) := by
  obtain ⟨hforms, _⟩ := parameters_of_ofText h
  obtain ⟨hmem, hisOption⟩ := List.mem_filter.1 hp
  obtain ⟨flags, hflags⟩ := Option.isSome_iff_exists.1 hisOption
  obtain ⟨flag, hflag⟩ :=
    List.exists_mem_of_ne_nil _ ((hforms p hmem).flags flags hflags).present
  have hgroup : (Group.switch flag p).Declared s := ⟨⟨hmem, flags, hflags, hflag⟩, hbool⟩
  obtain ⟨a, hbind, hvalue⟩ := value?_of_words h hgroup rfl rfl
  refine ⟨_, a, hbind, ?_⟩
  rw [hvalue, hbool]
  rfl

theorem canBe_false (hp : p ∈ s.options) (hbool : p.kind = .bool) (hlong : p.long? ≠ none) :
    CanBe s p (.bool false) := by
  obtain ⟨hforms, _⟩ := parameters_of_ofText h
  obtain ⟨long, hlong⟩ := Option.ne_none_iff_exists'.1 hlong
  obtain ⟨flags, hflags, hflag⟩ := Option.bind_eq_some_iff.1 hlong
  have hgroup : (Group.inline long "false" p).Declared s :=
    declared_of_spells hforms (.inline (List.mem_of_mem_filter hp) hflags hflag hbool)
  obtain ⟨a, hbind, hvalue⟩ := value?_of_words h hgroup rfl rfl
  refine ⟨_, a, hbind, ?_⟩
  rw [hvalue, hbool]
  rfl

/-- Each truth option can be made true. It can be made false exactly if it has a long flag or is
false by default; and what it is made is the value that goes into the command. -/
theorem canBe_iff (hp : p ∈ s.options) (hbool : p.kind = .bool) :
    (∀ b, CanBe s p (.bool b) ↔
      b = true ∨ p.long? ≠ none ∨ p.default = some (.bool false)) ∧
    ∀ a context, resolve s a = .ok context →
      ∀ v, valueOf s context p.name = .ok v ↔ a.value? p = some v := by
  refine ⟨fun b => ⟨?_, ?_⟩, fun a context hresolve v =>
    valueOf_eq_ok_iff h (List.mem_of_mem_filter hp) (isVariadic_of_mem_options hp) hresolve v⟩
  · rintro ⟨words, a, hbind, hvalue⟩
    cases hlong : p.long? with
    | some long => exact Or.inr (Or.inl nofun)
    | none =>
      rcases value?_of_no_long h hp hbool hlong hbind with htrue | hdefault
      · exact Or.inl (Value.bool.inj (Option.some.inj (hvalue.symm.trans htrue)))
      · cases b with
        | true => exact Or.inl rfl
        | false => exact Or.inr (Or.inr (hdefault.symm.trans hvalue))
  · intro hcase
    cases b with
    | true => exact canBe_true h hp hbool
    | false =>
      rcases hcase.resolve_left Bool.false_ne_true with hlong | hdefault
      · exact canBe_false h hp hbool hlong
      · exact ⟨[], {}, rfl, hdefault⟩

end Compiled

def verbose : Parameter :=
  ⟨"v", "--verbose", .bool, some (.bool true), none, .forwarded ⟨some "-v", none⟩⟩

def quiet : Parameter :=
  ⟨"quiet", "--quiet", .bool, some (.bool true), none, .forwarded ⟨some "-q", some "--quiet"⟩⟩

def sync : Specification where
  commandName := "sync"
  template := "rsync"
  parameters := [verbose, quiet]
  plan := [.appendFlag "--verbose" "v", .appendFlag "--quiet" "quiet"]

theorem ofText_sync : ofText "rsync"
    "just sync --verbose[-v:bool=true] --quiet[-q/--quiet:bool=true]" = .ok sync := by
  decide +kernel

/-- No words make the one false, and some make the other so. -/
theorem canBe_iff_sync :
    ¬ CanBe sync verbose (.bool false) ∧ CanBe sync quiet (.bool false) := by
  obtain ⟨hverbose, _⟩ := canBe_iff ofText_sync (p := verbose) (by decide) rfl
  obtain ⟨hquiet, _⟩ := canBe_iff ofText_sync (p := quiet) (by decide) rfl
  constructor
  · intro hfalse
    exact absurd ((hverbose false).1 hfalse) (by decide)
  · exact (hquiet false).2 (by decide)

/-- Not every truth option can be made false. -/
theorem not_canBe_both : ¬ ∀ (template declaration : Text) (s : Specification),
    ofText template declaration = .ok s → ∀ p ∈ s.options, p.kind = .bool →
      ∀ b, CanBe s p (.bool b) := by
  intro hall
  have hmem : verbose ∈ sync.options := by decide
  obtain ⟨words, a, hbind, hfalse⟩ := hall _ _ sync ofText_sync verbose hmem rfl false
  rcases value?_of_no_long ofText_sync hmem rfl rfl hbind with htrue | hdefault
  · exact absurd (htrue.symm.trans hfalse) (by decide)
  · exact absurd (hdefault.symm.trans hfalse) (by decide)

end Arguments
end TypedCommand
