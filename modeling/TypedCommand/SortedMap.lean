import TypedCommand.Text

/-!
Finite maps from texts, with their entries in the order of the keys. Keys are
compared character by character, by code point, so that equal contents are equal
maps whatever the history of insertions was. The equations of `get?` say what each
operation does to the map as a function of its keys.
-/

namespace TypedCommand

def Increasing {α : Type} (entries : List (Text × α)) : Prop :=
  entries.Pairwise (fun a b => a.1 < b.1)

/-- A finite map from texts, as its list of entries by increasing key. -/
structure SortedMap (α : Type) where
  entries : List (Text × α)
  increasing : Increasing entries

namespace SortedMap

variable {α β : Type}

/-- Puts a value under a key, in place of an earlier one or at the key's place. -/
def insertEntry (key : Text) (value : α) : List (Text × α) → List (Text × α)
  | [] => [(key, value)]
  | (k, v) :: rest =>
    if key < k then (key, value) :: (k, v) :: rest
    else if key = k then (key, value) :: rest
    else (k, v) :: insertEntry key value rest

theorem mem_insertEntry {key : Text} {value : α} {entries : List (Text × α)} {e : Text × α}
    (h : e ∈ insertEntry key value entries) : e = (key, value) ∨ e ∈ entries := by
  induction entries with
  | nil => simpa [insertEntry] using h
  | cons head rest ih =>
    unfold insertEntry at h
    split at h
    · simpa using h
    · split at h
      · rcases List.mem_cons.1 h with h | h
        · exact .inl h
        · exact .inr (List.mem_cons_of_mem _ h)
      · rcases List.mem_cons.1 h with h | h
        · exact .inr (h ▸ List.mem_cons_self)
        · exact (ih h).imp id (List.mem_cons_of_mem _)

theorem increasing_insertEntry (key : Text) (value : α) {entries : List (Text × α)}
    (h : Increasing entries) : Increasing (insertEntry key value entries) := by
  induction entries with
  | nil => exact List.pairwise_singleton _ _
  | cons head rest ih =>
    obtain ⟨k, v⟩ := head
    have hk := List.pairwise_cons.1 h
    unfold insertEntry
    split
    · next hlt =>
      refine List.pairwise_cons.2 ⟨fun e he => ?_, h⟩
      rcases List.mem_cons.1 he with he | he
      · exact he ▸ hlt
      · exact List.lt_trans hlt (hk.1 e he)
    · split
      · next heq =>
        subst heq
        exact List.pairwise_cons.2 ⟨hk.1, hk.2⟩
      · next hnlt hne =>
        refine List.pairwise_cons.2 ⟨fun e he => ?_, ih hk.2⟩
        rcases mem_insertEntry he with he | he
        · rcases List.le_iff_lt_or_eq.1 (List.not_lt.1 hnlt) with h' | h'
          · exact he ▸ h'
          · exact absurd h'.symm hne
        · exact hk.1 e he

theorem find?_insertEntry (key : Text) (value : α) (entries : List (Text × α)) (k : Text) :
    (insertEntry key value entries).find? (fun e => e.1 == k) =
      if k = key then some (key, value) else entries.find? (fun e => e.1 == k) := by
  induction entries with
  | nil =>
    by_cases h : k = key
    · simp [insertEntry, h]
    · simp [insertEntry, h, Ne.symm h]
  | cons head rest ih =>
    obtain ⟨k', v⟩ := head
    unfold insertEntry
    by_cases h : k = key
    · subst h
      split
      · simp
      · split
        · simp
        · next hne => simp [Ne.symm hne, ih]
    · split
      · simp [Ne.symm h]
      · split
        · next heq => simp [← heq, Ne.symm h]
        · simp [List.find?_cons, ih, h]

def empty : SortedMap α := ⟨[], List.Pairwise.nil⟩

instance : Inhabited (SortedMap α) := ⟨empty⟩

/-- Puts a value under a key; an earlier value of that key is lost. -/
def insert (key : Text) (value : α) (m : SortedMap α) : SortedMap α :=
  ⟨insertEntry key value m.entries, increasing_insertEntry key value m.increasing⟩

def erase (key : Text) (m : SortedMap α) : SortedMap α :=
  ⟨m.entries.filter (fun e => e.1 != key), m.increasing.filter _⟩

def filterKeys (p : Text → Bool) (m : SortedMap α) : SortedMap α :=
  ⟨m.entries.filter (fun e => p e.1), m.increasing.filter _⟩

/-- The map with entries as they are given: a key with a value, or without one. -/
def restore (entries : List (Text × Option α)) (m : SortedMap α) : SortedMap α :=
  entries.foldl (fun m e => match e.2 with
    | some value => m.insert e.1 value
    | none => m.erase e.1) m

def get? (m : SortedMap α) (key : Text) : Option α :=
  (m.entries.find? (fun e => e.1 == key)).map Prod.snd

def keys (m : SortedMap α) : List Text := m.entries.map Prod.fst

def values (m : SortedMap α) : List α := m.entries.map Prod.snd

theorem get?_empty (k : Text) : (empty : SortedMap α).get? k = none := rfl

theorem get?_insert (m : SortedMap α) (key k : Text) (value : α) :
    (m.insert key value).get? k = if k = key then some value else m.get? k := by
  unfold get? insert
  rw [find?_insertEntry]
  split <;> rfl

theorem get?_erase (m : SortedMap α) (key k : Text) :
    (m.erase key).get? k = if k = key then none else m.get? k := by
  unfold get? erase
  rw [List.find?_filter]
  by_cases h : k = key
  · simp only [h, if_true, Option.map_eq_none_iff, List.find?_eq_none]
    simp
  · simp only [h, if_false]
    congr 2
    funext e
    by_cases he : e.1 = k <;> simp [he, h]

theorem find?_of_mem {entries : List (Text × α)} (h : Increasing entries) {e : Text × α}
    (he : e ∈ entries) : entries.find? (fun e' => e'.1 == e.1) = some e := by
  induction entries with
  | nil => exact absurd he List.not_mem_nil
  | cons head rest ih =>
    obtain ⟨hhead, hrest⟩ := List.pairwise_cons.1 h
    rcases List.mem_cons.1 he with rfl | he
    · exact List.find?_cons_of_pos (beq_self_eq_true e.1)
    · have hne : head.1 ≠ e.1 := fun heq => List.lt_irrefl e.1 (heq ▸ hhead e he)
      rw [List.find?_cons_of_neg (by simpa using hne), ih hrest he]

/-- The value of a key is the one that stands beside it. -/
theorem get?_eq_some_iff {m : SortedMap α} {key : Text} {value : α} :
    m.get? key = some value ↔ (key, value) ∈ m.entries := by
  rw [get?, Option.map_eq_some_iff]
  constructor
  · rintro ⟨⟨k, v⟩, hfind, rfl⟩
    obtain rfl : k = key := by simpa using List.find?_some hfind
    exact List.mem_of_find?_eq_some hfind
  · intro hmem
    exact ⟨(key, value), find?_of_mem m.increasing hmem, rfl⟩

theorem mem_values_iff {m : SortedMap α} {value : α} :
    value ∈ m.values ↔ ∃ key, m.get? key = some value := by
  simp [values, get?_eq_some_iff]

/-- The map that holds the given entries; of two with one key the later counts. -/
def ofList (entries : List (Text × α)) : SortedMap α :=
  entries.foldl (fun m e => m.insert e.1 e.2) empty

theorem eq_of_entries_eq {m m' : SortedMap α} (h : m.entries = m'.entries) : m = m' := by
  cases m
  cases m'
  exact (SortedMap.mk.injEq ..).mpr h

/-- A key behind all others goes to the end. -/
theorem insertEntry_of_forall_lt {key : Text} (value : α) {entries : List (Text × α)}
    (h : ∀ e ∈ entries, e.1 < key) : insertEntry key value entries = entries ++ [(key, value)] := by
  induction entries with
  | nil => rfl
  | cons e entries ih =>
    have he := h e List.mem_cons_self
    have hne : key ≠ e.1 := fun heq => List.lt_irrefl _ (heq ▸ he)
    rw [insertEntry, if_neg (List.lt_asymm he), if_neg hne,
      ih fun b hb => h b (List.mem_cons_of_mem _ hb)]
    rfl

theorem entries_foldl_insert {rest : List (Text × α)} {front : SortedMap α}
    (h : Increasing (front.entries ++ rest)) :
    (rest.foldl (fun m e => m.insert e.1 e.2) front).entries = front.entries ++ rest := by
  induction rest generalizing front with
  | nil => exact (List.append_nil _).symm
  | cons e rest ih =>
    have hinsert : (front.insert e.1 e.2).entries = front.entries ++ [e] := by
      refine insertEntry_of_forall_lt e.2 fun b hb => ?_
      exact (List.pairwise_append.1 h).2.2 b hb e List.mem_cons_self
    have happend : (front.insert e.1 e.2).entries ++ rest = front.entries ++ e :: rest := by
      rw [hinsert, List.append_assoc, List.singleton_append]
    rw [List.foldl_cons, ih (happend ▸ h), happend]

/-- The entries of a map make up that map. -/
theorem ofList_entries (m : SortedMap α) : ofList m.entries = m :=
  eq_of_entries_eq (entries_foldl_insert m.increasing)

end SortedMap
end TypedCommand
