import Mathlib.Data.List.Nodup
import TypedCommand.SortedMap

/-!
A sorted map is what it answers. Two maps with the same value under each key are the same list
of entries, whatever was put in first; so values under different keys can be put in in either
order, and taking out what was put under a new key leaves the map as it was.
-/

namespace TypedCommand.SortedMap

variable {α ε : Type} {m m' : SortedMap α} {key key' : Text} {value value' : α}

theorem nodup_entries (m : SortedMap α) : m.entries.Nodup := by
  refine List.Pairwise.imp ?_ m.increasing
  rintro e _ hlt rfl
  exact List.lt_irrefl e.1 hlt

/-- Maps with the same value under each key are equal. -/
theorem eq_of_get?_eq (h : ∀ key, m.get? key = m'.get? key) : m = m' := by
  have hmem : ∀ e, e ∈ m.entries ↔ e ∈ m'.entries := by
    rintro ⟨key, value⟩
    rw [← get?_eq_some_iff, ← get?_eq_some_iff, h key]
  have hperm : m.entries.Perm m'.entries :=
    (List.perm_ext_iff_of_nodup m.nodup_entries m'.nodup_entries).2 hmem
  refine eq_of_entries_eq (hperm.eq_of_pairwise ?_ m.increasing m'.increasing)
  intro e e' _ _ hlt hgt
  exact absurd hgt (List.lt_asymm hlt)

theorem insert_comm (m : SortedMap α) (hne : key ≠ key') :
    (m.insert key value).insert key' value' = (m.insert key' value').insert key value := by
  apply eq_of_get?_eq
  intro k
  rw [get?_insert, get?_insert, get?_insert, get?_insert]
  by_cases hk : k = key
  · rw [if_neg (hk ▸ hne), if_pos hk, if_pos hk]
  · rw [if_neg hk, if_neg hk]

theorem erase_insert (h : m.get? key = none) : (m.insert key value).erase key = m := by
  apply eq_of_get?_eq
  intro k
  rw [get?_erase, get?_insert]
  split
  · next hk => rw [hk, h]
  · rfl

/-- A value that passes a list of tests, in the place of one that passed it too or of none, does
not change what becomes of the list. -/
theorem forM_values_insert {f : α → Except ε Unit} (hvalue : f value = .ok ())
    (hold : ∀ old, m.get? key = some old → f old = .ok ()) :
    (m.insert key value).values.forM f = m.values.forM f := by
  have hentries : ∀ old, (key, old) ∈ m.entries → f old = .ok () :=
    fun old hmem => hold old (get?_eq_some_iff.2 hmem)
  have hpass : ∀ {a : α} {l : List α}, f a = .ok () → (a :: l).forM f = l.forM f := by
    intro a l ha
    rw [List.forM_eq_forM, List.forM_cons, ha]
    rfl
  have hcongr : ∀ {a : α} {l l' : List α}, l.forM f = l'.forM f →
      (a :: l).forM f = (a :: l').forM f := by
    intro a l l' hl
    rw [List.forM_eq_forM] at hl ⊢
    rw [List.forM_cons, List.forM_cons, hl]
  unfold values insert
  dsimp only
  generalize m.entries = entries at hentries
  induction entries with
  | nil => exact hpass hvalue
  | cons e entries ih =>
    obtain ⟨k, v⟩ := e
    obtain ⟨hfirst, hrest⟩ := List.forall_mem_cons.1 fun (e : Text × α) he (hk : e.1 = key) =>
      hentries e.2 (hk ▸ he)
    unfold insertEntry
    split
    · exact hpass hvalue
    · split
      · next hk => exact (hpass hvalue).trans (hpass (hfirst hk.symm)).symm
      · exact hcongr (ih fun old hmem => hrest (key, old) hmem rfl)

end TypedCommand.SortedMap
