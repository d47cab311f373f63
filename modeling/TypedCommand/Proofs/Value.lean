import TypedCommand.Proofs.Number.Integer
import TypedCommand.Value

/-!
Values and their texts. A value that is not a fractional number is what its own text is
converted to, what is converted to a kind is a value of this kind, and the texts of integers
are the numerals in the range of 64 bits.
-/

namespace TypedCommand

/-- The text of a value converts back to it. -/
theorem Value.read?_text {v : Value} (h : v.kind ≠ .float) : v.kind.read? v.text = some v := by
  cases v with
  | str t => rfl
  | int n =>
    change (Text.toInt64? (Text.ofInt n.toInt)).map Value.int = _
    rw [Text.toInt64?_ofInt]
    rfl
  | float x => exact absurd rfl h
  | bool b => cases b <;> rfl

namespace Kind

variable {kind : Kind} {t : Text} {v : Value}

theorem kind_of_read? (h : kind.read? t = some v) : v.kind = kind := by
  cases kind with
  | str => exact Option.some.inj h ▸ rfl
  | int =>
    obtain ⟨n, _, rfl⟩ := Option.map_eq_some_iff.1 h
    rfl
  | float =>
    obtain ⟨x, _, rfl⟩ := Option.map_eq_some_iff.1 h
    rfl
  | bool =>
    obtain ⟨b, _, rfl⟩ := Option.map_eq_some_iff.1 h
    rfl

theorem read_eq_ok_iff : kind.read t = .ok v ↔ kind.read? t = some v := by
  unfold read
  cases kind.read? t <;> simp

/-- A text that converts gives a value of the kind it was converted to. -/
theorem kind_of_read (h : kind.read t = .ok v) : v.kind = kind :=
  kind_of_read? (read_eq_ok_iff.1 h)

theorem read_int_eq_ok_iff :
    int.read t = .ok v ↔ ∃ n : Int64, v = .int n ∧ Text.Numeral t n.toInt := by
  rw [read_eq_ok_iff]
  change t.toInt64?.map Value.int = some v ↔ _
  rw [Option.map_eq_some_iff]
  refine exists_congr fun n => ?_
  rw [Text.toInt64?_eq_some_iff]
  exact and_comm.trans (and_congr_left fun _ => eq_comm)

theorem exists_read_int_iff : (∃ v, int.read t = .ok v) ↔
    ∃ n : ℤ, Text.Numeral t n ∧ -2 ^ 63 ≤ n ∧ n ≤ 2 ^ 63 - 1 := by
  rw [← Text.exists_toInt64?_iff]
  simp only [read_int_eq_ok_iff, Text.toInt64?_eq_some_iff]
  constructor
  · rintro ⟨_, n, _, h⟩
    exact ⟨n, h⟩
  · rintro ⟨n, h⟩
    exact ⟨.int n, n, rfl, h⟩

/-- Reading undoes the text of every value that is no fractional number. An integer is read from
the numerals in the range of 64 bits, each as the number it stands for, and from no other text.
What is read as one of the three kinds is of that kind, and is read again from its own text. -/
theorem read_undoes_text :
    (∀ v : Value, v.kind ≠ .float → v.kind.read v.text = .ok v) ∧
    (∀ (t : Text) (v : Value), int.read t = .ok v ↔
      ∃ n : Int64, v = .int n ∧ Text.Numeral t n.toInt) ∧
    (∀ t : Text, (∃ v, int.read t = .ok v) ↔
      ∃ n : ℤ, Text.Numeral t n ∧ -2 ^ 63 ≤ n ∧ n ≤ 2 ^ 63 - 1) ∧
    ∀ kind : Kind, kind ≠ .float → ∀ (t : Text) (v : Value), kind.read t = .ok v →
      v.kind = kind ∧ kind.read v.text = .ok v := by
  refine ⟨fun v h => read_eq_ok_iff.2 (Value.read?_text h), fun _ _ => read_int_eq_ok_iff,
    fun _ => exists_read_int_iff, fun kind hkind t v h => ?_⟩
  obtain rfl := kind_of_read h
  exact ⟨rfl, read_eq_ok_iff.2 (Value.read?_text hkind)⟩

end Kind

end TypedCommand
