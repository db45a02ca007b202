import TableQuery.Number.Decimal
import TableQuery.Proofs.Text.CharacterClass

/-!
Runs of decimal digits. The digits of a number are such a run, and only zero begins with a zero.
-/

namespace TableQuery

theorem all_digits_iff {text : List Char} :
    allDigits text = true ↔ text ≠ [] ∧ ∀ character ∈ text, character.isDigit = true := by
  cases text <;> simp [allDigits]

theorem exists_cons_of_all_digits {text : List Char} (isDigits : allDigits text = true) :
    ∃ first rest, text = first :: rest ∧ first.isDigit = true ∧
      ∀ digit ∈ rest, digit.isDigit = true := by
  rcases all_digits_iff.1 isDigits with ⟨nonempty, all⟩
  rcases List.exists_cons_of_ne_nil nonempty with ⟨first, rest, rfl⟩
  exact ⟨first, rest, rfl, List.forall_mem_cons.1 all⟩

theorem all_digits_singleton {digit : Char} (isDigit : digit.isDigit = true) :
    allDigits [digit] = true :=
  all_digits_iff.2 ⟨List.cons_ne_nil _ _, List.forall_mem_singleton.2 isDigit⟩

theorem all_digits_takeWhile {text : List Char} (nonempty : text.takeWhile Char.isDigit ≠ []) :
    allDigits (text.takeWhile Char.isDigit) = true :=
  all_digits_iff.2 ⟨nonempty, fun _ => test_of_mem_takeWhile⟩

namespace Decimal

theorem all_digits_toDigits (number : Nat) : allDigits (Nat.toDigits 10 number) := by
  rw [all_digits_iff]
  exact ⟨Nat.toDigits_ne_nil, fun _ member =>
    Nat.isDigit_of_mem_toDigits (by omega) (by omega) member⟩

theorem exists_cons_toDigits (number : Nat) :
    ∃ first rest, Nat.toDigits 10 number = first :: rest ∧ first.isDigit = true ∧
      ∀ digit ∈ rest, digit.isDigit = true :=
  exists_cons_of_all_digits (all_digits_toDigits number)

theorem head?_toDigits_append (number : Nat) (suffix : List Char) :
    (Nat.toDigits 10 number ++ suffix).head? = (Nat.toDigits 10 number).head? := by
  rcases exists_cons_toDigits number with ⟨first, rest, digits, -⟩
  rw [digits]
  rfl

theorem head?_toDigits_ne_zero {number : Nat} (positive : 0 < number) :
    (Nat.toDigits 10 number).head? ≠ some '0' := by
  induction number using Nat.strongRecOn with
  | ind number induction =>
      rw [Nat.toDigits_eq_if (by omega)]
      split
      · rename_i small
        have digits : ∀ digit < 10, 0 < digit → [Nat.digitChar digit].head? ≠ some '0' := by decide
        exact digits number small positive
      · have shorter := induction (number / 10) (by omega) (by omega)
        rw [head?_toDigits_append]
        exact shorter

theorem all_digits_append_zeros {digits : List Char} (all : allDigits digits) (count : Nat) :
    allDigits (digits ++ List.replicate count '0') := by
  rw [all_digits_iff] at all ⊢
  refine ⟨by simp [all.1], ?_⟩
  intro character member
  rcases List.mem_append.1 member with old | zero
  · exact all.2 character old
  · rw [List.eq_of_mem_replicate zero]
    decide

end Decimal

end TableQuery
