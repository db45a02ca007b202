import Mathlib.Data.List.DropRight
import TableQuery.Proofs.Text.Places

/-!
Cutting a text at a byte. A cut inside a character or behind the end has no result, where the total
functions of the library would silently give another text. The place of a byte that is found with
two such cuts is the located one, and it is found for every byte between two characters.
-/

namespace TableQuery

def cut? : Nat → List Char → Option (List Char × List Char)
  | 0, text => some ([], text)
  | _ + 1, [] => none
  | offset + 1, character :: rest =>
      if character.utf8Size ≤ offset + 1 then
        (cut? (offset + 1 - character.utf8Size) rest).map fun (before, after) =>
          (character :: before, after)
      else none

theorem cut?_append (before after : List Char) :
    cut? (byteLength before) (before ++ after) = some (before, after) := by
  induction before with
  | nil => rw [byte_length_nil, cut?, List.nil_append]
  | cons character rest induction =>
      have positive := character.utf8Size_pos
      obtain ⟨offset, size⟩ := Nat.exists_eq_add_one.2
        (Nat.add_pos_left positive (byteLength rest))
      have fits : character.utf8Size ≤ offset + 1 := size ▸ Nat.le_add_right _ _
      have behind : offset + 1 - character.utf8Size = byteLength rest := by omega
      rw [byteLength, size, List.cons_append, cut?, if_pos fits, behind, induction]
      rfl

theorem eq_append_of_cut? {text before after : List Char} {offset : Nat}
    (found : cut? offset text = some (before, after)) :
    text = before ++ after ∧ byteLength before = offset := by
  fun_induction cut? offset text generalizing before with
  | case1 text =>
      cases found
      exact ⟨rfl, rfl⟩
  | case2 => cases found
  | case3 offset character rest fits induction =>
      obtain ⟨⟨front, back⟩, cut, same⟩ := Option.map_eq_some_iff.1 found
      cases same
      obtain ⟨rfl, size⟩ := induction cut
      refine ⟨rfl, ?_⟩
      rw [byteLength, size, Nat.add_sub_cancel' fits]
  | case4 => cases found

/-- Exactly the cuts between two characters have a result. -/
theorem isSome_cut?_iff {text : List Char} {offset : Nat} :
    (cut? offset text).isSome ↔ IsBoundary text offset := by
  constructor
  · intro found
    obtain ⟨⟨before, after⟩, cut⟩ := Option.isSome_iff_exists.1 found
    exact ⟨before, after, eq_append_of_cut? cut⟩
  · rintro ⟨before, after, rfl, rfl⟩
    rw [cut?_append]
    rfl

/-- The place of a byte. The text in front of it is cut off, and from this its whole lines, and
either cut fails if it would divide a character. -/
def locate? (source : List Char) (offset : Nat) : Option Position := do
  let (before, _) ← cut? (min offset (byteLength source)) source
  let lineStart := byteLength (before.rdropWhile (· != '\n'))
  let (_, line) ← cut? lineStart before
  some ⟨offset, before.count '\n' + 1, line.length + 1⟩

theorem locate?_append (before after : List Char) :
    locate? (before ++ after) (byteLength before) = some (.after before) := by
  have inside : min (byteLength before) (byteLength (before ++ after)) = byteLength before := by
    rw [byte_length_append]
    exact Nat.min_eq_left (Nat.le_add_right _ _)
  have whole : before.rdropWhile (· != '\n') ++ lastLine before = before :=
    List.rdropWhile_append_rtakeWhile
  have line := cut?_append (before.rdropWhile (· != '\n')) (lastLine before)
  rw [whole] at line
  rw [locate?, inside, cut?_append]
  simp only [Option.bind_eq_bind, Option.bind_some, line]
  rfl

end TableQuery
