import Mathlib.Data.List.DropRight
import TableQuery.Text.CharacterClass

/-!
A text is its trimmed text with white space around it. White space that is put around a text does
not change what trimming leaves of it.
-/

namespace TableQuery

theorem exists_eq_append_drop_ends {Item : Type} (test : Item → Bool) (items : List Item) :
    ∃ front back,
      items = front ++ (((items.dropWhile test).reverse.dropWhile test).reverse ++ back) ∧
        (∀ item ∈ front, test item = true) ∧ ∀ item ∈ back, test item = true := by
  have cutStart : items = items.takeWhile test ++ items.dropWhile test :=
    List.takeWhile_append_dropWhile.symm
  have cutEnd : items.dropWhile test = ((items.dropWhile test).reverse.dropWhile test).reverse ++
      (items.dropWhile test).rtakeWhile test := List.rdropWhile_append_rtakeWhile.symm
  refine ⟨items.takeWhile test, (items.dropWhile test).rtakeWhile test, ?_, ?_, ?_⟩
  · rw [← cutEnd]
    exact cutStart
  · exact List.all_eq_true.1 List.all_takeWhile
  · exact fun _ => List.mem_rtakeWhile_imp

theorem exists_eq_append_trim (text : List Char) :
    ∃ front back, text = front ++ (trim text ++ back) ∧
      (∀ character ∈ front, isWhitespace character = true) ∧
      ∀ character ∈ back, isWhitespace character = true :=
  exists_eq_append_drop_ends isWhitespace text

theorem trim_start_append {front : List Char}
    (blank : ∀ character ∈ front, isWhitespace character = true) (text : List Char) :
    trimStart (front ++ text) = trimStart text :=
  List.dropWhile_append_of_pos blank

theorem trim_end_append {back : List Char}
    (blank : ∀ character ∈ back, isWhitespace character = true) (text : List Char) :
    trimEnd (text ++ back) = trimEnd text := by
  have reversed : ∀ character ∈ back.reverse, isWhitespace character = true := by
    simpa using blank
  rw [trimEnd, trimEnd, List.reverse_append, List.dropWhile_append_of_pos reversed]

theorem trim_eq_nil {text : List Char}
    (blank : ∀ character ∈ text, isWhitespace character = true) : trim text = [] := by
  have start := trim_start_append blank []
  rw [List.append_nil] at start
  rw [trim, start]
  rfl

theorem trim_of_plain {text : List Char}
    (plain : ∀ character ∈ text, isWhitespace character = false) : trim text = text := by
  have start : trimStart text = text := by
    rw [trimStart, List.dropWhile_eq_self_iff]
    intro positive white
    rw [plain _ (List.getElem_mem positive)] at white
    cases white
  have ending : trimEnd text = text := by
    apply List.rdropWhile_eq_self_iff.2
    intro nonempty white
    rw [plain _ (List.getLast_mem nonempty)] at white
    cases white
  rw [trim, start, ending]

/-- White space around a text does not count. -/
theorem trim_surrounded {front back : List Char}
    (blankFront : ∀ character ∈ front, isWhitespace character = true)
    (blankBack : ∀ character ∈ back, isWhitespace character = true) (text : List Char) :
    trim (front ++ (text ++ back)) = trim text := by
  rw [trim, trim_start_append blankFront, trimStart, List.dropWhile_append]
  split
  · rename_i empty
    have noneLeft : trimStart text = [] := List.isEmpty_iff.1 empty
    rw [trim, noneLeft]
    exact trim_eq_nil blankBack
  · exact trim_end_append blankBack _

theorem trim_trim (text : List Char) : trim (trim text) = trim text := by
  obtain ⟨front, back, split, blankFront, blankBack⟩ := exists_eq_append_trim text
  have surrounded := trim_surrounded blankFront blankBack (trim text)
  rw [← split] at surrounded
  exact surrounded.symm

end TableQuery
