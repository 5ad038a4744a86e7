import DeckBinding.Path.Reader
import DeckBinding.Proofs.Number.Numeral
import DeckBinding.Proofs.Text.Blanks

set_option autoImplicit false

namespace DeckBinding

open DeckBinding.Number DeckBinding.Text

/-- What stands behind the name of a segment: blanks alone, or digits in brackets with blanks around
the digits and around the brackets. -/
inductive Bracketed : Option (List Char) → List Char → Prop
  | none {blanks : List Char} (blank : Blanks blanks) : Bracketed none blanks
  | some {before inside digits behind after : List Char} (ahead : Blanks before) (opened : Blanks inside)
      (filled : digits ≠ []) (decimal : ∀ c ∈ digits, isDecimalDigit c = true)
      (closing : Blanks behind) (ends : Blanks after) :
      Bracketed (some digits) (before ++ '[' :: (inside ++ (digits ++ (behind ++ ']' :: after))))

theorem takeName?_of_isName {name : String} (valid : isName name = true) {rest : List Char}
    (ends : ∀ c ∈ rest.head?, isWord c = false) :
    takeName? (name.toList ++ rest) = some (name.toList, rest) := by
  obtain ⟨c, tail, same, start, word⟩ := toList_of_isName valid
  rw [same, List.cons_append, takeName?, if_pos start, takeWhile_of_head word ends,
    dropWhile_of_head word ends]

theorem append_of_takeName? {cs name rest : List Char} (taken : takeName? cs = some (name, rest)) :
    name ++ rest = cs := by
  unfold takeName? at taken
  split at taken
  · cases taken
  · split at taken
    · cases taken
      rw [List.cons_append, List.takeWhile_append_dropWhile]
    · cases taken

theorem isName_of_takeName? {text name rest : List Char} (taken : takeName? text = some (name, rest)) :
    isName (String.ofList name) = true := by
  unfold takeName? at taken
  split at taken
  · cases taken
  · split at taken
    · rename_i start
      cases taken
      unfold isName
      rw [String.toList_ofList]
      dsimp only
      rw [start, Bool.true_and, List.all_eq_true]
      exact fun c member => List.mem_takeWhile_imp member
    · cases taken

theorem takeIndex?_bracketed {inside digits behind after : List Char} (opened : Blanks inside)
    (filled : digits ≠ []) (decimal : ∀ c ∈ digits, isDecimalDigit c = true) (closing : Blanks behind) :
    takeIndex? ('[' :: (inside ++ (digits ++ (behind ++ ']' :: after)))) = some (digits, after) := by
  have number : trimLeft (inside ++ (digits ++ (behind ++ ']' :: after))) =
      digits ++ (behind ++ ']' :: after) := by
    obtain ⟨first, others, rfl⟩ := List.exists_cons_of_ne_nil filled
    rw [trimLeft_append opened]
    exact trimLeft_of_head (isBlank_of_isDecimalDigit (decimal first List.mem_cons_self))
  have run : (digits ++ (behind ++ ']' :: after)).takeWhile isDecimalDigit = digits := by
    refine takeWhile_of_head decimal (head?_append_of_blanks closing ?_ ?_)
    · exact fun _ blank => isDecimalDigit_of_isBlank blank
    · rintro c ⟨⟩
      decide
  have closed : trimLeft (behind ++ ']' :: after) = ']' :: after := by
    rw [trimLeft_append closing]
    exact trimLeft_of_head (by decide)
  rw [takeIndex?]
  simp only [number, run, List.drop_left, closed, List.isEmpty_eq_false_iff.2 filled,
    Bool.false_eq_true, if_false]

theorem exists_of_takeIndex? {cs digits after : List Char}
    (found : takeIndex? cs = some (digits, after)) :
    ∃ inside behind, Blanks inside ∧ digits ≠ [] ∧ (∀ c ∈ digits, isDecimalDigit c = true) ∧
      Blanks behind ∧ cs = '[' :: (inside ++ (digits ++ (behind ++ ']' :: after))) := by
  unfold takeIndex? at found
  split at found
  · rename_i rest
    dsimp only at found
    split at found
    · rename_i closing
      split at found
      · cases found
      · rename_i filled
        cases found
        have number := List.prefix_iff_eq_append.1
          (List.takeWhile_prefix isDecimalDigit (l := trimLeft rest))
        generalize (trimLeft rest).drop _ = tail at number closing
        have between := takeWhile_append_trimLeft tail
        rw [closing] at between
        refine ⟨_, _, blanks_takeWhile rest, ?_, fun _ => List.mem_takeWhile_imp,
          blanks_takeWhile tail, ?_⟩
        · intro empty
          rw [empty] at filled
          exact filled rfl
        · rw [between, number, takeWhile_append_trimLeft]
    · cases found
  · cases found

theorem Bracketed.head {digits : Option (List Char)} {behind : List Char}
    (index : Bracketed digits behind) : ∀ c ∈ behind.head?, isWord c = false := by
  cases index with
  | none blank => exact fun c first => isWord_of_isBlank (blank c (List.mem_of_mem_head? first))
  | some ahead =>
    refine head?_append_of_blanks ahead (fun c => isWord_of_isBlank) ?_
    rintro c ⟨⟩
    decide

theorem exists_of_splitSegment? {token name : List Char} {digits : Option (List Char)}
    (found : splitSegment? token = some (name, digits)) : ∃ blanks behind, Blanks blanks ∧
      isName (String.ofList name) = true ∧ Bracketed digits behind ∧ token = blanks ++ (name ++ behind) := by
  unfold splitSegment? at found
  obtain ⟨⟨front, rest⟩, taken, further⟩ := Option.bind_eq_some_iff.1 found
  have named := isName_of_takeName? taken
  have whole := takeWhile_append_trimLeft token
  have between := takeWhile_append_trimLeft rest
  rw [← append_of_takeName? taken] at whole
  dsimp only at further
  split at further
  · rename_i none
    cases further
    rw [none, List.append_nil] at between
    exact ⟨_, rest, blanks_takeWhile token, named, .none (between ▸ blanks_takeWhile rest), whole.symm⟩
  · obtain ⟨⟨number, after⟩, index, last⟩ := Option.bind_eq_some_iff.1 further
    dsimp only at last
    split at last
    · rename_i ends
      cases last
      obtain ⟨inside, behind, opened, filled, decimal, closing, same⟩ := exists_of_takeIndex? index
      refine ⟨_, rest, blanks_takeWhile token, named, ?_, whole.symm⟩
      rw [← between, same]
      exact .some (blanks_takeWhile rest) opened filled decimal closing (List.all_eq_true.1 ends)
    · cases last

theorem splitSegment?_bracketed {blanks name behind : List Char} {digits : Option (List Char)}
    (blank : Blanks blanks) (named : isName (String.ofList name) = true) (index : Bracketed digits behind) :
    splitSegment? (blanks ++ (name ++ behind)) = some (name, digits) := by
  have taken := takeName?_of_isName named index.head
  rw [String.toList_ofList] at taken
  have trimmed : trimLeft (blanks ++ (name ++ behind)) = name ++ behind := by
    obtain ⟨c, others, first, start, _⟩ := toList_of_isName named
    rw [String.toList_ofList] at first
    rw [trimLeft_append blank, first]
    exact trimLeft_of_head (isBlank_of_isWord (isWord_of_isNameStart start))
  unfold splitSegment?
  rw [trimmed, taken]
  dsimp only [Option.bind_eq_bind, Option.bind_some]
  cases index with
  | none blank => rw [trimLeft_of_blanks blank]
  | some ahead opened filled decimal closing ends =>
    rw [trimLeft_append ahead, trimLeft_of_head (by decide)]
    dsimp only
    rw [takeIndex?_bracketed opened filled decimal closing, Option.bind_some, if_pos]
    exact List.all_eq_true.2 ends

/-- A token is split into a name and digits exactly when it is the two with blanks around. -/
theorem splitSegment?_eq_some_iff {token name : List Char} {digits : Option (List Char)} :
    splitSegment? token = some (name, digits) ↔ ∃ blanks behind, Blanks blanks ∧
      isName (String.ofList name) = true ∧ Bracketed digits behind ∧ token = blanks ++ (name ++ behind) := by
  constructor
  · exact exists_of_splitSegment?
  · rintro ⟨blanks, behind, blank, named, index, rfl⟩
    exact splitSegment?_bracketed blank named index

end DeckBinding
