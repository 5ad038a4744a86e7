import DeckBinding.Proofs.Number.Numeral
import DeckBinding.Proofs.Outcome
import DeckBinding.Proofs.Resolution.Cache
import Mathlib.Data.List.Basic

set_option autoImplicit false

namespace DeckBinding

open DeckBinding.Number

/-- A context whose names hold no `>`. -/
def ContextPath.Separable (context : ContextPath) : Prop :=
  ∀ segment ∈ context, '>' ∉ segment.name.toList

theorem isDigit_of_mem_repr {number : Nat} {c : Char} (member : c ∈ number.repr.toList) :
    c.isDigit = true := by
  rw [Nat.toList_repr] at member
  exact isDigit_of_mem_numeral member

theorem not_mem_repr {c : Char} (sign : c ≠ '-') (digit : c.isDigit = false) (index : Int) :
    c ∉ index.repr.toList := by
  have numeral (number : Nat) : c ∉ number.repr.toList := by
    intro member
    have digits := isDigit_of_mem_repr member
    rw [digit] at digits
    cases digits
  rw [Int.repr_eq_if]
  split
  · exact numeral _
  · rw [String.toList_append]
    intro member
    rcases List.mem_append.1 member with front | behind
    · exact sign (List.mem_singleton.1 front)
    · exact numeral _ behind

theorem eq_of_repr {left right : Int} (same : left.repr = right.repr) : left = right := by
  have unique {number other : Nat} (again : number.repr = other.repr) : number = other := by
    have digits := congrArg String.toList again
    rw [Nat.toList_repr, Nat.toList_repr] at digits
    rw [← ofDigitValues_numeral number, ← ofDigitValues_numeral other, digits]
  have unsigned (number other : Nat) : number.repr ≠ "-" ++ other.repr := by
    intro signed
    have member : '-' ∈ number.repr.toList := by
      rw [signed, String.toList_append]
      exact List.mem_append_left _ (List.mem_singleton.2 rfl)
    have digits := isDigit_of_mem_repr member
    cases digits
  rw [Int.repr_eq_if, Int.repr_eq_if] at same
  split at same
  · split at same
    · have numbers := unique same
      omega
    · exact (unsigned _ _ same).elim
  · split at same
    · exact (unsigned _ _ same.symm).elim
    · have numbers := unique ((String.append_right_inj _).1 same)
      omega

namespace ContextPath

variable {context left right : ContextPath}

theorem toList_segmentText {segment : ContextSegment} {text : String}
    (written : segment.text = .ok text) :
    text.toList = segment.name.toList ++ '[' :: (segment.index.repr.toList ++ [']']) := by
  unfold ContextSegment.text at written
  obtain ⟨numeral, number, last⟩ := exists_of_bind_eq_ok written
  unfold write at number
  split at number
  · cases number
    cases last
    change (segment.name ++ "[" ++ toString segment.index ++ "]").toList = _
    simp [String.toList_append, Int.toString_eq_repr]
  · cases number

theorem eq_of_segmentText {left right : ContextSegment} {text : String} (first : left.text = .ok text)
    (second : right.text = .ok text) : left = right := by
  have same := (toList_segmentText first).symm.trans (toList_segmentText second)
  have free (index : Int) : '[' ∉ index.repr.toList ++ [']'] := by
    intro member
    rcases List.mem_append.1 member with inside | closing
    · exact not_mem_repr (by decide) (by decide) index inside
    · cases List.mem_singleton.1 closing
  -- one name starts the other one, and nothing is between them, for an index holds no bracket
  have names : left.name.toList = right.name.toList := by
    rcases List.append_eq_append_iff.1 same with ⟨more, longer, rest⟩ | ⟨more, longer, rest⟩
    · cases more with
      | nil => rw [longer, List.append_nil]
      | cons c more =>
        have inside := (List.cons.inj rest).2
        exact absurd (inside ▸ List.mem_append_right more List.mem_cons_self) (free left.index)
    · cases more with
      | nil => rw [longer, List.append_nil]
      | cons c more =>
        have inside := (List.cons.inj rest).2
        exact absurd (inside ▸ List.mem_append_right more List.mem_cons_self) (free right.index)
  rw [names, List.append_cancel_left_eq, List.cons.injEq] at same
  have digits := String.toList_injective (List.append_cancel_right same.2)
  have indices := eq_of_repr digits
  cases left
  cases right
  simp_all [String.toList_inj]

theorem not_mem_of_texts (separable : context.Separable) {parts : List String}
    (written : context.texts = .ok parts) : ∀ part ∈ parts, '>' ∉ part.toList := by
  induction context generalizing parts with
  | nil =>
    cases written
    exact fun part member => nomatch member
  | cons segment rest ih =>
    unfold texts at written
    obtain ⟨text, first, further⟩ := exists_of_bind_eq_ok written
    obtain ⟨others, more, last⟩ := exists_of_bind_eq_ok further
    cases last
    intro part member
    rcases List.mem_cons.1 member with rfl | later
    · rw [toList_segmentText first]
      intro inside
      rcases List.mem_append.1 inside with name | bracket
      · exact separable segment List.mem_cons_self name
      · rcases List.mem_cons.1 bracket with opening | behind
        · cases opening
        · rcases List.mem_append.1 behind with digit | closing
          · exact not_mem_repr (by decide) (by decide) segment.index digit
          · cases List.mem_singleton.1 closing
    · exact ih (fun other among => separable other (List.mem_cons_of_mem _ among)) more part later

theorem eq_of_texts {parts : List String} (first : left.texts = .ok parts)
    (second : right.texts = .ok parts) : left = right := by
  induction left generalizing right parts with
  | nil =>
    cases first
    exact (List.length_eq_zero_iff.1 (length_of_texts second).symm).symm
  | cons segment rest ih =>
    unfold texts at first
    obtain ⟨text, here, further⟩ := exists_of_bind_eq_ok first
    obtain ⟨others, more, last⟩ := exists_of_bind_eq_ok further
    cases last
    cases right with
    | nil => cases second
    | cons other behind =>
      unfold texts at second
      obtain ⟨again, there, furtherOn⟩ := exists_of_bind_eq_ok second
      obtain ⟨still, moreOn, lastOn⟩ := exists_of_bind_eq_ok furtherOn
      cases lastOn
      rw [eq_of_segmentText here there, ih more moreOn]

/-- Separable contexts have different texts. -/
theorem eq_of_text (separableLeft : left.Separable) (separableRight : right.Separable)
    (fullLeft : left ≠ []) (fullRight : right ≠ []) {key : String} (first : left.text = .ok key)
    (second : right.text = .ok key) : left = right := by
  unfold text at first second
  obtain ⟨parts, here, joined⟩ := exists_of_bind_eq_ok first
  obtain ⟨others, there, again⟩ := exists_of_bind_eq_ok second
  have keys : ">".intercalate parts = ">".intercalate others :=
    Except.ok.inj (joined.trans again.symm)
  have split {context : ContextPath} {parts : List String} (separable : context.Separable)
      (full : context ≠ []) (written : context.texts = .ok parts) :
      (">".intercalate parts).toList.splitOn '>' = parts.map String.toList := by
    rw [String.toList_intercalate]
    apply List.splitOn_intercalate
    · intro part member
      obtain ⟨string, among, rfl⟩ := List.mem_map.1 member
      exact not_mem_of_texts separable written string among
    · have length := length_of_texts written
      have positive := List.length_pos_iff.2 full
      intro none
      have empty := congrArg List.length none
      rw [List.length_map, List.length_nil] at empty
      omega
  have lists := split separableLeft fullLeft here
  rw [keys, split separableRight fullRight there] at lists
  have same : others = parts := List.map_injective_iff.2 (fun _ _ => String.toList_injective) lists
  rw [same] at there
  exact eq_of_texts here there

end ContextPath

end DeckBinding
