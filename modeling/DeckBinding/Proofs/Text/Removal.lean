import DeckBinding.Text.Removal
import Mathlib.Data.List.Infix

set_option autoImplicit false

namespace DeckBinding.Text

variable {part front kept behind : List Char}

/-- When no occurrence that begins in the front reaches out of it, the front is cleared for
itself. -/
theorem removeFrom_append {skip : Nat} (inside : skip ≤ front.length)
    (within : ∀ back, back <:+ front → back ≠ [] → part <+: back ++ behind → part <+: back) :
    removeFrom part skip (front ++ behind) = removeFrom part skip front ++ removeFrom part 0 behind := by
  induction front generalizing skip with
  | nil =>
    obtain rfl : skip = 0 := Nat.le_zero.1 inside
    rfl
  | cons c rest ih =>
    have later {shorter : Nat} (less : shorter ≤ rest.length) :=
      ih less fun back ends => within back (ends.trans (List.suffix_cons c rest))
    cases skip with
    | succ skip => exact later (Nat.le_of_succ_le_succ inside)
    | zero =>
      rw [List.cons_append, removeFrom, removeFrom, ← List.cons_append]
      by_cases here : part <+: c :: rest
      · have length := here.length_le
        rw [List.length_cons] at length
        rw [if_pos (List.isPrefixOf_iff_prefix.2 (here.trans (List.prefix_append _ behind))),
          if_pos (List.isPrefixOf_iff_prefix.2 here), later (by omega)]
      · have apart : ¬ part <+: c :: rest ++ behind :=
          fun found => here (within _ List.suffix_rfl (List.cons_ne_nil _ _) found)
        rw [if_neg fun found => apart (List.isPrefixOf_iff_prefix.1 found),
          if_neg fun found => here (List.isPrefixOf_iff_prefix.1 found), later (Nat.zero_le _)]
        rfl

/-- A text in which no occurrence begins is kept. -/
theorem removeFrom_kept (apart : ∀ back, back <:+ kept → back ≠ [] → ¬ part <+: back ++ behind) :
    removeFrom part 0 (kept ++ behind) = kept ++ removeFrom part 0 behind := by
  induction kept with
  | nil => rfl
  | cons c rest ih =>
    have here : ¬ part <+: c :: rest ++ behind := apart _ List.suffix_rfl (List.cons_ne_nil _ _)
    rw [List.cons_append, removeFrom, ← List.cons_append,
      if_neg fun found => here (List.isPrefixOf_iff_prefix.1 found), ih fun back ends => apart back (ends.trans (List.suffix_cons c rest))]
    rfl

def Unbracketed (body : List Char) : Prop :=
  '[' ∉ body ∧ ']' ∉ body

def doubleBracketed (body : List Char) : List Char :=
  '[' :: '[' :: (body ++ [']', ']'])

variable {body other : List Char}

theorem doubleBracketed_inj : doubleBracketed body = doubleBracketed other ↔ body = other := by
  simp [doubleBracketed]

/-- Behind the first two brackets no other one opens. -/
theorem head?_inner (plain : Unbracketed body) (rest : List Char) :
    (body ++ ']' :: rest).head? ≠ some '[' := by
  cases body with
  | nil => simp
  | cons c more => simpa using fun same : c = '[' => plain.1 (same ▸ List.mem_cons_self)

/-- What ends a bracketed body and starts with an opening bracket is all of it, or all but one
bracket. -/
theorem suffix_doubleBracketed (plain : Unbracketed body) {back : List Char}
    (ends : '[' :: back <:+ doubleBracketed body) :
    back = '[' :: (body ++ [']', ']']) ∨ back = body ++ [']', ']'] := by
  have none : ¬ '[' :: back <:+ body ++ [']', ']'] := by
    intro inner
    have member := inner.subset List.mem_cons_self
    simp [plain.1] at member
  unfold doubleBracketed at ends
  rw [List.suffix_cons_iff, List.suffix_cons_iff] at ends
  rcases ends with whole | next | inner
  · exact .inl (List.cons.inj whole).2
  · exact .inr (List.cons.inj next).2
  · exact absurd inner none

/-- One bracketed body within another is the other one. -/
theorem eq_of_infix_doubleBracketed (plain : Unbracketed other)
    (within : doubleBracketed body <:+: doubleBracketed other) : body = other := by
  obtain ⟨front, behind, whole⟩ := within
  have opening : front.count '[' = 0 := by
    have counts := congrArg (List.count '[') whole
    simp [doubleBracketed, List.count_append, List.count_eq_zero.2 plain.1] at counts
    omega
  have closing : behind.count ']' = 0 := by
    have counts := congrArg (List.count ']') whole
    simp [doubleBracketed, List.count_append, List.count_eq_zero.2 plain.2] at counts
    omega
  -- what stands in front would begin with an opening bracket, what stands behind end with a closing one
  have first : front = [] := by
    cases front with
    | nil => rfl
    | cons c rest =>
      obtain ⟨rfl, -⟩ := List.cons.inj whole
      simp at opening
  have last : behind = [] := by
    rcases List.eq_nil_or_concat behind with none | ⟨rest, c, rfl⟩
    · exact none
    · have ends := congrArg List.getLast? whole
      rw [List.concat_eq_append, ← List.append_assoc, List.getLast?_concat, doubleBracketed,
        show '[' :: '[' :: (other ++ [']', ']']) = ('[' :: '[' :: other ++ [']']) ++ [']'] by simp,
        List.getLast?_concat] at ends
      cases ends
      simp at closing
  subst first last
  rw [List.nil_append, List.append_nil, doubleBracketed_inj] at whole
  exact whole

/-- No bracketed body begins within another one. -/
theorem not_prefix_of_suffix (plain : Unbracketed body) (others : Unbracketed other) (apart : body ≠ other)
    {back : List Char} (ends : back <:+ doubleBracketed other) (filled : back ≠ []) :
    ¬ doubleBracketed body <+: back ++ behind := by
  intro begins
  cases back with
  | nil => exact filled rfl
  | cons c rest =>
    obtain ⟨more, whole⟩ := begins
    obtain ⟨rfl, inner⟩ := List.cons.inj whole
    rcases suffix_doubleBracketed others ends with rfl | rfl
    · rcases List.prefix_or_prefix_of_prefix (List.prefix_append _ more)
        ⟨behind, whole.symm⟩ with shorter | longer
      · exact apart (eq_of_infix_doubleBracketed others shorter.isInfix)
      · exact apart (eq_of_infix_doubleBracketed plain longer.isInfix).symm
    · refine head?_inner others (']' :: behind) ?_
      have next : '[' :: (body ++ [']', ']']) ++ more = other ++ [']', ']'] ++ behind := inner
      rw [List.append_assoc other] at next
      exact (congrArg List.head? next).symm

/-- A bracketed body that begins in front of another one ends in front of it. -/
theorem prefix_of_append (plain : Unbracketed body) {back : List Char} (filled : back ≠ [])
    (begins : doubleBracketed body <+: back ++ (doubleBracketed other ++ behind)) :
    doubleBracketed body <+: back := by
  obtain ⟨more, whole⟩ := begins
  rcases List.append_eq_append_iff.1 whole with ⟨rest, inside, -⟩ | ⟨rest, cut, further⟩
  · exact ⟨rest, inside.symm⟩
  · cases rest with
    | nil => exact ⟨[], by rw [cut, List.append_nil, List.append_nil]⟩
    | cons c rest =>
      -- the rest of the body would begin with the brackets of the other one
      obtain ⟨rfl, inner⟩ := List.cons.inj further
      rcases suffix_doubleBracketed plain ⟨back, cut.symm⟩ with rfl | rfl
      · exact absurd (List.append_left_eq_self.1 cut.symm) filled
      · refine absurd ?_ (head?_inner plain (']' :: more))
        have next : '[' :: (other ++ [']', ']']) ++ behind = body ++ [']', ']'] ++ more := inner
        rw [List.append_assoc body] at next
        exact (congrArg List.head? next).symm

/-- A bracketed body is taken out of a text without touching another one that stands in the text. -/
theorem remove_doubleBracketed (plain : Unbracketed body) (others : Unbracketed other) (apart : body ≠ other)
    (front behind : List Char) :
    remove (doubleBracketed body) (front ++ doubleBracketed other ++ behind) =
      remove (doubleBracketed body) front ++ doubleBracketed other ++ remove (doubleBracketed body) behind := by
  have filled : (doubleBracketed body).isEmpty = false := rfl
  unfold remove
  simp only [filled, Bool.false_eq_true, if_false]
  rw [List.append_assoc, removeFrom_append (Nat.zero_le _) fun back _ inside => prefix_of_append plain inside,
    removeFrom_kept fun back ends inside => not_prefix_of_suffix plain others apart ends inside,
    List.append_assoc]

end DeckBinding.Text
