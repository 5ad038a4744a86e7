import DeckBinding.Proofs.Directive.Markers
import Mathlib.Data.List.Induction

set_option autoImplicit false

namespace DeckBinding.Text

/-- A line as it is cut from a text: no line ends in it. -/
def IsLine (line : List Char) : Prop :=
  ∀ c ∈ line, isLineEnd c = false

variable {line : List Char} {ls : List (List Char)}

theorem isLine_of_mem_lines {cs : List Char} (member : line ∈ lines cs) : IsLine line := by
  induction cs generalizing line with
  | nil => cases member
  | cons c rest ih =>
    cases ends : isLineEnd c with
    | true =>
      obtain ⟨more, cut, same | merged⟩ := lines_cons_of_end ends rest
      · rw [cut, same] at member
        rcases List.mem_cons.1 member with rfl | later
        · exact fun _ inside => absurd inside List.not_mem_nil
        · exact ih later
      · rw [cut, ← merged] at member
        exact ih member
    | false =>
      rw [lines_cons_of_inside ends] at member
      cases cut : lines rest with
      | nil =>
        rw [cut] at member
        rw [List.mem_singleton.1 member]
        exact fun _ inside => (List.mem_singleton.1 inside) ▸ ends
      | cons first more =>
        rw [cut, List.headD_cons, List.tail_cons] at member
        rw [cut] at ih
        rcases List.mem_cons.1 member with rfl | later
        · exact List.forall_mem_cons.2 ⟨ends, ih List.mem_cons_self⟩
        · exact ih (List.mem_cons_of_mem first later)

theorem lines_line (plain : IsLine line) (filled : line ≠ []) : lines line = [line] := by
  have cut := lines_append plain filled []
  rwa [lines, List.headD_nil, List.tail_nil, List.append_nil] at cut

theorem lines_append_feed (plain : IsLine line) (cs : List Char) :
    lines (line ++ '\n' :: cs) = line :: lines cs := by
  have feed : lines ('\n' :: cs) = [] :: lines cs := by simp [lines, isLineEnd]
  cases line with
  | nil => exact feed
  | cons c rest =>
    rw [lines_append plain (List.cons_ne_nil c rest), feed, List.headD_cons, List.tail_cons, List.append_nil]

/-- Joined lines are cut apart again, but for an empty one at the end. -/
theorem lines_joinWith (plain : ∀ line ∈ ls, IsLine line) :
    lines (joinWith ['\n'] ls) = ls ∨ ls = lines (joinWith ['\n'] ls) ++ [[]] := by
  induction ls with
  | nil => exact .inl rfl
  | cons first rest ih =>
    have here := plain first List.mem_cons_self
    have further := ih fun other member => plain other (List.mem_cons_of_mem _ member)
    cases rest with
    | nil =>
      rw [joinWith]
      by_cases empty : first = []
      · subst empty
        exact .inr rfl
      · exact .inl (lines_line here empty)
    | cons second more =>
      rw [joinWith_cons_cons, List.append_assoc, List.singleton_append, lines_append_feed here]
      rcases further with same | longer
      · exact .inl (by rw [same])
      · exact .inr (by rw [List.cons_append, ← longer])

/-- What empty lines have no part in is made of joined lines one by one. -/
theorem flatMap_lines_joinWith {α : Type} {view : List Char → List α} (empty : view [] = [])
    (plain : ∀ line ∈ ls, IsLine line) : (lines (joinWith ['\n'] ls)).flatMap view = ls.flatMap view := by
  rcases lines_joinWith plain with same | longer
  · rw [same]
  · conv => rhs; rw [longer]
    rw [List.flatMap_append, List.flatMap_singleton, empty, List.append_nil]

theorem joinWith_concat (separator : List Char) (filled : ls ≠ []) (last : List Char) :
    joinWith separator (ls ++ [last]) = joinWith separator ls ++ separator ++ last := by
  induction ls with
  | nil => exact absurd rfl filled
  | cons first rest ih =>
    cases rest with
    | nil => rfl
    | cons second more =>
      have inner := ih (List.cons_ne_nil second more)
      rw [List.cons_append] at inner
      rw [List.cons_append, List.cons_append, joinWith_cons_cons, joinWith_cons_cons, inner]
      simp only [List.append_assoc]

theorem blanks_feed : Blanks ['\n'] := by
  intro c member
  rw [List.mem_singleton.1 member]
  decide

theorem trimLeft_append_full {front : List Char} (full : ¬ Blanks front) (back : List Char) :
    trimLeft (front ++ back) = trimLeft front ++ back := by
  have some : (front.dropWhile isBlank).isEmpty = false := by
    rw [List.isEmpty_eq_false_iff, ne_eq, List.dropWhile_eq_nil_iff]
    exact full
  rw [trimLeft, List.dropWhile_append, some, if_neg Bool.false_ne_true, trimLeft]

theorem trimRight_append_full {back : List Char} (full : ¬ Blanks back) (front : List Char) :
    trimRight (front ++ back) = front ++ trimRight back := by
  have other : ¬ Blanks back.reverse := fun blank => full fun c member => blank c (List.mem_reverse.2 member)
  have kept := trimLeft_append_full other front.reverse
  rw [trimLeft, trimLeft] at kept
  rw [trimRight, List.reverse_append, kept, List.reverse_append, List.reverse_reverse, trimRight]

theorem exists_append_trimRight (cs : List Char) : ∃ tail, Blanks tail ∧ cs = trimRight cs ++ tail := by
  refine ⟨(cs.reverse.takeWhile isBlank).reverse, fun c member => ?_, ?_⟩
  · exact List.mem_takeWhile_imp (List.mem_reverse.1 member)
  · rw [trimRight, ← List.reverse_append, List.takeWhile_append_dropWhile, List.reverse_reverse]

theorem trimRight_blanks_self {cs : List Char} (blank : Blanks cs) : trimRight cs = [] := by
  have none := trimRight_append blank []
  rwa [List.nil_append] at none

/-- Joined lines lose their blanks at the end: blank lines, and those of the last line that is not
blank. -/
theorem trimRight_joinWith (ls : List (List Char)) :
    ((∀ line ∈ ls, Blanks line) ∧ trimRight (joinWith ['\n'] ls) = []) ∨
      ∃ front last behind, ls = front ++ last :: behind ∧ (∀ line ∈ behind, Blanks line) ∧
        trimRight (joinWith ['\n'] ls) = joinWith ['\n'] (front ++ [trimRight last]) := by
  induction ls using List.reverseRecOn with
  | nil => exact .inl ⟨fun _ member => absurd member List.not_mem_nil, rfl⟩
  | append_singleton front last ih =>
    by_cases blank : Blanks last
    · have dropped : trimRight (joinWith ['\n'] (front ++ [last])) = trimRight (joinWith ['\n'] front) := by
        by_cases empty : front = []
        · subst empty
          exact trimRight_blanks_self blank
        · rw [joinWith_concat _ empty, trimRight_append blank, trimRight_append blanks_feed]
      rw [dropped]
      rcases ih with ⟨blanks, none⟩ | ⟨before, other, behind, rfl, blanks, same⟩
      · refine .inl ⟨?_, none⟩
        rw [List.forall_mem_append]
        exact ⟨blanks, List.forall_mem_singleton.2 blank⟩
      · refine .inr ⟨before, other, behind ++ [last], by simp, ?_, same⟩
        rw [List.forall_mem_append]
        exact ⟨blanks, List.forall_mem_singleton.2 blank⟩
    · refine .inr ⟨front, last, [], rfl, fun _ member => absurd member List.not_mem_nil, ?_⟩
      by_cases empty : front = []
      · subst empty
        rfl
      · rw [joinWith_concat _ empty, joinWith_concat _ empty, trimRight_append_full blank]

/-- An empty line at the end does not count when joined lines are trimmed. -/
theorem trim_joinWith_concat_nil (ls : List (List Char)) :
    trim (joinWith ['\n'] (ls ++ [[]])) = trim (joinWith ['\n'] ls) := by
  by_cases empty : ls = []
  · subst empty
    rfl
  · have whole := trim_append blanks_nil blanks_feed (joinWith ['\n'] ls)
    rw [joinWith_concat _ empty, List.append_nil]
    exact whole

end DeckBinding.Text
