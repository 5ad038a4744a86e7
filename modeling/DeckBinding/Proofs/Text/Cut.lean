import DeckBinding.Text.Blank
import DeckBinding.Text.Split

set_option autoImplicit false

namespace DeckBinding.Text

theorem isBlank_of_isLineEnd {c : Char} (ends : isLineEnd c = true) : isBlank c = true := by
  simp only [isLineEnd, Bool.or_eq_true, Bool.and_eq_true, decide_eq_true_eq, beq_iff_eq] at ends
  simp only [isBlank, inRanges, blankRanges, List.any_cons, Bool.or_eq_true, Bool.and_eq_true,
    decide_eq_true_eq]
  omega

theorem cutAt_append {separator : Char} {front : List Char} (absent : separator ∉ front)
    (back : List Char) :
    cutAt separator (front ++ separator :: back) = (front, splitAt separator back) := by
  induction front with
  | nil => simp [cutAt, splitAt]
  | cons c rest ih =>
    have apart : c ≠ separator := fun same => absent (same ▸ List.mem_cons_self)
    rw [List.cons_append, cutAt, ih fun member => absent (List.mem_cons_of_mem c member)]
    simp only [apart, if_false]

theorem splitAt_append_front {separator : Char} {front : List Char} (absent : separator ∉ front)
    (cs : List Char) :
    splitAt separator (front ++ cs) = (front ++ (cutAt separator cs).1) :: (cutAt separator cs).2 := by
  induction front with
  | nil => rfl
  | cons c front ih =>
    obtain ⟨apart, further⟩ := not_or.1 (mt List.mem_cons.2 absent)
    have more := ih further
    unfold splitAt at more ⊢
    simp only [List.cons.injEq] at more
    simp [cutAt, Ne.symm apart, more]

theorem splitAt_append_back {separator : Char} {back : List Char} (absent : separator ∉ back)
    (cs : List Char) : ∃ front last, splitAt separator cs = front ++ [last] ∧
      splitAt separator (cs ++ back) = front ++ [last ++ back] := by
  induction cs with
  | nil => exact ⟨[], [], rfl, splitAt_of_not_mem absent⟩
  | cons c rest ih =>
    obtain ⟨front, last, alone, longer⟩ := ih
    unfold splitAt at alone longer ⊢
    by_cases same : c = separator
    · refine ⟨[] :: front, last, ?_, ?_⟩
      · simp [cutAt, same, alone]
      · simp [cutAt, same, longer]
    · cases front with
      | nil =>
        simp only [List.nil_append, List.cons.injEq] at alone longer
        exact ⟨[], c :: last, by simp [cutAt, same, alone], by simp [cutAt, same, longer]⟩
      | cons part front =>
        simp only [List.cons_append, List.cons.injEq] at alone longer
        exact ⟨(c :: part) :: front, last, by simp [cutAt, same, alone], by simp [cutAt, same, longer]⟩

theorem splitAt_append_cons (separator : Char) (front back : List Char) :
    splitAt separator (front ++ separator :: back) = splitAt separator front ++ splitAt separator back := by
  induction front with
  | nil => simp [splitAt, cutAt]
  | cons c front ih =>
    unfold splitAt at ih ⊢
    simp only [List.cons_append, List.cons.injEq] at ih
    by_cases same : c = separator
    · simp [cutAt, same, ih]
    · simp [cutAt, same, ih]

theorem joinWith_cons_cons (separator first second : List Char) (more : List (List Char)) :
    joinWith separator (first :: second :: more) = first ++ separator ++ joinWith separator (second :: more) := by
  rw [joinWith]
  exact List.cons_ne_nil second more

theorem infix_joinWith (separator : List Char) {parts : List (List Char)} {part : List Char}
    (member : part ∈ parts) : part <:+: joinWith separator parts := by
  induction parts with
  | nil => cases member
  | cons first rest ih =>
    cases rest with
    | nil =>
      rw [List.mem_singleton.1 member]
      exact List.infix_refl first
    | cons next rest =>
      rw [joinWith_cons_cons]
      rcases List.mem_cons.1 member with rfl | later
      · rw [List.append_assoc]
        exact (List.prefix_append _ _).isInfix
      · exact (ih later).trans (List.suffix_append _ _).isInfix

theorem infix_of_mem_splitAt {separator : Char} {cs part : List Char}
    (member : part ∈ splitAt separator cs) : part <:+: cs := by
  have inside := infix_joinWith [separator] member
  rwa [joinWith_splitAt] at inside

/-- Parts with separators between them are cut apart again. -/
theorem splitString_intercalate {separator : Char} {parts : List String} (full : parts ≠ [])
    (clean : ∀ part ∈ parts, separator ∉ part.toList) :
    splitString separator ((String.singleton separator).intercalate parts) = parts := by
  induction parts with
  | nil => exact absurd rfl full
  | cons part rest ih =>
    have absent := clean part List.mem_cons_self
    cases rest with
    | nil =>
      rw [String.intercalate_singleton, splitString, splitAt_of_not_mem absent, List.map_singleton,
        String.ofList_toList]
    | cons next rest =>
      have more := ih (List.cons_ne_nil _ _) fun other member =>
        clean other (List.mem_cons_of_mem _ member)
      have letters (tail : String) : (part ++ String.singleton separator ++ tail).toList =
          part.toList ++ separator :: tail.toList := by
        simp [String.toList_append]
      rw [String.intercalate_cons_cons, splitString, letters, splitAt, cutAt_append absent,
        List.map_cons, String.ofList_toList]
      exact congrArg (part :: ·) more

end DeckBinding.Text
