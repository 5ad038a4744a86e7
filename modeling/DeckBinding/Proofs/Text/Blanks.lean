import DeckBinding.Proofs.Text.Name
import DeckBinding.Text.Digit
import Mathlib.Data.List.TakeWhile

set_option autoImplicit false

namespace DeckBinding.Text

def Blanks (cs : List Char) : Prop :=
  ∀ c ∈ cs, isBlank c = true

theorem blanks_nil : Blanks [] :=
  fun _ member => absurd member List.not_mem_nil

theorem blanks_append {front back : List Char} : Blanks (front ++ back) ↔ Blanks front ∧ Blanks back :=
  List.forall_mem_append

theorem blanks_takeWhile (cs : List Char) : Blanks (cs.takeWhile isBlank) :=
  fun _ member => List.mem_takeWhile_imp member

theorem takeWhile_append_trimLeft (cs : List Char) : cs.takeWhile isBlank ++ trimLeft cs = cs :=
  List.takeWhile_append_dropWhile

section Runs

variable {holds : Char → Bool} {front back : List Char}

theorem takeWhile_of_head (inside : ∀ c ∈ front, holds c = true) (ends : ∀ c ∈ back.head?, holds c = false) :
    (front ++ back).takeWhile holds = front := by
  rw [List.takeWhile_append_of_pos inside]
  cases back with
  | nil => exact List.append_nil front
  | cons c rest =>
    have stops : ¬ holds c = true := by simp [ends c rfl]
    rw [List.takeWhile_cons_of_neg stops, List.append_nil]

theorem dropWhile_of_head (inside : ∀ c ∈ front, holds c = true) (ends : ∀ c ∈ back.head?, holds c = false) :
    (front ++ back).dropWhile holds = back := by
  rw [List.dropWhile_append_of_pos inside]
  cases back with
  | nil => rfl
  | cons c rest =>
    have stops : ¬ holds c = true := by simp [ends c rfl]
    rw [List.dropWhile_cons_of_neg stops]

end Runs

/-- Behind blanks stands a blank or what follows them. -/
theorem head?_append_of_blanks {blanks rest : List Char} (blank : Blanks blanks) {holds : Char → Prop}
    (here : ∀ c, isBlank c = true → holds c) (behind : ∀ c ∈ rest.head?, holds c) :
    ∀ c ∈ (blanks ++ rest).head?, holds c := by
  cases blanks with
  | nil => exact behind
  | cons first others =>
    rintro c ⟨⟩
    exact here _ (blank _ List.mem_cons_self)

theorem isDecimalDigit_of_isBlank {c : Char} (blank : isBlank c = true) : isDecimalDigit c = false := by
  have none : blankCodes.all (fun code => !isDecimalDigit (Char.ofNat code)) = true := by decide +kernel
  have here := List.all_eq_true.1 none _ (mem_blankCodes blank)
  rwa [Char.ofNat_toNat, Bool.not_eq_true'] at here

theorem isBlank_of_isDecimalDigit {c : Char} (digit : isDecimalDigit c = true) : isBlank c = false := by
  cases blank : isBlank c with
  | false => rfl
  | true =>
    rw [isDecimalDigit_of_isBlank blank] at digit
    cases digit

variable {left right : List Char}

theorem trimLeft_of_blanks (blank : Blanks left) : trimLeft left = [] :=
  List.dropWhile_eq_nil_iff.2 blank

theorem trimLeft_append (blank : Blanks left) (cs : List Char) : trimLeft (left ++ cs) = trimLeft cs :=
  List.dropWhile_append_of_pos blank

theorem trimRight_append (blank : Blanks right) (cs : List Char) : trimRight (cs ++ right) = trimRight cs := by
  have reversed : ∀ c ∈ right.reverse, isBlank c = true := fun c member =>
    blank c (List.mem_reverse.1 member)
  rw [trimRight, List.reverse_append, List.dropWhile_append_of_pos reversed, trimRight]

theorem trimRight_blanks {last : Char} (full : isBlank last = false) (blank : Blanks right)
    (front : List Char) : trimRight (front ++ last :: right) = front ++ [last] := by
  rw [List.append_cons, trimRight_append blank, trimRight_of_last full]

/-- Blanks around a text do not count when it is trimmed. -/
theorem trim_append (front : Blanks left) (back : Blanks right) (cs : List Char) :
    trim (left ++ (cs ++ right)) = trim cs := by
  unfold trim
  rw [trimLeft_append front]
  by_cases empty : Blanks cs
  · rw [trimLeft_of_blanks empty, trimLeft_of_blanks (blanks_append.2 ⟨empty, back⟩)]
  · have some : (cs.dropWhile isBlank).isEmpty = false := by
      rw [List.isEmpty_eq_false_iff, ne_eq, List.dropWhile_eq_nil_iff]
      exact empty
    have kept : trimLeft (cs ++ right) = trimLeft cs ++ right := by
      rw [trimLeft, List.dropWhile_append, some]
      rfl
    rw [kept, trimRight_append back]

/-- A text is what is left of it when it is trimmed, with blanks around. -/
theorem exists_append_trim (cs : List Char) :
    ∃ left right, Blanks left ∧ Blanks right ∧ cs = left ++ (trim cs ++ right) := by
  have behind : trimLeft cs = trim cs ++ ((trimLeft cs).reverse.takeWhile isBlank).reverse := by
    unfold trim trimRight
    rw [← List.reverse_append, List.takeWhile_append_dropWhile, List.reverse_reverse]
  have whole := takeWhile_append_trimLeft cs
  rw [behind] at whole
  refine ⟨_, _, blanks_takeWhile cs, fun c member => ?_, whole.symm⟩
  exact List.mem_takeWhile_imp (List.mem_reverse.1 member)

theorem trim_eq_nil_iff {cs : List Char} : trim cs = [] ↔ Blanks cs := by
  constructor
  · intro none
    obtain ⟨left, right, front, back, whole⟩ := exists_append_trim cs
    rw [whole, none, List.nil_append]
    exact blanks_append.2 ⟨front, back⟩
  · intro blank
    rw [trim, trimLeft_of_blanks blank]
    rfl

theorem trim_trim (cs : List Char) : trim (trim cs) = trim cs := by
  obtain ⟨left, right, front, back, whole⟩ := exists_append_trim cs
  have again := trim_append front back (trim cs)
  rw [← whole] at again
  exact again.symm

theorem trim_trimLeft (cs : List Char) : trim (trimLeft cs) = trim cs := by
  conv => rhs; rw [← takeWhile_append_trimLeft cs]
  rw [trim, trim, trimLeft_append (blanks_takeWhile cs)]

theorem trim_trimRight (cs : List Char) : trim (trimRight cs) = trim cs := by
  have split : cs = trimRight cs ++ (cs.reverse.takeWhile isBlank).reverse := by
    rw [trimRight, ← List.reverse_append, List.takeWhile_append_dropWhile, List.reverse_reverse]
  have back : Blanks (cs.reverse.takeWhile isBlank).reverse :=
    fun c member => List.mem_takeWhile_imp (List.mem_reverse.1 member)
  have whole := trim_append blanks_nil back (trimRight cs)
  rw [← split, List.nil_append] at whole
  exact whole.symm

theorem dropWhile_append_mark {holds : Char → Bool} {mark : Char} (stops : holds mark = false)
    (front back : List Char) :
    (front ++ mark :: back).dropWhile holds = front.dropWhile holds ++ mark :: back := by
  rw [List.dropWhile_append, List.dropWhile_cons_of_neg (by simp [stops])]
  split
  · rename_i empty
    rw [List.isEmpty_iff.1 empty, List.nil_append]
  · rfl

/-- A text around a mark is trimmed from both sides up to the mark. -/
theorem trim_append_mark {mark : Char} (full : isBlank mark = false) (front back : List Char) :
    trim (front ++ mark :: back) = trimLeft front ++ mark :: trimRight back := by
  have left : trimLeft (front ++ mark :: back) = trimLeft front ++ mark :: back :=
    dropWhile_append_mark full front back
  have right : trimLeft (back.reverse ++ mark :: (trimLeft front).reverse) =
      trimLeft back.reverse ++ mark :: (trimLeft front).reverse :=
    dropWhile_append_mark full back.reverse (trimLeft front).reverse
  calc trim (front ++ mark :: back)
      = (trimLeft (trimLeft front ++ mark :: back).reverse).reverse := by rw [trim, left]; rfl
    _ = (trimLeft (back.reverse ++ mark :: (trimLeft front).reverse)).reverse := by simp
    _ = trimLeft front ++ mark :: (trimLeft back.reverse).reverse := by rw [right]; simp
    _ = trimLeft front ++ mark :: trimRight back := rfl

end DeckBinding.Text
