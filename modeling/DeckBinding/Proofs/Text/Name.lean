import DeckBinding.Text.Blank
import DeckBinding.Text.Word

set_option autoImplicit false

namespace DeckBinding.Text

/-- A name: a letter or an underscore, and word characters behind it. -/
def isName (name : String) : Bool :=
  match name.toList with
  | [] => false
  | c :: rest => isNameStart c && rest.all isWord

theorem toList_of_isName {name : String} (valid : isName name = true) :
    ∃ c rest, name.toList = c :: rest ∧ isNameStart c = true ∧ ∀ d ∈ rest, isWord d = true := by
  unfold isName at valid
  split at valid
  · cases valid
  · rename_i c rest same
    rw [Bool.and_eq_true, List.all_eq_true] at valid
    exact ⟨c, rest, same, valid.1, valid.2⟩

theorem isWord_of_isName {name : String} (valid : isName name = true) :
    ∀ c ∈ name.toList, isWord c = true := by
  obtain ⟨c, rest, same, start, word⟩ := toList_of_isName valid
  rw [same]
  intro d member
  rcases List.mem_cons.1 member with rfl | later
  · exact isWord_of_isNameStart start
  · exact word d later

def blankCodes : List Nat :=
  blankRanges.flatMap fun (low, high) => List.range' low (high + 1 - low)

theorem mem_blankCodes {c : Char} (blank : isBlank c = true) : c.toNat ∈ blankCodes := by
  unfold isBlank inRanges at blank
  obtain ⟨range, member, inside⟩ := List.any_eq_true.1 blank
  rw [Bool.and_eq_true, decide_eq_true_eq, decide_eq_true_eq] at inside
  refine List.mem_flatMap.2 ⟨range, member, ?_⟩
  rw [List.mem_range'_1]
  omega

theorem isWord_of_isBlank {c : Char} (blank : isBlank c = true) : isWord c = false := by
  have none : blankCodes.all (fun code => !isWord (Char.ofNat code)) = true := by decide +kernel
  have here := List.all_eq_true.1 none _ (mem_blankCodes blank)
  rwa [Char.ofNat_toNat, Bool.not_eq_true'] at here

theorem isBlank_of_isWord {c : Char} (word : isWord c = true) : isBlank c = false := by
  cases blank : isBlank c with
  | false => rfl
  | true =>
    rw [isWord_of_isBlank blank] at word
    cases word

theorem isWord_of_isDigit {c : Char} (digit : c.isDigit = true) : isWord c = true := by
  have ascii : c.toNat < 128 := by
    simp only [Char.isDigit, Bool.and_eq_true, decide_eq_true_eq, UInt32.le_iff_toNat_le] at digit
    exact Nat.lt_of_le_of_lt digit.2 (by decide)
  rw [isWord_of_ascii ascii, Char.isAlphanum, digit]
  simp

theorem exists_concat_of_isName {name : String} (valid : isName name = true) :
    ∃ front last, name.toList = front ++ [last] ∧ isBlank last = false := by
  rcases List.eq_nil_or_concat name.toList with none | ⟨front, last, same⟩
  · obtain ⟨c, rest, some, _⟩ := toList_of_isName valid
    rw [none] at some
    cases some
  · rw [List.concat_eq_append] at same
    refine ⟨front, last, same, isBlank_of_isWord (isWord_of_isName valid last ?_)⟩
    rw [same]
    exact List.mem_append_right _ List.mem_cons_self

theorem trimLeft_of_head {c : Char} {rest : List Char} (full : isBlank c = false) :
    trimLeft (c :: rest) = c :: rest := by
  rw [trimLeft, List.dropWhile_cons_of_neg]
  rw [full]
  exact Bool.false_ne_true

theorem trimLeft_of_full {cs : List Char} (full : ∀ c ∈ cs, isBlank c = false) :
    trimLeft cs = cs := by
  cases cs with
  | nil => rfl
  | cons c rest => exact trimLeft_of_head (full c List.mem_cons_self)

theorem trim_cons_of_blank {c : Char} (blank : isBlank c = true) (rest : List Char) :
    trim (c :: rest) = trim rest := by
  rw [trim, trimLeft, List.dropWhile_cons_of_pos blank]
  rfl

theorem trimRight_of_last {last : Char} (full : isBlank last = false) (front : List Char) :
    trimRight (front ++ [last]) = front ++ [last] := by
  rw [trimRight, List.reverse_append, List.reverse_singleton, List.singleton_append,
    List.dropWhile_cons_of_neg]
  · simp
  · rw [full]
    exact Bool.false_ne_true

theorem trim_of_ends {front : List Char} {last : Char} (full : isBlank last = false)
    (head : trimLeft (front ++ [last]) = front ++ [last]) :
    trim (front ++ [last]) = front ++ [last] := by
  rw [trim, head, trimRight_of_last full]

theorem trim_of_full {cs : List Char} (full : ∀ c ∈ cs, isBlank c = false) : trim cs = cs := by
  rcases List.eq_nil_or_concat cs with rfl | ⟨front, last, rfl⟩
  · rfl
  · rw [List.concat_eq_append] at full ⊢
    exact trim_of_ends (full last (by simp)) (trimLeft_of_full full)

end DeckBinding.Text
