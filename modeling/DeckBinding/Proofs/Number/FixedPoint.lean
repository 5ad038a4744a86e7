import DeckBinding.Format.Number
import DeckBinding.Proofs.Number.Magnitude
import DeckBinding.Proofs.Text.Blanks

set_option autoImplicit false

namespace DeckBinding

open DeckBinding.Number DeckBinding.Text

def AllDigits (cs : List Char) : Prop :=
  ∀ c ∈ cs, c.isDigit = true

/-- Digits in groups of three, counted from the right, with commas between them. -/
def InThrees (text : List Char) : Prop :=
  ∃ (first : List Char) (rest : List (List Char)), text = first ++ rest.flatMap (',' :: ·) ∧
    first ≠ [] ∧ first.length ≤ 3 ∧ AllDigits first ∧ ∀ group ∈ rest, group.length = 3 ∧ AllDigits group

/-- Digits, in groups of three or not, and behind them a number of fraction digits, with a point in
front of them if there are some. -/
def FixedText (grouped : Bool) (places : Nat) (text : List Char) : Prop :=
  ∃ whole fraction : List Char, text = whole ++ (if places = 0 then [] else '.' :: fraction) ∧
    fraction.length = places ∧ AllDigits fraction ∧
    if grouped then InThrees whole else whole ≠ [] ∧ AllDigits whole

theorem ne_of_isDigit {c mark : Char} (digit : c.isDigit = true) (other : mark.isDigit = false) : c ≠ mark := by
  rintro rfl
  rw [digit] at other
  cases other

theorem AllDigits.append {front back : List Char} (first : AllDigits front) (second : AllDigits back) :
    AllDigits (front ++ back) :=
  List.forall_mem_append.2 ⟨first, second⟩

theorem allDigits_numeral (number : Nat) : AllDigits (Nat.toDigits 10 number) :=
  fun _ member => isDigit_of_mem_numeral member

theorem allDigits_zeros (count : Nat) : AllDigits (List.replicate count '0') := by
  intro c member
  rw [List.eq_of_mem_replicate member]
  rfl

/-- Digits, last one first, are cut behind every third one. -/
theorem groupReversed_spec {digits : List Char} (filled : digits ≠ []) :
    ∃ (first : List Char) (rest : List (List Char)),
      (groupReversed digits).reverse = first ++ rest.flatMap (',' :: ·) ∧
      digits.reverse = first ++ rest.flatten ∧ first ≠ [] ∧ first.length ≤ 3 ∧
      ∀ group ∈ rest, group.length = 3 := by
  fun_induction groupReversed digits with
  | case1 a b c d rest ih =>
    obtain ⟨first, groups, text, digits, some, few, three⟩ := ih (List.cons_ne_nil _ _)
    refine ⟨first, groups ++ [[c, b, a]], ?_, ?_, some, few, ?_⟩
    · simp [text]
    · rw [List.flatten_concat, ← List.append_assoc, ← digits]
      simp
    · intro group member
      rcases List.mem_append.1 member with before | last
      · exact three group before
      · rw [List.mem_singleton.1 last]
        rfl
  | case2 digits short =>
    refine ⟨digits.reverse, [], by simp, by simp, by simpa using filled, ?_, by simp⟩
    match digits, short with
    | [], _ => simp
    | [_], _ => simp
    | [_, _], _ => simp
    | [_, _, _], _ => simp
    | a :: b :: c :: d :: rest, short => exact (short a b c d rest rfl).elim

theorem groupThousands_spec {digits : List Char} (filled : digits ≠ []) :
    ∃ (first : List Char) (rest : List (List Char)),
      groupThousands digits = first ++ rest.flatMap (',' :: ·) ∧ digits = first ++ rest.flatten ∧
      first ≠ [] ∧ first.length ≤ 3 ∧ ∀ group ∈ rest, group.length = 3 := by
  have spec := @groupReversed_spec digits.reverse (by simpa using filled)
  rwa [List.reverse_reverse] at spec

theorem inThrees_groupThousands {digits : List Char} (filled : digits ≠ []) (plain : AllDigits digits) :
    InThrees (groupThousands digits) := by
  obtain ⟨first, rest, text, rfl, some, few, three⟩ := groupThousands_spec filled
  obtain ⟨plainFirst, plainRest⟩ := List.forall_mem_append.1 plain
  refine ⟨first, rest, text, some, few, plainFirst, fun group member => ⟨three group member, ?_⟩⟩
  exact fun c inside => plainRest c (List.mem_flatten.2 ⟨group, member, inside⟩)

section Filter

variable {keep : Char → Bool} (comma : keep ',' = false) (kept : ∀ c, c.isDigit = true → keep c = true)
include comma kept

theorem filter_groups {rest : List (List Char)} (plain : AllDigits rest.flatten) :
    (rest.flatMap (',' :: ·)).filter keep = rest.flatten := by
  induction rest with
  | nil => rfl
  | cons group rest ih =>
    rw [List.flatten_cons] at plain
    obtain ⟨here, later⟩ := List.forall_mem_append.1 plain
    rw [List.flatMap_cons, List.filter_append, ih later, List.filter_cons_of_neg (by simp [comma]),
      List.filter_eq_self.2 fun c member => kept c (here c member), List.flatten_cons]

/-- Nothing but the commas is new in grouped digits. -/
theorem filter_groupThousands {digits : List Char} (filled : digits ≠ []) (plain : AllDigits digits) :
    (groupThousands digits).filter keep = digits := by
  obtain ⟨first, rest, text, rfl, _⟩ := groupThousands_spec filled
  obtain ⟨plainFirst, plainRest⟩ := List.forall_mem_append.1 plain
  rw [text, List.filter_append, filter_groups comma kept plainRest,
    List.filter_eq_self.2 fun c member => kept c (plainFirst c member)]

end Filter

def wholeDigits (places units : Nat) : List Char :=
  Nat.toDigits 10 (units / tenTo places)

def fractionDigits (places units : Nat) : List Char :=
  if places = 0 then []
  else
    let digits := Nat.toDigits 10 (units % tenTo places)
    List.replicate (places - digits.length) '0' ++ digits

theorem fixedPoint_eq (grouped : Bool) (places units : Nat) :
    fixedPoint grouped places units =
      (if grouped then groupThousands (wholeDigits places units) else wholeDigits places units) ++
        (if places = 0 then [] else '.' :: fractionDigits places units) := by
  by_cases none : places = 0
  · simp only [fixedPoint, wholeDigits, none, if_true]
  · simp only [fixedPoint, wholeDigits, fractionDigits, none, if_false]

theorem wholeDigits_ne_nil (places units : Nat) : wholeDigits places units ≠ [] :=
  Nat.toDigits_ne_nil

theorem allDigits_wholeDigits (places units : Nat) : AllDigits (wholeDigits places units) :=
  allDigits_numeral _

theorem allDigits_fractionDigits (places units : Nat) : AllDigits (fractionDigits places units) := by
  unfold fractionDigits
  split
  · exact fun _ none => absurd none List.not_mem_nil
  · exact (allDigits_zeros _).append (allDigits_numeral _)

theorem length_fractionDigits (places units : Nat) : (fractionDigits places units).length = places := by
  unfold fractionDigits
  split
  · rename_i none
    exact none.symm
  · rename_i some
    have small : units % tenTo places < 10 ^ places := Nat.mod_lt _ (tenTo_pos places)
    have few := (Nat.length_toDigits_le_iff (b := 10) (by decide) (Nat.pos_of_ne_zero some)).2 small
    rw [List.length_append, List.length_replicate]
    omega

/-- All digits together write the number of units. -/
theorem ofDigitChars_digits (places units : Nat) :
    Nat.ofDigitChars 10 (wholeDigits places units ++ fractionDigits places units) 0 = units := by
  have split : 10 ^ places * (units / tenTo places) + units % tenTo places = units :=
    Nat.div_add_mod units (10 ^ places)
  rw [Nat.ofDigitChars_append, Nat.ofDigitChars_eq_ofDigitChars_zero, length_fractionDigits, wholeDigits,
    Nat.ofDigitChars_ten_toDigits]
  unfold fractionDigits
  split
  · rename_i none
    subst none
    simp [tenTo_zero]
  · rw [Nat.ofDigitChars_append, Nat.ofDigitChars_replicate_zero, Nat.mul_zero, Nat.ofDigitChars_ten_toDigits,
      split]

theorem fixedText_fixedPoint (grouped : Bool) (places units : Nat) :
    FixedText grouped places (fixedPoint grouped places units) := by
  refine ⟨_, _, fixedPoint_eq grouped places units, length_fractionDigits places units,
    allDigits_fractionDigits places units, ?_⟩
  cases grouped with
  | true => exact inThrees_groupThousands (wholeDigits_ne_nil places units) (allDigits_wholeDigits places units)
  | false => exact ⟨wholeDigits_ne_nil places units, allDigits_wholeDigits places units⟩

/-- Without the commas of the groups a number is written in plain digits. -/
theorem filter_fixedPoint (grouped : Bool) (places units : Nat) {keep : Char → Bool} (comma : keep ',' = false)
    (point : keep '.' = true) (kept : ∀ c, c.isDigit = true → keep c = true) :
    (fixedPoint grouped places units).filter keep = fixedPoint false places units := by
  have whole : (if grouped then groupThousands (wholeDigits places units) else wholeDigits places units).filter
      keep = wholeDigits places units := by
    cases grouped with
    | true =>
      exact filter_groupThousands comma kept (wholeDigits_ne_nil places units) (allDigits_wholeDigits places units)
    | false => exact List.filter_eq_self.2 fun c member => kept c (allDigits_wholeDigits places units c member)
  have fraction : (if places = 0 then [] else '.' :: fractionDigits places units).filter keep =
      if places = 0 then [] else '.' :: fractionDigits places units := by
    split
    · rfl
    · rw [List.filter_cons_of_pos point,
        List.filter_eq_self.2 fun c member => kept c (allDigits_fractionDigits places units c member)]
  rw [fixedPoint_eq, fixedPoint_eq, List.filter_append, whole, fraction]
  rfl

def isPlainChar (c : Char) : Bool :=
  c.isDigit || c == '.' || c == '-'

theorem isBlank_of_isPlainChar {c : Char} (plain : isPlainChar c = true) : isBlank c = false := by
  simp only [isPlainChar, Bool.or_eq_true, beq_iff_eq] at plain
  rcases plain with (digit | rfl) | rfl
  · exact isBlank_of_isWord (isWord_of_isDigit digit)
  · decide
  · decide

theorem digitChar_of_isDigit {c : Char} (digit : c.isDigit = true) : Nat.digitChar (c.toNat - 48) = c := by
  have numeral : ∀ value < 10, Nat.digitChar value = Char.ofNat (value + 48) := by decide
  simp only [Char.isDigit, Bool.and_eq_true, decide_eq_true_eq, UInt32.le_iff_toNat_le] at digit
  have lower : 48 ≤ c.toNat := digit.1
  have upper : c.toNat ≤ 57 := digit.2
  rw [numeral _ (by omega), Nat.sub_add_cancel lower, Char.ofNat_toNat]

theorem plainDigits_of_isPlainChar {cs : List Char} (plain : ∀ c ∈ cs, isPlainChar c = true) :
    Decimal.plainDigits cs = cs := by
  have kept : cs.filter (· != '_') = cs := by
    refine List.filter_eq_self.2 fun c member => ?_
    rw [bne_iff_ne]
    rintro rfl
    cases plain '_' member
  rw [Decimal.plainDigits, kept]
  refine (List.map_congr_left fun c member => ?_).trans (List.map_id cs)
  have known := plain c member
  simp only [isPlainChar, Bool.or_eq_true, beq_iff_eq] at known
  rcases known with (digit | rfl) | rfl
  · rw [digitValue?_of_isDigit digit]
    exact digitChar_of_isDigit digit
  · rfl
  · rfl

theorem toLower_of_isDigit {c : Char} (digit : c.isDigit = true) : c.toLower = c := by
  simp only [Char.isDigit, Bool.and_eq_true, decide_eq_true_eq, UInt32.le_iff_toNat_le] at digit
  unfold Char.toLower
  rw [dif_neg]
  simp only [UInt32.le_iff_toNat_le]
  intro upper
  have below : c.val.toNat ≤ 57 := digit.2
  have above : 65 ≤ c.val.toNat := upper.1
  omega

/-- Digits with a fraction behind them are read to the end. -/
theorem readUnsigned?_digits {whole fraction : List Char} (filled : whole ≠ []) (first : AllDigits whole)
    (second : AllDigits fraction) :
    Decimal.readUnsigned? (whole ++ (if fraction.length = 0 then [] else '.' :: fraction)) =
      some (Nat.ofDigitChars 10 (whole ++ fraction) 0, -(fraction.length : Int)) := by
  have value := ofDigitValues_of_isDigit (first.append second)
  rw [List.filterMap_append] at value
  have ends : ∀ c ∈ (if fraction.length = 0 then [] else '.' :: fraction).head?, c.isDigit = false := by
    split
    · exact fun _ none => absurd none (by simp)
    · rintro c ⟨⟩
      rfl
  have front := takeWhile_of_head first ends
  have behind : fraction.takeWhile Char.isDigit = fraction := List.takeWhile_eq_self_iff.2 second
  have some : whole.isEmpty = false := List.isEmpty_eq_false_iff.2 filled
  unfold Decimal.readUnsigned?
  simp only [front, List.drop_left]
  by_cases empty : fraction.length = 0
  · rw [List.length_eq_zero_iff] at empty
    subst empty
    simpa [some] using value
  · simp [empty, behind, some, value]

/-- A number in plain digits is read as it stands, if its coefficient and exponent can be read at
all. -/
theorem read?_digits (negative : Bool) {whole fraction : List Char} (filled : whole ≠ [])
    (first : AllDigits whole) (second : AllDigits fraction) :
    Decimal.read? (signed negative (whole ++ (if fraction.length = 0 then [] else '.' :: fraction))) =
      if Decimal.readable (Nat.ofDigitChars 10 (whole ++ fraction) 0) (-(fraction.length : Int)) then
        some (.finite negative (Nat.ofDigitChars 10 (whole ++ fraction) 0) (-(fraction.length : Int)))
      else none := by
  have unsigned := readUnsigned?_digits filled first second
  have body : ∀ c ∈ whole ++ (if fraction.length = 0 then [] else '.' :: fraction), isPlainChar c = true := by
    have digit {c : Char} (plain : c.isDigit = true) : isPlainChar c = true := by
      rw [isPlainChar, plain]
      rfl
    refine List.forall_mem_append.2 ⟨fun c member => digit (first c member), ?_⟩
    split
    · exact fun _ none => absurd none List.not_mem_nil
    · exact List.forall_mem_cons.2 ⟨rfl, fun c member => digit (second c member)⟩
  obtain ⟨c, rest, same⟩ := List.exists_cons_of_ne_nil filled
  have digit : c.isDigit = true := first c (same ▸ List.mem_cons_self)
  generalize shown : whole ++ (if fraction.length = 0 then [] else '.' :: fraction) = text at unsigned body ⊢
  obtain ⟨more, rfl⟩ : ∃ more, text = c :: more := ⟨_, by rw [← shown, same, List.cons_append]⟩
  have plain : ∀ d ∈ signed negative (c :: more), isPlainChar d = true := by
    cases negative with
    | true => exact List.forall_mem_cons.2 ⟨rfl, body⟩
    | false => exact body
  have sign : takeSign (signed negative (c :: more)) = (negative, c :: more) := by
    cases negative with
    | true => rfl
    | false => exact takeSign_of_isDigit digit more
  -- A digit in front tells the text from the names of what is not finite
  have apart {letter : Char} (other : letter.isDigit = false) : c ≠ letter := ne_of_isDigit digit other
  have names : "inf".toList = 'i' :: ['n', 'f'] ∧ "infinity".toList = 'i' :: ['n', 'f', 'i', 'n', 'i', 't', 'y'] ∧
      "nan".toList = 'n' :: ['a', 'n'] ∧ "snan".toList = 's' :: ['n', 'a', 'n'] := by decide
  unfold Decimal.read?
  rw [trim_of_full fun d member => isBlank_of_isPlainChar (plain d member), plainDigits_of_isPlainChar plain, sign]
  simp only [List.map_cons, toLower_of_isDigit digit, unsigned]
  simp [names, @apart 'i' rfl, (@apart 'n' rfl).symm, (@apart 's' rfl).symm]

theorem fixedPoint_false (places units : Nat) :
    fixedPoint false places units = wholeDigits places units ++
      (if (fractionDigits places units).length = 0 then [] else '.' :: fractionDigits places units) := by
  rw [fixedPoint_eq, length_fractionDigits]
  rfl

/-- A number that is written with fraction digits, in whatever groups, tells its units. -/
theorem fixedPoint_injective {grouped : Bool} {places left right : Nat}
    (same : fixedPoint grouped places left = fixedPoint grouped places right) : left = right := by
  have unsigned (units : Nat) : Decimal.readUnsigned? (fixedPoint false places units) =
      some (units, -(places : Int)) := by
    rw [fixedPoint_false, readUnsigned?_digits (wholeDigits_ne_nil places units)
      (allDigits_wholeDigits places units) (allDigits_fractionDigits places units), ofDigitChars_digits,
      length_fractionDigits]
  have kept : ∀ c : Char, c.isDigit = true → (c != ',') = true :=
    fun c digit => bne_iff_ne.2 (ne_of_isDigit digit rfl)
  have plain := congrArg (List.filter (· != ',')) same
  rw [filter_fixedPoint grouped places left rfl rfl kept, filter_fixedPoint grouped places right rfl rfl kept] at plain
  have read := congrArg Decimal.readUnsigned? plain
  rw [unsigned, unsigned] at read
  cases read
  rfl

/-- What is written with fraction digits is read back as the number of its units. -/
theorem read?_fixedPoint (negative : Bool) {places units : Nat}
    (readable : Decimal.readable units (-(places : Int)) = true) :
    Decimal.read? (signed negative (fixedPoint false places units)) =
      some (.finite negative units (-(places : Int))) := by
  rw [fixedPoint_false, read?_digits negative (wholeDigits_ne_nil places units)
    (allDigits_wholeDigits places units) (allDigits_fractionDigits places units), ofDigitChars_digits,
    length_fractionDigits, if_pos readable]

end DeckBinding
