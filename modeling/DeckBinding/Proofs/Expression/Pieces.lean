import DeckBinding.Expression.Scan
import Mathlib.Data.List.TakeWhile

set_option autoImplicit false

namespace DeckBinding

theorem takeExpression?_braced {body : List Char} (fits : ∀ c ∈ body, isBodyChar c = true)
    (after : List Char) : takeExpression? (braced body ++ after) = some (body, after) := by
  have dropped : (body ++ '\x7d' :: after).dropWhile isBodyChar = '\x7d' :: after := by
    rw [List.dropWhile_append_of_pos fits]
    rfl
  have taken : (body ++ '\x7d' :: after).takeWhile isBodyChar = body := by
    rw [List.takeWhile_append_of_pos fits]
    simp [isBodyChar]
  have shape : braced body ++ after = '$' :: '\x7b' :: (body ++ '\x7d' :: after) := by
    simp [braced]
  simp only [shape, takeExpression?, dropped, taken]

theorem isBodyChar_of_takeExpression? {cs body after : List Char}
    (found : takeExpression? cs = some (body, after)) : ∀ c ∈ body, isBodyChar c = true := by
  unfold takeExpression? at found
  split at found
  · split at found
    · simp only [Option.some.injEq, Prod.mk.injEq] at found
      intro c member
      rw [← found.1] at member
      exact List.mem_takeWhile_imp member
    · cases found
  · cases found

/-- A complete expression stands at the front of a text exactly when the text starts with braces
around characters other than braces. -/
theorem takeExpression?_eq_some_iff {cs body after : List Char} :
    takeExpression? cs = some (body, after) ↔
      cs = braced body ++ after ∧ ∀ c ∈ body, isBodyChar c = true := by
  constructor
  · intro found
    exact ⟨text_of_takeExpression? found, isBodyChar_of_takeExpression? found⟩
  · rintro ⟨rfl, fits⟩
    exact takeExpression?_braced fits after

@[simp] theorem length_braced (body : List Char) : (braced body).length = body.length + 3 := by
  simp [braced]

@[simp] theorem pieces_nil : pieces [] = [] := by
  rw [pieces]

theorem pieces_of_takeExpression? {cs body after : List Char}
    (found : takeExpression? cs = some (body, after)) :
    pieces cs = .bound body :: pieces after := by
  cases cs with
  | nil => cases found
  | cons c rest =>
    rw [pieces]
    split
    · rename_i found'
      rw [found] at found'
      simp only [Option.some.injEq, Prod.mk.injEq] at found'
      rw [found'.1, found'.2]
    · rename_i absent
      rw [found] at absent
      cases absent

theorem pieces_cons_of_none {c : Char} {rest : List Char}
    (absent : takeExpression? (c :: rest) = none) :
    pieces (c :: rest) = .plain c :: pieces rest := by
  rw [pieces]
  split
  · rename_i found
    rw [absent] at found
    cases found
  · rfl

theorem pieces_braced {body : List Char} (fits : ∀ c ∈ body, isBodyChar c = true)
    (after : List Char) : pieces (braced body ++ after) = .bound body :: pieces after :=
  pieces_of_takeExpression? (takeExpression?_braced fits after)

theorem isBodyChar_of_mem_pieces {cs body : List Char} (member : .bound body ∈ pieces cs) :
    ∀ c ∈ body, isBodyChar c = true := by
  fun_induction pieces cs with
  | case1 => cases member
  | case2 c rest inner after found ih =>
    rcases List.mem_cons.1 member with same | later
    · cases same
      exact isBodyChar_of_takeExpression? found
    · exact ih later
  | case3 c rest absent ih =>
    rcases List.mem_cons.1 member with same | later
    · cases same
    · exact ih later

private theorem pieces_plain_of_spansFrom {cs : List Char} {start : Nat}
    (bare : spansFrom start (pieces cs) = []) : pieces cs = cs.map .plain := by
  fun_induction pieces cs generalizing start with
  | case1 => rfl
  | case2 c rest body after found ih => cases bare
  | case3 c rest absent ih =>
    rw [spansFrom] at bare
    rw [List.map_cons, ih bare]

theorem expressionSpans_eq_nil_iff {cs : List Char} :
    expressionSpans cs = [] ↔ ∀ body, .bound body ∉ pieces cs := by
  have none (start : Nat) (ps : List Piece) :
      spansFrom start ps = [] ↔ ∀ body, .bound body ∉ ps := by
    induction ps generalizing start with
    | nil => simp [spansFrom]
    | cons piece rest ih =>
      cases piece with
      | plain c => simp [spansFrom, ih]
      | bound body =>
        simp only [spansFrom, reduceCtorEq, false_iff, not_forall, not_not]
        exact ⟨body, List.mem_cons_self⟩
  exact none 0 (pieces cs)

/-- A text without complete expressions falls into its characters. -/
theorem pieces_eq_map_plain {cs : List Char} (bare : expressionSpans cs = []) :
    pieces cs = cs.map .plain :=
  pieces_plain_of_spansFrom bare

theorem spansFrom_add (start shift : Nat) (ps : List Piece) :
    spansFrom (start + shift) ps =
      (spansFrom start ps).map fun span => (span.1 + shift, span.2 + shift) := by
  induction ps generalizing start with
  | nil => rfl
  | cons piece rest ih =>
    cases piece with
    | plain c =>
      simp only [spansFrom]
      rw [Nat.add_right_comm, ih]
    | bound body =>
      simp only [spansFrom, List.map_cons]
      rw [Nat.add_right_comm, ih]

/-- Spans lie in order inside of the text, each behind the one in front of it. -/
theorem pairwise_spansFrom (start : Nat) (ps : List Piece) :
    (∀ span ∈ spansFrom start ps,
      start ≤ span.1 ∧ span.1 < span.2 ∧ span.2 ≤ start + (ps.flatMap Piece.text).length) ∧
    (spansFrom start ps).Pairwise fun left right => left.2 ≤ right.1 := by
  induction ps generalizing start with
  | nil => simp [spansFrom]
  | cons piece rest ih =>
    cases piece with
    | plain c =>
      obtain ⟨inside, apart⟩ := ih (start + 1)
      refine ⟨?_, apart⟩
      intro span member
      have bounds := inside span member
      simp only [List.flatMap_cons, Piece.text, List.length_append, List.length_singleton]
      omega
    | bound body =>
      obtain ⟨inside, apart⟩ := ih (start + (braced body).length)
      simp only [spansFrom, List.mem_cons, List.flatMap_cons, Piece.text, List.length_append]
      refine ⟨?_, List.pairwise_cons.2 ⟨fun span member => (inside span member).1, apart⟩⟩
      rintro span (rfl | member)
      · simp only [length_braced]
        omega
      · have bounds := inside span member
        omega

theorem mem_expressionSpans {cs : List Char} {span : Nat × Nat}
    (member : span ∈ expressionSpans cs) : span.1 < span.2 ∧ span.2 ≤ cs.length := by
  have bounds := (pairwise_spansFrom 0 (pieces cs)).1 span member
  rw [flatMap_text_pieces] at bounds
  omega

def slice (cs : List Char) (span : Nat × Nat) : List Char :=
  (cs.drop span.1).take (span.2 - span.1)

theorem slice_append {front part back : List Char} :
    slice (front ++ (part ++ back)) (front.length, front.length + part.length) = part := by
  unfold slice
  rw [List.drop_left, Nat.add_sub_cancel_left, List.take_left]

/-- Ranges in order of their starts. -/
abbrev StartsAscend (ranges : List (Nat × Nat)) : Prop :=
  ranges.Pairwise fun left right => left.1 ≤ right.1

theorem StartsAscend.join {range next : Nat × Nat} {rest : List (Nat × Nat)}
    (ascend : StartsAscend (range :: next :: rest)) (stop : Nat) :
    StartsAscend ((range.1, stop) :: rest) := by
  obtain ⟨first, ascendRest⟩ := List.pairwise_cons.1 ascend
  refine List.pairwise_cons.2 ⟨?_, (List.pairwise_cons.1 ascendRest).2⟩
  exact fun other among => first other (List.mem_cons_of_mem _ among)

/-- No complete expression of a text reaches over a position. -/
def Uncrossed (cs : List Char) (position : Nat) : Prop :=
  ∀ span ∈ expressionSpans cs, span.2 ≤ position ∨ position ≤ span.1

theorem Uncrossed.of_cons {c : Char} {rest : List Char} {position : Nat}
    (absent : takeExpression? (c :: rest) = none) (uncrossed : Uncrossed (c :: rest) (position + 1)) :
    Uncrossed rest position := by
  intro span member
  have shifted : (span.1 + 1, span.2 + 1) ∈ expressionSpans (c :: rest) := by
    unfold expressionSpans at member ⊢
    rw [pieces_cons_of_none absent, spansFrom, spansFrom_add]
    exact List.mem_map_of_mem member
  have apart := uncrossed _ shifted
  omega

theorem Uncrossed.of_braced {body after : List Char} {position : Nat}
    (fits : ∀ c ∈ body, isBodyChar c = true)
    (uncrossed : Uncrossed (braced body ++ after) ((braced body).length + position)) :
    Uncrossed after position := by
  intro span member
  have shifted : (span.1 + (braced body).length, span.2 + (braced body).length) ∈
      expressionSpans (braced body ++ after) := by
    unfold expressionSpans at member ⊢
    rw [pieces_braced fits, spansFrom, spansFrom_add]
    exact List.mem_cons_of_mem _ (List.mem_map_of_mem member)
  have apart := uncrossed _ shifted
  omega

/-- The expression at the front of a text ends in front of an uncrossed position. -/
theorem Uncrossed.length_le {body after : List Char} {position : Nat}
    (fits : ∀ c ∈ body, isBodyChar c = true)
    (uncrossed : Uncrossed (braced body ++ after) position) (positive : 0 < position) :
    (braced body).length ≤ position := by
  have front : (0, (braced body).length) ∈ expressionSpans (braced body ++ after) := by
    unfold expressionSpans
    rw [pieces_braced fits, spansFrom, Nat.zero_add]
    exact List.mem_cons_self
  have apart := uncrossed _ front
  omega

/-- A cut that no expression crosses cuts the pieces. -/
theorem pieces_append {front back : List Char} (uncrossed : Uncrossed (front ++ back) front.length) :
    pieces (front ++ back) = pieces front ++ pieces back := by
  fun_induction pieces front with
  | case1 => simp
  | case2 c rest body after found ih =>
    have whole := text_of_takeExpression? found
    have fits := isBodyChar_of_takeExpression? found
    rw [whole, List.append_assoc, List.length_append] at uncrossed
    rw [whole, List.append_assoc, pieces_braced fits, ih (uncrossed.of_braced fits),
      List.cons_append]
  | case3 c rest absent ih =>
    have stays : takeExpression? (c :: (rest ++ back)) = none := by
      by_contra crossed
      obtain ⟨⟨body, after⟩, found⟩ := Option.ne_none_iff_exists'.1 crossed
      obtain ⟨whole, fits⟩ := takeExpression?_eq_some_iff.1 found
      rw [← List.cons_append] at whole
      have short : (braced body).length ≤ (c :: rest).length := by
        rw [whole] at uncrossed
        exact uncrossed.length_le fits (Nat.succ_pos _)
      obtain ⟨tail, split⟩ : braced body <+: c :: rest :=
        List.prefix_of_prefix_length_le (whole ▸ List.prefix_append _ _)
          (List.prefix_append _ back) short
      rw [← split, takeExpression?_braced fits] at absent
      cases absent
    rw [List.cons_append, pieces_cons_of_none stays, List.cons_append, ih]
    exact Uncrossed.of_cons stays uncrossed

theorem spansFrom_append (start : Nat) (front back : List Piece) :
    spansFrom start (front ++ back) =
      spansFrom start front ++ spansFrom (start + (front.flatMap Piece.text).length) back := by
  induction front generalizing start with
  | nil => rfl
  | cons piece rest ih =>
    cases piece with
    | plain c =>
      simp only [List.cons_append, spansFrom, ih, List.flatMap_cons, Piece.text,
        List.nil_append, List.length_cons, Nat.add_assoc, Nat.add_comm 1]
    | bound body =>
      simp only [List.cons_append, spansFrom, ih, List.flatMap_cons, Piece.text,
        List.length_append, Nat.add_assoc]

theorem expressionSpans_append {front back : List Char}
    (uncrossed : Uncrossed (front ++ back) front.length) :
    expressionSpans (front ++ back) =
      expressionSpans front ++
        (expressionSpans back).map fun span => (span.1 + front.length, span.2 + front.length) := by
  unfold expressionSpans
  rw [pieces_append uncrossed, spansFrom_append, flatMap_text_pieces, spansFrom_add]

theorem Uncrossed.of_append {front back : List Char} {position : Nat}
    (uncrossed : Uncrossed (front ++ back) front.length)
    (further : Uncrossed (front ++ back) (front.length + position)) : Uncrossed back position := by
  intro span member
  have shifted : (span.1 + front.length, span.2 + front.length) ∈
      expressionSpans (front ++ back) := by
    rw [expressionSpans_append uncrossed]
    exact List.mem_append_right _ (List.mem_map_of_mem member)
  have apart := further _ shifted
  omega

/-- No expression starts strictly inside of another one: its opening brace would stand in a body. -/
theorem not_braced_inside {body other front tail back after : List Char}
    (fits : ∀ c ∈ other, isBodyChar c = true) (starts : front ≠ []) (runsOn : tail ≠ [])
    (outer : front ++ tail = braced other) (inner : braced body ++ back = tail ++ after) : False := by
  obtain ⟨c, rest, rfl⟩ := List.exists_cons_of_ne_nil starts
  obtain ⟨d, tail, rfl⟩ := List.exists_cons_of_ne_nil runsOn
  simp only [braced, List.cons_append, List.cons.injEq] at outer inner
  obtain ⟨rfl, outer⟩ := outer
  obtain ⟨rfl, inner⟩ := inner
  cases rest with
  | nil => simp at outer
  | cons e rest =>
    rw [List.cons_append, List.cons.injEq] at outer
    have closing := outer.2
    cases tail with
    | nil =>
      have last := congrArg List.getLast? closing
      simp at last
    | cons brace tail =>
      rw [List.cons_append, List.cons.injEq] at inner
      rw [← inner.1] at closing
      have member : '\x7b' ∈ other ++ ['\x7d'] := by
        rw [← closing]
        simp
      rcases List.mem_append.1 member with inside | last
      · exact absurd (fits _ inside) (by decide)
      · simp at last

/-- An expression in front of another one ends in front of it. -/
theorem exists_append_of_takeExpression? {body other front back after : List Char} (starts : front ≠ [])
    (taken : takeExpression? (front ++ (braced body ++ back)) = some (other, after)) :
    ∃ tail, front = braced other ++ tail := by
  obtain ⟨whole, inside⟩ := takeExpression?_eq_some_iff.1 taken
  have short : (braced other).length ≤ front.length := by
    by_contra longer
    obtain ⟨tail, split⟩ : front <+: braced other :=
      List.prefix_of_prefix_length_le (whole ▸ List.prefix_append _ _)
        (List.prefix_append _ after) (by omega)
    have runsOn : tail ≠ [] := by
      rintro rfl
      rw [List.append_nil] at split
      rw [split] at longer
      exact longer (Nat.le_refl _)
    rw [← split, List.append_assoc, List.append_cancel_left_eq] at whole
    exact not_braced_inside inside starts runsOn split whole
  obtain ⟨tail, split⟩ : braced other <+: front :=
    List.prefix_of_prefix_length_le (whole ▸ List.prefix_append _ _)
      (List.prefix_append _ (braced body ++ back)) short
  exact ⟨tail, split.symm⟩

/-- Braces around characters other than braces are an expression wherever they stand: another one
that starts in front of them ends there too, since its body holds no brace. -/
theorem mem_expressionSpans_of_braced {body : List Char} (fits : ∀ c ∈ body, isBodyChar c = true)
    (front back : List Char) :
    (front.length, front.length + (braced body).length) ∈
      expressionSpans (front ++ (braced body ++ back)) := by
  obtain ⟨size, same⟩ : ∃ size, size = front.length := ⟨_, rfl⟩
  induction size using Nat.strongRecOn generalizing front with
  | ind size ih =>
    cases front with
    | nil =>
      rw [List.nil_append, expressionSpans, pieces_braced fits, spansFrom]
      simp
    | cons c rest =>
      cases found : takeExpression? (c :: rest ++ (braced body ++ back)) with
      | none =>
        have inner := ih rest.length (by simp [same]) rest rfl
        unfold expressionSpans at inner ⊢
        rw [List.cons_append] at found ⊢
        rw [pieces_cons_of_none found, spansFrom, spansFrom_add]
        have shifted := List.mem_map_of_mem (f := fun span => (span.1 + 1, span.2 + 1)) inner
        simpa only [List.length_cons, Nat.add_right_comm] using shifted
      | some taken =>
        obtain ⟨other, after⟩ := taken
        have inside := (takeExpression?_eq_some_iff.1 found).2
        obtain ⟨tail, split⟩ := exists_append_of_takeExpression? (List.cons_ne_nil _ _) found
        rw [split] at same ⊢
        have inner := ih tail.length (by simp [same]) tail rfl
        unfold expressionSpans at inner ⊢
        rw [List.append_assoc, pieces_braced inside, spansFrom, spansFrom_add]
        have shifted := List.mem_map_of_mem
          (f := fun span => (span.1 + (braced other).length, span.2 + (braced other).length)) inner
        apply List.mem_cons_of_mem
        simpa only [List.length_append, Nat.add_assoc, Nat.add_comm, Nat.add_left_comm] using shifted

theorem plainQuote_eq (c : Char) : plainQuote c = c ∨ plainQuote c = '"' ∨ plainQuote c = '\'' := by
  unfold plainQuote
  split
  · exact .inr (.inl rfl)
  · split
    · exact .inr (.inr rfl)
    · exact .inl rfl

theorem plainQuote_plainQuote (c : Char) : plainQuote (plainQuote c) = plainQuote c := by
  rcases plainQuote_eq c with same | same | same <;> rw [same]
  · exact same
  · rfl
  · rfl

theorem map_plainQuote_braced (body : List Char) :
    (braced body).map plainQuote = braced (body.map plainQuote) := by
  have dollar : plainQuote '$' = '$' := by decide
  have opening : plainQuote '\x7b' = '\x7b' := by decide
  have closing : plainQuote '\x7d' = '\x7d' := by decide
  simp [braced, dollar, opening, closing]

theorem isBodyChar_plainQuote {c : Char} (fits : isBodyChar c = true) :
    isBodyChar (plainQuote c) = true := by
  unfold plainQuote
  split
  · rfl
  · split
    · rfl
    · exact fits

theorem isBodyChar_map_plainQuote {body : List Char} (fits : ∀ c ∈ body, isBodyChar c = true) :
    ∀ c ∈ body.map plainQuote, isBodyChar c = true := by
  intro c member
  obtain ⟨before, inside, rfl⟩ := List.mem_map.1 member
  exact isBodyChar_plainQuote (fits before inside)

@[simp] theorem withPlainQuotes_nil : withPlainQuotes [] = [] := by
  simp [withPlainQuotes]

theorem withPlainQuotes_braced {body : List Char} (fits : ∀ c ∈ body, isBodyChar c = true)
    (after : List Char) :
    withPlainQuotes (braced body ++ after) =
      braced (body.map plainQuote) ++ withPlainQuotes after := by
  simp only [withPlainQuotes, pieces_braced fits, List.flatMap_cons, Piece.withPlainQuotes,
    Piece.text]

theorem withPlainQuotes_cons_of_none {c : Char} {rest : List Char}
    (absent : takeExpression? (c :: rest) = none) :
    withPlainQuotes (c :: rest) = c :: withPlainQuotes rest := by
  simp only [withPlainQuotes, pieces_cons_of_none absent, List.flatMap_cons, Piece.withPlainQuotes,
    Piece.text, List.singleton_append]

/-- What closes an expression after the quotes are plain closes it before. -/
theorem body_of_withPlainQuotes {cs body after : List Char}
    (fits : ∀ c ∈ body, isBodyChar c = true)
    (closed : withPlainQuotes cs = body ++ '\x7d' :: after) :
    ∃ rest, cs = body ++ '\x7d' :: rest := by
  induction body generalizing cs with
  | nil =>
    cases found : takeExpression? cs with
    | some taken =>
      obtain ⟨whole, inside⟩ := takeExpression?_eq_some_iff.1 found
      rw [whole, withPlainQuotes_braced inside] at closed
      simp [braced] at closed
    | none =>
      cases cs with
      | nil => simp at closed
      | cons c rest =>
        rw [withPlainQuotes_cons_of_none found, List.nil_append, List.cons.injEq] at closed
        exact ⟨rest, by rw [closed.1, List.nil_append]⟩
  | cons d body ih =>
    cases found : takeExpression? cs with
    | some taken =>
      obtain ⟨whole, inside⟩ := takeExpression?_eq_some_iff.1 found
      rw [whole, withPlainQuotes_braced inside] at closed
      cases body with
      | nil => simp [braced] at closed
      | cons next body =>
        simp only [braced, List.cons_append, List.cons.injEq] at closed
        have brace := fits next (by simp)
        rw [← closed.2.1] at brace
        cases brace
    | none =>
      cases cs with
      | nil => simp at closed
      | cons c rest =>
        rw [withPlainQuotes_cons_of_none found, List.cons_append, List.cons.injEq] at closed
        obtain ⟨tail, rfl⟩ := ih (fun c member => fits c (List.mem_cons_of_mem d member)) closed.2
        exact ⟨tail, by rw [closed.1, List.cons_append]⟩

theorem takeExpression?_withPlainQuotes_none {c : Char} {rest : List Char}
    (absent : takeExpression? (c :: rest) = none) :
    takeExpression? (c :: withPlainQuotes rest) = none := by
  by_contra present
  obtain ⟨⟨body, after⟩, found⟩ := Option.ne_none_iff_exists'.1 present
  obtain ⟨whole, fits⟩ := takeExpression?_eq_some_iff.1 found
  have shape : braced body ++ after = '$' :: '\x7b' :: (body ++ '\x7d' :: after) := by
    simp [braced]
  rw [shape, List.cons.injEq] at whole
  obtain ⟨rfl, opened⟩ := whole
  -- The brace behind the dollar sign is no quote and starts no expression, so it stood there before
  cases inner : takeExpression? rest with
  | some taken =>
    obtain ⟨front, inside⟩ := takeExpression?_eq_some_iff.1 inner
    rw [front, withPlainQuotes_braced inside] at opened
    simp [braced] at opened
  | none =>
    cases rest with
    | nil => simp at opened
    | cons d rest =>
      rw [withPlainQuotes_cons_of_none inner, List.cons.injEq] at opened
      obtain ⟨rfl, closed⟩ := opened
      obtain ⟨tail, rfl⟩ := body_of_withPlainQuotes fits closed
      have taken := takeExpression?_braced fits tail
      have same : braced body ++ tail = '$' :: '\x7b' :: (body ++ '\x7d' :: tail) := by
        simp [braced]
      rw [same, absent] at taken
      cases taken

/-- Plain quotes change the bodies of the pieces and nothing else. -/
theorem pieces_withPlainQuotes (cs : List Char) :
    pieces (withPlainQuotes cs) = (pieces cs).map Piece.withPlainQuotes := by
  fun_induction pieces cs with
  | case1 => simp
  | case2 c rest body after found ih =>
    have fits := isBodyChar_of_takeExpression? found
    rw [text_of_takeExpression? found, withPlainQuotes_braced fits,
      pieces_braced (isBodyChar_map_plainQuote fits), ih, List.map_cons, Piece.withPlainQuotes]
  | case3 c rest absent ih =>
    rw [withPlainQuotes_cons_of_none absent,
      pieces_cons_of_none (takeExpression?_withPlainQuotes_none absent), ih, List.map_cons,
      Piece.withPlainQuotes]

theorem map_plainQuote_withPlainQuotes (cs : List Char) :
    (withPlainQuotes cs).map plainQuote = cs.map plainQuote := by
  have each (piece : Piece) :
      piece.withPlainQuotes.text.map plainQuote = piece.text.map plainQuote := by
    cases piece with
    | plain c => rfl
    | bound body =>
      simp only [Piece.withPlainQuotes, Piece.text, map_plainQuote_braced, List.map_map,
        Function.comp_def, plainQuote_plainQuote]
  conv => rhs; rw [← flatMap_text_pieces cs]
  simp only [withPlainQuotes, List.map_flatMap, each]

/-- Without a dollar sign there is no expression whose quotes could change. -/
theorem withPlainQuotes_of_not_mem {cs : List Char} (absent : '$' ∉ cs) :
    withPlainQuotes cs = cs := by
  induction cs with
  | nil => simp
  | cons c rest ih =>
    have apart : c ≠ '$' := fun same => absent (same ▸ List.mem_cons_self)
    have none : takeExpression? (c :: rest) = none := by
      unfold takeExpression?
      split
      · rename_i same
        cases same
        exact absurd rfl apart
      · rfl
    rw [withPlainQuotes_cons_of_none none, ih fun member => absent (List.mem_cons_of_mem c member)]

/-- Where no expression opens there is none whose quotes could change. -/
theorem withPlainQuotes_of_unopened {cs : List Char} (unopened : ¬ ['$', '\x7b'] <:+: cs) :
    withPlainQuotes cs = cs := by
  induction cs with
  | nil => simp
  | cons c rest ih =>
    have none : takeExpression? (c :: rest) = none := by
      rw [Option.eq_none_iff_forall_ne_some]
      rintro ⟨body, after⟩ found
      have opens : ['$', '\x7b'] <+: c :: rest := by
        rw [text_of_takeExpression? found, braced]
        simp
      exact unopened opens.isInfix
    rw [withPlainQuotes_cons_of_none none, ih fun opens => unopened (List.infix_cons opens)]

/-- A pair of characters stands in a text around a mark only where it stands beside the mark. -/
theorem infix_pair_append {first second mark : Char} (left : mark ≠ first) (right : mark ≠ second)
    {front back : List Char} (inside : [first, second] <:+: front ++ mark :: back) :
    [first, second] <:+: front ∨ [first, second] <:+: back := by
  induction front with
  | nil =>
    rcases List.infix_cons_iff.1 inside with start | later
    · exact absurd (List.cons_prefix_cons.1 start).1.symm left
    · exact .inr later
  | cons c front ih =>
    rcases List.infix_cons_iff.1 inside with start | later
    · obtain ⟨rfl, next⟩ := List.cons_prefix_cons.1 start
      cases front with
      | nil => exact absurd (List.cons_prefix_cons.1 next).1.symm right
      | cons d front =>
        obtain ⟨rfl, _⟩ := List.cons_prefix_cons.1 next
        exact .inl (List.prefix_append [first, second] front).isInfix
    · rcases ih later with here | behind
      · exact .inl (List.infix_cons here)
      · exact .inr behind

/-- A pair of characters does not reach into a text from a front without the first of them. -/
theorem infix_pair_of_not_mem {first second : Char} {front back : List Char} (absent : first ∉ front)
    (inside : [first, second] <:+: front ++ back) : [first, second] <:+: back := by
  induction front with
  | nil => exact inside
  | cons c front ih =>
    obtain ⟨apart, further⟩ := not_or.1 (List.mem_cons.not.1 absent)
    rcases List.infix_cons_iff.1 inside with start | later
    · exact absurd (List.cons_prefix_cons.1 start).1 apart
    · exact ih further later

end DeckBinding
