import DeckBinding.Proofs.Expression.Pieces

set_option autoImplicit false

namespace DeckBinding

/-- An opening, characters other than braces, and the closing brace. -/
def IsComplete (part : List Char) : Prop :=
  ∃ body, part = braced body ∧ ∀ c ∈ body, c ≠ '\x7b' ∧ c ≠ '\x7d'

def typographicQuotes : List Char :=
  ['\u201c', '\u201d', '\u2018', '\u2019']

variable {cs front back : List Char} {span : Nat × Nat} {start stop position : Nat}

theorem isBodyChar_eq_true_iff {c : Char} : isBodyChar c = true ↔ c ≠ '\x7b' ∧ c ≠ '\x7d' := by
  simp [isBodyChar]

theorem isComplete_iff {part : List Char} :
    IsComplete part ↔ ∃ body, part = braced body ∧ ∀ c ∈ body, isBodyChar c = true := by
  simp only [IsComplete, isBodyChar_eq_true_iff]

/-- A text around a part of it that is not empty. -/
theorem exists_around_slice (inside : stop ≤ cs.length) (filled : slice cs (start, stop) ≠ []) :
    ∃ front back, cs = front ++ (slice cs (start, stop) ++ back) ∧ front.length = start ∧
      start + (slice cs (start, stop)).length = stop := by
  have length : (slice cs (start, stop)).length = min (stop - start) (cs.length - start) := by
    simp [slice]
  have positive := List.length_pos_iff.2 filled
  refine ⟨cs.take start, (cs.drop start).drop (stop - start), ?_, ?_, ?_⟩
  · rw [slice, List.take_append_drop, List.take_append_drop]
  · rw [List.length_take]
    omega
  · omega

/-- The span of an expression cuts the text into three. -/
theorem exists_around_span (member : span ∈ expressionSpans cs) :
    ∃ front body back, cs = front ++ (braced body ++ back) ∧ (∀ c ∈ body, isBodyChar c = true) ∧
      span = (front.length, front.length + (braced body).length) := by
  fun_induction pieces cs generalizing span with
  | case1 => simp [expressionSpans, spansFrom] at member
  | case2 c rest body after found ih =>
    have fits := isBodyChar_of_takeExpression? found
    rw [text_of_takeExpression? found] at member ⊢
    rw [expressionSpans, pieces_braced fits, spansFrom, spansFrom_add] at member
    rcases List.mem_cons.1 member with here | later
    · exact ⟨[], body, after, rfl, fits, by simpa using here⟩
    · obtain ⟨inner, among, rfl⟩ := List.mem_map.1 later
      obtain ⟨front, other, back, split, inside, rfl⟩ := ih among
      refine ⟨braced body ++ front, other, back, by rw [split, List.append_assoc], inside, ?_⟩
      simp only [List.length_append, Prod.mk.injEq]
      omega
  | case3 c rest absent ih =>
    rw [expressionSpans, pieces_cons_of_none absent, spansFrom, spansFrom_add] at member
    obtain ⟨inner, among, rfl⟩ := List.mem_map.1 member
    obtain ⟨front, body, back, split, fits, rfl⟩ := ih among
    refine ⟨c :: front, body, back, by rw [split, List.cons_append], fits, ?_⟩
    simp only [List.length_cons, Prod.mk.injEq, true_and]
    omega

/-- A span is where a complete expression stands. -/
theorem mem_expressionSpans_iff :
    (start, stop) ∈ expressionSpans cs ↔ stop ≤ cs.length ∧ IsComplete (slice cs (start, stop)) := by
  rw [isComplete_iff]
  constructor
  · intro member
    obtain ⟨front, body, back, split, fits, place⟩ := exists_around_span member
    refine ⟨(mem_expressionSpans member).2, body, ?_, fits⟩
    rw [place, split, slice_append]
  · rintro ⟨inside, body, complete, fits⟩
    have filled : slice cs (start, stop) ≠ [] := by
      rw [complete, braced]
      exact List.cons_ne_nil _ _
    obtain ⟨front, back, split, begins, ends⟩ := exists_around_slice inside filled
    rw [complete] at split ends
    have member := mem_expressionSpans_of_braced fits front back
    rwa [← split, begins, ends] at member

/-- A cut leaves the expressions of both parts as they are exactly when it crosses none. -/
theorem uncrossed_iff_expressionSpans :
    Uncrossed (front ++ back) front.length ↔
      expressionSpans (front ++ back) = expressionSpans front ++
        (expressionSpans back).map fun span => (span.1 + front.length, span.2 + front.length) := by
  constructor
  · exact expressionSpans_append
  · intro apart span member
    rw [apart] at member
    rcases List.mem_append.1 member with left | right
    · exact .inl (mem_expressionSpans left).2
    · obtain ⟨inner, _, rfl⟩ := List.mem_map.1 right
      exact .inr (Nat.le_add_left _ _)

/-- The spans of a text are the places of its complete expressions, in order and disjoint, and they
fall into those of two parts exactly when none of these places crosses the cut. -/
theorem expressionSpans_complete (cs : List Char) :
    (∀ start stop, (start, stop) ∈ expressionSpans cs ↔
      stop ≤ cs.length ∧ IsComplete (slice cs (start, stop))) ∧
    (expressionSpans cs).Pairwise (fun left right => left.1 < right.1 ∧ left.2 ≤ right.1) ∧
    ∀ front back, cs = front ++ back →
      ((∀ start stop, stop ≤ cs.length → IsComplete (slice cs (start, stop)) →
          stop ≤ front.length ∨ front.length ≤ start) ↔
        expressionSpans cs = expressionSpans front ++
          (expressionSpans back).map fun span => (span.1 + front.length, span.2 + front.length)) := by
  refine ⟨fun start stop => mem_expressionSpans_iff, ?_, ?_⟩
  · refine (pairwise_spansFrom 0 (pieces cs)).2.imp_of_mem ?_
    intro left right first _ apart
    have bounds := mem_expressionSpans first
    omega
  · rintro front back rfl
    rw [← uncrossed_iff_expressionSpans]
    constructor
    · rintro uncrossed ⟨start, stop⟩ member
      obtain ⟨inside, complete⟩ := mem_expressionSpans_iff.1 member
      exact uncrossed start stop inside complete
    · intro uncrossed start stop inside complete
      exact uncrossed _ (mem_expressionSpans_iff.2 ⟨inside, complete⟩)

/-- An opening in front of an expression belongs to none, and a cut between the two crosses
nothing. -/
theorem expressionSpans_complete_nested :
    "$\x7b$\x7ba\x7d".toList = "$\x7b".toList ++ "$\x7ba\x7d".toList ∧
    (2, 6) ∈ expressionSpans "$\x7b$\x7ba\x7d".toList ∧
    (∀ start stop, stop ≤ "$\x7b$\x7ba\x7d".toList.length →
      IsComplete (slice "$\x7b$\x7ba\x7d".toList (start, stop)) → stop ≤ 2 ∨ 2 ≤ start) ∧
    expressionSpans "$\x7b$\x7ba\x7d".toList = [(2, 6)] := by
  obtain ⟨exactly, _, cuts⟩ := expressionSpans_complete "$\x7b$\x7ba\x7d".toList
  have whole : "$\x7b$\x7ba\x7d".toList = "$\x7b".toList ++ "$\x7ba\x7d".toList := rfl
  have opening : expressionSpans "$\x7b".toList = [] := by
    change spansFrom 0 (pieces ['$', '\x7b']) = []
    rw [pieces_cons_of_none (by decide), pieces_cons_of_none (by decide), pieces_nil]
    rfl
  have behind : expressionSpans "$\x7ba\x7d".toList = [(0, 4)] := by
    change spansFrom 0 (pieces ['$', '\x7b', 'a', '\x7d']) = [(0, 4)]
    rw [pieces_of_takeExpression? rfl, pieces_nil]
    rfl
  have spans : expressionSpans "$\x7b$\x7ba\x7d".toList = [(2, 6)] := by
    change spansFrom 0 (pieces ['$', '\x7b', '$', '\x7b', 'a', '\x7d']) = [(2, 6)]
    rw [pieces_cons_of_none (by decide), pieces_cons_of_none (by decide),
      pieces_of_takeExpression? rfl, pieces_nil]
    rfl
  refine ⟨whole, (exactly 2 6).2 ⟨by decide, ['a'], rfl, by simp⟩, ?_, spans⟩
  refine (cuts _ _ whole).2 ?_
  rw [spans, opening, behind]
  rfl

/-- A position inside of a complete expression, its braces included. -/
def InExpression (cs : List Char) (position : Nat) : Prop :=
  ∃ span ∈ expressionSpans cs, span.1 ≤ position ∧ position < span.2

theorem inExpression_braced {body : List Char} (fits : ∀ c ∈ body, isBodyChar c = true)
    (after : List Char) (position : Nat) :
    InExpression (braced body ++ after) position ↔ position < (braced body).length ∨
      (braced body).length ≤ position ∧ InExpression after (position - (braced body).length) := by
  unfold InExpression expressionSpans
  rw [pieces_braced fits, spansFrom, spansFrom_add]
  constructor
  · rintro ⟨span, member, begins, ends⟩
    rcases List.mem_cons.1 member with rfl | later
    · left
      omega
    · obtain ⟨inner, among, rfl⟩ := List.mem_map.1 later
      refine .inr ⟨by omega, inner, among, by omega, by omega⟩
  · rintro (here | ⟨behind, span, member, begins, ends⟩)
    · exact ⟨_, List.mem_cons_self, Nat.zero_le _, by omega⟩
    · refine ⟨_, List.mem_cons_of_mem _ (List.mem_map_of_mem member), ?_, ?_⟩ <;> dsimp only <;> omega

theorem inExpression_cons_of_none {c : Char} {rest : List Char}
    (absent : takeExpression? (c :: rest) = none) (position : Nat) :
    InExpression (c :: rest) position ↔ 0 < position ∧ InExpression rest (position - 1) := by
  unfold InExpression expressionSpans
  rw [pieces_cons_of_none absent, spansFrom, spansFrom_add]
  constructor
  · rintro ⟨span, member, begins, ends⟩
    obtain ⟨inner, among, rfl⟩ := List.mem_map.1 member
    refine ⟨by omega, inner, among, by omega, by omega⟩
  · rintro ⟨positive, span, member, begins, ends⟩
    refine ⟨_, List.mem_map_of_mem member, ?_, ?_⟩ <;> dsimp only <;> omega

theorem plainQuote_not_mem (c : Char) : plainQuote c ∉ typographicQuotes := by
  unfold plainQuote
  split
  · decide
  · split
    · decide
    · rename_i double single
      simp only [not_or] at double single
      simp [typographicQuotes, double, single]

/-- A character changes to its plain quote exactly inside of the expressions. -/
theorem getElem?_withPlainQuotes (cs : List Char) (position : Nat) :
    (InExpression cs position → (withPlainQuotes cs)[position]? = cs[position]?.map plainQuote) ∧
      (¬ InExpression cs position → (withPlainQuotes cs)[position]? = cs[position]?) := by
  fun_induction pieces cs generalizing position with
  | case1 => simp
  | case2 c rest body after found ih =>
    have fits := isBodyChar_of_takeExpression? found
    rw [text_of_takeExpression? found, withPlainQuotes_braced fits, inExpression_braced fits,
      ← map_plainQuote_braced]
    by_cases here : position < (braced body).length
    · refine ⟨fun _ => ?_, fun outside => absurd (.inl here) outside⟩
      rw [List.getElem?_append_left (by rwa [List.length_map]), List.getElem?_append_left here,
        List.getElem?_map]
    · have behind := Nat.not_lt.1 here
      rw [List.getElem?_append_right (by rwa [List.length_map]), List.getElem?_append_right behind,
        List.length_map]
      simp only [here, behind, false_or, true_and]
      exact ih (position - (braced body).length)
  | case3 c rest absent ih =>
    rw [withPlainQuotes_cons_of_none absent, inExpression_cons_of_none absent]
    cases position with
    | zero => simp
    | succ position => simpa using ih position

/-- Plain quotes are put into the two parts of a text one after the other. -/
theorem withPlainQuotes_append (uncrossed : Uncrossed (front ++ back) front.length) :
    withPlainQuotes (front ++ back) = withPlainQuotes front ++ withPlainQuotes back := by
  rw [withPlainQuotes, pieces_append uncrossed, List.flatMap_append, withPlainQuotes, withPlainQuotes]

theorem length_text_withPlainQuotes (piece : Piece) :
    piece.withPlainQuotes.text.length = piece.text.length := by
  cases piece <;> simp [Piece.withPlainQuotes, Piece.text]

theorem spansFrom_withPlainQuotes (start : Nat) (ps : List Piece) :
    spansFrom start (ps.map Piece.withPlainQuotes) = spansFrom start ps := by
  induction ps generalizing start with
  | nil => rfl
  | cons piece rest ih =>
    cases piece <;> simp [Piece.withPlainQuotes, spansFrom, ih]

theorem withPlainQuotes_withPlainQuotes (cs : List Char) :
    withPlainQuotes (withPlainQuotes cs) = withPlainQuotes cs := by
  have again (piece : Piece) : piece.withPlainQuotes.withPlainQuotes = piece.withPlainQuotes := by
    cases piece <;> simp [Piece.withPlainQuotes, plainQuote_plainQuote]
  rw [withPlainQuotes, pieces_withPlainQuotes, List.flatMap_map]
  simp only [again]
  rfl

/-- Plain quotes move nothing: the text keeps its length, its spans and what stands outside of them,
no typographic quote stays in a span, and a second time changes nothing, nor does a cut that crosses
no span. -/
theorem withPlainQuotes_in_place (cs : List Char) :
    (withPlainQuotes cs).length = cs.length ∧
    expressionSpans (withPlainQuotes cs) = expressionSpans cs ∧
    (∀ position, ¬ InExpression cs position → (withPlainQuotes cs)[position]? = cs[position]?) ∧
    (∀ position, InExpression cs position →
      (withPlainQuotes cs)[position]? = cs[position]?.map plainQuote ∧
        ∀ c ∈ (withPlainQuotes cs)[position]?, c ∉ typographicQuotes) ∧
    withPlainQuotes (withPlainQuotes cs) = withPlainQuotes cs ∧
    ∀ front back, cs = front ++ back → Uncrossed cs front.length →
      withPlainQuotes cs = withPlainQuotes front ++ withPlainQuotes back := by
  refine ⟨?_, ?_, fun position => (getElem?_withPlainQuotes cs position).2, ?_,
    withPlainQuotes_withPlainQuotes cs, ?_⟩
  · conv => rhs; rw [← flatMap_text_pieces cs]
    simp only [withPlainQuotes, List.length_flatMap, length_text_withPlainQuotes]
  · rw [expressionSpans, pieces_withPlainQuotes, spansFrom_withPlainQuotes, expressionSpans]
  · intro position inside
    have changed := (getElem?_withPlainQuotes cs position).1 inside
    refine ⟨changed, fun c member => ?_⟩
    rw [changed, Option.mem_def, Option.map_eq_some_iff] at member
    obtain ⟨before, -, rfl⟩ := member
    exact plainQuote_not_mem before
  · rintro front back rfl uncrossed
    exact withPlainQuotes_append uncrossed

/-- A typographic quote in an expression is made plain, and one behind the expression stays. -/
theorem withPlainQuotes_in_place_two_quotes :
    InExpression ['$', '\x7b', '\u201c', '\x7d', '\u201d'] 2 ∧
    ¬ InExpression ['$', '\x7b', '\u201c', '\x7d', '\u201d'] 4 ∧
    Uncrossed ['$', '\x7b', '\u201c', '\x7d', '\u201d'] 4 ∧
    (withPlainQuotes ['$', '\x7b', '\u201c', '\x7d', '\u201d'])[2]? = some '"' ∧
    (withPlainQuotes ['$', '\x7b', '\u201c', '\x7d', '\u201d'])[4]? = some '\u201d' ∧
    withPlainQuotes ['$', '\x7b', '\u201c', '\x7d', '\u201d'] =
      withPlainQuotes ['$', '\x7b', '\u201c', '\x7d'] ++ withPlainQuotes ['\u201d'] := by
  obtain ⟨_, _, outside, inside, _, parts⟩ :=
    withPlainQuotes_in_place ['$', '\x7b', '\u201c', '\x7d', '\u201d']
  have spans : expressionSpans ['$', '\x7b', '\u201c', '\x7d', '\u201d'] = [(0, 4)] := by
    rw [expressionSpans, pieces_of_takeExpression? rfl, pieces_cons_of_none (by decide), pieces_nil]
    rfl
  have within : InExpression ['$', '\x7b', '\u201c', '\x7d', '\u201d'] 2 := by
    rw [InExpression, spans]
    exact ⟨(0, 4), List.mem_cons_self, by decide, by decide⟩
  have behind : ¬ InExpression ['$', '\x7b', '\u201c', '\x7d', '\u201d'] 4 := by
    rw [InExpression, spans]
    rintro ⟨span, member, _, ends⟩
    rw [List.mem_singleton.1 member] at ends
    exact absurd ends (by decide)
  have uncrossed : Uncrossed ['$', '\x7b', '\u201c', '\x7d', '\u201d'] 4 := by
    intro span member
    rw [spans, List.mem_singleton] at member
    exact .inl (by rw [member])
  exact ⟨within, behind, uncrossed, (inside 2 within).1, outside 4 behind,
    parts ['$', '\x7b', '\u201c', '\x7d'] ['\u201d'] rfl uncrossed⟩

end DeckBinding
