import DeckBinding.Expression.Reading
import DeckBinding.Proofs.Expression.PathText
import DeckBinding.Proofs.Path.Indices
import DeckBinding.Proofs.Path.Selection

set_option autoImplicit false

namespace DeckBinding

open DeckBinding.Number DeckBinding.Text

/-- An expression whose paths have indices less than a bound, and what it refers to as well. -/
structure Expression.IndicesBelow (bound : Nat) (expression : Expression) : Prop where
  paths : ∀ path ∈ expression.paths, path.IndicesBelow bound
  references : ∀ reference ∈ expression.references, reference.2 < bound

variable {bound : Nat} {text : List Char}

theorem lt_of_mem_references {path : Path} (below : path.IndicesBelow bound)
    {reference : String × Nat}
    (member : reference ∈ path.references) : reference.2 < bound := by
  obtain ⟨step, among, found⟩ := List.mem_filterMap.1 member
  obtain ⟨number, here, rfl⟩ := Option.map_eq_some_iff.1 found
  refine below step.segment ?_ _ here
  rw [← Path.segments_steps]
  exact List.mem_map_of_mem among

theorem Source.references_lt {source : Source}
    (below : ∀ path ∈ source.paths, path.IndicesBelow bound) :
    ∀ reference ∈ source.references, reference.2 < bound := by
  rw [source.references_eq, List.forall_mem_flatMap]
  exact fun path member reference inside => lt_of_mem_references (below path member) inside

theorem suffix_of_takeFunctionName? {cs name rest : List Char} {owner : Option (List Char)}
    (found : takeFunctionName? cs = some (owner, name, rest)) : rest <:+ cs := by
  unfold takeFunctionName? at found
  obtain ⟨⟨word, behind⟩, first, further⟩ := Option.bind_eq_some_iff.1 found
  have inside : behind <:+ cs := (suffix_of_takeName? first).trans (suffix_trimLeft cs)
  dsimp only at further
  split at further
  · rename_i point
    obtain ⟨⟨other, last⟩, second, same⟩ := Option.bind_eq_some_iff.1 further
    cases same
    exact (suffix_of_takeName? second).trans ((List.suffix_cons '.' point).trans inside)
  · cases further
    exact inside

theorem prefix_of_cutAtClosing? {cs inner : List Char} {format : Option (List Char)}
    (found : cutAtClosing? cs = some (inner, format)) : inner <+: cs := by
  induction cs generalizing inner format with
  | nil => cases found
  | cons c rest ih =>
    unfold cutAtClosing? at found
    split at found
    · rename_i further behind
      cases found
      exact List.cons_prefix_cons.2 ⟨rfl, ih behind⟩
    · split at found
      · obtain ⟨kept, _, same⟩ := Option.map_eq_some_iff.1 found
        cases same
        exact List.nil_prefix
      · cases found

theorem infix_of_splitCall? {cs : List Char} {parts : CallText} (found : splitCall? cs = some parts) :
    parts.arguments <:+: cs := by
  unfold splitCall? at found
  obtain ⟨⟨owner, name, rest⟩, named, further⟩ := Option.bind_eq_some_iff.1 found
  have inside : trimLeft rest <:+ cs := (suffix_trimLeft rest).trans (suffix_of_takeFunctionName? named)
  dsimp only at further
  split at further
  · rename_i opened behind
    obtain ⟨⟨arguments, format⟩, closed, same⟩ := Option.bind_eq_some_iff.1 further
    cases same
    rw [behind] at inside
    exact (prefix_of_cutAtClosing? closed).isInfix.trans
      ((List.suffix_cons '(' opened).trans inside).isInfix
  · cases further

/-- The arguments between commas stand in the text. -/
theorem infix_cutArguments (current : Option Char) (cs : List Char) :
    (cutArguments current cs).1 <+: cs ∧ ∀ part ∈ (cutArguments current cs).2.1, part <:+: cs := by
  induction cs generalizing current with
  | nil => exact ⟨List.prefix_rfl, fun _ member => absurd member List.not_mem_nil⟩
  | cons c rest ih =>
    obtain ⟨first, others⟩ := ih (nextQuote current c)
    have behind : ∀ part ∈ (cutArguments (nextQuote current c) rest).2.1, part <:+: c :: rest :=
      fun part member => List.infix_cons (others part member)
    rw [cutArguments]
    dsimp only
    split
    · refine ⟨List.nil_prefix, ?_⟩
      intro part member
      rcases List.mem_cons.1 member with rfl | later
      · exact List.infix_cons first.isInfix
      · exact behind part later
    · exact ⟨List.cons_prefix_cons.2 ⟨rfl, first⟩, behind⟩

theorem infix_of_splitArguments {cs : List Char} {texts : List (List Char)}
    (split : splitArguments cs = .ok texts) : ∀ part ∈ texts, part <:+: cs := by
  have cut := infix_cutArguments none cs
  unfold splitArguments at split
  dsimp only at split
  split at split
  · cases split
  · split at split
    · cases split
      exact fun _ member => absurd member List.not_mem_nil
    · cases split
      intro part member
      obtain ⟨whole, among, rfl⟩ := List.mem_map.1 member
      refine (infix_trim whole).trans ?_
      rcases List.mem_cons.1 among with rfl | later
      · exact cut.1.isInfix
      · exact cut.2 whole later

theorem prefix_cutAtColon (cs : List Char) : (cutAtColon cs).1 <+: cs := by
  induction cs with
  | nil => exact List.prefix_rfl
  | cons c rest ih =>
    unfold cutAtColon
    split
    · exact List.nil_prefix
    · exact List.cons_prefix_cons.2 ⟨rfl, ih⟩

theorem Readable.inExpression {α : Type} {holds : Path → Prop} {further : α → Prop}
    {failure : ReadFailure PathError} (reads : Readable holds (.error failure)) :
    Readable further (.error failure.inExpression) := by
  cases failure with
  | malformed error => exact trivial
  | numeral error => exact reads

/-- An argument whose path has indices less than a bound, if it is a path. -/
def Argument.IndicesBelow (bound : Nat) (argument : Argument) : Prop :=
  ∀ path, argument.path? = some path → path.IndicesBelow bound

theorem readable_readArgument (below : IndicesBelow bound text) :
    Readable (Argument.IndicesBelow bound) (readArgument text) := by
  unfold readArgument
  split
  · exact trivial
  · split
    · exact fun _ none => nomatch none
    · have reads := readable_path below
      cases read : Path.read text with
      | ok path =>
        rw [read] at reads
        rintro other ⟨⟩
        exact reads
      | error failure =>
        rw [read] at reads
        exact reads.inExpression

theorem readable_mapM {ε α β : Type} {first : α → Except (ReadFailure ε) β} {holds : β → Prop}
    {items : List α} (each : ∀ item ∈ items, Readable holds (first item)) :
    Readable (fun values => ∀ value ∈ values, holds value) (items.mapM first) := by
  induction items with
  | nil => exact fun _ member => absurd member List.not_mem_nil
  | cons item rest ih =>
    have others := ih fun other member => each other (List.mem_cons_of_mem _ member)
    rw [List.mapM_cons]
    exact (each item List.mem_cons_self).bind fun value here => others.bind fun values behind =>
      List.forall_mem_cons.2 ⟨here, behind⟩

theorem readable_readCall {parts : CallText} (below : IndicesBelow bound parts.arguments) :
    Readable (fun call => ∀ argument ∈ call.arguments, argument.IndicesBelow bound)
      (readCall parts) := by
  unfold readCall
  cases split : splitArguments parts.arguments with
  | error error => exact trivial
  | ok texts =>
    have each : ∀ part ∈ texts, Readable (Argument.IndicesBelow bound) (readArgument part) :=
      fun part member => readable_readArgument (below.of_infix (infix_of_splitArguments split part member))
    exact (readable_mapM each).bind fun arguments holds => holds

/-- What stands in braces, with indices that have numerals, is an expression with these indices or
breaks the rules of expressions. -/
theorem readable_expression (below : IndicesBelow bound text) (whole : List Char) :
    Readable (Expression.IndicesBelow bound) (Expression.read text whole) := by
  unfold Expression.read
  cases found : splitCall? text with
  | some parts =>
    refine (readable_readCall (below.of_infix (infix_of_splitCall? found))).bind ?_
    intro call holds
    have below : ∀ path ∈ (Source.call call).paths, path.IndicesBelow bound := by
      intro path member
      obtain ⟨argument, among, same⟩ := List.mem_filterMap.1 member
      exact holds argument among path same
    exact ⟨below, Source.references_lt below⟩
  | none =>
    have reads := readable_path (below.of_infix (prefix_cutAtColon text).isInfix)
    dsimp only
    cases read : Path.read (cutAtColon text).1 with
    | ok path =>
      rw [read] at reads
      exact ⟨List.forall_mem_singleton.2 reads, fun _ inside => lt_of_mem_references reads inside⟩
    | error failure =>
      rw [read] at reads
      exact reads.inExpression

def isIndexChar (c : Char) : Bool :=
  c == '[' || isBlank c || isDecimalDigit c

theorem plainQuote_of_isIndexChar {c : Char} (char : isIndexChar c = true) : plainQuote c = c := by
  have apart {d : Char} (other : isIndexChar d = false) : c ≠ d := by
    rintro rfl
    rw [other] at char
    cases char
  unfold plainQuote
  rw [if_neg (not_or.2 ⟨apart (by decide), apart (by decide)⟩),
    if_neg (not_or.2 ⟨apart (by decide), apart (by decide)⟩)]

theorem eq_of_isIndexChar_plainQuote {c : Char} (char : isIndexChar (plainQuote c) = true) :
    plainQuote c = c := by
  rcases plainQuote_eq c with same | same | same
  · exact same
  · rw [same] at char
    exact absurd char (by decide)
  · rw [same] at char
    exact absurd char (by decide)

theorem isIndexChar_of_mem {blanks digits : List Char} (separates : ∀ c ∈ blanks, isBlank c = true)
    (plain : ∀ c ∈ digits, isDecimalDigit c = true) :
    ∀ c ∈ '[' :: (blanks ++ digits), isIndexChar c = true := by
  intro c member
  unfold isIndexChar
  rcases List.mem_cons.1 member with rfl | later
  · rfl
  · rcases List.mem_append.1 later with blank | digit
    · rw [separates c blank, Bool.or_true, Bool.true_or]
    · rw [plain c digit, Bool.or_true]

/-- No index has quotes in it. -/
theorem indicesBelow_map_plainQuote :
    IndicesBelow bound (text.map plainQuote) ↔ IndicesBelow bound text := by
  constructor
  · intro below blanks digits here separates plain
    have chars := isIndexChar_of_mem separates plain
    refine below blanks digits ?_ separates plain
    have mapped := here.map plainQuote
    rwa [List.map_congr_left fun c member => plainQuote_of_isIndexChar (chars c member),
      List.map_id'] at mapped
  · intro below blanks digits here separates plain
    have chars := isIndexChar_of_mem separates plain
    obtain ⟨before, inside, whole⟩ := List.infix_map_iff.1 here
    have same : before.map plainQuote = before := by
      conv => rhs; rw [← List.map_id' before]
      refine List.map_congr_left fun c member => eq_of_isIndexChar_plainQuote (chars _ ?_)
      rw [whole]
      exact List.mem_map_of_mem member
    rw [same] at whole
    exact below blanks digits (whole ▸ inside) separates plain

theorem IndicesBelow.withPlainQuotes (below : IndicesBelow bound text) :
    IndicesBelow bound (withPlainQuotes text) := by
  rw [← indicesBelow_map_plainQuote, map_plainQuote_withPlainQuotes]
  exact indicesBelow_map_plainQuote.2 below

theorem infix_of_mem_pieces {body : List Char} (member : .bound body ∈ pieces text) : body <:+: text := by
  obtain ⟨front, back, split⟩ := List.append_of_mem member
  have whole := flatMap_text_pieces text
  rw [split, List.flatMap_append, List.flatMap_cons] at whole
  refine ⟨front.flatMap Piece.text ++ ['$', '\x7b'], '\x7d' :: back.flatMap Piece.text, ?_⟩
  rw [← whole]
  simp [Piece.text, braced]

/-- What a complete expression is read as: what it is parsed to, or its text with the reason why it
cannot be parsed. -/
inductive Reading.StandsFor (body : List Char) : Reading → Prop where
  | parsed {expression : Expression} (read : Expression.read body (braced body) = .ok expression) :
      StandsFor body (.parsed expression)
  | literal {error : ExpressionError}
      (refused : Expression.read body (braced body) = .error (.malformed error)) :
      StandsFor body (.literal (braced body) error)

/-- What the braces of the complete expressions of a text hold. -/
def bodies (ps : List Piece) : List (List Char) :=
  ps.filterMap Piece.body?

theorem mem_bodies {ps : List Piece} {body : List Char} : body ∈ bodies ps ↔ .bound body ∈ ps := by
  unfold bodies
  rw [List.mem_filterMap]
  constructor
  · rintro ⟨piece, member, same⟩
    cases piece with
    | plain c => cases same
    | bound other =>
      cases same
      exact member
  · exact fun member => ⟨_, member, rfl⟩

theorem exists_reading {body : List Char} (below : IndicesBelow bound body) :
    ∃ reading : Reading, Reading.ofBody body = .ok reading ∧ reading.StandsFor body ∧
      ∀ expression ∈ reading.expression?, expression.IndicesBelow bound := by
  have reads := readable_expression below (braced body)
  unfold Reading.ofBody
  cases read : Expression.read body (braced body) with
  | ok expression =>
    rw [read] at reads
    exact ⟨_, rfl, .parsed read, fun other same => Option.mem_some.1 same ▸ reads⟩
  | error failure =>
    rw [read] at reads
    cases failure with
    | malformed error => exact ⟨_, rfl, .literal read, fun _ none => nomatch none⟩
    | numeral error => exact absurd reads id

/-- Reading the expressions of a text whose indices have numerals ends. Each complete expression is
parsed, or stays literal and is noted. -/
theorem readExpressions_of_indicesBelow (below : IndicesBelow bound text) (slide : Option Int) :
    ∃ found, List.Forall₂ (fun body reading => Reading.StandsFor body reading ∧
        ∀ expression ∈ reading.expression?, expression.IndicesBelow bound)
        (bodies (pieces (withPlainQuotes text))) found ∧
      readExpressions slide text = .ok (found.filterMap Reading.expression?,
        (found.filterMap Reading.problem?).map fun problem => ⟨problem, slide⟩) := by
  obtain ⟨found, read, settled⟩ := exists_mapM fun body member =>
    exists_reading (below.withPlainQuotes.of_infix (infix_of_mem_pieces (mem_bodies.1 member)))
  refine ⟨found, settled, ?_⟩
  unfold readExpressions readings
  unfold bodies at read
  rw [read]
  rfl

/-- An index without numeral in an expression stops the reading of its text. -/
theorem readExpressions_of_numeral {body : List Char} (plain : ∀ c ∈ body, isPathChar c = true)
    {error : NumeralError} (failed : Path.read body = .error (.numeral error)) (slide : Option Int) :
    readExpressions slide (braced body) = .error error := by
  have absent {c : Char} (other : isPathChar c = false) : c ∉ body :=
    fun member => ne_of_isPathChar (plain c member) other rfl
  have fits : ∀ c ∈ body, isBodyChar c = true :=
    fun c member => isBodyChar_of_isPathChar (plain c member)
  have cut : pieces (withPlainQuotes (braced body)) = [.bound body] := by
    rw [pieces_withPlainQuotes, ← List.append_nil (braced body), pieces_braced fits, pieces_nil,
      List.map_singleton, Piece.withPlainQuotes, map_plainQuote_of_isPathChar plain]
  have refused : Reading.ofBody body = .error error := by
    unfold Reading.ofBody Expression.read
    rw [splitCall?_of_not_mem (absent (by decide)), cutAtColon_of_not_mem (absent (by decide))]
    dsimp only
    rw [failed]
    rfl
  unfold readExpressions readings
  rw [cut, List.filterMap_cons_some (by rfl), List.mapM_cons, refused]
  rfl

end DeckBinding
