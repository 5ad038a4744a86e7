import DeckBinding.Proofs.Directive.Foreach
import DeckBinding.Proofs.Directive.Markers
import DeckBinding.Proofs.Expression.Readable

set_option autoImplicit false

namespace DeckBinding

open DeckBinding.Number DeckBinding.Text

def RangeBoundary.word : RangeBoundary → String
  | .single => "single"
  | .begins => "begin"
  | .ends => "end"

namespace Directive

def keyword : Directive → String
  | .foreach _ _ _ => "foreach"
  | .range boundary _ => "range-" ++ boundary.word
  | .alias _ _ => "alias"

def body : Directive → String
  | .foreach path max offset => s!"{path}, max: {max}, offset: {offset}"
  | .range _ path => path
  | .alias path name => s!"{path} as {name}"

def text (directive : Directive) : String :=
  s!"#{directive.keyword}: {directive.body}"

/-- A directive that notes can hold: over the canonical text of a path, with numbers that have
numerals, at one of the ends of a range, or with a name. -/
inductive Canonical : Directive → Prop
  | foreach {path : Path} {max offset : Nat} (wellFormed : path.WellFormed) (maxBound : max < writeBound)
      (offsetBound : offset < writeBound) : Canonical (.foreach path.text max offset)
  | range {boundary : RangeBoundary} {path : Path} (wellFormed : path.WellFormed)
      (border : boundary ≠ .single) : Canonical (.range boundary path.text)
  | named {path : Path} {name : String} (wellFormed : path.WellFormed) (valid : isName name = true) :
      Canonical (.alias path.text name)

end Directive

variable {path : Path} {directive : Directive}

theorem toList_text (directive : Directive) : directive.text.toList =
    '#' :: (directive.keyword.toList ++ ':' :: ' ' :: directive.body.toList) := by
  simp [Directive.text, String.toList_append, toString]

theorem isKeyword_keyword (directive : Directive) : isKeyword directive.keyword.toList = true := by
  cases directive with
  | foreach =>
    have valid : isKeyword "foreach".toList = true := by decide
    exact valid
  | range boundary =>
    have valid : isKeyword ("range-" ++ boundary.word).toList = true := by cases boundary <;> decide
    exact valid
  | _ =>
    have valid : isKeyword "alias".toList = true := by decide
    exact valid

theorem splitAlias?_text {path name : List Char} (filled : path ≠ []) (full : ∀ c ∈ path, isBlank c = false)
    {rest : List Char} (found : aliasName? rest = some name) :
    splitAlias? (path ++ rest) = some (path, name) := by
  induction path with
  | nil => exact absurd rfl filled
  | cons c path ih =>
    cases path with
    | nil => rw [List.singleton_append, splitAlias?, found]
    | cons d path =>
      have none : aliasName? (d :: path ++ rest) = none := by
        have here := full d (List.mem_cons_of_mem c List.mem_cons_self)
        rw [List.cons_append, aliasName?, here]
        rfl
      have further := ih (List.cons_ne_nil d path) fun e member => full e (List.mem_cons_of_mem c member)
      rw [List.cons_append, splitAlias?, none, further]
      rfl

theorem aliasName?_name {name : String} (valid : isName name = true) :
    aliasName? (" as ".toList ++ name.toList) = some name.toList := by
  obtain ⟨c, rest, start, first, _⟩ := toList_of_isName valid
  have full : isBlank c = false := isBlank_of_isWord (isWord_of_isNameStart first)
  have whole := @takeName?_of_isName name valid [] (by simp)
  have space : isBlank ' ' = true := by decide
  have head : trimLeft name.toList = name.toList := by
    rw [start]
    exact trimLeft_of_head full
  rw [List.append_nil] at whole
  show aliasName? (' ' :: 'a' :: 's' :: ' ' :: name.toList) = some name.toList
  rw [aliasName?, space, trimLeft_of_head (by decide)]
  simp only [Bool.not_true, Bool.false_eq_true, if_false, space, head, whole]
  rfl

theorem toList_aliasBody (path : Path) (name : String) :
    (Directive.alias path.text name).body.toList =
      path.text.toList ++ (" as ".toList ++ name.toList) := by
  simp [Directive.body, String.toList_append, toString]

theorem readAlias_body (wellFormed : path.WellFormed) {name : String} (valid : isName name = true) :
    readAlias (Directive.alias path.text name).body.toList = .ok ⟨some (.alias path.text name), []⟩ := by
  have full : ∀ c ∈ path.text.toList, isBlank c = false :=
    fun c member => isBlank_of_isPathChar (Path.isPathChar_of_mem wellFormed c member)
  have cut := splitAlias?_text (Path.toList_text_ne_nil wellFormed) full (aliasName?_name valid)
  unfold readAlias readCollection
  rw [toList_aliasBody, cut]
  dsimp only
  rw [Path.read_text wellFormed, String.ofList_toList]
  rfl

theorem toList_foreachBody (path : Path) (max offset : Nat) :
    (Directive.foreach path.text max offset).body.toList = foreachBody path max offset := by
  have split : foreachNotes path max offset =
      "#foreach: ".toList ++ (Directive.foreach path.text max offset).body.toList := by
    simp [foreachNotes, Directive.body, String.toList_append, toString]
  rw [foreachNotes_eq] at split
  exact (List.append_cancel_left split).symm

theorem isNoteChar_of_mem_body (canonical : directive.Canonical) :
    ∀ c ∈ directive.body.toList, isNoteChar c = true := by
  have inPath {path : Path} (wellFormed : path.WellFormed) : ∀ c ∈ path.text.toList, isNoteChar c = true :=
    fun c member => isNoteChar_of_isPathChar (Path.isPathChar_of_mem wellFormed c member)
  cases canonical with
  | foreach wellFormed =>
    rw [toList_foreachBody]
    exact isNoteChar_of_mem wellFormed
  | range wellFormed => exact inPath wellFormed
  | named wellFormed valid =>
    have label : ∀ c ∈ " as ".toList, isNoteChar c = true := List.all_eq_true.1 (by decide)
    rw [toList_aliasBody, List.forall_mem_append, List.forall_mem_append]
    exact ⟨inPath wellFormed, label, fun c member => isNoteChar_of_isWord (isWord_of_isName valid c member)⟩

theorem trim_body (canonical : directive.Canonical) : trim directive.body.toList = directive.body.toList := by
  cases canonical with
  | foreach wellFormed => rw [toList_foreachBody, trim_foreachBody wellFormed]
  | range wellFormed =>
    exact trim_of_full fun c member => isBlank_of_isPathChar (Path.isPathChar_of_mem wellFormed c member)
  | @named path name wellFormed valid =>
    obtain ⟨front, last, same, full⟩ := exists_concat_of_isName valid
    have shape : (Directive.alias path.text name).body.toList =
        path.text.toList ++ (" as ".toList ++ front ++ [last]) := by
      rw [toList_aliasBody, same, List.append_assoc]
    rw [shape]
    exact trim_text_append wellFormed _ full

/-- A directive is read back from its marker and the text behind it, with blanks at the end. -/
theorem readDirective_body (canonical : directive.Canonical) {tail : List Char} (blank : Blanks tail) :
    readDirective directive.keyword.toList (' ' :: (directive.body.toList ++ tail)) =
      .ok ⟨some directive, []⟩ := by
  have space : Blanks [' '] := by simpa [Blanks] using (by decide : isBlank ' ' = true)
  have trimmed : trim (' ' :: (directive.body.toList ++ tail)) = directive.body.toList :=
    (trim_append space blank _).trans (trim_body canonical)
  unfold readDirective
  rw [trimmed]
  cases canonical with
  | @foreach path max offset wellFormed maxBound offsetBound =>
    have keyword : lower "foreach".toList = "foreach".toList := by decide +kernel
    have read := readForeach_body wellFormed maxBound offsetBound
    rw [Directive.keyword, keyword, toList_foreachBody]
    exact (if_pos rfl).trans read
  | @range boundary path wellFormed border =>
    have read (keyword : String) : readRange keyword boundary path.text.toList =
        .ok ⟨some (.range boundary path.text), []⟩ := by
      unfold readRange readCollection
      rw [Path.read_text wellFormed]
      rfl
    have keyword : lower ("range-" ++ boundary.word).toList = ("range-" ++ boundary.word).toList := by
      cases boundary <;> decide +kernel
    rw [Directive.keyword, keyword]
    cases boundary with
    | single => exact absurd rfl border
    | begins => exact read "range-begin"
    | ends => exact read "range-end"
  | named wellFormed valid =>
    have keyword : lower "alias".toList = "alias".toList := by decide +kernel
    rw [Directive.keyword, keyword]
    exact readAlias_body wellFormed valid

def isDirectiveChar (c : Char) : Bool :=
  isNoteChar c || c == '#' || c == '-'

theorem eq_of_plainQuote {c d : Char} (char : isDirectiveChar d = true)
    (same : plainQuote c = plainQuote d) : c = d := by
  have other (quote : Char) (outside : isDirectiveChar quote = false) : d ≠ quote := by
    rintro rfl
    rw [char] at outside
    cases outside
  have plain : plainQuote d = d := by
    have first := other '\u201c' (by decide +kernel)
    have second := other '\u201d' (by decide +kernel)
    have third := other '\u2018' (by decide +kernel)
    have fourth := other '\u2019' (by decide +kernel)
    simp [plainQuote, first, second, third, fourth]
  rw [plain] at same
  rcases plainQuote_eq c with kept | double | single
  · rw [← kept, same]
  · exact absurd (same.symm.trans double) (other _ (by decide))
  · exact absurd (same.symm.trans single) (other _ (by decide))

theorem eq_of_map_plainQuote {cs other : List Char} (chars : ∀ c ∈ other, isDirectiveChar c = true)
    (same : cs.map plainQuote = other.map plainQuote) : cs = other := by
  induction other generalizing cs with
  | nil => exact List.map_eq_nil_iff.1 same
  | cons d other ih =>
    obtain ⟨here, further⟩ := List.forall_mem_cons.1 chars
    obtain ⟨c, rest, rfl, first, behind⟩ := List.map_eq_cons_iff.1 same
    rw [eq_of_plainQuote here first, ih further behind]

theorem isDirectiveChar_of_mem (canonical : directive.Canonical) :
    ∀ c ∈ directive.text.toList, isDirectiveChar c = true := by
  intro c member
  rw [toList_text, List.mem_cons, List.mem_append, List.mem_cons, List.mem_cons] at member
  unfold isDirectiveChar
  rcases member with rfl | inKeyword | rfl | rfl | inBody
  · decide
  · have char := isKeywordChar_of_mem (isKeyword_keyword directive) c inKeyword
    simp only [isKeywordChar, Bool.or_eq_true, beq_iff_eq] at char
    rcases char with word | rfl
    · rw [isNoteChar_of_isWord word]
      rfl
    · decide
  · decide
  · decide
  · rw [isNoteChar_of_mem_body canonical c inBody]
    rfl

theorem mark_mem_map {cs : List Char} : '#' ∈ cs.map plainQuote ↔ '#' ∈ cs := by
  rw [List.mem_map]
  constructor
  · rintro ⟨c, member, same⟩
    rwa [← eq_of_plainQuote (d := '#') (by decide) same]
  · exact fun member => ⟨'#', member, rfl⟩

/-- A quote neither ends a line nor separates. -/
theorem gap_map_plainQuote {cs : List Char} : Gap (cs.map plainQuote) ↔ Gap cs := by
  have kept {holds : Char → Bool} (plain : holds '"' = false ∧ holds '\'' = false)
      (curly : ['\u201c', '\u201d', '\u2018', '\u2019'].any holds = false) (c : Char) :
      holds (plainQuote c) = holds c := by
    have free := List.any_eq_false.1 curly
    unfold plainQuote
    split
    · rename_i double
      rw [plain.1]
      rcases double with rfl | rfl <;> exact (Bool.eq_false_iff.2 (free _ (by simp))).symm
    · split
      · rename_i single
        rw [plain.2]
        rcases single with rfl | rfl <;> exact (Bool.eq_false_iff.2 (free _ (by simp))).symm
      · rfl
  have ends := @kept isLineEnd (by decide) (by decide)
  have blank := @kept isBlank (by decide) (by decide)
  have line : (cs.map plainQuote).takeWhile (fun c => !isLineEnd c) =
      (cs.takeWhile fun c => !isLineEnd c).map plainQuote := by
    simp only [List.takeWhile_map, Function.comp_def, ends]
  constructor
  · rintro ⟨free, separates⟩
    rw [line] at separates
    refine ⟨fun member => free (mark_mem_map.2 member), fun c member => ?_⟩
    rw [← blank]
    exact separates _ (List.mem_map_of_mem member)
  · rintro ⟨free, separates⟩
    refine ⟨fun member => free (mark_mem_map.1 member), ?_⟩
    rw [line]
    exact List.forall_mem_map.2 fun c member => (blank c).trans (separates c member)

/-- Directives one behind the other, each with a gap behind it. -/
def writtenDirectives (entries : List (Directive × List Char)) : List Char :=
  entries.flatMap fun entry => entry.1.text.toList ++ entry.2

/-- Whatever plain quotes change in the gaps, the markers of written directives are read as them. -/
theorem mapM_readDirective {entries : List (Directive × List Char)}
    (canonical : ∀ entry ∈ entries, entry.1.Canonical) (gaps : ∀ entry ∈ entries, Gap entry.2)
    {cs : List Char} (same : cs.map plainQuote = (writtenDirectives entries).map plainQuote) :
    textToMarker cs = [] ∧ (markers cs).mapM (fun (keyword, body) => readDirective keyword body) =
      .ok (entries.map fun entry => ⟨some entry.1, []⟩) := by
  induction entries generalizing cs with
  | nil =>
    cases List.map_eq_nil_iff.1 same
    exact ⟨textToMarker_nil, rfl⟩
  | cons entry entries ih =>
    obtain ⟨directive, gap⟩ := entry
    obtain ⟨(here : directive.Canonical), others⟩ := List.forall_mem_cons.1 canonical
    obtain ⟨behind, gaps⟩ := List.forall_mem_cons.1 gaps
    rw [writtenDirectives, List.flatMap_cons, List.append_assoc, List.map_append, List.map_append] at same
    obtain ⟨text, more, rfl, first, further⟩ := List.map_eq_append_iff.1 same
    obtain ⟨gap', rest, rfl, second, last⟩ := List.map_eq_append_iff.1 further
    obtain rfl := eq_of_map_plainQuote (isDirectiveChar_of_mem here) first
    have still : Gap gap' := by rwa [← gap_map_plainQuote, second, gap_map_plainQuote]
    obtain ⟨next, read⟩ := ih others gaps last
    have keyword := isKeyword_keyword directive
    have space : ∀ c ∈ ' ' :: directive.body.toList, isNoteChar c = true :=
      List.forall_mem_cons.2 ⟨by decide, isNoteChar_of_mem_body here⟩
    have plain : '#' ∉ ' ' :: directive.body.toList := fun member => absurd (space _ member) (by decide)
    have inside := fun c member => isLineEnd_of_isNoteChar (space c member)
    have shape : directive.text.toList ++ (gap' ++ rest) =
        '#' :: (directive.keyword.toList ++ ':' :: (' ' :: directive.body.toList ++ (gap' ++ rest))) := by
      simp [toList_text]
    rw [shape]
    refine ⟨textToMarker_keyword keyword _, ?_⟩
    rw [markers_keyword keyword, textToMarker_append inside plain, markers_append plain,
      markers_append still.free, List.mapM_cons, List.cons_append]
    dsimp only
    rw [readDirective_body here (still.blanks_textToMarker next), read]
    rfl

/-- Notes with directives in them, behind any text without `#` and with gaps behind each, are read
as these directives in their order, and nothing in them is refused. -/
theorem readDirectives_written (slide : Option Int) {front : List Char}
    {entries : List (Directive × List Char)} (plain : '#' ∉ front)
    (canonical : ∀ entry ∈ entries, entry.1.Canonical) (gaps : ∀ entry ∈ entries, Gap entry.2) :
    readDirectives slide (front ++ writtenDirectives entries) = .ok (entries.map (·.1), []) := by
  have same := map_plainQuote_withPlainQuotes (front ++ writtenDirectives entries)
  rw [List.map_append] at same
  obtain ⟨front', cs, split, first, further⟩ := List.map_eq_append_iff.1 same
  have free : '#' ∉ front' := by rwa [← mark_mem_map, first, mark_mem_map]
  have read := (mapM_readDirective canonical gaps further).2
  have marked : markedTexts (front ++ writtenDirectives entries) = markers cs := by
    rw [← markers_append free cs, ← split]
    rfl
  unfold readDirectives
  rw [marked, read]
  simp [Except.bind, bind, List.filterMap_map, List.flatMap_map]

/-- A `#foreach` and an alias called `as` on one line, a line of text, and the start of a range. -/
theorem readDirectives_written_mixed :
    readDirectives (some 1)
        "Agenda\n#foreach: G.Items, max: 2, offset: 1 #alias: G[3] as as\n\nmore\n#range-begin: G".toList =
      .ok ([.foreach "G.Items" 2 1, .alias "G[3]" "as", .range .begins "G"], []) := by
  have valid : isName "G" = true := by decide
  have items : isName "Items" = true := by decide
  have group : (⟨⟨"G", none⟩, []⟩ : Path).WellFormed := ⟨⟨valid, by simp⟩, by simp⟩
  have third : (⟨⟨"G", some 3⟩, []⟩ : Path).WellFormed :=
    ⟨⟨valid, by simpa using lt_writeBound_of_lt (by decide)⟩, by simp⟩
  have nested : (⟨⟨"G", none⟩, [(.member, ⟨"Items", none⟩)]⟩ : Path).WellFormed :=
    ⟨⟨valid, by simp⟩, by simpa [Segment.WellFormed] using items⟩
  have small {number : Nat} (less : number < 3) : number < writeBound :=
    lt_writeBound_of_lt (Nat.lt_trans less (by decide))
  have read := @readDirectives_written (some 1) "Agenda\n".toList
    [(.foreach (⟨⟨"G", none⟩, [(.member, ⟨"Items", none⟩)]⟩ : Path).text 2 1, [' ']),
      (.alias (⟨⟨"G", some 3⟩, []⟩ : Path).text "as", "\n\nmore\n".toList),
      (.range .begins (⟨⟨"G", none⟩, []⟩ : Path).text, [])]
    (by decide)
    (by
      simp only [List.forall_mem_cons]
      exact ⟨.foreach nested (small (by decide)) (small (by decide)), .named third (by decide),
        .range group (by decide), by simp⟩)
    (by
      simp only [List.forall_mem_cons]
      exact ⟨⟨by decide, List.all_eq_true.1 (by decide)⟩, ⟨by decide, List.all_eq_true.1 (by decide)⟩,
        ⟨by decide, List.all_eq_true.1 (by decide)⟩, by simp⟩)
  exact read

end DeckBinding
