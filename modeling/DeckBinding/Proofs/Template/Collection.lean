import DeckBinding.Proofs.Alias.Names
import DeckBinding.Proofs.Path.Marks
import DeckBinding.Template.Analysis

set_option autoImplicit false

namespace DeckBinding

open DeckBinding.Number DeckBinding.Text

/-- A text is a path below any value. -/
def ReadsAsPath (text : String) : Prop :=
  (∃ path, Path.read text.toList = .ok path) ∧ ∀ value, ∃ found, walk value text.toList = .ok found

/-- A text is no path, and no value is reached by it. -/
def RefusedAsPath (text : String) : Prop :=
  (∀ path, Path.read text.toList ≠ .ok path) ∧
    ∀ value, ∃ failure, walk value text.toList = .error failure

/-- The first path among expressions that selects an element behind its first `>` selects one in
front of it too. -/
def MarkedInFront (expressions : List Expression) : Prop :=
  ∃ path, (expressions.flatMap Expression.paths).find? (fun path => !decide (Bare path.behind)) =
    some path ∧ ¬ Bare path.front

theorem readsAsPath_of_readAbsolute {text : String} {path : Path}
    (read : Path.readAbsolute text.toList = .ok path) : ReadsAsPath text :=
  ⟨⟨path, (Path.absolute_of_readAbsolute read).1⟩, fun value => ⟨_, Path.walk_of_read read value⟩⟩

theorem refusedAsPath_of_not_filled {text : String} (empty : ¬ BracketsFilled text.toList) :
    RefusedAsPath text := by
  have unread (path : Path) : Path.read text.toList ≠ .ok path := fun read =>
    empty (bracketsFilled_of_read read)
  refine ⟨unread, fun value => ?_⟩
  cases walked : walk value text.toList with
  | error failure => exact ⟨failure, rfl⟩
  | ok found =>
    obtain ⟨path, read, _⟩ := exists_of_bind_eq_ok walked
    exact absurd (Path.absolute_of_readAbsolute read).1 (unread path)

/-- The parts of the text of a path read as paths. -/
theorem parts_readAsPath {path : Path} (wellFormed : path.WellFormed) :
    ∀ part ∈ splitString '>' path.text, ReadsAsPath part := by
  rw [wellFormed.splitString]
  intro part member
  obtain ⟨steps, among, rfl⟩ := List.mem_map.1 member
  obtain ⟨other, read, _⟩ := Path.exists_of_partText (Path.ne_nil_of_mem_chunks among)
    fun step inside => wellFormed.segment (Path.mem_steps_of_mem_chunks among inside)
  exact readsAsPath_of_readAbsolute read

theorem bracketsFilled_joinWith {parts : List (List Char)}
    (filled : ∀ part ∈ parts, BracketsFilled part) : BracketsFilled (joinWith ['>'] parts) := by
  induction parts with
  | nil => exact .of_not_mem List.not_mem_nil
  | cons part rest ih =>
    obtain ⟨here, others⟩ := List.forall_mem_cons.1 filled
    cases rest with
    | nil => exact here
    | cons next rest => exact (here.append (.join .context)).append (ih others)

/-- A text with an empty bracket has a part that reads as no path. -/
theorem exists_refused_part {text : String} (empty : ¬ BracketsFilled text.toList) :
    ∃ part ∈ splitString '>' text, RefusedAsPath part := by
  by_contra none
  apply empty
  rw [← joinWith_splitAt '>' text.toList]
  refine bracketsFilled_joinWith fun part member => ?_
  by_contra unfilled
  refine none ⟨String.ofList part, List.mem_map_of_mem member, refusedAsPath_of_not_filled ?_⟩
  rwa [String.toList_ofList]

theorem exists_path_of_readCollection {keyword : String} {cs : List Char} {text : String}
    (read : readCollection keyword cs = .ok (.ok text)) :
    ∃ path : Path, path.WellFormed ∧ path.text = text := by
  unfold readCollection at read
  split at read
  · rename_i path found
    cases read
    exact ⟨path, Path.wellFormed_of_read found, rfl⟩
  · cases read
  · cases read

/-- What is made of the path behind a marker, when it can be read, is about that path. -/
theorem exists_path_of_collected {keyword : String} {cs : List Char}
    {make : Except Problem String → Except NumeralError DirectiveReading}
    (refuses : ∀ problem reading, make (.error problem) = .ok reading → reading.directive = none)
    (accepts : ∀ text reading directive, make (.ok text) = .ok reading →
      reading.directive = some directive → directive.path = text)
    {reading : DirectiveReading} (read : (readCollection keyword cs >>= make) = .ok reading)
    {directive : Directive} (gives : reading.directive = some directive) :
    ∃ path : Path, path.WellFormed ∧ path.text = directive.path := by
  obtain ⟨found, collected, last⟩ := exists_of_bind_eq_ok read
  cases found with
  | error problem =>
    rw [refuses problem reading last] at gives
    cases gives
  | ok text =>
    rw [accepts text reading directive last gives]
    exact exists_path_of_readCollection collected

theorem exists_path_of_readRange {keyword : String} {boundary : RangeBoundary} {body : List Char}
    {reading : DirectiveReading} (read : readRange keyword boundary body = .ok reading)
    {directive : Directive} (gives : reading.directive = some directive) :
    ∃ path : Path, path.WellFormed ∧ path.text = directive.path := by
  refine exists_path_of_collected ?_ ?_ read gives
  · rintro problem _ ⟨⟩
    rfl
  · rintro text _ _ ⟨⟩ ⟨⟩
    rfl

/-- The path of a directive is the text of a path. -/
theorem exists_path_of_readDirective {keyword body : List Char} {reading : DirectiveReading}
    (read : readDirective keyword body = .ok reading) {directive : Directive}
    (gives : reading.directive = some directive) :
    ∃ path : Path, path.WellFormed ∧ path.text = directive.path := by
  unfold readDirective at read
  dsimp only at read
  split at read
  · refine exists_path_of_collected ?_ ?_ read gives
    · rintro problem _ ⟨⟩
      rfl
    · rintro text _ _ ⟨⟩ ⟨⟩
      rfl
  · split at read
    · exact exists_path_of_readRange read gives
    · split at read
      · exact exists_path_of_readRange read gives
      · split at read
        · unfold readAlias at read
          split at read
          · cases read
            cases gives
          · refine exists_path_of_collected ?_ ?_ read gives
            · rintro problem _ ⟨⟩
              rfl
            · rintro text _ _ ⟨⟩ ⟨⟩
              rfl
        · cases read
          cases gives

section Inference

variable {expressions : List Expression}

theorem behind_of_plain {path : Path} (plain : path.usesContext = false) : path.behind = [] := by
  unfold Path.behind
  rw [List.dropWhile_eq_nil_iff]
  intro step member
  exact bne_iff_ne.2 (Path.join_of_mem_steps (Path.join_of_mem_rest plain) step member)

/-- The first reference whose key holds `>` is looked for path by path. -/
theorem find?_nested (wellFormed : ∀ expression ∈ expressions, ∀ path ∈ expression.paths, path.WellFormed)
    (indexed : ∀ expression ∈ expressions, expression.Indexed) :
    ((expressions.filter Expression.usesContext).flatMap Expression.references).find?
        (fun reference => decide ('>' ∈ reference.1.toList)) =
      (expressions.flatMap Expression.paths).findSome? fun path =>
        path.references.find? fun reference => decide ('>' ∈ reference.1.toList) := by
  induction expressions with
  | nil => rfl
  | cons expression rest ih =>
    obtain ⟨here, others⟩ := List.forall_mem_cons.1 wellFormed
    obtain ⟨refers, further⟩ := List.forall_mem_cons.1 indexed
    rw [List.flatMap_cons, List.findSome?_append, ← ih others further]
    by_cases uses : expression.usesContext = true
    · rw [List.filter_cons_of_pos uses, List.flatMap_cons, List.find?_append, refers, List.find?_flatMap]
    · have none : (expression.paths.findSome? fun path => path.references.find? fun reference =>
          decide ('>' ∈ reference.1.toList)) = none := by
        rw [List.findSome?_eq_none_iff]
        intro path member
        have plain : path.usesContext = false := by
          have silent := List.any_eq_false.1 (Bool.not_eq_true _ ▸ uses) path member
          simpa using silent
        have found := Path.find?_references (here path member)
        rw [behind_of_plain plain] at found
        split at found
        · assumption
        · exact absurd (fun step member => absurd member List.not_mem_nil) found.1
      rw [List.filter_cons_of_neg uses, none, Option.none_or]

/-- The first reference whose key holds `>` belongs to the first path that selects an element behind
its first `>`. -/
theorem findSome?_references {paths : List Path} (wellFormed : ∀ path ∈ paths, path.WellFormed) :
    match paths.findSome? fun path => path.references.find? fun reference =>
        decide ('>' ∈ reference.1.toList) with
    | none => paths.find? (fun path => !decide (Bare path.behind)) = none
    | some reference => ∃ path ∈ paths,
        paths.find? (fun path => !decide (Bare path.behind)) = some path ∧
        ∃ ahead step later, path.behind = ahead ++ step :: later ∧ Bare ahead ∧
          step.key = reference.1 := by
  induction paths with
  | nil => rfl
  | cons path rest ih =>
    obtain ⟨here, others⟩ := List.forall_mem_cons.1 wellFormed
    have first := Path.find?_references here
    rw [List.findSome?_cons]
    cases found : path.references.find? fun reference => decide ('>' ∈ reference.1.toList) with
    | none =>
      rw [found] at first
      have bare : Bare path.behind := first
      rw [List.find?_cons_of_neg (by simp [bare])]
      have further := ih others
      dsimp only
      split at further
      · rename_i none
        rw [none]
        exact further
      · rename_i reference later
        obtain ⟨other, member, rest⟩ := further
        rw [later]
        exact ⟨other, List.mem_cons_of_mem _ member, rest⟩
    | some reference =>
      rw [found] at first
      obtain ⟨pinned, split⟩ := first
      rw [List.find?_cons_of_pos (by simp [pinned])]
      exact ⟨path, List.mem_cons_self, rfl, split⟩

/-- The collection that is inferred for expressions is the text of no path when their first path
with an element behind its first `>` has one in front of it too. -/
theorem inferCollection?_of_marked
    (wellFormed : ∀ expression ∈ expressions, ∀ path ∈ expression.paths, path.WellFormed)
    (indexed : ∀ expression ∈ expressions, expression.Indexed) (marked : MarkedInFront expressions) :
    ∃ collection, inferCollection? expressions = some collection ∧
      ¬ BracketsFilled collection.toList := by
  obtain ⟨path, first, pinned⟩ := marked
  have all : ∀ path ∈ expressions.flatMap Expression.paths, path.WellFormed :=
    List.forall_mem_flatMap.2 wellFormed
  have found := findSome?_references all
  unfold inferCollection?
  dsimp only
  rw [find?_nested wellFormed indexed]
  split at found
  · rw [first] at found
    cases found
  · rename_i reference here
    obtain ⟨other, member, same, ahead, step, later, split, bare, key⟩ := found
    obtain rfl : path = other := Option.some.inj (first.symm.trans same)
    rw [here]
    refine ⟨reference.1, rfl, ?_⟩
    rw [← key]
    exact (Path.text_of_reference (all path member) split bare).2 pinned

theorem exists_of_flatMap_cons {α β : Type} {items : List α} {make : α → List β} {first : β}
    {others : List β} (listed : items.flatMap make = first :: others) :
    ∃ item ∈ items, ∃ rest, make item = first :: rest := by
  have head := congrArg List.head? listed
  rw [List.head?_flatMap, List.head?_cons] at head
  obtain ⟨item, member, starts⟩ := List.exists_of_findSome?_eq_some head
  exact ⟨item, member, List.head?_eq_some_iff.1 starts⟩

/-- What a path without selected elements goes on from behind its last `>` is the text of a path. -/
theorem exists_path_of_contextCollection? {path : Path} (wellFormed : path.WellFormed)
    (bare : Bare path.steps) {collection : String} (found : path.contextCollection? = some collection) :
    ∃ other : Path, other.WellFormed ∧ other.text = collection := by
  obtain ⟨step, last, rfl⟩ := Option.map_eq_some_iff.1 found
  obtain ⟨part, before, ends⟩ := Option.bind_eq_some_iff.1 last
  have inside := List.dropLast_subset _ (List.mem_of_getLast? before)
  obtain ⟨ahead, later, split⟩ := List.append_of_mem
    (Path.mem_steps_of_mem_chunks inside (List.mem_of_getLast? ends))
  apply Path.exists_text_of_bare wellFormed split
  intro other member
  apply bare
  rw [split]
  exact List.mem_append_left _ member

/-- Where no such path comes first, the collection that is inferred is the text of a path. -/
theorem exists_path_of_inferCollection?
    (wellFormed : ∀ expression ∈ expressions, ∀ path ∈ expression.paths, path.WellFormed)
    (indexed : ∀ expression ∈ expressions, expression.Indexed)
    (unmarked : ¬ MarkedInFront expressions) {collection : String}
    (inferred : inferCollection? expressions = some collection) :
    ∃ path : Path, path.WellFormed ∧ path.text = collection := by
  have all : ∀ path ∈ expressions.flatMap Expression.paths, path.WellFormed :=
    List.forall_mem_flatMap.2 wellFormed
  have found := findSome?_references all
  unfold inferCollection? at inferred
  dsimp only at inferred
  rw [find?_nested wellFormed indexed] at inferred
  split at found
  · rename_i none
    rw [none] at inferred
    dsimp only at inferred
    have references : expressions.flatMap Expression.references =
        (expressions.flatMap Expression.paths).flatMap Path.references := by
      rw [List.flatMap_congr indexed, List.flatMap_assoc]
    rw [references] at inferred
    split at inferred
    · rename_i key index others listed
      obtain rfl : key = collection := Option.some.inj inferred
      obtain ⟨path, member, rest, first⟩ := exists_of_flatMap_cons listed
      obtain ⟨ahead, step, later, split, bare, rfl⟩ := Path.exists_first_reference first
      exact Path.exists_text_of_bare (all path member) split bare
    · rename_i silent
      obtain ⟨expression, among, further⟩ := List.exists_of_findSome?_eq_some inferred
      obtain ⟨path, inside, goes⟩ := List.exists_of_findSome?_eq_some further
      have member : path ∈ expressions.flatMap Expression.paths :=
        List.mem_flatMap.2 ⟨expression, among, inside⟩
      have bare := Path.bare_iff_of_references.1 (List.flatMap_eq_nil_iff.1 silent path member)
      exact exists_path_of_contextCollection? (all path member) bare goes
  · rename_i reference here
    obtain ⟨path, member, same, ahead, step, later, split, bare, key⟩ := found
    rw [here] at inferred
    obtain rfl : reference.1 = collection := Option.some.inj inferred
    have free : Bare path.front := by
      by_contra pinned
      exact unmarked ⟨path, same, pinned⟩
    rw [← key]
    exact (Path.text_of_reference (all path member) split bare).1 free

end Inference

section Building

variable {slide position : Int} {directives : List Directive} {expressions : List Expression}
  {analysis : Analysis}

theorem collection_built
    (built : SlideTemplate.build slide position directives expressions = .ok analysis) :
    analysis.template.collection =
      if slideKind directives expressions = .static then none
      else ((firstForeach? directives).map (·.1)).or
        ((inferCollection? expressions).or (directives.findSome? Directive.rangeBegin?)) := by
  unfold SlideTemplate.build at built
  obtain ⟨warnings, _, further⟩ := exists_of_bind_eq_ok built
  obtain ⟨numeral, _, made⟩ := exists_of_bind_eq_ok further
  cases made
  cases firstForeach? directives <;> rfl

theorem mem_collection_of_mem_chunks {template : SlideTemplate} {chunk : String}
    (member : chunk ∈ template.chunks) :
    ∃ collection, template.collection = some collection ∧ chunk ∈ splitString '>' collection := by
  unfold SlideTemplate.chunks at member
  split at member
  · cases member
  · rename_i collection here
    split at member
    · cases member
    · exact ⟨collection, here, member⟩

theorem path_of_firstForeach? {path : String} {options : Nat × Nat}
    (found : firstForeach? directives = some (path, options)) :
    ∃ directive ∈ directives, directive.path = path := by
  obtain ⟨directive, member, reads⟩ := List.exists_of_findSome?_eq_some found
  refine ⟨directive, member, ?_⟩
  split at reads
  · cases reads
    rfl
  · cases reads

theorem path_of_rangeBegin? {path : String}
    (found : directives.findSome? Directive.rangeBegin? = some path) :
    ∃ directive ∈ directives, directive.path = path := by
  obtain ⟨directive, member, reads⟩ := List.exists_of_findSome?_eq_some found
  refine ⟨directive, member, ?_⟩
  unfold Directive.rangeBegin? at reads
  split at reads
  · cases reads
    rfl
  · cases reads

/-- A slide whose expressions select an element is not shown just once. -/
theorem slideKind_of_marked (indexed : ∀ expression ∈ expressions, expression.Indexed)
    (marked : MarkedInFront expressions) :
    slideKind directives expressions ≠ .static := by
  obtain ⟨path, first, pinned⟩ := marked
  obtain ⟨expression, among, inside⟩ := List.mem_flatMap.1 (List.mem_of_find?_eq_some first)
  have selects : path.references ≠ [] := by
    intro none
    apply pinned
    have bare := Path.bare_iff_of_references.1 none
    rw [← Path.front_append_behind] at bare
    exact (List.forall_mem_append.1 bare).1
  have refers : expression.references ≠ [] := by
    intro none
    rw [indexed expression among] at none
    exact selects (List.flatMap_eq_nil_iff.1 none path inside)
  unfold slideKind
  dsimp only
  split
  · decide
  · split
    · decide
    · rw [if_pos]
      · decide
      · exact List.any_eq_true.2 ⟨expression, among, by simp [refers]⟩

/-- The parts of a template's collection read as paths, so that they can be followed from any value,
unless the collection is that of expressions of which the first one with an element behind its first
`>` has one in front of it too: then some part is no path, and no value is reached by it. -/
theorem chunks_readAsPath (slide position : Int) (directives : List Directive)
    (expressions : List Expression) (analysis : Analysis)
    (parsed : ∀ expression ∈ expressions, ∃ body text, Expression.read body text = .ok expression)
    (noted : ∀ directive ∈ directives, ∃ keyword body reading,
      readDirective keyword body = .ok reading ∧ reading.directive = some directive)
    (built : SlideTemplate.build slide position directives expressions = .ok analysis) :
    (¬ (firstForeach? directives = none ∧ MarkedInFront expressions) →
      ∀ chunk ∈ analysis.template.chunks, ReadsAsPath chunk) ∧
    (firstForeach? directives = none ∧ MarkedInFront expressions →
      ∃ chunk ∈ analysis.template.chunks, RefusedAsPath chunk) := by
  have wellFormed : ∀ expression ∈ expressions, ∀ path ∈ expression.paths, path.WellFormed := by
    intro expression member
    obtain ⟨body, text, read⟩ := parsed expression member
    exact wellFormed_of_readExpression read
  have indexed : ∀ expression ∈ expressions, expression.Indexed := by
    intro expression member
    obtain ⟨body, text, read⟩ := parsed expression member
    exact indexed_of_read read
  have named : ∀ directive ∈ directives, ∃ path : Path, path.WellFormed ∧ path.text = directive.path := by
    intro directive member
    obtain ⟨keyword, body, reading, read, gives⟩ := noted directive member
    exact exists_path_of_readDirective read gives
  have collection := collection_built built
  constructor
  · intro unmarked chunk member
    obtain ⟨text, here, among⟩ := mem_collection_of_mem_chunks member
    rw [here] at collection
    obtain ⟨path, valid, same⟩ : ∃ path : Path, path.WellFormed ∧ path.text = text := by
      split at collection
      · cases collection
      · cases asked : firstForeach? directives with
        | some foreach =>
          rw [asked] at collection
          obtain rfl : text = foreach.1 := Option.some.inj collection
          obtain ⟨directive, inside, names⟩ := path_of_firstForeach? asked
          exact names ▸ named directive inside
        | none =>
          rw [asked] at collection
          cases inferred : inferCollection? expressions with
          | some key =>
            rw [inferred] at collection
            obtain rfl : text = key := Option.some.inj collection
            exact exists_path_of_inferCollection? wellFormed indexed
              (fun marked => unmarked ⟨asked, marked⟩) inferred
          | none =>
            rw [inferred] at collection
            obtain ⟨directive, inside, names⟩ := path_of_rangeBegin? collection.symm
            exact names ▸ named directive inside
    rw [← same] at among
    exact parts_readAsPath valid chunk among
  · rintro ⟨silent, marked⟩
    obtain ⟨text, inferred, empty⟩ := inferCollection?_of_marked wellFormed indexed marked
    rw [if_neg (slideKind_of_marked indexed marked), silent, inferred] at collection
    have full : text.toList ≠ [] := by
      intro none
      rw [none] at empty
      exact empty (.of_not_mem List.not_mem_nil)
    rw [chunks_of_collection collection full]
    exact exists_refused_part empty

def itemBelow : Expression :=
  ⟨"$\x7bP>C[0]\x7d", .path ⟨⟨"P", none⟩, [(.context, ⟨"C", some 0⟩)]⟩, none, [("P>C", 0)]⟩

theorem chunks_readAsPath_below : ∃ analysis,
    SlideTemplate.build 1 0 [] [itemBelow] = .ok analysis ∧ analysis.template.chunks = ["P", "C"] ∧
      ∀ chunk ∈ analysis.template.chunks, ReadsAsPath chunk := by
  have template : (SlideTemplate.build 1 0 [] [itemBelow]).toOption.map (·.template) =
      some ⟨1, 0, .source, [], [itemBelow], some "P>C", some 0, 0, 0⟩ := by decide +kernel
  obtain ⟨analysis, made, same⟩ := Option.map_eq_some_iff.1 template
  have built := eq_ok_of_toOption made
  have read : Expression.read "P>C[0]".toList "$\x7bP>C[0]\x7d".toList = .ok itemBelow := by
    decide +kernel
  have bare : Bare (Path.front ⟨⟨"P", none⟩, [(.context, ⟨"C", some 0⟩)]⟩) := by decide +kernel
  refine ⟨analysis, built, by rw [same]; decide +kernel, ?_⟩
  apply (chunks_readAsPath 1 0 [] [itemBelow] analysis (List.forall_mem_singleton.2 ⟨_, _, read⟩)
    (by simp) built).1
  rintro ⟨_, path, first, pinned⟩
  obtain rfl := List.mem_singleton.1 (List.mem_of_find?_eq_some first)
  exact pinned bare

/-- An expression that selects an element in front of its `>` and one behind it gives its slide a
collection whose first part is no path. -/
theorem marked_part_is_no_path : ∃ expression template,
    Expression.read "P[0]>C[0]".toList "$\x7bP[0]>C[0]\x7d".toList = .ok expression ∧
      (SlideTemplate.build 1 0 [] [expression]).toOption.map (·.template) = some template ∧
      template.kind = .source ∧ template.collection = some "P[]>C" ∧ "P[]" ∈ template.chunks ∧
      ∀ path, Path.read "P[]".toList ≠ .ok path := by
  have unread : Path.read "P[]".toList =
      .error (.malformed (.malformedSegment "P[]".toList "P[]".toList)) := by decide +kernel
  refine ⟨⟨"$\x7bP[0]>C[0]\x7d", .path ⟨⟨"P", some 0⟩, [(.context, ⟨"C", some 0⟩)]⟩, none,
      [("P", 0), ("P[]>C", 0)]⟩,
    ⟨1, 0, .source, [], [⟨"$\x7bP[0]>C[0]\x7d",
      .path ⟨⟨"P", some 0⟩, [(.context, ⟨"C", some 0⟩)]⟩, none, [("P", 0), ("P[]>C", 0)]⟩],
      some "P[]>C", some 0, 0, 0⟩,
    by decide +kernel, by decide +kernel, rfl, rfl, by decide +kernel, fun path read => ?_⟩
  rw [unread] at read
  cases read

end Building

end DeckBinding
