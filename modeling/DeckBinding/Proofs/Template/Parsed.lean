import DeckBinding.Proofs.Directive.Readable
import DeckBinding.Proofs.Plan.Made
import DeckBinding.Proofs.Template.Followable

set_option autoImplicit false

namespace DeckBinding

open DeckBinding.Number DeckBinding.Text

/-- What a planner needs to know of a template: whether it has a collection and whether its parts
have names, and that its pages have room. -/
structure SlideTemplate.Plannable (template : SlideTemplate) : Prop where
  source : template.kind = .source → ∃ collection, template.collection = some collection ∧
    collection ≠ "" ∧ template.chunks ≠ [] ∧ ∀ chunk ∈ template.chunks, chunk ≠ ""
  static : template.kind = .static → template.collection = none
  page : 1 ≤ template.itemsPerSlide

/-- A template that is built from directives and expressions with paths that were read. -/
structure SlideTemplate.Parsed (template : SlideTemplate) : Prop where
  directives : ∀ directive ∈ template.directives, ∃ path : Path, path.WellFormed ∧
    path.text = directive.path
  expressions : ∀ expression ∈ template.expressions, ∀ path ∈ expression.paths, path.WellFormed
  indexed : ∀ expression ∈ template.expressions, expression.Indexed
  built : template.OfParts

theorem kind_built {slide position : Int} {directives : List Directive} {expressions : List Expression}
    {analysis : Analysis}
    (built : SlideTemplate.build slide position directives expressions = .ok analysis) :
    analysis.template.kind = slideKind directives expressions := by
  unfold SlideTemplate.build at built
  obtain ⟨warnings, _, further⟩ := exists_of_bind_eq_ok built
  obtain ⟨numeral, _, made⟩ := exists_of_bind_eq_ok further
  cases made
  rfl

/-- A slide is shown for items when its notes repeat it or begin a range, or when an expression
selects an element or goes on from one. -/
theorem of_slideKind_source {directives : List Directive} {expressions : List Expression}
    (source : slideKind directives expressions = .source) :
    firstForeach? directives ≠ none ∨ directives.findSome? Directive.rangeBegin? ≠ none ∨
      ∃ expression ∈ expressions, expression.references ≠ [] ∨ expression.usesContext = true := by
  unfold slideKind at source
  dsimp only at source
  split at source
  · cases source
  · split at source
    · rename_i marked
      rw [Bool.or_eq_true] at marked
      rcases marked with repeats | begins
      · obtain ⟨directive, member, foreach⟩ := List.any_eq_true.1 repeats
        refine .inl fun none => ?_
        have silent := List.findSome?_eq_none_iff.1 none directive member
        rcases directive with ⟨_, _, _⟩ | ⟨_, _⟩ | ⟨_, _⟩ <;> simp_all
      · obtain ⟨directive, member, opens⟩ := List.any_eq_true.1 begins
        refine .inr (.inl fun none => ?_)
        rw [List.findSome?_eq_none_iff.1 none directive member] at opens
        cases opens
    · split at source
      · rename_i uses
        obtain ⟨expression, member, either⟩ := List.any_eq_true.1 uses
        refine .inr (.inr ⟨expression, member, ?_⟩)
        simpa using either
      · cases source

namespace SlideTemplate

variable {template : SlideTemplate}

theorem OfParts.kind (built : template.OfParts) :
    template.kind = slideKind template.directives template.expressions := by
  obtain ⟨analysis, made, same⟩ := built.exists_build
  rw [← kind_built made, same]

theorem OfParts.collection (built : template.OfParts) :
    template.collection = if template.kind = .static then none
      else ((firstForeach? template.directives).map (·.1)).or
        ((inferCollection? template.expressions).or
          (template.directives.findSome? Directive.rangeBegin?)) := by
  obtain ⟨analysis, made, same⟩ := built.exists_build
  rw [built.kind, ← collection_built made, same]

/-- The path of a directive can be followed. -/
theorem Parsed.followable_path (parsed : template.Parsed) {path : String}
    (named : ∃ directive ∈ template.directives, directive.path = path) : Followable path := by
  obtain ⟨directive, member, rfl⟩ := named
  obtain ⟨path, wellFormed, text⟩ := parsed.directives directive member
  rw [← text]
  exact followable_text wellFormed

/-- The collection of a template can be followed, whatever gave it to the slide. -/
theorem Parsed.followable (parsed : template.Parsed) {collection : String}
    (here : template.collection = some collection) : Followable collection := by
  have gives := parsed.built.collection
  rw [here] at gives
  split at gives
  · cases gives
  · rcases Option.or_eq_some_iff.1 gives.symm with asked | ⟨_, other⟩
    · obtain ⟨foreach, first, rfl⟩ := Option.map_eq_some_iff.1 asked
      exact parsed.followable_path (path_of_firstForeach? first)
    · rcases Option.or_eq_some_iff.1 other with inferred | ⟨_, begins⟩
      · obtain ⟨expression, among, path, inside, step, member, rfl⟩ :=
          exists_step_of_inferCollection? parsed.indexed inferred
        exact Path.followable_key (parsed.expressions expression among path inside) member
      · exact parsed.followable_path (path_of_rangeBegin? begins)

/-- A slide that is shown for items has a collection. -/
theorem Parsed.exists_collection (parsed : template.Parsed) (source : template.kind = .source) :
    ∃ collection, template.collection = some collection := by
  have gives := parsed.built.collection
  rw [source, if_neg (by decide)] at gives
  rw [gives, ← Option.isSome_iff_exists, Option.isSome_or, Option.isSome_or, Option.isSome_map]
  rcases of_slideKind_source (parsed.built.kind ▸ source) with asked | begins | ⟨expression, member, uses⟩
  · simp [Option.isSome_iff_ne_none.2 asked]
  · simp [Option.isSome_iff_ne_none.2 begins]
  · simp [Option.isSome_iff_ne_none.2 (inferCollection?_ne_none member uses)]

theorem Parsed.collection_of_static (parsed : template.Parsed) (static : template.kind = .static) :
    template.collection = none := by
  rw [parsed.built.collection, if_pos static]

theorem chunks_of_followable {collection : String} (followable : Followable collection)
    (here : template.collection = some collection) : template.chunks = splitString '>' collection :=
  chunks_of_collection here fun empty => followable.ne_empty (String.toList_eq_nil_iff.1 empty)

theorem Parsed.plannable (parsed : template.Parsed) : template.Plannable where
  source source := by
    obtain ⟨collection, here⟩ := parsed.exists_collection source
    have followable := parsed.followable here
    rw [chunks_of_followable followable here]
    exact ⟨collection, here, followable.ne_empty, List.cons_ne_nil _ _, followable.filled⟩
  static := parsed.collection_of_static
  page := template.itemsPerSlide_pos

theorem Parsed.chunks_ne_nil (parsed : template.Parsed) (source : template.kind = .source) :
    template.chunks ≠ [] := by
  obtain ⟨_, _, _, filled, _⟩ := parsed.plannable.source source
  exact filled

end SlideTemplate

theorem not_foreach_of_readRange {keyword : String} {boundary : RangeBoundary} {body : List Char}
    {reading : DirectiveReading} (read : readRange keyword boundary body = .ok reading) {path : String}
    {max offset : Nat} : reading.directive ≠ some (.foreach path max offset) := by
  obtain ⟨found, _, last⟩ := exists_of_bind_eq_ok read
  cases found <;> cases last <;> nofun

/-- The page size that a directive asks for has a numeral. -/
theorem pageSize_of_readDirective {keyword body : List Char} {reading : DirectiveReading}
    (read : readDirective keyword body = .ok reading) {path : String} {max offset : Nat}
    (gives : reading.directive = some (.foreach path max offset)) : max < writeBound := by
  unfold readDirective at read
  dsimp only at read
  split at read
  · obtain ⟨found, _, last⟩ := exists_of_bind_eq_ok read
    cases found with
    | error problem =>
      cases last
      cases gives
    | ok text =>
      cases last
      cases gives
      exact optionNumber_lt .max _
  · split at read
    · exact absurd gives (not_foreach_of_readRange read)
    · split at read
      · exact absurd gives (not_foreach_of_readRange read)
      · split at read
        · unfold readAlias at read
          split at read
          · cases read
            cases gives
          · obtain ⟨found, _, last⟩ := exists_of_bind_eq_ok read
            cases found <;> cases last <;> cases gives
        · cases read
          cases gives

theorem exists_of_readExpressions {slide : Option Int} {text : List Char}
    {found : List Expression × List Diagnostic} (read : readExpressions slide text = .ok found) :
    ∀ expression ∈ found.1, ∃ body source, Expression.read body source = .ok expression := by
  obtain ⟨readings, parsed, last⟩ := exists_of_bind_eq_ok read
  cases last
  intro expression member
  obtain ⟨reading, among, here⟩ := List.mem_filterMap.1 member
  obtain ⟨body, _, reads⟩ := exists_of_mem_mapM parsed among
  cases reading with
  | literal => cases here
  | parsed =>
    cases here
    unfold Reading.ofBody at reads
    split at reads
    · rename_i accepted
      cases reads
      exact ⟨_, _, accepted⟩
    · cases reads
    · cases reads

theorem exists_of_readTexts {slide : Option Int} {texts : List (List Char)}
    {found : List Expression × List Diagnostic} (read : readTexts slide texts = .ok found) :
    ∀ expression ∈ found.1, ∃ body source, Expression.read body source = .ok expression := by
  induction texts generalizing found with
  | nil =>
    cases read
    exact fun _ member => absurd member List.not_mem_nil
  | cons text rest ih =>
    obtain ⟨first, here, further⟩ := exists_of_bind_eq_ok read
    obtain ⟨others, behind, last⟩ := exists_of_bind_eq_ok further
    cases last
    exact List.forall_mem_append.2 ⟨exists_of_readExpressions here, ih behind⟩

theorem exists_of_readDirectives {slide : Option Int} {notes : List Char}
    {found : List Directive × List Diagnostic} (read : readDirectives slide notes = .ok found) :
    ∀ directive ∈ found.1, ∃ keyword body reading,
      readDirective keyword body = .ok reading ∧ reading.directive = some directive := by
  obtain ⟨readings, marked, last⟩ := exists_of_bind_eq_ok read
  cases last
  intro directive member
  obtain ⟨reading, among, gives⟩ := List.mem_filterMap.1 member
  obtain ⟨⟨keyword, body⟩, _, reads⟩ := exists_of_mem_mapM marked among
  exact ⟨keyword, body, reading, reads, gives⟩

theorem parts_built {slide position : Int} {directives : List Directive} {expressions : List Expression}
    {analysis : Analysis}
    (built : SlideTemplate.build slide position directives expressions = .ok analysis) :
    analysis.template.directives = directives ∧ analysis.template.expressions = expressions := by
  unfold SlideTemplate.build at built
  obtain ⟨warnings, _, further⟩ := exists_of_bind_eq_ok built
  obtain ⟨numeral, _, made⟩ := exists_of_bind_eq_ok further
  cases made
  exact ⟨rfl, rfl⟩

namespace TemplateSlide

variable {slide : TemplateSlide} {position : Int} {analysis : Analysis}

theorem of_analyze (analyzed : slide.analyze position = .ok analysis) :
    (∀ expression ∈ analysis.template.expressions,
        ∃ body source, Expression.read body source = .ok expression) ∧
      (∀ directive ∈ analysis.template.directives, ∃ keyword body reading,
        readDirective keyword body = .ok reading ∧ reading.directive = some directive) ∧
      analysis.template.OfParts := by
  obtain ⟨⟨expressions, unread⟩, texts, further⟩ := exists_of_bind_eq_ok analyzed
  obtain ⟨⟨directives, refused⟩, notes, more⟩ := exists_of_bind_eq_ok further
  obtain ⟨built, made, last⟩ := exists_of_bind_eq_ok more
  cases last
  obtain ⟨marks, reads⟩ := parts_built made
  dsimp only
  rw [marks, reads]
  exact ⟨exists_of_readTexts texts, exists_of_readDirectives notes, ofParts_of_build made⟩

theorem parsed_of_analyze (analyzed : slide.analyze position = .ok analysis) :
    analysis.template.Parsed := by
  obtain ⟨reads, marks, built⟩ := of_analyze analyzed
  refine ⟨fun directive member => ?_, fun expression member => ?_, fun expression member => ?_, built⟩
  · obtain ⟨keyword, body, reading, read, gives⟩ := marks directive member
    exact exists_path_of_readDirective read gives
  · obtain ⟨body, source, read⟩ := reads expression member
    exact wellFormed_of_readExpression read
  · obtain ⟨body, source, read⟩ := reads expression member
    exact indexed_of_read read

end TemplateSlide

end DeckBinding
