import DeckBinding.Proofs.Alias.Idempotence
import DeckBinding.Proofs.Directive.Readable
import DeckBinding.Proofs.Path.Selection
import DeckBinding.Proofs.Plan.Deck
import DeckBinding.Proofs.Plan.Expansion

set_option autoImplicit false

namespace DeckBinding

open DeckBinding.Number

variable {bound : Nat}

/-- A template whose indices can be counted: the number behind each one has a numeral. -/
structure SlideTemplate.Countable (template : SlideTemplate) : Prop where
  directives : ∀ directive ∈ template.directives, directive.IndicesBelow (writeBound - 1)
  expressions : ∀ expression ∈ template.expressions, expression.IndicesBelow (writeBound - 1)

/-- A table of well-formed paths with indices less than a bound. -/
def AliasTable.IndicesBelow (bound : Nat) (table : AliasTable) : Prop :=
  ∀ name target, table.find? name = some target → target.WellFormed ∧ target.IndicesBelow bound

theorem highestIndex?_lt {expressions : List Expression} {collection : Option String} {index : Nat}
    (below : ∀ expression ∈ expressions, expression.IndicesBelow bound)
    (highest : highestIndex? collection expressions = some index) : index < bound := by
  have member := List.max?_mem highest
  obtain ⟨⟨key, number⟩, among, found⟩ := List.mem_filterMap.1 member
  obtain ⟨expression, inside, reference⟩ := List.mem_flatMap.1 among
  dsimp only at found
  split at found
  · cases found
    exact (below expression inside).references _ reference
  · cases found

theorem firstForeach?_lt {directives : List Directive}
    (below : ∀ directive ∈ directives, directive.IndicesBelow bound) {path : String} {max offset : Nat}
    (found : firstForeach? directives = some (path, max, offset)) : max < writeBound := by
  obtain ⟨directive, member, here⟩ := List.exists_of_findSome?_eq_some found
  split at here
  · cases here
    exact (below _ member).pageSize _ _ _ rfl
  · cases here

theorem exists_pageSizeWarnings (slide : Int) {max : Nat} {highest : Option Nat}
    (small : max < writeBound) (counted : ∀ index, highest = some index → index < writeBound - 1) :
    ∃ warnings, pageSizeWarnings slide max highest = .ok warnings := by
  unfold pageSizeWarnings
  cases highest with
  | none => exact ⟨_, rfl⟩
  | some index =>
    dsimp only
    split
    · have next : index + 1 < writeBound := by
        have less := counted index rfl
        omega
      rw [write_natCast small]
      have behind := write_natCast next
      rw [Int.natCast_add, Int.natCast_one] at behind
      rw [behind]
      exact ⟨_, rfl⟩
    · exact ⟨_, rfl⟩

/-- Countable directives and expressions make a template. -/
theorem exists_build (slide position : Int) {directives : List Directive}
    {expressions : List Expression}
    (marked : ∀ directive ∈ directives, directive.IndicesBelow (writeBound - 1))
    (bound : ∀ expression ∈ expressions, expression.IndicesBelow (writeBound - 1)) :
    ∃ analysis, SlideTemplate.build slide position directives expressions = .ok analysis ∧
      analysis.template.Countable := by
  have counted (collection : Option String) :
      ∀ index, highestIndex? collection expressions = some index → index < writeBound - 1 :=
    fun _ highest => highestIndex?_lt bound highest
  -- The page size is asked for in the notes, counted from the indices, or one
  have fits {template : SlideTemplate} (small : template.max < writeBound)
      (counts : ∀ index, template.highest = some index → index < writeBound - 1) :
      template.itemsPerSlide < writeBound := by
    unfold SlideTemplate.itemsPerSlide
    split
    · exact small
    · cases highest : template.highest with
      | none => exact lt_writeBound_of_lt (by decide)
      | some index =>
        have less := counts index highest
        dsimp only
        omega
  unfold SlideTemplate.build
  cases asked : firstForeach? directives with
  | none =>
    obtain ⟨warnings, warned⟩ := exists_pageSizeWarnings slide writeBound_pos
      (counted ((inferCollection? expressions).or (directives.findSome? Directive.rangeBegin?)))
    dsimp only
    rw [warned]
    dsimp only [bind, Except.bind]
    rw [write_natCast (fits writeBound_pos (counted _))]
    exact ⟨_, rfl, marked, bound⟩
  | some asking =>
    obtain ⟨path, max, offset⟩ := asking
    have small := firstForeach?_lt marked asked
    obtain ⟨warnings, warned⟩ := exists_pageSizeWarnings slide small (counted (some path))
    dsimp only
    rw [warned]
    dsimp only [bind, Except.bind]
    rw [write_natCast (fits small (counted _))]
    exact ⟨_, rfl, marked, bound⟩

theorem Path.IndicesBelow.replaceRoot {path target : Path} (here : path.IndicesBelow bound)
    (there : target.IndicesBelow bound) : (path.replaceRoot target).IndicesBelow bound := by
  intro segment member
  rcases mem_segments_replaceRoot member with own | front | ⟨other, _, rfl⟩
  · exact here segment own
  · exact there segment front
  · exact here path.first List.mem_cons_self

namespace AliasTable

variable {table : AliasTable}

theorem IndicesBelow.expandPath (aliases : table.IndicesBelow bound) {path : Path}
    (below : path.IndicesBelow bound) : (table.expandPath path).IndicesBelow bound := by
  unfold AliasTable.expandPath
  split
  · rename_i target found
    exact below.replaceRoot (aliases _ _ found).2
  · exact below

theorem IndicesBelow.expandExpression (aliases : table.IndicesBelow bound) {expression : Expression}
    (below : expression.IndicesBelow bound) : (table.expandExpression expression).IndicesBelow bound := by
  have paths : ∀ path ∈ (table.expandExpression expression).paths, path.IndicesBelow bound := by
    rw [paths_expandExpression, List.forall_mem_map]
    exact fun path member => aliases.expandPath (below.paths path member)
  refine ⟨paths, ?_⟩
  rcases table.expandExpression_eq_or expression with same | anew
  · rw [same]
    exact below.references
  · rw [anew] at paths ⊢
    exact Source.references_lt paths

theorem IndicesBelow.wellFormed_expandPath (aliases : table.IndicesBelow bound) {path : Path}
    (wellFormed : path.WellFormed) : (table.expandPath path).WellFormed := by
  unfold AliasTable.expandPath
  split
  · rename_i target found
    exact wellFormed.replaceRoot (aliases _ _ found).1
  · exact wellFormed

theorem IndicesBelow.exists_expandDirective (aliases : table.IndicesBelow bound)
    {directive : Directive} (below : directive.IndicesBelow bound) :
    ∃ other, table.expandDirective directive = .ok other ∧ other.IndicesBelow bound := by
  obtain ⟨path, wellFormed, indices, text⟩ := below.path
  have expanded := @expandText_text table _ wellFormed
  have after := aliases.wellFormed_expandPath wellFormed
  have indicesAfter := aliases.expandPath indices
  rcases directive with ⟨other, max, offset⟩ | ⟨boundary, other⟩ | ⟨other, name⟩
  · obtain rfl : other = path.text := text
    refine ⟨.foreach (table.expandPath path).text max offset, ?_,
      ⟨_, after, indicesAfter, rfl⟩, ?_⟩
    · rw [expandDirective, expanded]
      rfl
    · rintro _ _ _ ⟨⟩
      exact below.pageSize _ _ _ rfl
  · obtain rfl : other = path.text := text
    refine ⟨.range boundary (table.expandPath path).text, ?_, ⟨_, after, indicesAfter, rfl⟩, ?_⟩
    · rw [expandDirective, expanded]
      rfl
    · rintro _ _ _ ⟨⟩
  · exact ⟨_, rfl, below⟩

theorem IndicesBelow.exists_expandDirectives (aliases : table.IndicesBelow bound)
    {directives : List Directive} (below : ∀ directive ∈ directives, directive.IndicesBelow bound) :
    ∃ others, table.expandDirectives directives = .ok others ∧
      ∀ directive ∈ others, directive.IndicesBelow bound := by
  induction directives with
  | nil => exact ⟨[], rfl, fun _ member => absurd member List.not_mem_nil⟩
  | cons directive rest ih =>
    obtain ⟨other, expanded, here⟩ := aliases.exists_expandDirective (below _ List.mem_cons_self)
    obtain ⟨others, more, behind⟩ := ih fun later member => below later (List.mem_cons_of_mem _ member)
    refine ⟨other :: others, ?_, List.forall_mem_cons.2 ⟨here, behind⟩⟩
    rw [expandDirectives, expanded, more]
    rfl

/-- Templates are built anew from what their directives and expressions stand for. -/
theorem IndicesBelow.exists_expandTemplates (aliases : table.IndicesBelow (writeBound - 1))
    {templates : List SlideTemplate} (countable : ∀ template ∈ templates, template.Countable) :
    ∃ expanded, table.expandTemplates templates = .ok expanded := by
  induction templates with
  | nil => exact ⟨_, rfl⟩
  | cons template rest ih =>
    obtain ⟨others, more⟩ := ih fun later member => countable later (List.mem_cons_of_mem _ member)
    obtain ⟨marked, bound⟩ := countable template List.mem_cons_self
    obtain ⟨directives, expanded, marks⟩ := aliases.exists_expandDirectives marked
    have expressions : ∀ expression ∈ template.expressions.map table.expandExpression,
        expression.IndicesBelow (writeBound - 1) := by
      rw [List.forall_mem_map]
      exact fun expression member => aliases.expandExpression (bound expression member)
    obtain ⟨analysis, built, _⟩ := exists_build template.slide template.position marks expressions
    rw [expandTemplates, expandTemplate, expanded]
    dsimp only [bind, Except.bind]
    rw [built]
    dsimp only
    rw [more]
    exact ⟨_, rfl⟩

/-- Directives with indices that have numerals give a table of paths with such indices. -/
theorem exists_ofDirectives {directives : List Directive}
    (below : ∀ directive ∈ directives, directive.IndicesBelow bound) :
    ∃ built, AliasTable.ofDirectives directives = .ok built ∧ built.table.IndicesBelow bound := by
  have read {text name : String} (member : .alias text name ∈ directives) :
      ∃ path : Path, path.WellFormed ∧ path.IndicesBelow bound ∧ Path.ofString text = .ok path := by
    obtain ⟨path, wellFormed, indices, same⟩ := (below _ member).path
    obtain rfl : text = path.text := same
    exact ⟨path, wellFormed, indices, Path.read_text wellFormed⟩
  have spec := ofDirectives_spec directives
  cases made : AliasTable.ofDirectives directives with
  | error error =>
    rw [made] at spec
    obtain ⟨text, name, member, refused⟩ := spec
    obtain ⟨path, _, _, taken⟩ := read member
    rw [taken] at refused
    cases refused
  | ok built =>
    rw [made] at spec
    refine ⟨built, rfl, ?_⟩
    intro name target found
    have holds : ∀ other target, Targets.ofDirectives directives other = some target →
        target.WellFormed ∧ target.IndicesBelow bound := by
      intro other target known
      obtain ⟨directive, member, here⟩ := List.mem_filterMap.1 (List.mem_of_getLast? known)
      unfold Directive.declares? at here
      split at here
      · split at here
        · obtain ⟨path, wellFormed, indices, taken⟩ := read member
          rw [taken] at here
          cases here
          exact ⟨wellFormed, indices⟩
        · cases here
      · cases here
    exact ((spec name).stands target found).keeps
      (fun _ _ path target => ⟨path.1.replaceRoot target.1, path.2.replaceRoot target.2⟩) holds

end AliasTable

theorem countable_of_mem_inOrder {templates : List SlideTemplate}
    (countable : ∀ template ∈ templates, template.Countable) :
    ∀ template ∈ inOrder templates, template.Countable := by
  intro template member
  obtain ⟨original, among, position, rfl⟩ := mem_inOrder member
  exact ⟨(countable original among).directives, (countable original among).expressions⟩

/-- There is a plan of countable templates for all data. -/
theorem exists_planning {templates : List SlideTemplate}
    (countable : ∀ template ∈ templates, template.Countable) (data : Value) :
    ∃ planning, SlidePlan.ofTemplates templates data = .ok planning := by
  have placed := countable_of_mem_inOrder countable
  have declared : ∀ directive ∈ (inOrder templates).flatMap fun template =>
      template.directives.filter Directive.isAlias, directive.IndicesBelow (writeBound - 1) := by
    intro directive member
    obtain ⟨template, among, inside⟩ := List.mem_flatMap.1 member
    exact (placed template among).directives directive (List.mem_of_mem_filter inside)
  obtain ⟨built, made, aliases⟩ := AliasTable.exists_ofDirectives declared
  have deck : ∃ deck, expandedDeck templates = .ok deck := by
    unfold expandedDeck
    dsimp only
    rw [made]
    dsimp only [bind, Except.bind]
    split
    · exact ⟨_, rfl⟩
    · obtain ⟨expanded, done⟩ := aliases.exists_expandTemplates placed
      rw [done]
      exact ⟨_, rfl⟩
  obtain ⟨deck, expanded⟩ := deck
  have spec := ofTemplates_spec templates data
  rw [expanded] at spec
  obtain ⟨planning, planned, _⟩ := spec
  exact ⟨planning, planned⟩

end DeckBinding
