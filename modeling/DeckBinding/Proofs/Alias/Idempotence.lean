import DeckBinding.Proofs.Alias.Names

set_option autoImplicit false

namespace DeckBinding

open DeckBinding.Number

/-- A table that is made of a mapping or of directives, with the paths that are declared there. -/
inductive AliasTable.MadeOf : Targets → AliasTable → Prop where
  | mapping {mapping : List (String × String)} {table : AliasTable}
      (made : AliasTable.ofMapping mapping = .ok table) : MadeOf (.ofMapping mapping) table
  | directives {directives : List Directive} {built : AliasTable.Built}
      (made : AliasTable.ofDirectives directives = .ok built) :
      MadeOf (.ofDirectives directives) built.table

namespace Path

variable {path target : Path}

theorem wellFormed_iff : path.WellFormed ↔ ∀ segment ∈ path.segments, segment.WellFormed := by
  rw [segments, List.forall_mem_cons, List.forall_mem_map]
  rfl

/-- The segments of a path behind a replaced name: those of the path and of the replacement, but for
the index that moves. -/
theorem mem_segments_replaceRoot {segment : Segment}
    (member : segment ∈ (path.replaceRoot target).segments) :
    segment ∈ path.segments ∨ segment ∈ target.segments ∨
      ∃ other ∈ target.segments, segment = { other with index := path.first.index } := by
  have behind (entry : Join × Segment) (later : entry ∈ path.rest) : entry.2 ∈ path.segments :=
    List.mem_cons_of_mem _ (List.mem_map_of_mem later)
  rw [← segments_entries, List.mem_map] at member
  obtain ⟨entry, among, rfl⟩ := member
  cases index : path.first.index with
  | none =>
    rw [entries_replaceRoot_bare index, List.mem_append] at among
    rcases among with earlier | later
    · exact .inr (.inl (List.mem_map_of_mem earlier))
    · exact .inl (behind entry later)
  | some number =>
    rw [entries_replaceRoot_indexed index, List.mem_append] at among
    rcases among with earlier | later
    · obtain ⟨front, last, other, entries, changed⟩ := exists_lastEntry target .member
      have inTarget (entry : Join × Segment) (here : entry ∈ front ++ [(last, other)]) :
          entry.2 ∈ target.segments := by
        rw [← entries] at here
        exact List.mem_map_of_mem here
      unfold Path.entries at earlier
      rw [changed] at earlier
      rcases List.mem_append.1 earlier with before | moved
      · exact .inr (.inl (inTarget entry (List.mem_append_left _ before)))
      · rw [List.mem_singleton.1 moved]
        exact .inr (.inr ⟨other, inTarget (last, other) (by simp), rfl⟩)
    · exact .inl (behind entry later)

theorem WellFormed.replaceRoot (wellFormed : path.WellFormed) (front : target.WellFormed) :
    (path.replaceRoot target).WellFormed := by
  rw [wellFormed_iff] at front ⊢
  intro segment member
  rcases mem_segments_replaceRoot member with here | there | ⟨other, there, rfl⟩
  · exact wellFormed_iff.1 wellFormed segment here
  · exact front segment there
  · exact ⟨(front other there).1, wellFormed.1.2⟩

end Path

/-- A name leads to a path that starts with no declared name. -/
theorem Targets.StandsFor.root_undeclared {target? : Targets} {name : String} {path : Path}
    (stands : target?.StandsFor name path) : target? path.root = none := by
  induction stands with
  | direct known last => exact last
  | through known further ih =>
    rw [Path.replaceRoot_root]
    exact ih

namespace AliasTable

/-- A table of well-formed paths that start with none of its names. -/
structure Closed (table : AliasTable) : Prop where
  wellFormed : ∀ name target, table.find? name = some target → target.WellFormed
  absent : ∀ name target, table.find? name = some target → table.find? target.root = none

variable {target? : Targets} {table : AliasTable}

theorem MadeOf.standsFor (made : table.MadeOf target?) {name : String} {path : Path}
    (found : table.find? name = some path) : target?.StandsFor name path := by
  cases made with
  | @mapping mapping _ made =>
    have wellFormed : ∀ entry ∈ Keyed.ofList mapping, ∃ path, Path.ofString entry.2 = .ok path := by
      unfold AliasTable.ofMapping at made
      split at made
      · cases made
      · rename_i declared read
        exact exists_path_of_readMapping read
    exact standsFor_of_find? wellFormed made found
  | @directives directives built made =>
    have spec := ofDirectives_spec directives
    rw [made] at spec
    exact (spec name).stands path found

theorem MadeOf.wellFormed (made : table.MadeOf target?) {name : String} {path : Path}
    (found : table.find? name = some path) : path.WellFormed := by
  have kept := @Targets.StandsFor.keeps target? Path.WellFormed fun _ _ => Path.WellFormed.replaceRoot
  refine kept ?_ (made.standsFor found)
  intro other target declared
  cases made with
  | mapping => exact Targets.wellFormed_ofMapping declared
  | directives => exact Targets.wellFormed_ofDirectives declared

theorem MadeOf.closed (made : table.MadeOf target?) : table.Closed where
  wellFormed _ _ found := made.wellFormed found
  absent name target found := by
    have undeclared := (made.standsFor found).root_undeclared
    by_contra known
    obtain ⟨other, further⟩ := Option.ne_none_iff_exists'.1 known
    rw [Option.eq_none_iff_forall_not_mem] at undeclared
    obtain ⟨path, declared⟩ := Option.isSome_iff_exists.1 (made.standsFor further).known
    exact undeclared path declared

/-- In a canonical text the name at the front is replaced as in its path. -/
theorem expandText_text {path : Path} (wellFormed : path.WellFormed) :
    table.expandText path.text = .ok (table.expandPath path).text := by
  have read : Path.ofString path.text = .ok path := Path.read_text wellFormed
  unfold expandText
  split
  · rename_i none
    have full : path.text.isEmpty = false := by
      rw [← Bool.not_eq_true, String.isEmpty_iff, ← String.toList_inj]
      exact Path.toList_text_ne_nil wellFormed
    rw [full, Bool.or_false, List.isEmpty_iff] at none
    have absent : table.find? path.root = .none := by
      rw [find?, none]
      rfl
    rw [expandPath_of_absent absent]
  · rw [read]

variable (closed : table.Closed)

include closed

/-- A path that comes out of a closed table starts with none of its names. -/
theorem Closed.find?_root_expandPath (path : Path) :
    table.find? (table.expandPath path).root = none := by
  unfold expandPath
  cases found : table.find? path.root with
  | none => exact found
  | some target =>
    dsimp only
    rw [Path.replaceRoot_root]
    exact closed.absent path.root target found

theorem Closed.expandPath_twice (path : Path) :
    table.expandPath (table.expandPath path) = table.expandPath path :=
  expandPath_of_absent (closed.find?_root_expandPath path)

theorem Closed.wellFormed_expandPath {path : Path} (wellFormed : path.WellFormed) :
    (table.expandPath path).WellFormed := by
  unfold expandPath
  split
  · rename_i target found
    exact wellFormed.replaceRoot (closed.wellFormed _ _ found)
  · exact wellFormed

/-- The text of a path that came out of the table is its canonical one, and stays as it is. -/
theorem Closed.expandText_expanded {path : Path} (wellFormed : path.WellFormed) :
    table.expandText (table.expandPath path).text = .ok (table.expandPath path).text := by
  rw [expandText_text (closed.wellFormed_expandPath wellFormed), closed.expandPath_twice]

theorem Closed.expandText_twice (text : String) :
    (table.expandText text >>= table.expandText) = table.expandText text := by
  cases once : table.expandText text with
  | error error => rfl
  | ok rewritten =>
    change table.expandText rewritten = _
    rw [← once]
    unfold expandText at once
    split at once
    · cases once
      rfl
    · rename_i filled
      split at once
      · rename_i path read
        cases once
        rw [closed.expandText_expanded (Path.wellFormed_of_read read), expandText, if_neg filled, read]
      · cases once
        rfl
      · cases once

theorem Closed.expandSource_twice (source : Source) :
    table.expandSource (table.expandSource source) = table.expandSource source := by
  have argument (argument : Argument) : table.expandArgument (table.expandArgument argument) =
      table.expandArgument argument := by
    cases argument with
    | literal text => rfl
    | path path => exact congrArg Argument.path (closed.expandPath_twice path)
  cases source with
  | path path => simp only [expandSource, closed.expandPath_twice]
  | call call => simp only [expandSource, List.map_map, Function.comp_def, argument]

theorem Closed.expandExpression_twice (expression : Expression) :
    table.expandExpression (table.expandExpression expression) = table.expandExpression expression := by
  rcases table.expandExpression_eq_or expression with same | anew
  · rw [same, same]
  · -- what it refers to was found anew, so that finding it anew again changes nothing
    rw [anew]
    rcases table.expandExpression_eq_or { expression with
      source := table.expandSource expression.source
      references := (table.expandSource expression.source).references } with again | again
    · exact again
    · rw [again]
      simp only [closed.expandSource_twice]

theorem Closed.expandDirective_twice (directive : Directive) :
    (table.expandDirective directive >>= table.expandDirective) = table.expandDirective directive := by
  have again {path : String} (rebuild : String → Directive)
      (rebuilt : ∀ path, table.expandDirective (rebuild path) = (table.expandText path).map rebuild) :
      (table.expandDirective (rebuild path) >>= table.expandDirective) =
        table.expandDirective (rebuild path) := by
    have twice := closed.expandText_twice path
    rw [rebuilt]
    cases once : table.expandText path with
    | error error => rfl
    | ok rewritten =>
      rw [once] at twice
      change table.expandText rewritten = _ at twice
      change table.expandDirective (rebuild rewritten) = _
      rw [rebuilt, twice]
  rcases directive with ⟨path, max, offset⟩ | ⟨boundary, path⟩ | ⟨path, name⟩
  · exact again (.foreach · max offset) fun _ => rfl
  · exact again (.range boundary) fun _ => rfl
  · rfl

omit closed

/-- No path of a table that is made of a mapping or of directives starts with a declared name, also
not with one that was dropped. Replacing short names a second time changes no path, no text, no
expression and no directive, and an expression refers to what its paths refer to after their names
are replaced. -/
theorem expansion_idempotent (made : table.MadeOf target?) :
    (∀ name target, table.find? name = some target → target? target.root = none) ∧
      (∀ path, table.expandPath (table.expandPath path) = table.expandPath path) ∧
      (∀ text, (table.expandText text >>= table.expandText) = table.expandText text) ∧
      (∀ expression, table.expandExpression (table.expandExpression expression) =
        table.expandExpression expression) ∧
      (∀ directive, (table.expandDirective directive >>= table.expandDirective) =
        table.expandDirective directive) ∧
      ∀ body text expression, Expression.read body text = .ok expression →
        (table.expandExpression expression).paths = expression.paths.map table.expandPath ∧
        (table.expandExpression expression).references =
          (expression.paths.map table.expandPath).flatMap Path.references := by
  have closed := made.closed
  refine ⟨fun name target found => (made.standsFor found).root_undeclared, closed.expandPath_twice,
    closed.expandText_twice, closed.expandExpression_twice, closed.expandDirective_twice, ?_⟩
  intro body text expression read
  have paths := paths_expandExpression table expression
  have indexed := (indexed_of_read read).expandExpression table
  rw [Expression.Indexed, paths] at indexed
  exact ⟨paths, indexed⟩

/-- Two names in a cycle, a name, and one that stands for a path below it. -/
def staffDirectives : List Directive :=
  [.alias "b.x" "a", .alias "a" "b", .alias "company.people" "staff", .alias "staff[0]" "lead"]

/-- A call for the second one of the staff, below the short name for the first one. -/
def secondLead : Expression :=
  ⟨"", .call ⟨none, "F", [.path ⟨⟨"lead", some 1⟩, [(.member, ⟨"name", none⟩)]⟩, .literal "x"]⟩,
    none, [("lead", 1)]⟩

/-- The first one of the staff, through two short names beside two others that are dropped, and a
call that refers to the second one. -/
theorem expansion_idempotent_dropped_cycle :
    ∃ built, AliasTable.ofDirectives staffDirectives = .ok built ∧
      built.table.MadeOf (.ofDirectives staffDirectives) ∧
      built.table.expandText "lead.name" = .ok "company.people[0].name" ∧
      built.table.expandText "company.people[0].name" = .ok "company.people[0].name" ∧
      Expression.read "F(lead[1].name, 'x')".toList [] = .ok secondLead ∧
      (built.table.expandExpression secondLead).references = [("company.people", 1)] := by
  have known : ((AliasTable.ofDirectives staffDirectives).toOption.any fun built =>
      (built.table.expandText "lead.name").toOption == some "company.people[0].name" &&
        (secondLead.paths.map built.table.expandPath).flatMap Path.references ==
          [("company.people", 1)]) = true := by
    decide +kernel
  obtain ⟨built, made, both⟩ := (Option.any_eq_true _ _).1 known
  obtain ⟨expanded, refers⟩ := Bool.and_eq_true_iff.1 both
  have made := eq_ok_of_toOption made
  have expanded := eq_ok_of_toOption (eq_of_beq expanded)
  obtain ⟨_, _, twice, _, _, indexed⟩ := expansion_idempotent (.directives made)
  have again := twice "lead.name"
  rw [expanded] at again
  have read : Expression.read "F(lead[1].name, 'x')".toList [] = .ok secondLead := by decide +kernel
  exact ⟨built, made, .directives made, expanded, again, read,
    (indexed _ _ _ read).2.trans (eq_of_beq refers)⟩

end AliasTable

end DeckBinding
