import DeckBinding.Proofs.Alias.Meaning
import DeckBinding.Resolution.Resolver

set_option autoImplicit false

namespace DeckBinding

open DeckBinding.Number DeckBinding.Text

/-- A path whose names hold no `>`. -/
def Path.Separable (path : Path) : Prop :=
  ∀ segment ∈ path.segments, '>' ∉ segment.name.toList

def AliasTable.Separable (table : AliasTable) : Prop :=
  ∀ name path, table.find? name = some path → path.Separable

def Expression.Separable (expression : Expression) : Prop :=
  ∀ path ∈ expression.paths, path.Separable

namespace Path

variable {path target : Path}

theorem WellFormed.separable (wellFormed : path.WellFormed) : path.Separable := by
  have named {segment : Segment} (here : segment.WellFormed) : '>' ∉ segment.name.toList := by
    intro member
    have word := isWord_of_isName here.1 _ member
    revert word
    decide
  intro segment member
  rcases List.mem_cons.1 member with rfl | later
  · exact named wellFormed.1
  · obtain ⟨entry, among, rfl⟩ := List.mem_map.1 later
    exact named (wellFormed.2 entry among)

theorem names_withLastIndex (path : Path) (index : Option Nat) :
    (path.withLastIndex index).segments.map Segment.name = path.segments.map Segment.name := by
  obtain ⟨front, last, segment, entries, changed⟩ := exists_lastEntry path .member
  have before := congrArg (List.map fun entry => entry.2.name) entries
  have after := congrArg (List.map fun entry => entry.2.name) (changed index)
  simp only [List.map_append, List.map_cons, List.map_nil] at before after
  simp only [segments, List.map_cons, List.map_map]
  exact after.trans before.symm

/-- Replacing the first name of a path leaves the other names, behind those of the replacement. -/
theorem names_replaceRoot (path target : Path) :
    (path.replaceRoot target).segments.map Segment.name =
      target.segments.map Segment.name ++ path.rest.map fun entry => entry.2.name := by
  cases index : path.first.index with
  | none =>
    rw [← segments_entries, entries_replaceRoot_bare index, List.map_append, List.map_append,
      segments_entries, List.map_map]
    rfl
  | some number =>
    rw [← segments_entries, entries_replaceRoot_indexed index, List.map_append, List.map_append,
      segments_entries, names_withLastIndex, List.map_map]
    rfl

theorem separable_iff : path.Separable ↔ ∀ name ∈ path.segments.map Segment.name, '>' ∉ name.toList := by
  rw [List.forall_mem_map]
  rfl

theorem Separable.replaceRoot (separable : path.Separable) (front : target.Separable) :
    (path.replaceRoot target).Separable := by
  rw [separable_iff] at front ⊢
  rw [names_replaceRoot]
  intro name member
  rcases List.mem_append.1 member with earlier | later
  · exact front name earlier
  · obtain ⟨entry, among, rfl⟩ := List.mem_map.1 later
    exact separable entry.2 (List.mem_cons_of_mem _ (List.mem_map_of_mem among))

end Path

namespace AliasTable

theorem exists_path_of_readMapping {entries : List (String × String)} {declared : Declarations}
    (read : readMapping entries = .ok declared) :
    ∀ entry ∈ entries, ∃ path, Path.ofString entry.2 = .ok path := by
  induction entries generalizing declared with
  | nil => exact fun entry member => nomatch member
  | cons entry rest ih =>
    obtain ⟨name, text⟩ := entry
    unfold readMapping at read
    obtain ⟨path, here, further⟩ := exists_of_bind_eq_ok read
    obtain ⟨others, more, _⟩ := exists_of_bind_eq_ok further
    intro other member
    rcases List.mem_cons.1 member with rfl | later
    · exact ⟨path, here⟩
    · exact ih more other later

/-- The table of a mapping holds no other names than the texts of its paths. -/
theorem separable_ofMapping {mapping : List (String × String)} {table : AliasTable}
    (made : AliasTable.ofMapping mapping = .ok table) : table.Separable := by
  have wellFormed : ∀ entry ∈ Keyed.ofList mapping, ∃ path, Path.ofString entry.2 = .ok path := by
    unfold AliasTable.ofMapping at made
    split at made
    · cases made
    · rename_i declared read
      exact exists_path_of_readMapping read
  intro name path found
  have stands := standsFor_of_find? wellFormed made found
  refine stands.keeps (fun _ _ => Path.Separable.replaceRoot) ?_
  exact fun other target declared => (Targets.wellFormed_ofMapping declared).separable

/-- The table of directives holds no other names than the texts of their paths. -/
theorem separable_ofDirectives {directives : List Directive} {built : Built}
    (made : AliasTable.ofDirectives directives = .ok built) : built.table.Separable := by
  have spec := ofDirectives_spec directives
  rw [made] at spec
  intro name path found
  refine ((spec name).stands path found).keeps (fun _ _ => Path.Separable.replaceRoot) ?_
  exact fun other target declared => (Targets.wellFormed_ofDirectives declared).separable

variable {table : AliasTable}

theorem separable_empty : AliasTable.empty.Separable := by
  intro name path found
  cases found

theorem Separable.expandPath (separable : table.Separable) {path : Path} (here : path.Separable) :
    (table.expandPath path).Separable := by
  unfold AliasTable.expandPath
  split
  · rename_i target found
    exact here.replaceRoot (separable _ _ found)
  · exact here

theorem paths_expandExpression (table : AliasTable) (expression : Expression) :
    (table.expandExpression expression).paths = expression.paths.map table.expandPath := by
  rw [Expression.paths, Expression.paths, source_expandExpression]
  cases expression.source with
  | path path => rfl
  | call call =>
    have argument (argument : Argument) : (table.expandArgument argument).path? =
        argument.path?.map table.expandPath := by
      cases argument <;> rfl
    simp only [expandSource, Source.paths, List.filterMap_map, List.map_filterMap, Function.comp_def,
      argument]

theorem Separable.expandExpression (separable : table.Separable) {expression : Expression}
    (here : expression.Separable) : (table.expandExpression expression).Separable := by
  unfold Expression.Separable
  rw [paths_expandExpression, List.forall_mem_map]
  exact fun path member => separable.expandPath (here path member)

end AliasTable

theorem wellFormed_of_readArgument {text : List Char} {argument : Argument}
    (read : readArgument text = .ok argument) {path : Path} (here : argument.path? = some path) :
    path.WellFormed := by
  unfold readArgument at read
  split at read
  · cases read
  · split at read
    · cases read
      cases here
    · split at read
      · rename_i found
        cases read
        cases here
        exact Path.wellFormed_of_read found
      · cases read

/-- The paths of an expression that is read are read from texts, too. -/
theorem wellFormed_of_readExpression {body text : List Char} {expression : Expression}
    (read : Expression.read body text = .ok expression) : ∀ path ∈ expression.paths, path.WellFormed := by
  unfold Expression.read at read
  split at read
  · rename_i parts _
    obtain ⟨call, called, last⟩ := exists_of_bind_eq_ok read
    cases last
    unfold readCall at called
    split at called
    · cases called
    · obtain ⟨arguments, found, made⟩ := exists_of_bind_eq_ok called
      cases made
      intro path member
      obtain ⟨argument, among, here⟩ := List.mem_filterMap.1 member
      obtain ⟨_, _, argued⟩ := exists_of_mem_mapM found among
      exact wellFormed_of_readArgument argued here
  · dsimp only at read
    split at read
    · cases read
    · rename_i path found
      cases read
      exact List.forall_mem_singleton.2 (Path.wellFormed_of_read found)

/-- An expression that refers to what its paths select. -/
def Expression.Indexed (expression : Expression) : Prop :=
  expression.references = expression.paths.flatMap Path.references

theorem indexed_of_read {body text : List Char} {expression : Expression}
    (read : Expression.read body text = .ok expression) : expression.Indexed := by
  unfold Expression.read at read
  split at read
  · obtain ⟨call, _, last⟩ := exists_of_bind_eq_ok read
    cases last
    exact Source.references_eq (.call call)
  · dsimp only at read
    split at read
    · cases read
    · rename_i path found
      cases read
      exact Source.references_eq (.path path)

/-- What an expression refers to stays in step with its paths when names are replaced. -/
theorem Expression.Indexed.expandExpression {expression : Expression} (indexed : expression.Indexed)
    (table : AliasTable) : (table.expandExpression expression).Indexed := by
  rcases table.expandExpression_eq_or expression with same | anew
  · rw [same]
    exact indexed
  · rw [anew]
    exact Source.references_eq _

theorem separable_of_read {body text : List Char} {expression : Expression}
    (read : Expression.read body text = .ok expression) : expression.Separable :=
  fun path member => (wellFormed_of_readExpression read path member).separable

theorem separable_of_ofBody {body : List Char} {expression : Expression}
    (read : Reading.ofBody body = .ok (.parsed expression)) : expression.Separable := by
  unfold Reading.ofBody at read
  split at read
  · rename_i found
    cases read
    exact separable_of_read found
  · cases read
  · cases read

end DeckBinding
