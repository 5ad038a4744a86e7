import DeckBinding.Diagnostic
import DeckBinding.Directive.Basic
import DeckBinding.Keyed
import DeckBinding.Warning

set_option autoImplicit false

namespace DeckBinding

open DeckBinding.Number

/-- Short names with the paths they stand for, in order of declaration. -/
abbrev Declarations := List (String × Path)

/-- Short names with paths that start with no short name. -/
structure AliasTable where
  entries : Declarations
deriving DecidableEq

/-- The path a name stands for once the names at the fronts of paths are replaced, or the names of a
cycle, the first of them repeated at the end. `fresh` holds the declarations not yet followed, and
`trail` the names followed so far. -/
def expandAlias (declared fresh : Declarations) (trail : List String) (name : String) :
    Except (List String) Path :=
  match _known : Keyed.get? name fresh with
  | none => .error (trail.dropWhile (· != name) ++ [name])
  | some target =>
    if (Keyed.get? target.root declared).isSome then do
      let root ← expandAlias declared (Keyed.remove name fresh) (trail ++ [name]) target.root
      .ok (target.replaceRoot root)
    else .ok target
termination_by fresh.length
decreasing_by
  exact Keyed.length_remove_lt (Option.isSome_of_eq_some _known)

def Declarations.expand (declared : Declarations) (name : String) : Except (List String) Path :=
  expandAlias declared declared [] name

/-- Why a mapping of names to path texts is no alias table. -/
inductive AliasError where
  | path (failure : ReadFailure PathError)
  | cycle (names : List String)
deriving DecidableEq

namespace AliasTable

def empty : AliasTable := ⟨[]⟩

def find? (table : AliasTable) (name : String) : Option Path :=
  Keyed.get? name table.entries

def contains (table : AliasTable) (name : String) : Bool :=
  (table.find? name).isSome

def size (table : AliasTable) : Nat :=
  table.entries.length

def readMapping : List (String × String) → Except (ReadFailure PathError) Declarations
  | [] => .ok []
  | (name, text) :: rest => do
    let path ← Path.ofString text
    let declared ← readMapping rest
    .ok ((name, path) :: declared)

def expandAll (declared : Declarations) :
    Declarations → Except (List String) Declarations
  | [] => .ok []
  | (name, _) :: rest => do
    let path ← declared.expand name
    let expanded ← expandAll declared rest
    .ok ((name, path) :: expanded)

/-- The table of a mapping from names to path texts. A cycle or a text that is no path refuses the
whole mapping. -/
def ofMapping (mapping : List (String × String)) : Except AliasError AliasTable :=
  match readMapping (Keyed.ofList mapping) with
  | .error failure => .error (.path failure)
  | .ok declared =>
    match expandAll declared declared with
    | .error names => .error (.cycle names)
    | .ok entries => .ok ⟨entries⟩

/-- The aliases declared so far, with what was noticed on the way. -/
structure Declared where
  entries : Declarations
  warnings : List Warning
  diagnostics : List Diagnostic

/-- Adds a declaration. Another path for a known name is noticed and replaces the first one; a text
that is no path is left out. -/
def Declared.add (declared : Declared) (name text : String) : Except NumeralError Declared :=
  let redefined := match Keyed.get? name declared.entries with
    | some old => if old.text = text then [] else [Warning.aliasRedefined name old.text text]
    | none => []
  let warnings := declared.warnings ++ redefined
  match Path.ofString text with
  | .ok path => .ok ⟨Keyed.put name path declared.entries, warnings, declared.diagnostics⟩
  | .error (.malformed error) =>
    .ok ⟨declared.entries, warnings, declared.diagnostics ++ [⟨.aliasPath name error, none⟩]⟩
  | .error (.numeral error) => .error error

/-- Adds the aliases among directives. A name may not be empty. -/
def Declared.addAll (declared : Declared) :
    List Directive → Except NumeralError Declared
  | [] => .ok declared
  | .alias path name :: rest => do
    let declared ← if name.isEmpty then .ok declared else declared.add name path
    declared.addAll rest
  | _ :: rest => declared.addAll rest

/-- The name with its expanded path, when it is in no cycle. -/
def kept? (declared : Declarations) (name : String) : Option (String × Path) :=
  match declared.expand name with
  | .ok path => some (name, path)
  | .error _ => none

/-- The diagnostic for a name that leads into a cycle. -/
def dropped? (declared : Declarations) (name : String) : Option Diagnostic :=
  match declared.expand name with
  | .ok _ => none
  | .error cycle => some ⟨.aliasCycle name cycle, none⟩

/-- An alias table with what was noticed while it was built. -/
structure Built where
  table : AliasTable
  diagnostics : List Diagnostic
  warnings : List Warning

/-- The table of the aliases among directives. Names that lead into a cycle are dropped. -/
def ofDirectives (directives : List Directive) : Except NumeralError Built := do
  let declared ← Declared.addAll ⟨[], [], []⟩ directives
  let names := declared.entries.map (·.1)
  .ok {
    table := ⟨names.filterMap (kept? declared.entries)⟩
    diagnostics := declared.diagnostics ++ names.filterMap (dropped? declared.entries)
    warnings := declared.warnings }

/-- Replaces a name at the front of a path. -/
def expandPath (table : AliasTable) (path : Path) : Path :=
  match table.find? path.root with
  | some target => path.replaceRoot target
  | none => path

/-- Replaces a name at the front of a path text. A text that is no path stays as it is. -/
def expandText (table : AliasTable) (text : String) : Except NumeralError String :=
  if table.entries.isEmpty || text.isEmpty then .ok text
  else match Path.ofString text with
    | .ok path => .ok (table.expandPath path).text
    | .error (.malformed _) => .ok text
    | .error (.numeral error) => .error error

def expandArgument (table : AliasTable) : Argument → Argument
  | .literal text => .literal text
  | .path path => .path (table.expandPath path)

def expandSource (table : AliasTable) : Source → Source
  | .path path => .path (table.expandPath path)
  | .call call => .call { call with arguments := call.arguments.map table.expandArgument }

/-- Replaces names at the front of the paths of an expression; its text stays. What a call refers to
is found anew, and what a path refers to when its name was replaced. -/
def expandExpression (table : AliasTable) (expression : Expression) : Expression :=
  let source := table.expandSource expression.source
  let expanded := { expression with source, references := source.references }
  if table.entries.isEmpty then expression
  else match expression.source with
    | .call _ => expanded
    | .path path => if table.contains path.root then expanded else expression

theorem expandPath_of_absent {table : AliasTable} {path : Path}
    (absent : table.find? path.root = none) : table.expandPath path = path := by
  rw [expandPath, absent]

theorem expandPath_of_empty {table : AliasTable} (none : table.entries = []) (path : Path) :
    table.expandPath path = path := by
  apply expandPath_of_absent
  rw [find?, none]
  rfl

theorem expandExpression_of_empty {table : AliasTable} (none : table.entries = [])
    (expression : Expression) : table.expandExpression expression = expression := by
  rw [expandExpression, none]
  rfl

theorem expandExpression_of_absent {table : AliasTable} {expression : Expression} {path : Path}
    (reads : expression.source = .path path) (absent : table.find? path.root = none) :
    table.expandExpression expression = expression := by
  have missing : table.contains path.root = false := by
    rw [contains, absent]
    rfl
  simp [expandExpression, reads, missing]

/-- An expression reads what it read before with the names replaced, whether or not what it refers
to was found anew. -/
theorem source_expandExpression (table : AliasTable) (expression : Expression) :
    (table.expandExpression expression).source = table.expandSource expression.source := by
  unfold expandExpression
  dsimp only
  split
  · rename_i empty
    have path := expandPath_of_empty (List.isEmpty_iff.1 empty)
    have argument : table.expandArgument = id := by
      funext argument
      cases argument <;> simp [expandArgument, path]
    cases expression.source <;> simp [expandSource, path, argument]
  · split
    · rfl
    · rename_i path reads
      split
      · rfl
      · rename_i missing
        have absent : table.find? path.root = none := by
          simpa [contains] using missing
        rw [reads, expandSource, expandPath_of_absent absent]

/-- An expression stays whole, or what it reads and what it refers to change together. -/
theorem expandExpression_eq_or (table : AliasTable) (expression : Expression) :
    table.expandExpression expression = expression ∨
      table.expandExpression expression = { expression with
        source := table.expandSource expression.source
        references := (table.expandSource expression.source).references } := by
  unfold expandExpression
  dsimp only
  split
  · exact .inl rfl
  · split
    · exact .inr rfl
    · split
      · exact .inr rfl
      · exact .inl rfl

/-- Replaces a name at the front of the path of a directive; aliases stay as they are. -/
def expandDirective (table : AliasTable) : Directive → Except NumeralError Directive
  | .foreach path max offset => (table.expandText path).map fun path => .foreach path max offset
  | .range boundary path => (table.expandText path).map fun path => .range boundary path
  | .alias path name => .ok (.alias path name)

end AliasTable

end DeckBinding
