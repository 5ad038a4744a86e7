import DeckBinding.Path.Basic

set_option autoImplicit false

namespace DeckBinding

inductive Argument where
  | literal (text : String)
  | path (path : Path)
deriving DecidableEq

def Argument.path? : Argument → Option Path
  | .literal _ => none
  | .path target => some target

/-- A function call whose meaning is up to the document. -/
structure Call where
  owner : Option String
  name : String
  arguments : List Argument
deriving DecidableEq

inductive Source where
  | path (path : Path)
  | call (call : Call)
deriving DecidableEq

def Source.paths : Source → List Path
  | .path target => [target]
  | .call function => function.arguments.filterMap Argument.path?

/-- The collections that elements are selected of, with the positions of the elements. -/
def Source.references : Source → List (String × Nat)
  | .path target => target.references
  | .call function => (function.arguments.filterMap Argument.path?).flatMap Path.references

theorem Source.references_eq (source : Source) :
    source.references = source.paths.flatMap Path.references := by
  cases source with
  | path target => exact (List.append_nil _).symm
  | call function => rfl

/-- A parsed expression: its text with the braces, what it reads, how the value is formatted, and
the collections that it was found to select elements of. -/
structure Expression where
  text : String
  source : Source
  format : Option String
  references : List (String × Nat)
deriving DecidableEq

namespace Expression

def paths (expression : Expression) : List Path :=
  expression.source.paths

/-- Whether some path goes on from the current element of an iterated collection. -/
def usesContext (expression : Expression) : Bool :=
  expression.paths.any Path.usesContext

end Expression

end DeckBinding
