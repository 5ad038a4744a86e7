import DeckBinding.Expression.Reader
import DeckBinding.Format.Number

set_option autoImplicit false

namespace DeckBinding

inductive DiagnosticKind where
  | parse
  | planning
  | resolution
  | aliasCycle
deriving DecidableEq

def DiagnosticKind.label : DiagnosticKind → String
  | .parse => "parse"
  | .planning => "planning"
  | .resolution => "resolution"
  | .aliasCycle => "alias_cycle"

/-- What can go wrong with a template without stopping the run. -/
inductive Problem where
  | literalExpression (text : List Char) (error : ExpressionError)
  | optionNotANumber (key : String) (value : List Char)
  | negativeOption (key : String) (number : Int)
  | unknownOption (option : List Char)
  | directivePath (keyword : String) (error : PathError)
  | malformedAlias (body : List Char)
  | unknownDirective (keyword : List Char)
  | aliasPath (name : String) (error : PathError)
  | aliasCycle (name : String) (cycle : List String)
  | collectionPath (path : String) (failure : ReadFailure PathError)
  | collectionMissing (path : String)
  | notACollection (path : String)
  | openRange (path : String)
  | unresolved (expression : String) (error : FormatError)
deriving DecidableEq

def cycleText (cycle : List String) : String :=
  "Alias cycle: " ++ " -> ".intercalate cycle

namespace Problem

def kind : Problem → DiagnosticKind
  | .aliasCycle .. => .aliasCycle
  | .collectionPath .. | .collectionMissing .. | .notACollection .. | .openRange .. => .planning
  | .unresolved .. => .resolution
  | _ => .parse

def message : Problem → String
  | .literalExpression text error =>
    s!"Treating '{String.ofList text}' as literal text: {error.message}"
  | .optionNotANumber key value => s!"Ignoring non-integer {key} '{String.ofList value}'"
  | .negativeOption key number => s!"Ignoring negative {key} {number}"
  | .unknownOption option => s!"Unknown #foreach option '{String.ofList option}'"
  | .directivePath keyword error => s!"Skipping #{keyword}: {error.message}"
  | .malformedAlias body => s!"Malformed #alias '{String.ofList body}'"
  | .unknownDirective keyword => s!"Unknown directive '#{String.ofList keyword}'"
  | .aliasPath name error => s!"Alias '{name}': {error.message}"
  | .aliasCycle name cycle => s!"Dropping alias '{name}': {cycleText cycle}"
  | .collectionPath path failure =>
    s!"Cannot resolve collection '{path}': {failure.message}"
  | .collectionMissing path => s!"Collection '{path}' not found; treating as empty"
  | .notACollection path => s!"'{path}' is not a collection; treating as empty"
  | .openRange path =>
    s!"#range-begin: {path} has no matching #range-end; the range runs to the last slide"
  | .unresolved expression error => s!"Failed to resolve {expression}: {error.message}"

end Problem

structure Diagnostic where
  problem : Problem
  slide : Option Int
deriving DecidableEq

namespace Diagnostic

def kind (diagnostic : Diagnostic) : DiagnosticKind :=
  diagnostic.problem.kind

/-- The wording of a diagnostic, without its slide. -/
def message (diagnostic : Diagnostic) : String :=
  diagnostic.problem.message

def text (diagnostic : Diagnostic) : String :=
  let place := match diagnostic.slide with
    | some slide => s!" (slide {slide})"
    | none => ""
  s!"[{diagnostic.kind.label}]{place} {diagnostic.message}"

end Diagnostic

end DeckBinding
