import DeckBinding.Expression.Scan
import DeckBinding.Paragraph.Redistribution
import DeckBinding.Resolution.Outcome

set_option autoImplicit false

namespace DeckBinding

open DeckBinding.Number

def opensExpression : List Char → Bool
  | '$' :: '\x7b' :: _ => true
  | _ :: rest => opensExpression rest
  | [] => false

/-- The start and end of each run in its paragraph, when the first one starts at a position. -/
def runBounds (start : Nat) : List (List Char) → List (Nat × Nat)
  | [] => []
  | run :: rest => (start, start + run.length) :: runBounds (start + run.length) rest

def coveredRuns (bounds : List (Nat × Nat)) (span : Nat × Nat) : List Nat :=
  (bounds.zipIdx.filter fun (bound, _) => span.1 < bound.2 && bound.1 < span.2).map (·.2)

/-- The first and last run that a span reaches into, when there is more than one. -/
def joinedRuns? (bounds : List (Nat × Nat)) (span : Nat × Nat) : Option (Nat × Nat) :=
  match coveredRuns bounds span with
  | first :: second :: more => some (first, (second :: more).getLastD second)
  | _ => none

/-- Joins ranges of runs, in order of their starts, that share a run. -/
def mergeRanges : List (Nat × Nat) → List (Nat × Nat)
  | [] => []
  | range :: rest => absorb range rest
where
  /-- Joins a range with those behind it. -/
  absorb (range : Nat × Nat) : List (Nat × Nat) → List (Nat × Nat)
    | [] => [range]
    | next :: rest =>
      if next.1 ≤ range.2 then absorb (range.1, max next.2 range.2) rest
      else range :: absorb next rest

/-- How a run is resolved: it stays as it is, it is resolved alone, or it is resolved as part of
several runs that an expression joins. -/
inductive RunGroup where
  | kept (run : List Char)
  | alone (run : List Char)
  | joined (runs : List (List Char))
deriving DecidableEq

namespace RunGroup

def alone? : RunGroup → Option (List Char)
  | .alone run => some run
  | _ => none

def joined? : RunGroup → Option (List Char)
  | .joined runs => some runs.flatten
  | _ => none

def size : RunGroup → Nat
  | .joined runs => runs.length
  | _ => 1

end RunGroup

/-- The groups of the runs of a paragraph, in order. Without a complete expression in the paragraph
every run stays. -/
def runGroups (runs : List (List Char)) : List RunGroup :=
  let spans := expressionSpans runs.flatten
  if spans.isEmpty then runs.map .kept
  else
    let ranges := mergeRanges (spans.filterMap (joinedRuns? (runBounds 0 runs)))
    runs.zipIdx.flatMap fun (run, position) =>
      match ranges.find? fun (first, last) => first ≤ position && position ≤ last with
      | some (first, last) =>
        if first = position then [.joined ((runs.drop first).take (last + 1 - first))] else []
      | none => if opensExpression run then [.alone run] else [.kept run]

/-- The texts to be resolved, in order: single runs, then runs that expressions join. -/
def groupTexts (groups : List RunGroup) : List (List Char) :=
  groups.filterMap RunGroup.alone? ++ groups.filterMap RunGroup.joined?

def mergeSpans : List (Nat × Nat) → List (Nat × Nat)
  | [] => []
  | span :: rest => absorb span rest
where
  /-- Joins a span with those behind it. -/
  absorb (span : Nat × Nat) : List (Nat × Nat) → List (Nat × Nat)
    | [] => [span]
    | next :: rest =>
      if next.1 < span.2 then absorb (span.1, max next.2 span.2) rest
      else span :: absorb next rest

/-- The parts of a resolved text that stay whole: what stands for expressions, and expressions that
stayed literal. -/
def wholeSpans (resolution : TextResolution) : List (Nat × Nat) :=
  mergeSpans ((resolution.spans ++ expressionSpans resolution.text).mergeSort fun left right =>
    left.1 < right.1 || (left.1 == right.1 && left.2 ≤ right.2))

def spread (runs : List (List Char)) (resolution : TextResolution) : List (List Char) :=
  redistribute resolution.text (runs.map fun run => (run.length : Int))
    ((wholeSpans resolution).map fun (start, stop) => ((start : Int), (stop : Int)))

/-- The texts of the runs, given what their groups resolved to: first the single runs, then the
joined ones, each in order. -/
def assemble : List RunGroup → List TextResolution → List TextResolution → List (List Char)
  | [], _, _ => []
  | .kept run :: rest, alone, joined => run :: assemble rest alone joined
  | .alone _ :: rest, resolution :: alone, joined => resolution.text :: assemble rest alone joined
  | .alone run :: rest, [], joined => run :: assemble rest [] joined
  | .joined runs :: rest, alone, resolution :: joined =>
    spread runs resolution ++ assemble rest alone joined
  | .joined runs :: rest, alone, [] => runs ++ assemble rest alone []

/-- The runs of a paragraph with their expressions replaced. -/
structure Reconciled where
  texts : List (List Char)
  reasons : List String
  deferred : List Deferred

def Reconciled.hidden (reconciled : Reconciled) : Bool :=
  !reconciled.reasons.isEmpty

def resolveTexts {σ : Type}
    (resolveText : List Char → σ → Except NumeralError TextResolution × σ) :
    List (List Char) → σ → Except NumeralError (List TextResolution) × σ
  | [], state => (.ok [], state)
  | text :: rest, state =>
    match resolveText text state with
    | (.error error, state) => (.error error, state)
    | (.ok resolution, state) =>
      let (further, state) := resolveTexts resolveText rest state
      (further.map (resolution :: ·), state)

/-- Resolves the expressions of a paragraph that is given in runs, so that there are as many runs
afterwards. -/
def reconcile {σ : Type} (resolveText : List Char → σ → Except NumeralError TextResolution × σ)
    (runs : List (List Char)) (state : σ) : Except NumeralError Reconciled × σ :=
  let groups := runGroups runs
  let (found, state) := resolveTexts resolveText (groupTexts groups) state
  let reconciled := found.map fun resolutions =>
    let count := (groups.filterMap RunGroup.alone?).length
    { texts := assemble groups (resolutions.take count) (resolutions.drop count)
      reasons := resolutions.flatMap (·.reasons)
      deferred := resolutions.flatMap (·.deferred) : Reconciled }
  (reconciled, state)

end DeckBinding
