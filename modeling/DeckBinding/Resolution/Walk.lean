import DeckBinding.Keyed
import DeckBinding.Path.Walk
import DeckBinding.Resolution.Outcome

set_option autoImplicit false

namespace DeckBinding

open DeckBinding.Number

/-- The elements that contexts led to, by the text of the context. -/
abbrev ContextCache := List (String × Option Value)

def ContextSegment.from? (segment : ContextSegment) (value : Option Value) :
    Except NumeralError (Option Value) :=
  match Path.readAbsolute segment.name.toList with
  | .error (.malformed _) => .ok none
  | .error (.numeral error) => .error error
  | .ok path => .ok do
    let collection ← path.from? (← value)
    collection.item? segment.index

/-- The element that the first segments of a context lead to, looked up first among those found
before. -/
def contextElement (root : Value) (context : ContextPath) :
    Nat → ContextCache → Except NumeralError (Option Value) × ContextCache
  | 0, cache => (.ok (some root), cache)
  | depth + 1, cache =>
    match context[depth]?, ContextPath.text (context.take (depth + 1)) with
    | none, _ => (.ok none, cache)
    | some _, .error error => (.error error, cache)
    | some segment, .ok key =>
      match Keyed.get? key cache with
      | some element => (.ok element, cache)
      | none =>
        match contextElement root context depth cache with
        | (.error error, cache) => (.error error, cache)
        | (.ok parent, cache) =>
          match segment.from? parent with
          | .error error => (.error error, cache)
          | .ok element => (.ok element, Keyed.put key element cache)

/-- The names of steps with points between them. -/
def stepNames (steps : List Step) : String :=
  ".".intercalate (steps.map fun step => step.segment.name)

def endsPinned (steps : List Step) : Bool :=
  match steps.getLast? with
  | some step => step.segment.index.isSome
  | none => false

/-- How many parts of a path, cut at `>`, are the collections of a context. The last part is
none. -/
def sharedDepth : List (List Step) → ContextPath → Nat
  | chunk :: next :: more, segment :: context =>
    if endsPinned chunk || stepNames chunk != segment.name then 0
    else sharedDepth (next :: more) context + 1
  | _, _ => 0

namespace Instance

/-- The index a `>` selects of a collection: that of the context, or the offset of the instance. -/
def selectedIndex? (shown : Instance) (collection : String) : Option Int :=
  match shown.context.find? fun segment => segment.name == collection with
  | some segment => some segment.index
  | none => if shown.collection = some collection then some shown.offset else none

/-- An index into a collection, shifted when it is the collection of the instance. -/
def shiftedIndex (shown : Instance) (collection : String) (index : Nat) : Int :=
  if shown.collection = some collection then index + shown.offset else index

end Instance

/-- Goes from a collection to its current element, unless the step to it selected one. -/
def crossContext (shown : Instance) (step : Step) (value : Value) : Except Absence Value :=
  if step.segment.index.isSome then .ok value
  else match shown.selectedIndex? step.key with
    | none => .error (.noIteration step.key)
    | some index =>
      match value.item? index with
      | none => .error (.noElement step.key index)
      | some element => .ok element

/-- Goes one step of a path. `behind` is the key of the step before, and `path` the whole path. -/
def takeStep (shown : Instance) (path behind : String) (step : Step) (value : Value) :
    Except Absence Value :=
  match value with
  | .null => .error (.emptyParent behind)
  | value =>
    match value.member? step.segment.name with
    | none => .error (.noMember step.segment.name path)
    | some found =>
      match step.segment.index with
      | none => .ok found
      | some index =>
        let shifted := shown.shiftedIndex step.key index
        match found.item? shifted with
        | none => .error (.outOfRange shifted step.key)
        | some element => .ok element

def takeSteps (shown : Instance) (path : String) (before : Step) :
    List Step → Value → Except Absence Value
  | [], value => .ok value
  | step :: rest, value => do
    let value ← if step.join = some .context then crossContext shown before value else .ok value
    let value ← takeStep shown path before.key step value
    takeSteps shown path step rest value

/-- Goes on with a path from the element of the context that its first `depth` parts stand for. -/
def Path.continueFrom (path : Path) (shown : Instance) (depth : Nat) (element : Value) :
    Except Absence Value :=
  let behind := match (path.chunks.take depth).flatten.getLast? with
    | some step => step.key
    | none => ""
  match (path.chunks.drop depth).flatten with
  | [] => .ok element
  | step :: rest => do
    let value ← takeStep shown path.text behind step element
    takeSteps shown path.text step rest value

/-- The value a path leads to on a slide of the result, or why it leads to none. -/
def resolvePath (root : Value) (path : Path) (shown : Instance) (cache : ContextCache) :
    Except NumeralError (Except Absence Value) × ContextCache :=
  let depth := sharedDepth path.chunks shown.context
  match contextElement root shown.context depth cache with
  | (.error error, cache) => (.error error, cache)
  | (.ok none, cache) => (.ok (.error (.noContextElement (shown.context.take depth))), cache)
  | (.ok (some element), cache) => (.ok (path.continueFrom shown depth element), cache)

end DeckBinding
