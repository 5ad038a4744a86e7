import DeckBinding.Alias.Table
import DeckBinding.Expression.Reading
import DeckBinding.Format.Value
import DeckBinding.Resolution.Walk
import DeckBinding.Value.Plain

set_option autoImplicit false

namespace DeckBinding

open DeckBinding.Number

structure Resolver where
  root : Value
  aliases : AliasTable
  plainsQuotes : Bool

/-- What is kept between resolutions: elements found, the number of calls left to the document, and
the problems met. -/
structure ResolverState where
  cache : ContextCache
  issued : Nat
  diagnostics : List Diagnostic

namespace ResolverState

def start : ResolverState := ⟨[], 0, []⟩

/-- The state without the elements found. -/
def clear (state : ResolverState) : ResolverState :=
  { state with cache := [] }

/-- The texts of the contexts whose elements were found, in order. -/
def cachedContexts (state : ResolverState) : List String :=
  (state.cache.map (·.1)).mergeSort fun left right => left ≤ right

def record (state : ResolverState) (problem : Problem) (slide : Int) : ResolverState :=
  { state with diagnostics := state.diagnostics ++ [⟨problem, some slide⟩] }

end ResolverState

/-- Why an expression has no text: its value is absent for a reason, or cannot be written. -/
inductive Obstacle where
  | absent (reason : String)
  | failed (error : FormatError)

namespace Resolver

/-- A resolver for data with records and tuples taken as mappings and lists. -/
def ofData (data : Value) (aliases : AliasTable) (plainsQuotes : Bool) : Resolver :=
  ⟨data.plain, aliases, plainsQuotes⟩

def valueOf (resolver : Resolver) (path : Path) (shown : Instance) (cache : ContextCache) :
    Except Obstacle Value × ContextCache :=
  match resolvePath resolver.root path shown cache with
  | (.error error, cache) => (.error (.failed (.numeral error)), cache)
  | (.ok (.ok value), cache) => (.ok value, cache)
  | (.ok (.error absence), cache) =>
    match absence.reason with
    | .ok reason => (.error (.absent reason), cache)
    | .error error => (.error (.failed (.numeral error)), cache)

/-- The values of the arguments of a call, up to the first one that has none. -/
def argumentValues (resolver : Resolver) (shown : Instance) :
    List Argument → ContextCache → Except Obstacle (List Value) × ContextCache
  | [], cache => (.ok [], cache)
  | .literal text :: rest, cache =>
    let (values, cache) := resolver.argumentValues shown rest cache
    (values.map (.text text :: ·), cache)
  | .path path :: rest, cache =>
    match resolver.valueOf path shown cache with
    | (.error obstacle, cache) => (.error obstacle, cache)
    | (.ok value, cache) =>
      let (values, cache) := resolver.argumentValues shown rest cache
      (values.map (value :: ·), cache)

/-- The outcome for an expression that has no text. A failure is recorded and hides its shape. -/
def obstructed (expression : Expression) (shown : Instance) (obstacle : Obstacle)
    (state : ResolverState) : Resolution × ResolverState :=
  match obstacle with
  | .absent reason => (.hidden reason, state)
  | .failed error =>
    (.hidden s!"error: {error.message}",
      state.record (.unresolved expression.text error) shown.slide)

/-- The token of a call: its name and its number, counted from zero. -/
def token (name : String) (number : Nat) : String :=
  s!"[[{name}#{number}]]"

def resolveExpanded (resolver : Resolver) (expression : Expression) (shown : Instance)
    (state : ResolverState) : Resolution × ResolverState :=
  match expression.source with
  | .path path =>
    let (found, cache) := resolver.valueOf path shown state.cache
    let state := { state with cache }
    match found with
    | .error obstacle => obstructed expression shown obstacle state
    | .ok value =>
      match value.format expression.format with
      | .ok text => (.value text, state)
      | .error error => obstructed expression shown (.failed error) state
  | .call call =>
    let (found, cache) := resolver.argumentValues shown call.arguments state.cache
    let state := { state with cache }
    match found with
    | .error obstacle => obstructed expression shown obstacle state
    | .ok arguments =>
      (.call ⟨call.name, call.owner, arguments, token call.name state.issued, expression.format⟩,
        { state with issued := state.issued + 1 })

def resolve (resolver : Resolver) (expression : Expression) (shown : Instance)
    (state : ResolverState) : Resolution × ResolverState :=
  resolver.resolveExpanded (resolver.aliases.expandExpression expression) shown state

/-- Fills the pieces of a text from left to right. A complete expression that cannot be read stays,
and is noted. -/
def fill (resolver : Resolver) (shown : Instance) :
    List Piece → ResolverState → Except NumeralError (List Filling) × ResolverState
  | [], state => (.ok [], state)
  | .plain c :: rest, state =>
    let (fillings, state) := resolver.fill shown rest state
    (fillings.map (.kept [c] :: ·), state)
  | .bound body :: rest, state =>
    match Reading.ofBody body with
    | .error error => (.error error, state)
    | .ok (.literal text error) =>
      let (fillings, state) := resolver.fill shown rest
        (state.record (.literalExpression text error) shown.slide)
      (fillings.map (.kept text :: ·), state)
    | .ok (.parsed expression) =>
      let (resolution, state) := resolver.resolve expression shown state
      let (fillings, state) := resolver.fill shown rest state
      (fillings.map (.filled resolution :: ·), state)

/-- Replaces every complete expression of a text. -/
def resolveText (resolver : Resolver) (text : List Char) (shown : Instance)
    (state : ResolverState) : Except NumeralError TextResolution × ResolverState :=
  let text := if resolver.plainsQuotes then withPlainQuotes text else text
  let (fillings, state) := resolver.fill shown (pieces text) state
  (fillings.map TextResolution.ofFillings, state)

end Resolver

end DeckBinding
