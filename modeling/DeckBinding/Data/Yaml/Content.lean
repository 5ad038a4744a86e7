import DeckBinding.Data.Yaml.Node
import DeckBinding.Data.Yaml.Scalar

set_option autoImplicit false

namespace DeckBinding.Yaml.Node

def scalarValue (plain : Bool) (text : List Char) : Except Failure Value :=
  if plain then plainValue text else .ok (.text (String.ofList text))

/-- The value of the key of a member. The mark of default values is a key like any other, and a
collection is none. -/
def keyValue : Node → Except Failure Value
  | .scalar plain text =>
    if plain && text == ['='] then .ok (.text "=") else scalarValue plain text
  | _ => .error .malformed

/-- The failure of a node by itself, without what is inside. -/
def ownFailure? : Node → Option Failure
  | .scalar plain text =>
    match scalarValue plain text with
    | .ok _ => none
    | .error failure => some failure
  | _ => none

def keyFailure? (node : Node) : Option Failure :=
  match node.keyValue with
  | .ok _ => none
  | .error failure => some failure

/-- The first failure in a node at a depth. Keys fail together with the values of their members. -/
def failureAt? : Nat → Node → Option Failure
  | 0, node => node.ownFailure?
  | depth + 1, .sequence items => items.findSome? (failureAt? depth)
  | depth + 1, .mapping members => members.findSome? fun (key, value) =>
    (if depth = 0 then key.keyFailure? else none).or (failureAt? depth value)
  | _ + 1, .scalar .. => none

mutual

def height : Node → Nat
  | .scalar .. => 1
  | .sequence items => heightOfItems items + 1
  | .mapping members => heightOfMembers members + 1

def heightOfItems : List Node → Nat
  | [] => 0
  | item :: rest => max (height item) (heightOfItems rest)

def heightOfMembers : List (Node × Node) → Nat
  | [] => 0
  | (_, value) :: rest => max (height value) (heightOfMembers rest)

end

/-- The first failure in a node, level by level. -/
def failure? (node : Node) : Option Failure :=
  (List.range node.height).findSome? fun depth => node.failureAt? depth

mutual

def value : Node → Except Failure Value
  | .scalar plain text => scalarValue plain text
  | .sequence items => do .ok (.list (← itemValues items))
  | .mapping members => do .ok (.map (Entries.ofList (← memberValues members)))

def itemValues : List Node → Except Failure (List Value)
  | [] => .ok []
  | item :: rest => do
    let first ← value item
    .ok (first :: (← itemValues rest))

def memberValues : List (Node × Node) → Except Failure (List (Value × Value))
  | [] => .ok []
  | (key, member) :: rest => do
    let key ← key.keyValue
    let first ← value member
    .ok ((key, first) :: (← memberValues rest))

end

def content (node : Node) : Except Failure Value :=
  match node.failure? with
  | some failure => .error failure
  | none => node.value

end DeckBinding.Yaml.Node
