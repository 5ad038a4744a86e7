import DeckBinding.Data.JsonText
import DeckBinding.Deck.Basic
import DeckBinding.Value.Access

set_option autoImplicit false

namespace DeckBinding

def mapOf (members : List (String × Value)) : Value :=
  .map (members.map fun (name, value) => (.text name, value))

namespace Value

def text? : Value → Option (List Char)
  | .text s => some s.toList
  | _ => none

def int? : Value → Option Int
  | .int n => some n
  | _ => none

def nat? (value : Value) : Option Nat := value.int?.bind Int.toNat?

def bool? : Value → Option Bool
  | .bool b => some b
  | _ => none

def each? {α : Type} (read : Value → Option α) (value : Value) : Option (List α) :=
  value.items?.bind fun items => items.mapM read

end Value

namespace Paragraphs

def document (paragraphs : Paragraphs) : Value :=
  .list (paragraphs.map fun runs => .list (runs.map fun run => .text (String.ofList run)))

def ofDocument? : Value → Option Paragraphs :=
  Value.each? (Value.each? Value.text?)

end Paragraphs

namespace ShapeBody

def members : ShapeBody → List (String × Value)
  | .text paragraphs link =>
    [("kind", .text "text"), ("paragraphs", Paragraphs.document paragraphs),
      ("link", (link.map Value.text).getD .null)]
  | .table rows =>
    [("kind", .text "table"),
      ("rows", .list (rows.map fun row => .list (row.map Paragraphs.document)))]
  | .picture width height =>
    [("kind", .text "picture"), ("pixels", .list [.int width, .int height])]
  | .line => [("kind", .text "line")]
  | .group => [("kind", .text "group")]

def ofDocument? (value : Value) : Option ShapeBody := do
  match ← (← value.member? "kind").text? with
  | ['t', 'e', 'x', 't'] =>
    let paragraphs ← Paragraphs.ofDocument? (← value.member? "paragraphs")
    let link := (value.member? "link").bind Value.text?
    some (.text paragraphs (link.map String.ofList))
  | ['t', 'a', 'b', 'l', 'e'] =>
    (Value.each? (Value.each? Paragraphs.ofDocument?) (← value.member? "rows")).map .table
  | ['p', 'i', 'c', 't', 'u', 'r', 'e'] =>
    match ← Value.each? Value.nat? (← value.member? "pixels") with
    | [width, height] => some (.picture width height)
    | _ => none
  | ['l', 'i', 'n', 'e'] => some .line
  | _ => some .group

end ShapeBody

namespace Shape

def document (shape : Shape) : Value :=
  mapOf ([("number", .int shape.number), ("name", .text shape.name), ("hidden", .bool shape.hidden),
    ("box", .list [.int shape.box.left, .int shape.box.top, .int shape.box.width,
      .int shape.box.height])] ++ shape.body.members)

def ofDocument? (value : Value) : Option Shape := do
  let number ← (← value.member? "number").nat?
  let name ← (← value.member? "name").text?
  let hidden ← (← value.member? "hidden").bool?
  let body ← ShapeBody.ofDocument? value
  match ← Value.each? Value.int? (← value.member? "box") with
  | [left, top, width, height] =>
    some ⟨number, String.ofList name, hidden, ⟨left, top, width, height⟩, body⟩
  | _ => none

end Shape

namespace Notes

/-- Notes as a document: null without a notes page, false without a text on it. -/
def document : Notes → Value
  | .absent => .null
  | .textless => .bool false
  | .text content => .text (String.ofList content)

def ofDocument : Value → Notes
  | .text content => .text content.toList
  | .bool _ => .textless
  | _ => .absent

end Notes

namespace Slide

def document (slide : Slide) : Value :=
  mapOf [("id", .int slide.id), ("shapes", .list (slide.shapes.map Shape.document)),
    ("notes", slide.notes.document), ("background", .bool slide.background)]

def ofDocument? (value : Value) : Option Slide := do
  let id ← (← value.member? "id").int?
  let shapes ← Value.each? Shape.ofDocument? (← value.member? "shapes")
  let background ← (← value.member? "background").bool?
  some ⟨id, shapes, .ofDocument ((value.member? "notes").getD .null), background⟩

end Slide

def deckText (slides : List Slide) : String :=
  String.ofList (Json.write (mapOf [("deck", .list (slides.map Slide.document))]))

/-- The slides in a deck file; none when the text is no deck. -/
def readDeck? (text : String) : Option (List Slide) :=
  match Json.read text.toList with
  | .ok value => (value.member? "deck").bind (Value.each? Slide.ofDocument?)
  | .error _ => none

end DeckBinding
