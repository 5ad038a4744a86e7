import DeckBinding.Template.Basic
import DeckBinding.Text.Removal

set_option autoImplicit false

namespace DeckBinding

structure Box where
  left : Int
  top : Int
  width : Int
  height : Int
deriving DecidableEq

abbrev Paragraphs := List (List (List Char))

inductive ShapeBody where
  | text (paragraphs : Paragraphs) (link : Option String)
  | table (rows : List (List Paragraphs))
  | picture (width height : Nat)
  | line
  | group

namespace ShapeBody

/-- The paragraphs of a shape; the cells of a table one after another, row by row. -/
def paragraphs : ShapeBody → Paragraphs
  | .text paragraphs _ => paragraphs
  | .table rows => rows.flatten.flatten
  | _ => []

/-- Cells of the same sizes with other paragraphs. -/
def refillCells : List Paragraphs → Paragraphs → List Paragraphs
  | [], _ => []
  | cell :: rest, paragraphs =>
    paragraphs.take cell.length :: refillCells rest (paragraphs.drop cell.length)

def refillRows : List (List Paragraphs) → Paragraphs → List (List Paragraphs)
  | [], _ => []
  | row :: rest, paragraphs =>
    refillCells row paragraphs :: refillRows rest (paragraphs.drop row.flatten.length)

def withParagraphs (body : ShapeBody) (paragraphs : Paragraphs) : ShapeBody :=
  match body with
  | .text _ link => .text paragraphs link
  | .table rows => .table (refillRows rows paragraphs)
  | body => body

theorem flatten_refillCells (cells : List Paragraphs) (paragraphs : Paragraphs) :
    (refillCells cells paragraphs).flatten = paragraphs.take cells.flatten.length := by
  induction cells generalizing paragraphs with
  | nil => simp [refillCells]
  | cons cell rest ih =>
    simp only [refillCells, List.flatten_cons, ih, List.length_append, List.take_add]

theorem flatten_refillRows (rows : List (List Paragraphs)) (paragraphs : Paragraphs) :
    (refillRows rows paragraphs).flatten.flatten = paragraphs.take rows.flatten.flatten.length := by
  induction rows generalizing paragraphs with
  | nil => simp [refillRows]
  | cons row rest ih =>
    simp only [refillRows, List.flatten_cons, List.flatten_append, ih, flatten_refillCells,
      List.length_append, List.take_add]

/-- New paragraphs are read back when there are as many as before. -/
theorem paragraphs_withParagraphs (body : ShapeBody) {paragraphs : Paragraphs}
    (same : paragraphs.length = body.paragraphs.length) :
    (body.withParagraphs paragraphs).paragraphs = paragraphs := by
  cases body with
  | text old link => rfl
  | table rows =>
    change (refillRows rows paragraphs).flatten.flatten = paragraphs
    have enough : paragraphs.length ≤ rows.flatten.flatten.length := Nat.le_of_eq same
    rw [flatten_refillRows, List.take_of_length_le enough]
  | picture width height => exact (List.eq_nil_of_length_eq_zero same).symm
  | line => exact (List.eq_nil_of_length_eq_zero same).symm
  | group => exact (List.eq_nil_of_length_eq_zero same).symm

end ShapeBody

/-- A shape of a slide. Its number differs from those of the other shapes on the slide. -/
structure Shape where
  number : Nat
  name : String
  hidden : Bool
  box : Box
  body : ShapeBody

namespace Shape

def paragraphs (shape : Shape) : Paragraphs := shape.body.paragraphs

def withParagraphs (shape : Shape) (paragraphs : Paragraphs) : Shape :=
  { shape with body := shape.body.withParagraphs paragraphs }

/-- Takes a token out of every run of a shape. -/
def clear (shape : Shape) (token : List Char) : Shape :=
  shape.withParagraphs (shape.paragraphs.map fun runs => runs.map (Text.remove token))

def setRun? (shape : Shape) (paragraph run : Nat) (text : List Char) : Option Shape :=
  match shape.paragraphs[paragraph]? with
  | none => none
  | some runs =>
    if run < runs.length then
      some (shape.withParagraphs (shape.paragraphs.set paragraph (runs.set run text)))
    else none

def says? (shape : Shape) (index : Nat) : Option TextShape :=
  if shape.paragraphs.isEmpty then none
  else some ⟨index, shape.name, shape.paragraphs⟩

theorem paragraphs_clear (shape : Shape) (token : List Char) :
    (shape.clear token).paragraphs =
      shape.paragraphs.map fun runs => runs.map (Text.remove token) :=
  ShapeBody.paragraphs_withParagraphs _ (List.length_map ..)

end Shape

end DeckBinding
