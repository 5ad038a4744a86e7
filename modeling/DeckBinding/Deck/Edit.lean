import DeckBinding.Configuration.Basic
import DeckBinding.Deck.Placement
import DeckBinding.Deck.RunText
import DeckBinding.Resolution.Outcome
import DeckBinding.Warning

set_option autoImplicit false

namespace DeckBinding

open DeckBinding.Number DeckBinding.Text

inductive PictureError where
  | unreadable (error : FileError)
  | unidentified (path : String)
  | size (error : FitError)
deriving DecidableEq

def PictureError.message : PictureError → String
  | .unreadable error => error.message
  | .unidentified path => s!"cannot identify image file {quotedString path}"
  | .size error => error.message

inductive DeckError where
  | hideMode (given : String)
  | templateNotFound (path : String)
  | unreadable (error : FileError)
  | notADeck (path : String)
  | folderOfParts (path : String)
  | noShape (slide index : Int) (count : Nat)
  | noRun (shape : String) (paragraph run : Int)
  | runText (error : RunTextError)
  | noSlide
  | notInDeck
  | picture (path : String) (error : PictureError)
  | saving (path : String) (error : FileError)
  | numeral (error : NumeralError)

def DeckError.message : DeckError → String
  | .hideMode given => HideMode.refusal given
  | .templateNotFound path => s!"Template not found: {path}"
  | .unreadable error => error.message
  | .notADeck path => s!"Cannot open template {path}: Package not found at '{path}'"
  | .folderOfParts path =>
    s!"Cannot open template {path}: \"no member '/[Content_Types].xml' in package\""
  | .noShape slide index count => s!"Slide {slide} has no shape {index} ({count} shape(s))"
  | .noRun shape paragraph run => s!"Shape '{shape}' has no run ({paragraph}, {run})"
  | .runText error => error.message
  | .noSlide => "slide index out of range"
  | .notInDeck => "Slide is not in the presentation: matching slide_part not found"
  | .picture path error => s!"Failed to place image {path}: {error.message}"
  | .saving path error => s!"Failed to save presentation to {path}: {error.message}"
  | .numeral error => error.message

/-- The place that an index names in a list of a length: an index below zero counts from the end. -/
def placeOf? (length : Nat) (index : Int) : Option Nat :=
  let place := if index < 0 then index + length else index
  if 0 ≤ place && place < length then some place.toNat else none

/-- The length of a pixel: 72 of them make an inch, which has 914400 units. -/
def unitsPerPixel : Nat := 12700

def pictureSize (store : FileStore) (path : Location) : Except PictureError (Nat × Nat) :=
  let place := store.current.resolve path
  match store.read place with
  | .ok (.image width height) => .ok (width, height)
  | .ok _ => .error (.unidentified place.text)
  | .error error => .error (.unreadable error)

/-- The place of a picture over a box: scaled to fit, or of its own size at the corner of the box
when nothing of it would be left. -/
def pictureBox (width height : Nat) (box : Box) : Except PictureError Box :=
  match fitWithin width height box with
  | .error error => .error (.size error)
  | .ok fitted =>
    if fitted.width != 0 && fitted.height != 0 then .ok fitted
    else .ok { fitted with width := width * unitsPerPixel, height := height * unitsPerPixel }

namespace Slide

def shapeAt (slide : Slide) (index : Int) : Except DeckError (Nat × Shape) :=
  if index < 0 then .error (.noShape slide.id index slide.shapes.length)
  else
    match slide.shapes[index.toNat]? with
    | some shape => .ok (index.toNat, shape)
    | none => .error (.noShape slide.id index slide.shapes.length)

def setShape (slide : Slide) (index : Nat) (shape : Shape) : Slide :=
  { slide with shapes := slide.shapes.set index shape }

def hide (slide : Slide) (mode : HideMode) (index : Int) : Except DeckError Slide := do
  let (index, shape) ← slide.shapeAt index
  match mode with
  | .remove => .ok { slide with shapes := slide.shapes.eraseIdx index }
  | .blank => .ok (slide.setShape index { shape with hidden := true })

/-- Gives a run of the shape at a place a new text, as a deck holds it. -/
def setRun (slide : Slide) (index paragraph run : Int) (text : List Char) :
    Except DeckError Slide := do
  let (index, shape) ← slide.shapeAt index
  let changed := do
    let paragraph ← placeOf? shape.paragraphs.length paragraph
    let runs ← shape.paragraphs[paragraph]?
    let run ← placeOf? runs.length run
    shape.setRun? paragraph run (heldText text)
  match changed, runTextError? text with
  | none, _ => .error (.noRun shape.name paragraph run)
  | some _, some error => .error (.runText error)
  | some shape, none => .ok (slide.setShape index shape)

/-- Appends a picture. Its number is the next one on the slide. -/
def addPicture (slide : Slide) (width height : Nat) (box : Box) : Slide :=
  let last := slide.shapes.foldl (fun last shape => max last shape.number) 1
  let picture : Shape :=
    ⟨last + 1, s!"Picture {last}", false, box, .picture width height⟩
  { slide with shapes := slide.shapes ++ [picture] }

/-- Where the picture of a call lies: its first argument as a path, seen from a folder. -/
def picturePath (assets : Location) (argument : Value) : Except DeckError Location :=
  match argument.display with
  | .ok path => .ok (assets.join (.ofText path))
  | .error error => .error (.numeral error)

/-- Carries out a call on a slide whose shape with the call has this box: `Image` appends a picture
over the box; any other function, and a picture that is not there, only leaves a warning. -/
def carryOut (slide : Slide) (box : Box) (call : Deferred) (assets : Location)
    (store : FileStore) : Except DeckError (Slide × List Warning) :=
  if lowerString call.name != "image" then
    .ok (slide, [.unsupportedFunction call.name slide.id])
  else
    match call.arguments with
    | [] => .ok (slide, [.imageWithoutPath slide.id])
    | argument :: _ => do
      let path ← picturePath assets argument
      match store.contains path with
      | .error error => .error (.unreadable error)
      | .ok false => .ok (slide, [.imageNotFound path.text])
      | .ok true =>
        match pictureSize store path with
        | .error error => .error (.picture path.text error)
        | .ok (width, height) =>
          match pictureBox width height box with
          | .error error => .error (.picture path.text error)
          | .ok place => .ok (slide.addPicture width height place, [])

/-- Takes the token of a call out of the shape that holds it and carries the call out. The token is
gone also when the call fails. -/
def place (slide : Slide) (index : Int) (call : Deferred) (assets : Location)
    (store : FileStore) : Except DeckError (List Warning) × Slide :=
  match slide.shapeAt index with
  | .error error => (.error error, slide)
  | .ok (index, shape) =>
    let cleared := slide.setShape index (shape.clear call.token.toList)
    match cleared.carryOut shape.box call assets store with
    | .error error => (.error error, cleared)
    | .ok (changed, warnings) => (.ok warnings, changed)

end Slide

namespace Deck

def ofFile (store : FileStore) (path : Location) : Except DeckError Deck :=
  match store.contains path with
  | .error error => .error (.unreadable error)
  | .ok false => .error (.templateNotFound path.text)
  | .ok true =>
    match store.read path with
    | .ok (.deck slides) => .ok (ofSlides slides)
    | .error (.isAFolder _) => .error (.folderOfParts path.text)
    | _ => .error (.notADeck path.text)

/-- Saves a deck in a file, and makes the folder for it. -/
def save (deck : Deck) (store : FileStore) (path : Location) :
    Except DeckError Unit × FileStore :=
  match store.write path (.deck deck.toSlides) with
  | (.ok _, store) => (.ok (), store)
  | (.error error, store) => (.error (.saving path.text error), store)

def slideAt (deck : Deck) (index : Int) : Except DeckError (Handle × Slide) :=
  match (placeOf? deck.slides.length index).bind fun place => deck.slides[place]? with
  | some entry => .ok entry
  | none => .error .noSlide

def firstId : Int := 256

/-- The number of a new slide: above those of all slides. -/
def nextId (deck : Deck) : Int :=
  deck.toSlides.foldl (fun next slide => max next (slide.id + 1)) firstId

def copyOf (slide : Slide) (id : Int) : Slide :=
  { slide with id, notes := slide.notes.copy }

/-- Appends a copy of a slide, or puts it at a position, the nearest there is. -/
def clone (deck : Deck) (source : Slide) (position : Option Int) : Deck :=
  let entry := (deck.next, copyOf source deck.nextId)
  let slides :=
    match position with
    | none => deck.slides ++ [entry]
    | some position => deck.slides.insertIdx (min position.toNat deck.slides.length) entry
  { deck with slides, next := deck.next + 1 }

def set (deck : Deck) (handle : Handle) (slide : Slide) : Deck :=
  { deck with slides := deck.slides.map fun entry =>
      if entry.1 = handle then (handle, slide) else entry }

def remove (deck : Deck) (handle : Handle) : Except DeckError Deck :=
  match Keyed.get? handle deck.slides with
  | some slide =>
    .ok { deck with
      slides := Keyed.remove handle deck.slides
      removed := Keyed.put handle slide deck.removed }
  | none => .error .notInDeck

end Deck

end DeckBinding
