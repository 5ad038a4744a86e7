set_option autoImplicit false

namespace DeckBinding

/-- What stands between two segments of a path: `.` reads a member of the value reached so far, `>`
goes on from the current element of an iterated collection. -/
inductive Join where
  | member
  | context
deriving DecidableEq, Inhabited

def Join.symbol : Join → Char
  | .member => '.'
  | .context => '>'

def Join.ofChar? (c : Char) : Option Join :=
  if c = '.' then some .member else if c = '>' then some .context else none

/-- One step of a path: a member name with an optional position in the sequence found there. -/
structure Segment where
  name : String
  index : Option Nat
deriving DecidableEq, Inhabited

def Segment.text (segment : Segment) : String :=
  match segment.index with
  | some index => segment.name ++ "[" ++ toString index ++ "]"
  | none => segment.name

/-- The mark behind the name of a segment that selects one element. -/
def Segment.pin (segment : Segment) : String :=
  if segment.index.isSome then "[]" else ""

/-- A path into the data: a first segment, and further ones with the joins in front of them. -/
structure Path where
  first : Segment
  rest : List (Join × Segment)
deriving DecidableEq, Inhabited

/-- A segment of a path with the join in front of it and the key of its collection. -/
structure Step where
  join : Option Join
  segment : Segment
  key : String
deriving DecidableEq, Inhabited

def Step.text (step : Step) : String :=
  match step.join with
  | some join => String.singleton join.symbol ++ step.segment.text
  | none => step.segment.text

namespace Path

def length (path : Path) : Nat :=
  path.rest.length + 1

def root (path : Path) : String :=
  path.first.name

def restText : List (Join × Segment) → String
  | [] => ""
  | (join, segment) :: rest => String.singleton join.symbol ++ segment.text ++ restText rest

/-- The canonical text of a path. -/
def text (path : Path) : String :=
  path.first.text ++ restText path.rest

/-- Further segments with their keys; `stem` is the key of what stands in front, its pin
included. -/
def stepsFrom (stem : String) : List (Join × Segment) → List Step
  | [] => []
  | (join, segment) :: rest =>
    let key := stem ++ String.singleton join.symbol ++ segment.name
    ⟨some join, segment, key⟩ :: stepsFrom (key ++ segment.pin) rest

/-- The segments of a path with the keys of their collections. A key joins the names up to the
segment and marks the earlier segments that select one element, so that such an element is never
taken for the iterated collection. -/
def steps (path : Path) : List Step :=
  ⟨none, path.first, path.first.name⟩ :: stepsFrom (path.first.name ++ path.first.pin) path.rest

/-- The key of the collection a segment stands for, by the position of the segment. -/
def collectionKey (path : Path) (position : Nat) : String :=
  match path.steps[position]? with
  | some step => step.key
  | none => ""

/-- The collections the path selects an element of, with the position of the element. -/
def references (path : Path) : List (String × Nat) :=
  path.steps.filterMap fun step => step.segment.index.map fun index => (step.key, index)

def usesContext (path : Path) : Bool :=
  path.rest.any fun entry => entry.1 == .context

/-- Gathers steps into runs that hold no `>` behind their first step. -/
def chunkSteps : List Step → List (List Step)
  | [] => []
  | step :: rest =>
    match chunkSteps rest with
    | [] => [[step]]
    | [] :: more => [step] :: more
    | (next :: chunk) :: more =>
      if next.join = some .context then [step] :: (next :: chunk) :: more
      else (step :: next :: chunk) :: more

/-- The steps of a path, cut in front of every `>`. -/
def chunks (path : Path) : List (List Step) :=
  chunkSteps path.steps

def withLastIndex (path : Path) (index : Option Nat) : Path :=
  match path.rest.getLast? with
  | none => ⟨⟨path.first.name, index⟩, []⟩
  | some (join, segment) => ⟨path.first, path.rest.dropLast ++ [(join, ⟨segment.name, index⟩)]⟩

/-- The path with its first segment replaced by another path. An index on the replaced segment
moves to the last segment of the replacement. -/
def replaceRoot (path target : Path) : Path :=
  let head := match path.first.index with
    | some index => target.withLastIndex (some index)
    | none => target
  ⟨head.first, head.rest ++ path.rest⟩

theorem replaceRoot_root (path target : Path) : (path.replaceRoot target).root = target.root := by
  unfold replaceRoot root
  split
  · unfold withLastIndex
    split <;> rfl
  · rfl

theorem length_steps (path : Path) : path.steps.length = path.length := by
  have count (stem : String) (rest : List (Join × Segment)) :
      (stepsFrom stem rest).length = rest.length := by
    induction rest generalizing stem with
    | nil => rfl
    | cons entry rest ih => simp [stepsFrom, ih]
  simp [steps, length, count]

theorem flatten_chunkSteps (steps : List Step) : (chunkSteps steps).flatten = steps := by
  induction steps with
  | nil => rfl
  | cons step rest ih =>
    unfold chunkSteps
    split
    · rename_i empty
      rw [empty] at ih
      simp [← ih]
    · rename_i more blank
      rw [blank] at ih
      simp [← ih]
    · rename_i next chunk more found
      rw [found] at ih
      split <;> simp [← ih]

end Path

end DeckBinding
