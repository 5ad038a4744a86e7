import DeckBinding.Diagnostic
import DeckBinding.Template.Basic

set_option autoImplicit false

namespace DeckBinding

/-- Consecutive template slides that repeat together for elements of a collection: from the element
`first` on, every `step`th one. -/
structure Window where
  start : Nat
  stop : Nat
  collection : String
  explicit : Bool
  first : Nat
  step : Nat
  start_le_stop : start ≤ stop
  step_pos : 0 < step

namespace Window

def covers (window : Window) (position : Nat) : Bool :=
  window.start ≤ position && position ≤ window.stop

def forEach (start stop : Nat) (collection : String) (explicit : Bool)
    (ordered : start ≤ stop) : Window :=
  ⟨start, stop, collection, explicit, 0, 1, ordered, Nat.one_pos⟩

def extend (window : Window) (position : Nat) : Window :=
  { window with
    stop := max window.stop position
    start_le_stop := Nat.le_trans window.start_le_stop (Nat.le_max_left ..) }

end Window

def windowAt? (windows : List Window) (position : Nat) : Option Window :=
  windows.find? fun window => window.covers position

/-- The position of the first slide at or behind a position whose notes end a range over a path. -/
def rangeEndFrom? (path : String) (position : Nat) : List SlideTemplate → Option Nat
  | [] => none
  | template :: rest =>
    if template.directives.any fun directive => directive.rangeEnd? == some path then
      some position
    else rangeEndFrom? path (position + 1) rest

theorem le_rangeEndFrom? {path : String} {position stop : Nat} {templates : List SlideTemplate}
    (found : rangeEndFrom? path position templates = some stop) : position ≤ stop := by
  induction templates generalizing position with
  | nil => cases found
  | cons template rest ih =>
    unfold rangeEndFrom? at found
    split at found
    · simp_all
    · exact Nat.le_of_lt (Nat.lt_of_succ_le (ih found))

/-- The window that a slide opens whose notes begin a range over a path. A slide that also ends a
range stands alone in its window; a range without an end runs to the last slide. `behind` holds the
slides after it. -/
def rangeWindow (template : SlideTemplate) (path : String) (position : Nat)
    (behind : List SlideTemplate) : Window × List Diagnostic :=
  if template.rangeEnd?.isSome then
    (.forEach position position path true (Nat.le_refl _), [])
  else match found : rangeEndFrom? path (position + 1) behind with
    | some stop =>
      (.forEach position stop path true (Nat.le_of_lt (le_rangeEndFrom? found)), [])
    | none =>
      (.forEach position (position + behind.length) path true (Nat.le_add_right ..),
        [⟨.openRange path, some template.slide⟩])

/-- The windows of the ranges that the notes mark, when all slides before `free` are taken. -/
def rangeWindows (free position : Nat) :
    List SlideTemplate → List Window × List Diagnostic
  | [] => ([], [])
  | template :: rest =>
    match template.rangeBegin? with
    | none => rangeWindows free (position + 1) rest
    | some path =>
      if position < free then rangeWindows free (position + 1) rest
      else
        let (window, noted) := rangeWindow template path position rest
        let (windows, diagnostics) := rangeWindows (window.stop + 1) (position + 1) rest
        (window :: windows, noted ++ diagnostics)

/-- How a slide that needs a context gets it. -/
inductive Attachment where
  /-- From the window that holds the slide at a position. -/
  | joins (position : Nat)
  /-- From the slide at a position, which becomes the first one of a window. -/
  | opens (position : Nat)
  /-- From a window of its own. -/
  | alone
deriving DecidableEq

/-- Whether a slide shows the elements of a collection, so that slides below them may follow it. -/
def SlideTemplate.leads (template : SlideTemplate) (collection : String) : Bool :=
  template.kind == .source && template.collection == some collection && !template.usesContext

/-- Looks backwards, from the slide in front of a position, for what gives elements of a
collection. -/
def attachment (templates : List SlideTemplate) (windows : List Window) (collection : String) :
    Nat → Attachment
  | 0 => .alone
  | position + 1 =>
    match windowAt? windows position with
    | some window =>
      if !window.explicit && window.collection == collection then .joins position else .alone
    | none =>
      match templates[position]? with
      | none => attachment templates windows collection position
      | some template =>
        if template.leads collection then .opens position
        else attachment templates windows collection position

theorem lt_of_attachment_opens {templates : List SlideTemplate} {windows : List Window}
    {collection : String} {position parent : Nat}
    (found : attachment templates windows collection position = .opens parent) :
    parent < position := by
  induction position with
  | zero => cases found
  | succ position ih =>
    unfold attachment at found
    split at found
    · split at found <;> cases found
    · split at found
      · exact Nat.lt_succ_of_lt (ih found)
      · split at found
        · cases found
          exact Nat.lt_succ_self _
        · exact Nat.lt_succ_of_lt (ih found)

/-- The window of a slide alone. Its own `#foreach` says which elements it visits. -/
def SlideTemplate.ownWindow (template : SlideTemplate) (position : Nat) (collection : String) :
    Window :=
  if template.hasForeach && !template.isNested then
    ⟨position, position, collection, false, template.offset, template.itemsPerSlide,
      Nat.le_refl _, template.itemsPerSlide_pos⟩
  else .forEach position position collection false (Nat.le_refl _)

/-- Gives a slide a window, when it stands in none and needs a context. -/
def placeInWindow (templates : List SlideTemplate) (windows : List Window)
    (template : SlideTemplate) (position : Nat) : List Window :=
  if (windowAt? windows position).isSome || template.kind != .source
      || !(template.usesContext || template.isNested) then windows
  else
    let outer := template.chunks.headD ""
    match found : attachment templates windows outer position with
    | .joins member =>
      windows.map fun window =>
        if window.covers member then window.extend position else window
    | .opens parent =>
      windows ++ [.forEach parent position outer false (Nat.le_of_lt (lt_of_attachment_opens found))]
    | .alone => windows ++ [template.ownWindow position outer]

/-- The windows of a template in the order of its slides. The marked ranges get theirs first, then
the other slides that need a context, one after the other. -/
def findWindows (templates : List SlideTemplate) : List Window × List Diagnostic :=
  let (ranges, diagnostics) := rangeWindows 0 0 templates
  let windows := templates.zipIdx.foldl
    (fun windows (template, position) => placeInWindow templates windows template position) ranges
  (windows.mergeSort fun left right => left.start ≤ right.start, diagnostics)

end DeckBinding
