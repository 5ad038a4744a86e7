import DeckBinding.Plan.Basic

set_option autoImplicit false

namespace DeckBinding

def Directive.others (directives : List Directive) : List Directive :=
  directives.filter fun directive => !directive.isAlias

def SlideTemplate.unaliased (template : SlideTemplate) : SlideTemplate :=
  { template with directives := Directive.others template.directives }

namespace Directive

variable {α : Type} {directives : List Directive}

theorem others_cons (directive : Directive) (rest : List Directive) :
    others (directive :: rest) = if directive.isAlias then others rest else directive :: others rest := by
  cases directive <;> rfl

theorem any_others {holds : Directive → Bool} (silent : ∀ path name, holds (.alias path name) = false) :
    (others directives).any holds = directives.any holds := by
  induction directives with
  | nil => rfl
  | cons directive rest ih =>
    rw [others_cons]
    cases directive <;> simp [isAlias, silent, ih]

theorem findSome?_others {view : Directive → Option α}
    (silent : ∀ path name, view (.alias path name) = none) :
    (others directives).findSome? view = directives.findSome? view := by
  induction directives with
  | nil => rfl
  | cons directive rest ih =>
    rw [others_cons]
    cases directive <;> simp [isAlias, silent, ih, List.findSome?_cons]

end Directive

namespace SlideTemplate

variable (template : SlideTemplate)

theorem rangeBegin?_unaliased : template.unaliased.rangeBegin? = template.rangeBegin? :=
  Directive.findSome?_others fun _ _ => rfl

theorem rangeEnd?_unaliased : template.unaliased.rangeEnd? = template.rangeEnd? :=
  Directive.findSome?_others fun _ _ => rfl

theorem hasForeach_unaliased : template.unaliased.hasForeach = template.hasForeach :=
  Directive.any_others fun _ _ => rfl

end SlideTemplate

theorem rangeEndFrom?_unaliased (path : String) (position : Nat) (templates : List SlideTemplate) :
    rangeEndFrom? path position (templates.map .unaliased) = rangeEndFrom? path position templates := by
  induction templates generalizing position with
  | nil => rfl
  | cons template rest ih =>
    have ends : (template.unaliased.directives.any fun directive => directive.rangeEnd? == some path) =
        template.directives.any fun directive => directive.rangeEnd? == some path :=
      Directive.any_others fun _ _ => rfl
    rw [List.map_cons, rangeEndFrom?, rangeEndFrom?, ends, ih]

theorem rangeWindow_unaliased (template : SlideTemplate) (path : String) (position : Nat)
    (behind : List SlideTemplate) :
    rangeWindow template.unaliased path position (behind.map .unaliased) =
      rangeWindow template path position behind := by
  have stop := rangeEndFrom?_unaliased path (position + 1) behind
  unfold rangeWindow
  rw [template.rangeEnd?_unaliased]
  split
  · rfl
  · split <;> rename_i found <;> split <;> rename_i again <;>
      cases found.symm.trans (stop.trans again)
    · rfl
    · simp only [List.length_map]
      rfl

theorem rangeWindows_unaliased (free position : Nat) (templates : List SlideTemplate) :
    rangeWindows free position (templates.map .unaliased) = rangeWindows free position templates := by
  induction templates generalizing free position with
  | nil => rfl
  | cons template rest ih =>
    rw [List.map_cons, rangeWindows, rangeWindows, template.rangeBegin?_unaliased]
    simp only [rangeWindow_unaliased, ih]

theorem attachment_unaliased (templates : List SlideTemplate) (windows : List Window)
    (collection : String) (position : Nat) :
    attachment (templates.map .unaliased) windows collection position =
      attachment templates windows collection position := by
  induction position with
  | zero => rfl
  | succ position ih =>
    rw [attachment, attachment, List.getElem?_map, ih]
    cases templates[position]? <;> rfl

theorem placeInWindow_unaliased (templates : List SlideTemplate) (windows : List Window)
    (template : SlideTemplate) (position : Nat) :
    placeInWindow (templates.map .unaliased) windows template.unaliased position =
      placeInWindow templates windows template position := by
  have own (outer : String) :
      template.unaliased.ownWindow position outer = template.ownWindow position outer := by
    unfold SlideTemplate.ownWindow
    rw [template.hasForeach_unaliased]
    rfl
  have same := attachment_unaliased templates windows (template.chunks.headD "") position
  by_cases settled : ((windowAt? windows position).isSome || template.kind != .source
      || !(template.usesContext || template.isNested)) = true
  · unfold placeInWindow
    exact (if_pos settled).trans (if_pos settled).symm
  · unfold placeInWindow
    refine (if_neg settled).trans (Eq.trans ?_ (if_neg settled).symm)
    dsimp only
    -- both slides are attached in the same way
    split <;> rename_i found <;> split <;> rename_i again <;>
      cases found.symm.trans (same.trans again)
    · rfl
    · rfl
    · exact congrArg (windows ++ [·]) (own _)

/-- The windows of a deck are found without the directives that declare short names. -/
theorem findWindows_unaliased (templates : List SlideTemplate) :
    findWindows (templates.map .unaliased) = findWindows templates := by
  have placed (entries : List (SlideTemplate × Nat)) (windows : List Window) :
      (entries.map (Prod.map SlideTemplate.unaliased id)).foldl (fun windows entry =>
        placeInWindow (templates.map .unaliased) windows entry.1 entry.2) windows =
      entries.foldl (fun windows entry => placeInWindow templates windows entry.1 entry.2) windows := by
    rw [List.foldl_map]
    simp only [Prod.map, placeInWindow_unaliased, id]
  unfold findWindows
  rw [rangeWindows_unaliased, List.zipIdx_map]
  simp only [placed]

theorem nestedEntries_unaliased (template : SlideTemplate) (context : ContextPath) (element : Value)
    (chunks : List String) :
    nestedEntries template.unaliased context element chunks =
      nestedEntries template context element chunks := by
  induction chunks generalizing context element with
  | nil => rfl
  | cons chunk rest ih =>
    cases rest with
    | nil => rfl
    | cons next more =>
      simp only [nestedEntries, ih]
      rfl

theorem memberEntries_unaliased (window : Window) (data : Value) (index : Nat) (element : Value)
    (template : SlideTemplate) :
    memberEntries window data index element template.unaliased =
      memberEntries window data index element template := by
  unfold memberEntries
  simp only [nestedEntries_unaliased]
  rfl

theorem members_unaliased (window : Window) (templates : List SlideTemplate) :
    window.members (templates.map .unaliased) = (window.members templates).map .unaliased := by
  unfold Window.members
  rw [← List.map_drop, ← List.map_take, List.filter_map]
  rfl

theorem windowEntries_unaliased (templates : List SlideTemplate) (window : Window) (data : Value) :
    windowEntries (templates.map .unaliased) window data = windowEntries templates window data := by
  unfold windowEntries
  rw [members_unaliased, List.getElem?_map]
  simp only [List.flatMap_map, memberEntries_unaliased, Option.map_map]
  rfl

/-- The slides of a deck are planned without the directives that declare short names. -/
theorem planEntries_unaliased (templates : List SlideTemplate) (windows : List Window) (data : Value) :
    planEntries (templates.map .unaliased) windows data = planEntries templates windows data := by
  have at_ (template : SlideTemplate) (position : Nat) :
      entriesAt (templates.map .unaliased) windows data template.unaliased position =
        entriesAt templates windows data template position := by
    unfold entriesAt
    simp only [windowEntries_unaliased]
    rfl
  unfold planEntries
  rw [List.zipIdx_map, List.flatMap_map]
  simp only [Prod.map, at_, id]

end DeckBinding
