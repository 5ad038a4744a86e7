import DeckBinding.Proofs.Plan.Windows

set_option autoImplicit false

namespace DeckBinding

namespace SlideTemplate

/-- Whether a slide is given a window, when no range holds it. -/
def NeedsContext (template : SlideTemplate) : Prop :=
  template.kind = .source ∧ (template.usesContext = true ∨ template.isNested = true)

def outer (template : SlideTemplate) : String :=
  template.chunks.headD ""

end SlideTemplate

/-- How the slide at the start of a window opens it: for the slides below it that follow the
elements it shows, or for itself. -/
inductive Window.OpenedBy (window : Window) (opener : SlideTemplate) : Prop where
  | leading (leads : opener.leads window.collection = true) (first : window.first = 0)
      (step : window.step = 1)
  | own (needs : opener.NeedsContext) (outer : opener.outer = window.collection)
      (first : window.first = (opener.ownWindow window.start window.collection).first)
      (step : window.step = (opener.ownWindow window.start window.collection).step)

/-- A window that a slide of the template opens. -/
def Window.Opened (templates : List SlideTemplate) (window : Window) : Prop :=
  ∃ opener, templates[window.start]? = some opener ∧ window.OpenedBy opener

/-- A window that gives a slide the elements of a collection. -/
def Serves (windows : List Window) (position : Nat) (collection : String) : Prop :=
  ∃ window ∈ windows, window.covers position = true ∧ window.explicit = false ∧
    window.collection = collection

/-- Each slide in front of a position that needs a context has it from a window, or stands in a
range. -/
def Served (templates : List SlideTemplate) (ranges : List Window) (position : Nat)
    (windows : List Window) : Prop :=
  ∀ place < position, ∀ template, templates[place]? = some template → template.NeedsContext →
    windowAt? ranges place = none → Serves windows place template.outer

/-- The windows of a template when the slides in front of a position have theirs. -/
structure Placed (templates : List SlideTemplate) (ranges : List Window) (position : Nat)
    (windows : List Window) : Prop where
  laid : Laid templates.length windows
  marked : ∀ window ∈ windows, window.explicit = true → window ∈ ranges
  opened : ∀ window ∈ windows, window.explicit = false → window.Opened templates
  /-- The windows that slides open end in front of the position. -/
  behind : ∀ window ∈ windows, window.explicit = false → window.stop < position
  served : Served templates ranges position windows

variable {templates : List SlideTemplate} {windows ranges : List Window} {collection : String}
  {position : Nat} {template : SlideTemplate}

theorem of_attachment_joins {member : Nat}
    (found : attachment templates windows collection position = .joins member) :
    ∃ window, windowAt? windows member = some window ∧ window.explicit = false ∧
      window.collection = collection := by
  induction position with
  | zero => cases found
  | succ position ih =>
    unfold attachment at found
    split at found
    · rename_i window here
      split at found
      · rename_i fits
        cases found
        simp only [Bool.and_eq_true, Bool.not_eq_true', beq_iff_eq] at fits
        exact ⟨window, here, fits⟩
      · cases found
    · split at found
      · exact ih found
      · split at found
        · cases found
        · exact ih found

theorem of_attachment_opens {parent : Nat}
    (found : attachment templates windows collection position = .opens parent) :
    ∃ leader, templates[parent]? = some leader ∧ leader.leads collection = true := by
  induction position with
  | zero => cases found
  | succ position ih =>
    unfold attachment at found
    split at found
    · split at found <;> cases found
    · split at found
      · exact ih found
      · rename_i template there
        split at found
        · rename_i leads
          cases found
          exact ⟨template, there, leads⟩
        · exact ih found

theorem not_settled_iff : ¬ ((windowAt? windows position).isSome || template.kind != .source
      || !(template.usesContext || template.isNested)) = true ↔
    windowAt? windows position = none ∧ template.NeedsContext := by
  unfold SlideTemplate.NeedsContext
  cases windowAt? windows position <;> cases template.usesContext <;> simp

theorem ownWindow_bounds (template : SlideTemplate) (position : Nat) (collection : String) :
    (template.ownWindow position collection).start = position ∧
      (template.ownWindow position collection).stop = position ∧
      (template.ownWindow position collection).collection = collection ∧
      (template.ownWindow position collection).explicit = false := by
  unfold SlideTemplate.ownWindow
  split
  · exact ⟨rfl, rfl, rfl, rfl⟩
  · exact ⟨rfl, rfl, rfl, rfl⟩

/-- What giving a slide a window does: nothing when it has one or needs none; else the slide joins a
window, or a window is added for it. -/
theorem placeInWindow_cases (templates : List SlideTemplate) (windows : List Window)
    (template : SlideTemplate) (position : Nat) (there : templates[position]? = some template) :
    (placeInWindow templates windows template position = windows ∧
        (template.NeedsContext → (windowAt? windows position).isSome)) ∨
      (∃ member window, windowAt? windows member = some window ∧ window.explicit = false ∧
        window.collection = template.outer ∧
        placeInWindow templates windows template position = windows.map fun window =>
          if window.covers member then window.extend position else window) ∨
      ∃ window : Window, placeInWindow templates windows template position = windows ++ [window] ∧
        window.explicit = false ∧ window.collection = template.outer ∧ window.stop = position ∧
        window.Opened templates := by
  unfold placeInWindow
  split
  · rename_i settled
    refine .inl ⟨rfl, fun needs => ?_⟩
    by_contra absent
    exact not_settled_iff.2 ⟨Option.not_isSome_iff_eq_none.1 absent, needs⟩ settled
  · rename_i unsettled
    obtain ⟨_, needs⟩ := not_settled_iff.1 unsettled
    dsimp only
    split
    · rename_i member found
      obtain ⟨window, here, implicit, fits⟩ := of_attachment_joins found
      exact .inr (.inl ⟨member, window, here, implicit, fits, rfl⟩)
    · rename_i parent found
      obtain ⟨leader, leading, leads⟩ := of_attachment_opens found
      exact .inr (.inr ⟨_, rfl, rfl, rfl, rfl, leader, leading, .leading leads rfl rfl⟩)
    · obtain ⟨start, stop, outer, implicit⟩ :=
        ownWindow_bounds template position (template.chunks.headD "")
      refine .inr (.inr ⟨_, rfl, implicit, outer, stop, template, by rw [start, there], ?_⟩)
      refine .own needs outer.symm ?_ ?_
      · rw [start, outer]
      · rw [start, outer]

theorem Laid.eq_of_covers {slides place : Nat} (laid : Laid slides windows) {left right : Window}
    (first : left ∈ windows) (second : right ∈ windows) (here : left.covers place = true)
    (there : right.covers place = true) : left = right := by
  have symmetric : Std.Symm Window.Apart := ⟨fun _ _ apart => apart.symm⟩
  by_contra different
  have apart := laid.apart.forall first second different
  rw [Window.covers_iff] at here there
  unfold Window.Apart at apart
  omega

theorem Window.covers_extend {window : Window} {place : Nat} (holds : window.covers place = true)
    (position : Nat) : (window.extend position).covers place = true := by
  rw [Window.covers_iff] at holds ⊢
  refine ⟨holds.1, ?_⟩
  show place ≤ max window.stop position
  omega

theorem Window.Opened.extend {window : Window} (opened : window.Opened templates) (position : Nat) :
    (window.extend position).Opened templates := by
  obtain ⟨opener, there, opens⟩ := opened
  refine ⟨opener, there, ?_⟩
  cases opens with
  | leading leads first step => exact .leading leads first step
  | own needs outer first step => exact .own needs outer first step

theorem Served.mono {others : List Window} (served : Served templates ranges position windows)
    (each : ∀ place collection, Serves windows place collection → Serves others place collection) :
    Served templates ranges position others :=
  fun place inside template there needs free =>
    each place template.outer (served place inside template there needs free)

theorem Served.succ (served : Served templates ranges position windows)
    (there : templates[position]? = some template)
    (here : template.NeedsContext → windowAt? ranges position = none →
      Serves windows position template.outer) :
    Served templates ranges (position + 1) windows := by
  intro place inside other found needs free
  rcases Nat.lt_succ_iff_lt_or_eq.1 inside with earlier | rfl
  · exact served place earlier other found needs free
  · obtain rfl : template = other := Option.some.inj (there.symm.trans found)
    exact here needs free

namespace Placed

/-- A window that holds the slide at the position is a range. -/
theorem explicit_of_covers (placed : Placed templates ranges position windows) {window : Window}
    (member : window ∈ windows) (holds : window.covers position = true) : window.explicit = true := by
  by_contra implicit
  have stop := placed.behind window member (Bool.not_eq_true _ ▸ implicit)
  rw [Window.covers_iff] at holds
  omega

theorem keep (placed : Placed templates ranges position windows)
    (there : templates[position]? = some template)
    (held : template.NeedsContext → (windowAt? windows position).isSome) :
    Placed templates ranges (position + 1) windows := by
  refine ⟨placed.laid, placed.marked, placed.opened, ?_, placed.served.succ there ?_⟩
  · intro window member implicit
    have stop := placed.behind window member implicit
    omega
  · intro needs free
    obtain ⟨window, found⟩ := Option.isSome_iff_exists.1 (held needs)
    obtain ⟨member, holds⟩ := mem_of_windowAt? found
    have among := placed.marked window member (placed.explicit_of_covers member holds)
    have apart := windowAt?_eq_none_iff.1 free window among
    rw [Window.covers_iff] at holds
    omega

theorem add (placed : Placed templates ranges position windows)
    (there : templates[position]? = some template) {window : Window} (implicit : window.explicit = false)
    (outer : window.collection = template.outer) (stop : window.stop = position)
    (opened : window.Opened templates) (laid : Laid templates.length (windows ++ [window])) :
    Placed templates ranges (position + 1) (windows ++ [window]) := by
  have each {property : Window → Prop} (old : ∀ other ∈ windows, property other)
      (new : property window) : ∀ other ∈ windows ++ [window], property other := by
    intro other member
    rcases List.mem_append.1 member with earlier | last
    · exact old other earlier
    · rw [List.mem_singleton.1 last]
      exact new
  refine ⟨laid, each placed.marked ?_, each placed.opened fun _ => opened, each ?_ ?_, ?_⟩
  · intro explicit
    rw [implicit] at explicit
    cases explicit
  · intro other member silent
    have before := placed.behind other member silent
    omega
  · intro _
    omega
  · refine Served.succ (placed.served.mono ?_) there fun _ _ => ?_
    · rintro place collection ⟨other, member, holds⟩
      exact ⟨other, List.mem_append_left _ member, holds⟩
    · refine ⟨window, by simp, ?_, implicit, outer⟩
      have ordered := window.start_le_stop
      rw [Window.covers_iff]
      omega

theorem join (placed : Placed templates ranges position windows)
    (there : templates[position]? = some template) {member : Nat} {window : Window}
    (found : windowAt? windows member = some window) (implicit : window.explicit = false)
    (outer : window.collection = template.outer)
    (laid : Laid templates.length (windows.map fun window =>
      if window.covers member then window.extend position else window)) :
    Placed templates ranges (position + 1) (windows.map fun window =>
      if window.covers member then window.extend position else window) := by
  obtain ⟨among, holds⟩ := mem_of_windowAt? found
  refine ⟨laid, ?_, ?_, ?_, ?_⟩
  · intro other inside explicit
    obtain ⟨old, before, rfl⟩ := List.mem_map.1 inside
    by_cases here : old.covers member = true
    · rw [if_pos here] at explicit
      obtain rfl := placed.laid.eq_of_covers before among here holds
      cases implicit.symm.trans explicit
    · rw [if_neg here] at explicit ⊢
      exact placed.marked old before explicit
  · intro other inside silent
    obtain ⟨old, before, rfl⟩ := List.mem_map.1 inside
    by_cases here : old.covers member = true
    · rw [if_pos here] at silent ⊢
      exact (placed.opened old before silent).extend position
    · rw [if_neg here] at silent ⊢
      exact placed.opened old before silent
  · intro other inside silent
    obtain ⟨old, before, rfl⟩ := List.mem_map.1 inside
    by_cases here : old.covers member = true
    · rw [if_pos here] at silent ⊢
      have stop := placed.behind old before silent
      show max old.stop position < position + 1
      omega
    · rw [if_neg here] at silent ⊢
      have stop := placed.behind old before silent
      omega
  · refine Served.succ (placed.served.mono ?_) there fun _ _ => ?_
    · rintro place collection ⟨old, before, covers, silent, same⟩
      refine ⟨_, List.mem_map_of_mem before, ?_⟩
      split
      · exact ⟨Window.covers_extend covers position, silent, same⟩
      · exact ⟨covers, silent, same⟩
    · refine ⟨_, List.mem_map_of_mem among, ?_⟩
      rw [if_pos holds]
      refine ⟨?_, implicit, outer⟩
      have stop := placed.behind window among implicit
      have ordered := window.start_le_stop
      rw [Window.covers_iff]
      refine ⟨?_, Nat.le_max_right window.stop position⟩
      show window.start ≤ position
      omega

/-- Giving the slide at the position its window. -/
theorem place (placed : Placed templates ranges position windows)
    (there : templates[position]? = some template) :
    Placed templates ranges (position + 1) (placeInWindow templates windows template position) := by
  have laid : Laid templates.length (placeInWindow templates windows template position) :=
    placed.laid.place template (List.getElem?_eq_some_iff.1 there).1
  rcases placeInWindow_cases templates windows template position there with
    ⟨same, held⟩ | ⟨member, window, found, implicit, outer, same⟩ |
    ⟨window, same, implicit, outer, stop, opened⟩
  · rw [same]
    exact placed.keep there held
  · rw [same] at laid ⊢
    exact placed.join there found implicit outer laid
  · rw [same] at laid ⊢
    exact placed.add there implicit outer stop opened laid

/-- Giving the slides behind the position their windows, one after the other. -/
theorem foldl_place {rest front : List SlideTemplate} (whole : templates = front ++ rest)
    (placed : Placed templates ranges front.length windows) :
    Placed templates ranges templates.length ((rest.zipIdx front.length).foldl
      (fun windows entry => placeInWindow templates windows entry.1 entry.2) windows) := by
  induction rest generalizing front windows with
  | nil =>
    rw [List.append_nil] at whole
    rw [whole] at placed ⊢
    exact placed
  | cons template rest ih =>
    have there : templates[front.length]? = some template := by
      rw [whole, List.getElem?_append_right (Nat.le_refl _), Nat.sub_self]
      rfl
    have next := placed.place there
    rw [List.zipIdx_cons, List.foldl_cons]
    have split : templates = (front ++ [template]) ++ rest := by
      rw [whole, List.append_assoc, List.singleton_append]
    have longer : (front ++ [template]).length = front.length + 1 := List.length_append
    rw [← longer] at next ⊢
    exact ih split next

theorem perm {others : List Window} (placed : Placed templates ranges position windows)
    (same : windows.Perm others) : Placed templates ranges position others := by
  refine ⟨placed.laid.perm same, ?_, ?_, ?_, placed.served.mono ?_⟩
  · exact fun window member => placed.marked window (same.mem_iff.2 member)
  · exact fun window member => placed.opened window (same.mem_iff.2 member)
  · exact fun window member => placed.behind window (same.mem_iff.2 member)
  · rintro place collection ⟨window, member, holds⟩
    exact ⟨window, same.mem_iff.1 member, holds⟩

end Placed

theorem explicit_rangeWindow (template : SlideTemplate) (path : String) (position : Nat)
    (behind : List SlideTemplate) : (rangeWindow template path position behind).1.explicit = true := by
  unfold rangeWindow
  split
  · rfl
  · split
    · rfl
    · rfl

theorem explicit_rangeWindows (free position : Nat) (templates : List SlideTemplate) :
    ∀ window ∈ (rangeWindows free position templates).1, window.explicit = true := by
  induction templates generalizing free position with
  | nil => exact fun window member => absurd member List.not_mem_nil
  | cons template rest ih =>
    unfold rangeWindows
    split
    · exact ih free (position + 1)
    · rename_i path begins
      split
      · exact ih free (position + 1)
      · exact List.forall_mem_cons.2 ⟨explicit_rangeWindow template path position rest,
          ih _ (position + 1)⟩

/-- Each window that is found for a template is a range, or one of its slides opens it. -/
theorem findWindows_placed (templates : List SlideTemplate) :
    Placed templates (rangeWindows 0 0 templates).1 templates.length (findWindows templates).1 := by
  have ranges (window : Window) (member : window ∈ (rangeWindows 0 0 templates).1) :
      window.explicit ≠ false := by
    rw [explicit_rangeWindows 0 0 templates window member]
    decide
  have start : Placed templates (rangeWindows 0 0 templates).1 ([] : List SlideTemplate).length
      (rangeWindows 0 0 templates).1 := by
    refine ⟨laid_rangeWindows templates, fun _ member _ => member, ?_, ?_, ?_⟩
    · exact fun window member implicit => absurd implicit (ranges window member)
    · exact fun window member implicit => absurd implicit (ranges window member)
    · exact fun place before => absurd before (Nat.not_lt_zero place)
  have placed := Placed.foldl_place (List.nil_append templates).symm start
  exact placed.perm (List.mergeSort_perm _ _).symm

end DeckBinding
