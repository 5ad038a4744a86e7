import DeckBinding.Plan.Window
import Mathlib.Data.List.Pairwise

set_option autoImplicit false

namespace DeckBinding

/-- Two windows without a common slide. -/
def Window.Apart (left right : Window) : Prop :=
  left.stop < right.start ∨ right.stop < left.start

/-- No window holds a slide from a position up to another one. -/
def Free (windows : List Window) (start stop : Nat) : Prop :=
  ∀ window ∈ windows, window.stop < start ∨ stop < window.start

/-- Windows that lie apart among some number of slides. -/
structure Laid (slides : Nat) (windows : List Window) : Prop where
  apart : windows.Pairwise Window.Apart
  inside : ∀ window ∈ windows, window.stop < slides

theorem Window.covers_iff {window : Window} {position : Nat} :
    window.covers position = true ↔ window.start ≤ position ∧ position ≤ window.stop := by
  simp [Window.covers]

variable {windows : List Window} {start stop position : Nat}

theorem windowAt?_eq_none_iff : windowAt? windows position = none ↔ Free windows position position := by
  unfold windowAt? Free
  rw [List.find?_eq_none]
  refine forall₂_congr fun window _ => ?_
  rw [Window.covers_iff]
  omega

theorem Free.extend (free : Free windows (position + 1) stop)
    (here : windowAt? windows position = none) : Free windows position stop := by
  intro window member
  have behind := free window member
  have own := windowAt?_eq_none_iff.1 here window member
  have ordered := window.start_le_stop
  omega

theorem Free.at (free : Free windows start stop) (lower : start ≤ position) (upper : position ≤ stop) :
    windowAt? windows position = none := by
  rw [windowAt?_eq_none_iff]
  intro window member
  have outside := free window member
  omega

theorem rangeEndFrom?_lt {path : String} {templates : List SlideTemplate}
    (found : rangeEndFrom? path position templates = some stop) :
    stop < position + templates.length := by
  induction templates generalizing position with
  | nil => cases found
  | cons template rest ih =>
    rw [List.length_cons]
    unfold rangeEndFrom? at found
    split at found
    · cases found
      omega
    · have later := ih found
      omega

/-- The window of a marked range starts at its slide and ends at one behind it. -/
theorem rangeWindow_bounds (template : SlideTemplate) (path : String) (position : Nat)
    (behind : List SlideTemplate) :
    (rangeWindow template path position behind).1.start = position ∧
      (rangeWindow template path position behind).1.stop ≤ position + behind.length := by
  unfold rangeWindow
  split
  · exact ⟨rfl, Nat.le_add_right ..⟩
  · split
    · rename_i stop found
      have bound := rangeEndFrom?_lt found
      refine ⟨rfl, ?_⟩
      show stop ≤ position + behind.length
      omega
    · exact ⟨rfl, Nat.le_refl _⟩

theorem rangeWindows_ordered (free position : Nat) (templates : List SlideTemplate) :
    (rangeWindows free position templates).1.Pairwise (fun left right => left.stop < right.start) ∧
      ∀ window ∈ (rangeWindows free position templates).1,
        free ≤ window.start ∧ window.stop < position + templates.length := by
  induction templates generalizing free position with
  | nil => exact ⟨.nil, by simp [rangeWindows]⟩
  | cons template rest ih =>
    have later (free : Nat) : ∀ window ∈ (rangeWindows free (position + 1) rest).1,
        free ≤ window.start ∧ window.stop < position + (rest.length + 1) := by
      intro window member
      have bounds := (ih free (position + 1)).2 window member
      omega
    rw [List.length_cons]
    unfold rangeWindows
    split
    · exact ⟨(ih free (position + 1)).1, later free⟩
    · rename_i path begins
      split
      · exact ⟨(ih free (position + 1)).1, later free⟩
      · rename_i untaken
        have bounds := rangeWindow_bounds template path position rest
        refine ⟨List.pairwise_cons.2 ⟨?_, (ih _ (position + 1)).1⟩, ?_⟩
        · intro window member
          exact (later _ window member).1
        · intro window member
          rcases List.mem_cons.1 member with rfl | among
          · omega
          · have further := later _ window among
            have ordered := (rangeWindow template path position rest).1.start_le_stop
            omega

theorem laid_rangeWindows (templates : List SlideTemplate) :
    Laid templates.length (rangeWindows 0 0 templates).1 := by
  obtain ⟨ordered, bounds⟩ := rangeWindows_ordered 0 0 templates
  refine ⟨ordered.imp Or.inl, fun window member => ?_⟩
  have bound := (bounds window member).2
  omega

variable {templates : List SlideTemplate} {collection : String}

/-- Between a slide and the window it joins stands no other window. -/
theorem free_of_attachment_joins {member : Nat} (free : Free windows position stop)
    (found : attachment templates windows collection position = .joins member) :
    (windowAt? windows member).isSome ∧ Free windows (member + 1) stop := by
  induction position with
  | zero => cases found
  | succ position ih =>
    unfold attachment at found
    split at found
    · rename_i window here
      split at found
      · cases found
        exact ⟨Option.isSome_of_eq_some here, free⟩
      · cases found
    · rename_i none
      have further := ih (free.extend none)
      split at found
      · exact further found
      · split at found
        · cases found
        · exact further found

/-- From the slide that opens a window up to the one that needs it stands no other window. -/
theorem free_of_attachment_opens {parent : Nat} (free : Free windows position stop)
    (found : attachment templates windows collection position = .opens parent) :
    Free windows parent stop := by
  induction position with
  | zero => cases found
  | succ position ih =>
    unfold attachment at found
    split at found
    · split at found <;> cases found
    · rename_i none
      have wider := free.extend none
      split at found
      · exact ih wider found
      · split at found
        · cases found
          exact wider
        · exact ih wider found

variable {slides : Nat}

theorem Laid.append (laid : Laid slides windows) {window : Window}
    (free : Free windows window.start window.stop) (inside : window.stop < slides) :
    Laid slides (windows ++ [window]) := by
  refine ⟨?_, ?_⟩
  · rw [List.pairwise_append]
    refine ⟨laid.apart, List.pairwise_singleton _ _, ?_⟩
    intro other member last single
    rw [List.mem_singleton.1 single]
    exact free other member
  · intro other member
    rcases List.mem_append.1 member with earlier | last
    · exact laid.inside other earlier
    · rw [List.mem_singleton.1 last]
      exact inside

/-- A window that is extended over free slides stays apart from the others. -/
theorem Window.Apart.extend {left right : Window} (apart : left.Apart right) {member : Nat}
    (holds : left.covers member = true) (free : right.stop < member + 1 ∨ position < right.start) :
    (left.extend position).Apart right := by
  have inside := Window.covers_iff.1 holds
  have ordered := right.start_le_stop
  unfold Window.Apart at apart ⊢
  show max left.stop position < right.start ∨ right.stop < left.start
  omega

theorem Window.Apart.symm {left right : Window} (apart : left.Apart right) : right.Apart left :=
  Or.symm apart

theorem Laid.extend (laid : Laid slides windows) {member : Nat}
    (free : Free windows (member + 1) position) (inside : position < slides) :
    Laid slides (windows.map fun window =>
      if window.covers member then window.extend position else window) := by
  refine ⟨?_, ?_⟩
  · rw [List.pairwise_map]
    apply laid.apart.imp_of_mem
    intro left right leftMember rightMember apart
    by_cases first : left.covers member = true
    · have second : ¬ right.covers member = true := by
        have inLeft := Window.covers_iff.1 first
        rw [Window.covers_iff]
        unfold Window.Apart at apart
        omega
      rw [if_pos first, if_neg second]
      exact apart.extend first (free right rightMember)
    · rw [if_neg first]
      by_cases second : right.covers member = true
      · rw [if_pos second]
        exact (apart.symm.extend second (free left leftMember)).symm
      · rw [if_neg second]
        exact apart
  · intro window among
    obtain ⟨old, oldMember, rfl⟩ := List.mem_map.1 among
    have before := laid.inside old oldMember
    split
    · show max old.stop position < slides
      omega
    · exact before

/-- Giving a slide a window keeps the windows apart. -/
theorem Laid.place (laid : Laid slides windows) (template : SlideTemplate)
    (inside : position < slides) :
    Laid slides (placeInWindow templates windows template position) := by
  unfold placeInWindow
  split
  · exact laid
  · rename_i needs
    have none : windowAt? windows position = none := by
      simp only [Bool.or_eq_true, not_or, Option.not_isSome_iff_eq_none] at needs
      exact needs.1.1
    have free := windowAt?_eq_none_iff.1 none
    dsimp only
    split
    · rename_i member found
      exact laid.extend (free_of_attachment_joins free found).2 inside
    · rename_i parent found
      exact laid.append (free_of_attachment_opens free found) inside
    · refine laid.append ?_ ?_
      · unfold SlideTemplate.ownWindow
        split
        · exact free
        · exact free
      · unfold SlideTemplate.ownWindow
        split
        · exact inside
        · exact inside

/-- Each slide in turn keeps the windows that are there apart. -/
theorem Laid.foldl_place {entries : List (SlideTemplate × Nat)}
    (inside : ∀ entry ∈ entries, entry.2 < slides) (laid : Laid slides windows) :
    Laid slides (entries.foldl (fun windows entry =>
      placeInWindow templates windows entry.1 entry.2) windows) := by
  induction entries generalizing windows with
  | nil => exact laid
  | cons entry rest ih =>
    exact ih (fun other member => inside other (List.mem_cons_of_mem _ member))
      (laid.place entry.1 (inside entry List.mem_cons_self))

theorem Laid.perm {others : List Window} (laid : Laid slides windows) (same : windows.Perm others) :
    Laid slides others :=
  ⟨(same.pairwise_iff fun apart => apart.symm).1 laid.apart,
    fun window member => laid.inside window (same.mem_iff.2 member)⟩

theorem pairwise_mergeSort_start (windows : List Window) :
    (windows.mergeSort fun left right => left.start ≤ right.start).Pairwise
      fun left right => left.start ≤ right.start := by
  apply List.Pairwise.imp (fun {_ _} ordered => of_decide_eq_true ordered)
  apply List.pairwise_mergeSort
  · intro first second third before behind
    simp only [decide_eq_true_eq] at *
    omega
  · intro first second
    simp only [Bool.or_eq_true, decide_eq_true_eq]
    omega

/-- The windows of a template follow each other, each one behind the end of the one before it. -/
theorem findWindows_ordered (templates : List SlideTemplate) :
    (findWindows templates).1.Pairwise (fun left right => left.stop < right.start) ∧
      ∀ window ∈ (findWindows templates).1, window.stop < templates.length := by
  have placed := @Laid.foldl_place _ templates templates.length templates.zipIdx
    (fun entry member => List.snd_lt_of_mem_zipIdx member) (laid_rangeWindows templates)
  have laid := placed.perm (List.mergeSort_perm _ fun left right => left.start ≤ right.start).symm
  refine ⟨?_, laid.inside⟩
  apply (laid.apart.and (pairwise_mergeSort_start _)).imp
  rintro left right ⟨apart, ascending⟩
  have extent := right.start_le_stop
  unfold Window.Apart at apart
  omega

/-- Windows that are found in the order of their slides stay in this order. -/
theorem findWindows_of_ascending {templates : List SlideTemplate}
    (ascending : (templates.zipIdx.foldl (fun windows entry =>
      placeInWindow templates windows entry.1 entry.2) (rangeWindows 0 0 templates).1).Pairwise
        fun left right => decide (left.start ≤ right.start) = true) :
    (findWindows templates).1 = templates.zipIdx.foldl (fun windows entry =>
      placeInWindow templates windows entry.1 entry.2) (rangeWindows 0 0 templates).1 :=
  List.mergeSort_of_pairwise ascending

theorem mem_of_windowAt? {window : Window} (found : windowAt? windows position = some window) :
    window ∈ windows ∧ window.covers position = true := by
  unfold windowAt? at found
  have holds := List.find?_some found
  exact ⟨List.mem_of_find?_eq_some found, holds⟩

/-- Among windows that follow each other a slide stands in one at most. -/
theorem windowAt?_of_covers (ordered : windows.Pairwise fun left right => left.stop < right.start)
    {window : Window} (member : window ∈ windows) (holds : window.covers position = true) :
    windowAt? windows position = some window := by
  induction windows with
  | nil => cases member
  | cons first rest ih =>
    obtain ⟨before, later⟩ := List.pairwise_cons.1 ordered
    unfold windowAt? at ih ⊢
    rw [List.find?_cons]
    by_cases here : first.covers position = true
    · rw [here]
      rcases List.mem_cons.1 member with rfl | among
      · rfl
      · have apart := before window among
        rw [Window.covers_iff] at here holds
        omega
    · rw [Bool.not_eq_true] at here
      rw [here]
      rcases List.mem_cons.1 member with rfl | among
      · exact absurd holds (Bool.eq_false_iff.1 here)
      · exact ih later among

end DeckBinding
