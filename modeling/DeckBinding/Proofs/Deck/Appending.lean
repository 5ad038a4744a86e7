import DeckBinding.Proofs.Deck.Rendering

set_option autoImplicit false

namespace DeckBinding

variable {mode : HideMode} {assets : Location} {store : FileStore}

namespace Deck

variable {deck changed : Deck} {output : SlideOutput} {outputs : List SlideOutput} {source : Slide}
  {warnings : List Warning}

/-- A deck whose handles are all taken from below the next one. -/
def Fresh (deck : Deck) : Prop :=
  ∀ entry ∈ deck.slides, entry.1 < deck.next

def push (deck : Deck) (slide : Slide) : Deck :=
  { deck with slides := deck.slides ++ [(deck.next, slide)], next := deck.next + 1 }

theorem Fresh.push (fresh : deck.Fresh) (slide : Slide) : (deck.push slide).Fresh := by
  intro entry member
  rcases List.mem_append.1 member with before | last
  · exact Nat.lt_succ_of_lt (fresh entry before)
  · rw [List.mem_singleton.1 last]
    exact Nat.lt_succ_self deck.next

/-- Slides that are those of outputs in order, numbered upwards from a first number. Each is made
from the slide of the deck that the output names. -/
def Renders (deck : Deck) (mode : HideMode) (assets : Location) (store : FileStore) (first : Int)
    (outputs : List SlideOutput) (slides : List Slide) : Prop :=
  List.Forall₂ (fun entry slide => ∃ source, deck.withId? entry.1.source.id = some source ∧
      slide = source.rendered mode assets store entry.1 (first + (entry.2 : Nat)))
    outputs.zipIdx slides

theorem Renders.cons {first : Int} {slides : List Slide}
    (found : deck.withId? output.source.id = some source)
    (renders : deck.Renders mode assets store (first + 1) outputs slides) :
    deck.Renders mode assets store first (output :: outputs)
      (source.rendered mode assets store output first :: slides) := by
  unfold Renders at renders ⊢
  rw [List.zipIdx_cons, List.zipIdx_succ]
  refine .cons ⟨source, found, by simp⟩ (List.forall₂_map_left_iff.2 (renders.imp ?_))
  rintro ⟨made, number⟩ slide ⟨origin, known, rfl⟩
  refine ⟨origin, known, congrArg (origin.rendered mode assets store made) ?_⟩
  dsimp only
  omega

end Deck

end DeckBinding
