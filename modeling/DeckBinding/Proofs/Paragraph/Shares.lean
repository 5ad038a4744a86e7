import DeckBinding.Paragraph.Reconciliation
import DeckBinding.Proofs.Expression.Pieces
import DeckBinding.Proofs.Paragraph.Division

set_option autoImplicit false

namespace DeckBinding

def fillingsText (fillings : List Filling) : List Char :=
  fillings.flatMap Filling.text

@[simp] theorem fillingsText_nil : fillingsText [] = [] := rfl

@[simp] theorem fillingsText_cons (filling : Filling) (rest : List Filling) :
    fillingsText (filling :: rest) = filling.text ++ fillingsText rest := rfl

@[simp] theorem fillingsText_append (front back : List Filling) :
    fillingsText (front ++ back) = fillingsText front ++ fillingsText back :=
  List.flatMap_append

theorem fillingsText_flatten (parts : List (List Filling)) :
    fillingsText parts.flatten = (parts.map fillingsText).flatten := by
  induction parts with
  | nil => rfl
  | cons part rest ih => simp [ih]

@[simp] theorem TextResolution.ofFillings_text (fillings : List Filling) :
    (TextResolution.ofFillings fillings).text = fillingsText fillings := rfl

@[simp] theorem TextResolution.ofFillings_spans (fillings : List Filling) :
    (TextResolution.ofFillings fillings).spans = filledSpans 0 fillings := rfl

def castSpan (span : Nat × Nat) : Int × Int :=
  (span.1, span.2)

theorem absorb_ordered {size : Nat} {start : Int} {span : Nat × Nat} {rest : List (Nat × Nat)}
    (behind : start ≤ span.1) (sorted : StartsAscend (span :: rest))
    (inside : ∀ other ∈ span :: rest, other.1 ≤ other.2 ∧ other.2 ≤ size) :
    Ordered size start ((mergeSpans.absorb span rest).map castSpan) := by
  induction rest generalizing start span with
  | nil =>
    have bounds := inside span List.mem_cons_self
    refine .cons behind ?_ (.nil ?_)
    · exact Int.ofNat_le.2 bounds.1
    · exact Int.ofNat_le.2 bounds.2
  | cons next rest ih =>
    obtain ⟨_, sortedRest⟩ := List.pairwise_cons.1 sorted
    have bounds := inside span List.mem_cons_self
    have boundsNext := inside next (by simp)
    rw [mergeSpans.absorb]
    split
    · rename_i overlap
      apply @ih start (span.1, max next.2 span.2) behind (sorted.join _)
      intro other member
      rcases List.mem_cons.1 member with rfl | later
      · dsimp only
        omega
      · exact inside other (by simp [later])
    · rename_i apart
      rw [List.map_cons]
      refine .cons behind (Int.ofNat_le.2 bounds.1) (ih ?_ sortedRest ?_)
      · exact Int.ofNat_le.2 (Nat.not_lt.1 apart)
      · exact fun other member => inside other (List.mem_cons_of_mem _ member)

theorem absorb_covers {span : Nat × Nat} {rest : List (Nat × Nat)}
    (sorted : StartsAscend (span :: rest)) :
    ∀ other ∈ span :: rest, ∃ whole ∈ mergeSpans.absorb span rest,
      whole.1 ≤ other.1 ∧ other.2 ≤ whole.2 := by
  induction rest generalizing span with
  | nil =>
    intro other member
    exact ⟨other, member, Nat.le_refl _, Nat.le_refl _⟩
  | cons next rest ih =>
    obtain ⟨first, sortedRest⟩ := List.pairwise_cons.1 sorted
    intro other member
    rw [mergeSpans.absorb]
    split
    · have joined := sorted.join (max next.2 span.2)
      obtain ⟨union, among, start, stop⟩ := ih joined _ List.mem_cons_self
      dsimp only at start stop
      rcases List.mem_cons.1 member with rfl | later
      · exact ⟨union, among, start, by omega⟩
      · rcases List.mem_cons.1 later with rfl | later
        · have behind := first other List.mem_cons_self
          exact ⟨union, among, by omega, by omega⟩
        · exact ih joined other (List.mem_cons_of_mem _ later)
    · rcases List.mem_cons.1 member with rfl | later
      · exact ⟨other, List.mem_cons_self, Nat.le_refl _, Nat.le_refl _⟩
      · obtain ⟨whole, among, bounds⟩ := ih sortedRest other later
        exact ⟨whole, List.mem_cons_of_mem _ among, bounds⟩

/-- The spans of a resolved text before they are joined, in order of their starts. -/
def sortedSpans (resolution : TextResolution) : List (Nat × Nat) :=
  (resolution.spans ++ expressionSpans resolution.text).mergeSort fun left right =>
    left.1 < right.1 || (left.1 == right.1 && left.2 ≤ right.2)

theorem pairwise_sortedSpans (resolution : TextResolution) :
    StartsAscend (sortedSpans resolution) := by
  have sorted : (sortedSpans resolution).Pairwise fun left right =>
      (left.1 < right.1 || (left.1 == right.1 && left.2 ≤ right.2)) = true := by
    apply List.pairwise_mergeSort
    · intro first second third
      simp only [Bool.or_eq_true, decide_eq_true_eq, Bool.and_eq_true, beq_iff_eq]
      omega
    · intro first second
      simp only [Bool.or_eq_true, decide_eq_true_eq, Bool.and_eq_true, beq_iff_eq]
      omega
  refine sorted.imp ?_
  intro left right before
  simp only [Bool.or_eq_true, decide_eq_true_eq, Bool.and_eq_true, beq_iff_eq] at before
  omega

theorem mem_sortedSpans {resolution : TextResolution} {span : Nat × Nat} :
    span ∈ sortedSpans resolution ↔
      span ∈ resolution.spans ∨ span ∈ expressionSpans resolution.text := by
  rw [sortedSpans, List.mem_mergeSort, List.mem_append]

theorem wholeSpans_of_sorted {resolution : TextResolution}
    (sorted : (resolution.spans ++ expressionSpans resolution.text).Pairwise fun left right =>
      (left.1 < right.1 || (left.1 == right.1 && left.2 ≤ right.2)) = true) :
    wholeSpans resolution = mergeSpans (resolution.spans ++ expressionSpans resolution.text) := by
  rw [wholeSpans, List.mergeSort_of_pairwise sorted]

theorem wholeSpans_ordered {resolution : TextResolution}
    (inside : ∀ span ∈ resolution.spans, span.1 ≤ span.2 ∧ span.2 ≤ resolution.text.length) :
    Ordered resolution.text.length 0 ((wholeSpans resolution).map castSpan) := by
  have sorted := pairwise_sortedSpans resolution
  have bounds : ∀ span ∈ sortedSpans resolution,
      span.1 ≤ span.2 ∧ span.2 ≤ resolution.text.length := by
    intro span member
    rcases mem_sortedSpans.1 member with value | expression
    · exact inside span value
    · have range := mem_expressionSpans expression
      omega
  change Ordered resolution.text.length 0 ((mergeSpans (sortedSpans resolution)).map castSpan)
  cases listed : sortedSpans resolution with
  | nil => exact .nil (Int.natCast_nonneg _)
  | cons span rest =>
    rw [listed] at sorted bounds
    exact absorb_ordered (Int.natCast_nonneg _) sorted bounds

theorem wholeSpans_cover {resolution : TextResolution} {span : Nat × Nat}
    (member : span ∈ resolution.spans ∨ span ∈ expressionSpans resolution.text) :
    ∃ whole ∈ wholeSpans resolution, whole.1 ≤ span.1 ∧ span.2 ≤ whole.2 := by
  have sorted := pairwise_sortedSpans resolution
  have among := mem_sortedSpans.2 member
  change ∃ whole ∈ mergeSpans (sortedSpans resolution), _
  cases listed : sortedSpans resolution with
  | nil =>
    rw [listed] at among
    cases among
  | cons first rest =>
    rw [listed] at sorted among
    exact absorb_covers sorted span among

/-- A filling that resolution makes: one character, a literal expression, or what stands for an
expression. -/
inductive Filling.Atomic : Filling → Prop where
  | character (c : Char) : Atomic (.kept [c])
  | literal {body : List Char} (fits : ∀ c ∈ body, isBodyChar c = true) :
      Atomic (.kept (braced body))
  | value (resolution : Resolution) : Atomic (.filled resolution)

theorem filledSpans_append (start : Nat) (front back : List Filling) :
    filledSpans start (front ++ back) =
      filledSpans start front ++ filledSpans (start + (fillingsText front).length) back := by
  induction front generalizing start with
  | nil => simp [filledSpans]
  | cons filling rest ih =>
    cases filling with
    | kept text =>
      simp only [List.cons_append, filledSpans, ih, fillingsText_cons, Filling.text,
        List.length_append, Nat.add_assoc]
    | filled resolution =>
      simp only [List.cons_append, filledSpans, ih, fillingsText_cons, Filling.text,
        List.length_append, Nat.add_assoc]

theorem mem_filledSpans {fillings : List Filling} {start : Nat} :
    ∀ span ∈ filledSpans start fillings,
      span.1 ≤ span.2 ∧ span.2 ≤ start + (fillingsText fillings).length := by
  induction fillings generalizing start with
  | nil => simp [filledSpans]
  | cons filling rest ih =>
    intro span member
    rw [fillingsText_cons, List.length_append]
    cases filling with
    | kept text =>
      have bounds := ih span member
      simp only [Filling.text]
      omega
    | filled resolution =>
      simp only [Filling.text]
      rcases List.mem_cons.1 member with rfl | later
      · dsimp only
        omega
      · have bounds := ih span later
        omega

theorem wholeSpans_ofFillings_ordered (fillings : List Filling) :
    Ordered (fillingsText fillings).length 0
      ((wholeSpans (.ofFillings fillings)).map castSpan) := by
  have ordered := @wholeSpans_ordered (.ofFillings fillings) ?_
  · exact ordered
  · intro span member
    have bounds := mem_filledSpans span member
    rw [Nat.zero_add] at bounds
    exact bounds

/-- Fillings from a position on, each of them a single character or inside one of the spans. -/
def HeldFrom (spans : List (Int × Int)) (start : Nat) : List Filling → Prop
  | [] => True
  | filling :: rest =>
    (filling.text.length ≤ 1 ∨ ∃ span ∈ spans,
      span.1 ≤ start ∧ ((start + filling.text.length : Nat) : Int) ≤ span.2) ∧
    HeldFrom spans (start + filling.text.length) rest

theorem heldFrom_wholeSpans (front back : List Filling)
    (atomic : ∀ filling ∈ back, filling.Atomic) :
    HeldFrom ((wholeSpans (.ofFillings (front ++ back))).map castSpan)
      (fillingsText front).length back := by
  induction back generalizing front with
  | nil => trivial
  | cons filling rest ih =>
    have split : front ++ filling :: rest = (front ++ [filling]) ++ rest := by simp
    constructor
    · -- A longer filling is a value or a literal expression, and both have a span
      suffices spanned : filling.text.length ≤ 1 ∨
          ((fillingsText front).length, (fillingsText front).length + filling.text.length) ∈
            (TextResolution.ofFillings (front ++ filling :: rest)).spans ∨
          ((fillingsText front).length, (fillingsText front).length + filling.text.length) ∈
            expressionSpans (TextResolution.ofFillings (front ++ filling :: rest)).text by
        rcases spanned with short | member
        · exact .inl short
        · obtain ⟨whole, among, start, stop⟩ := wholeSpans_cover member
          refine .inr ⟨castSpan whole, List.mem_map_of_mem among, ?_, ?_⟩
          · exact Int.ofNat_le.2 start
          · exact Int.ofNat_le.2 stop
      cases atomic filling List.mem_cons_self with
      | character c => exact .inl (Nat.le_refl _)
      | @literal body fits =>
        right
        right
        have place := mem_expressionSpans_of_braced fits (fillingsText front) (fillingsText rest)
        simpa [Filling.text] using place
      | value resolution =>
        right
        left
        simp [filledSpans_append, filledSpans, Filling.text]
    · have more := ih (front ++ [filling])
        (fun other member => atomic other (List.mem_cons_of_mem _ member))
      rw [← split] at more
      simpa using more

theorem exists_cut {spans : List (Int × Int)} {start : Nat} {fillings : List Filling}
    {piece others : List Char} (text : fillingsText fillings = piece ++ others)
    (held : HeldFrom spans start fillings)
    (clear : Clear spans ((start + piece.length : Nat) : Int)) :
    ∃ front back, fillings = front ++ back ∧ fillingsText front = piece ∧
      fillingsText back = others ∧ HeldFrom spans (start + piece.length) back := by
  induction fillings generalizing start piece with
  | nil =>
    obtain ⟨rfl, rfl⟩ := List.nil_eq_append_iff.1 text
    exact ⟨[], [], rfl, rfl, rfl, trivial⟩
  | cons filling rest ih =>
    rw [fillingsText_cons] at text
    by_cases empty : piece = []
    · subst empty
      exact ⟨[], filling :: rest, rfl, rfl, by simpa using text, held⟩
    · have positive := List.length_pos_iff.2 empty
      have fits : filling.text.length ≤ piece.length := by
        by_contra longer
        rcases held.1 with short | ⟨span, among, first, last⟩
        · omega
        · rcases clear span among with before | after
          · omega
          · omega
      obtain ⟨tail, split⟩ : filling.text <+: piece :=
        List.prefix_of_prefix_length_le (text ▸ List.prefix_append _ _)
          (List.prefix_append _ others) fits
      subst split
      rw [List.append_assoc, List.append_cancel_left_eq] at text
      rw [List.length_append, ← Nat.add_assoc] at clear ⊢
      obtain ⟨front, back, rfl, frontText, backText, more⟩ := ih text held.2 clear
      refine ⟨filling :: front, back, rfl, ?_, backText, more⟩
      rw [fillingsText_cons, frontText]

/-- Pieces that cut no span consist of whole fillings. -/
theorem exists_shares {spans : List (Int × Int)} {start : Nat} {fillings : List Filling}
    {pieces : List (List Char)} (nonempty : pieces ≠ [])
    (text : fillingsText fillings = pieces.flatten) (held : HeldFrom spans start fillings)
    (uncut : UncutFrom spans start pieces) :
    ∃ shares : List (List Filling), shares.flatten = fillings ∧ shares.map fillingsText = pieces := by
  induction pieces generalizing start fillings with
  | nil => exact absurd rfl nonempty
  | cons piece rest ih =>
    by_cases last : rest = []
    · subst last
      exact ⟨[fillings], by simp, by simpa using text⟩
    · rw [List.flatten_cons] at text
      obtain ⟨front, back, rfl, frontText, backText, more⟩ := exists_cut text held uncut.1
      obtain ⟨shares, flat, texts⟩ := ih last backText more uncut.2
      exact ⟨front :: shares, by rw [List.flatten_cons, flat], by rw [List.map_cons, frontText, texts]⟩

/-- Joined runs receive one share of whole fillings each. -/
theorem spread_shares {runs : List (List Char)} (nonempty : runs ≠ []) {fillings : List Filling}
    (atomic : ∀ filling ∈ fillings, filling.Atomic) :
    ∃ shares : List (List Filling), shares.flatten = fillings ∧ shares.length = runs.length ∧
      spread runs (.ofFillings fillings) = shares.map fillingsText := by
  have lengths : runs.map (fun run => (run.length : Int)) ≠ [] := by simpa using nonempty
  obtain ⟨divides, size⟩ :=
    redistribute_divides lengths (wholeSpans_ofFillings_ordered fillings).sorted
  have held := heldFrom_wholeSpans [] fillings atomic
  have positive := List.length_pos_iff.2 nonempty
  rw [List.length_map] at size
  obtain ⟨shares, flat, texts⟩ := exists_shares
    (List.length_pos_iff.1 (by omega)) (by rw [divides.whole, List.drop_zero]) held divides.uncut
  refine ⟨shares, flat, ?_, texts.symm⟩
  rw [← size, ← texts, List.length_map]

end DeckBinding
