import DeckBinding.Proofs.Number.Bounded
import DeckBinding.Proofs.Paragraph.Division

set_option autoImplicit false

namespace DeckBinding

open DeckBinding.Number

def InSpan (span : Int × Int) (place : Int) : Prop :=
  span.1 ≤ place ∧ place < span.2

/-- Spans in order of their starts, no two of which have a place in common. -/
structure DisjointSpans (spans : List (Int × Int)) : Prop where
  ascending : spans.Pairwise fun left right => left.1 ≤ right.1
  apart : spans.Pairwise fun left right => ∀ place, ¬ (InSpan left place ∧ InSpan right place)

theorem DisjointSpans.sorted {size start : Int} {spans : List (Int × Int)} (disjoint : DisjointSpans spans)
    (bound : start ≤ size) (inside : ∀ span ∈ spans, span.1 ≤ span.2 ∧ span.2 ≤ size)
    (behind : ∀ span ∈ spans, span.1 < span.2 → start ≤ span.1) : Sorted size start spans := by
  obtain ⟨ascending, apart⟩ := disjoint
  induction spans generalizing start with
  | nil => exact .nil bound
  | cons span rest ih =>
    obtain ⟨first, stop⟩ := span
    obtain ⟨ahead, ascending⟩ := List.pairwise_cons.1 ascending
    obtain ⟨alone, apart⟩ := List.pairwise_cons.1 apart
    obtain ⟨forward, last⟩ := inside (first, stop) List.mem_cons_self
    have insideRest : ∀ span ∈ rest, span.1 ≤ span.2 ∧ span.2 ≤ size :=
      fun span member => inside span (List.mem_cons_of_mem _ member)
    rcases Int.lt_or_eq_of_le forward with proper | same
    · refine .value (behind (first, stop) List.mem_cons_self proper) proper
        (ih last insideRest (fun span member filled => ?_) ascending apart)
      -- The first place of a later span is not one of this span
      have order := ahead span member
      have other := alone span member span.1
      unfold InSpan at other
      dsimp only at order other
      omega
    · dsimp only at same last ahead
      rw [same] at ahead ⊢
      refine .empty (ih (by omega) insideRest (fun span member filled => ?_) ascending apart)
      have order := ahead span member
      have start := behind span (List.mem_cons_of_mem _ member) filled
      omega

theorem UncutFrom.clear_append {spans : List (Int × Int)} {start : Nat} {front back : List (List Char)}
    (uncut : UncutFrom spans start (front ++ back)) (clear : Clear spans (start : Int)) :
    Clear spans ((start + front.flatten.length : Nat) : Int) := by
  induction front generalizing start with
  | nil => exact clear
  | cons piece rest ih =>
    have further := ih uncut.2 uncut.1
    rwa [List.flatten_cons, List.length_append, ← Nat.add_assoc]

theorem foldl_add_natCast (lengths : List Nat) (start : Int) :
    (lengths.map fun length : Nat => (length : Int)).foldl (· + ·) start = start + (lengths.sum : Nat) := by
  induction lengths generalizing start with
  | nil => simp
  | cons length rest ih =>
    rw [List.map_cons, List.foldl_cons, ih, List.sum_cons]
    omega

/-- A text is spread in proportion to lengths only if it is about as long as all of them
together. -/
theorem spreadRatio?_bounds {size : Nat} {lengths : List Nat} {ratio : Binary64} (small : size < 2 ^ 63)
    (found : spreadRatio? size (lengths.map fun length : Nat => (length : Int)) = some ratio) :
    lengths.sum < 2 ^ 65 ∧ ∃ significand exponent, ratio = .finite false significand exponent ∧
      Binary64.magnitude significand exponent ≤ 2 := by
  have half : Binary64.ofQuotient false 1 2 = .finite false (2 ^ 52) (-53) := by decide
  have two : Binary64.ofQuotient false 2 1 = .finite false (2 ^ 52) (-51) := by decide
  unfold spreadRatio? at found
  simp only [foldl_add_natCast, Int.zero_add, Int.toNat_natCast, half, two, Bool.or_eq_true, decide_eq_true_eq,
    beq_iff_eq, not_or, Option.ite_none_left_eq_some, Option.some.injEq] at found
  obtain ⟨⟨filled, _⟩, ⟨low, high⟩, rfl⟩ := found
  have positive : 0 < lengths.sum := by omega
  have whole : (1 : ℚ) ≤ lengths.sum := by exact_mod_cast positive
  have long : (size : ℚ) ≤ 2 ^ (63 : Int) := by exact_mod_cast small.le
  obtain ⟨significand, exponent, same, _⟩ := Binary64.exists_ofQuotient false positive (by decide)
    (by decide) ((div_le_self (by positivity) whole).trans long)
  rw [same, Binary64.lessThan_iff] at low high
  refine ⟨?_, significand, exponent, same, ?_⟩
  · -- Lengths that are much longer together have a ratio below a half
    by_contra great
    have quarter : (size : ℚ) / lengths.sum ≤ 2 ^ (-2 : Int) := by
      have vast : (2 ^ 65 : ℚ) ≤ lengths.sum := by exact_mod_cast not_lt.1 great
      rw [div_le_iff₀ (by linarith)]
      calc (size : ℚ) ≤ 2 ^ (63 : Int) := long
        _ = 2 ^ (-2 : Int) * 2 ^ 65 := by norm_num
        _ ≤ 2 ^ (-2 : Int) * lengths.sum := mul_le_mul_of_nonneg_left vast (by positivity)
    obtain ⟨_, _, again, below⟩ := Binary64.exists_ofQuotient false positive (by decide) (by decide)
      quarter
    cases same.symm.trans again
    norm_num [Binary64.magnitude] at low below
    linarith
  · norm_num [Binary64.magnitude] at high ⊢
    linarith

/-- The product of two finite numbers that are not too great has a nearest integer. -/
theorem isSome_round?_mul (negative : Bool) {left right : Nat} {first second : Int}
    (bound : Binary64.magnitude left first * Binary64.magnitude right second ≤ 2 ^ (66 : Int)) :
    (((Binary64.finite negative left first).mul (.finite false right second)).round?).isSome := by
  rw [← Binary64.magnitude_mul, ← Binary64.quotient_div] at bound
  obtain ⟨_, _, same, _⟩ := Binary64.exists_ofQuotient (negative != false)
    (Binary64.quotient_pos _ _) (by decide) (by decide) bound
  unfold Binary64.mul
  dsimp only
  rw [same]
  rfl

theorem cutError?_eq_none {significand : Nat} {exponent : Int} (running : Nat) {lengths : List Nat}
    (ratio : Binary64.magnitude significand exponent ≤ 2) (small : running + lengths.sum < 2 ^ 65) :
    cutError? (.finite false significand exponent) running
      (lengths.map fun length : Nat => (length : Int)) = none := by
  induction lengths generalizing running with
  | nil => rfl
  | cons length rest ih =>
    cases rest with
    | nil => rfl
    | cons next rest =>
      rw [List.sum_cons, ← Nat.add_assoc] at small
      have bound : ((running + length : Nat) : ℚ) / (1 : Nat) ≤ 2 ^ (65 : Int) := by
        rw [Nat.cast_one, div_one]
        exact_mod_cast (by omega : running + length ≤ 2 ^ 65)
      obtain ⟨digits, place, same, below⟩ := Binary64.exists_ofQuotient
        (decide (((running + length : Nat) : Int) < 0)) Nat.one_pos (by decide) (by decide) bound
      have product : Binary64.magnitude digits place * Binary64.magnitude significand exponent ≤
          2 ^ (66 : Int) := by
        calc Binary64.magnitude digits place * Binary64.magnitude significand exponent
            ≤ 2 ^ (65 : Int) * 2 :=
              mul_le_mul below ratio (Binary64.magnitude_nonneg _ _) (by positivity)
          _ = 2 ^ (66 : Int) := by norm_num
      obtain ⟨rounded, found⟩ := Option.isSome_iff_exists.1
        (isSome_round?_mul (decide (((running + length : Nat) : Int) < 0)) product)
      have exact : Binary64.ofInt? ((running : Int) + length) = some (.finite
          (decide (((running + length : Nat) : Int) < 0)) digits place) := by
        unfold Binary64.ofInt?
        rw [← Int.natCast_add, Int.natAbs_natCast, same]
      simp only [List.map_cons, cutError?, exact, found]
      exact ih (running + length) small

theorem spreadError?_eq_none {text : List Char} (lengths : List Nat) (small : text.length < 2 ^ 63) :
    spreadError? text (lengths.map fun length : Nat => (length : Int)) = none := by
  unfold spreadError?
  split
  · rfl
  · cases found : spreadRatio? text.length (lengths.map fun length : Nat => (length : Int)) with
    | none => rfl
    | some ratio =>
      obtain ⟨whole, significand, exponent, rfl, bound⟩ := spreadRatio?_bounds small found
      exact cutError?_eq_none 0 bound (by omega)

/-- Spreading a text over runs of natural lengths gives a piece for each run and loses nothing, and
no piece ends strictly inside a span. The positions of the cuts are in the range of doubles, as no
text has `2 ^ 63` characters. -/
theorem redistribute_uncut {text : List Char} {lengths : List Nat} {spans : List (Int × Int)}
    (nonempty : lengths ≠ []) (inside : ∀ span ∈ spans, 0 ≤ span.1 ∧ span.1 ≤ span.2 ∧ span.2 ≤ text.length)
    (disjoint : DisjointSpans spans) :
    let pieces := redistribute text (lengths.map fun length : Nat => (length : Int)) spans
    pieces.length = lengths.length ∧ pieces.flatten = text ∧
      (∀ front back, pieces = front ++ back → ∀ span ∈ spans,
        ¬ (span.1 < front.flatten.length ∧ (front.flatten.length : Int) < span.2)) ∧
      (text.length < 2 ^ 63 →
        spreadError? text (lengths.map fun length : Nat => (length : Int)) = none) := by
  have sorted : Sorted text.length 0 spans :=
    disjoint.sorted (Int.natCast_nonneg _) (fun span member => (inside span member).2)
      fun span member _ => (inside span member).1
  have runs : lengths.map (fun length : Nat => (length : Int)) ≠ [] := by simpa using nonempty
  obtain ⟨divides, size⟩ := redistribute_divides runs sorted
  refine ⟨by rw [size, List.length_map], by rw [divides.whole, List.drop_zero], ?_,
    spreadError?_eq_none lengths⟩
  rintro front back split span member ⟨before, after⟩
  have uncut := divides.uncut
  rw [split] at uncut
  have start := sorted.clear_of_done fun _ member => .inr member
  have clear := uncut.clear_append start span member
  rw [Nat.zero_add] at clear
  omega

/-- A cut that falls into a value goes to its end, whether or not an empty span stands in the
value. -/
theorem redistribute_uncut_empty_span :
    let spans : List (Int × Int) := [(0, 4), (1, 1), (5, 7)]
    DisjointSpans spans ∧ redistribute "LONG xy".toList [2, 5] spans = ["LONG".toList, " xy".toList] ∧
      (redistribute "LONG xy".toList [2, 5] spans).flatten = "LONG xy".toList := by
  intro spans
  have disjoint : DisjointSpans spans := by
    constructor
    · simp [spans]
    · simp only [spans, InSpan, List.pairwise_cons, List.mem_cons, List.not_mem_nil, or_false]
      refine ⟨?_, ?_, ?_, .nil⟩
      · rintro span (rfl | rfl) place inside
        · omega
        · omega
      · rintro span rfl place inside
        omega
      · exact fun span none => none.elim
  have inside : ∀ span ∈ spans, 0 ≤ span.1 ∧ span.1 ≤ span.2 ∧ span.2 ≤ "LONG xy".toList.length := by
    decide
  have pieces := @redistribute_uncut "LONG xy".toList [2, 5] spans (List.cons_ne_nil _ _) inside disjoint
  exact ⟨disjoint, by decide +kernel, pieces.2.1⟩

end DeckBinding
