import DeckBinding.Text.Case

set_option autoImplicit false

namespace DeckBinding.Text

/-- A code point run whose characters move to valid ones beyond ASCII. -/
def CaseRun.staysBeyond (run : CaseRun) : Bool :=
  128 ≤ run.first + run.shift &&
    (run.last + run.shift < 0xd800 || (0xe000 ≤ run.first + run.shift && run.last + run.shift < 0x110000))

/-- The Kelvin sign alone moves to an ASCII letter. -/
theorem staysBeyond_of_mem {run : CaseRun} (member : run ∈ lowerRuns) (other : run.first ≠ 0x212a) :
    run.staysBeyond = true := by
  have all : lowerRuns.all (fun run => run.first == 0x212a || run.staysBeyond) = true := by decide +kernel
  have here := List.all_eq_true.1 all run member
  rwa [beq_eq_false_iff_ne.2 other, Bool.false_or] at here

theorem lowerRuns_kelvin {run : CaseRun} (member : run ∈ lowerRuns) (same : run.first = 0x212a) :
    run.last = 0x212a ∧ run.shift = -8383 := by
  have all : lowerRuns.all (fun run => run.first != 0x212a || (run.last == 0x212a && run.shift == -8383)) =
      true := by decide +kernel
  have here := List.all_eq_true.1 all run member
  simpa [same] using here

/-- A character beyond ASCII moves to one beyond ASCII or to `k`. -/
theorem shiftCase_lowerRuns {c : Char} (beyond : 128 ≤ c.toNat) :
    128 ≤ (shiftCase lowerRuns c).toNat ∨ shiftCase lowerRuns c = 'k' := by
  unfold shiftCase
  dsimp only
  split
  · rename_i run found
    have member := List.mem_of_find?_eq_some found
    have inside := List.find?_some found
    simp only [Bool.and_eq_true, decide_eq_true_eq] at inside
    obtain ⟨⟨low, high⟩, _⟩ := inside
    by_cases kelvin : run.first = 0x212a
    · obtain ⟨last, shift⟩ := lowerRuns_kelvin member kelvin
      have code : c.toNat = 0x212a := by omega
      right
      rw [code, shift]
      rfl
    · have stays := staysBeyond_of_mem member kelvin
      simp only [CaseRun.staysBeyond, Bool.and_eq_true, Bool.or_eq_true, decide_eq_true_eq] at stays
      have valid : ((c.toNat : Int) + run.shift).toNat.isValidChar := by
        unfold Nat.isValidChar
        omega
      have code : (Char.ofNat (c.toNat + run.shift).toNat).toNat = (c.toNat + run.shift).toNat := by
        rw [Char.ofNat, dif_pos valid]
        rfl
      left
      omega
  · exact .inl beyond

/-- The lower case form of a character beyond ASCII has a character beyond ASCII or a `k` in it. -/
theorem exists_mem_lowerOf {c : Char} (beyond : 128 ≤ c.toNat) (before after : List Char) :
    ∃ d ∈ lowerOf before c after, 128 ≤ d.toNat ∨ d = 'k' := by
  unfold lowerOf
  rw [if_neg (by omega)]
  split
  · split
    · exact ⟨'\u03c2', List.mem_cons_self, .inl (by decide)⟩
    · exact ⟨'\u03c3', List.mem_cons_self, .inl (by decide)⟩
  · split
    · exact ⟨'\u0307', by simp, .inl (by decide)⟩
    · exact ⟨_, List.mem_cons_self, shiftCase_lowerRuns beyond⟩

theorem lowerAfter_of_ascii {cs : List Char} (ascii : ∀ c ∈ cs, c.toNat < 128) (before : List Char) :
    lowerAfter before cs = cs.map Char.toLower := by
  induction cs generalizing before with
  | nil => rfl
  | cons c rest ih =>
    obtain ⟨here, behind⟩ := List.forall_mem_cons.1 ascii
    rw [lowerAfter, lowerOf, if_pos here, ih behind, List.map_cons, List.singleton_append]

theorem ascii_of_lowerAfter {cs : List Char} {before : List Char}
    (plain : ∀ d ∈ lowerAfter before cs, d.toNat < 128 ∧ d ≠ 'k') : ∀ c ∈ cs, c.toNat < 128 := by
  induction cs generalizing before with
  | nil => exact fun c member => nomatch member
  | cons c rest ih =>
    rw [lowerAfter, List.forall_mem_append] at plain
    refine List.forall_mem_cons.2 ⟨Nat.lt_of_not_le fun beyond => ?_, ih plain.2⟩
    obtain ⟨d, member, outside⟩ := exists_mem_lowerOf beyond before rest
    obtain ⟨ascii, other⟩ := plain.1 d member
    rcases outside with high | same
    · omega
    · exact other same

theorem ascii_of_toLower {c : Char} (ascii : c.toLower.toNat < 128) : c.toNat < 128 := by
  unfold Char.toLower at ascii
  split at ascii
  · rename_i range
    have upper : c.toNat ≤ 90 := range.2
    omega
  · exact ascii

/-- A word of ASCII characters other than `k` is the lower case form of the texts that differ from
it in the case of ASCII letters alone. -/
theorem lower_eq_iff {word : List Char} (plain : ∀ d ∈ word, d.toNat < 128 ∧ d ≠ 'k') (cs : List Char) :
    lower cs = word ↔ cs.map Char.toLower = word := by
  unfold lower
  constructor
  · rintro rfl
    exact (lowerAfter_of_ascii (ascii_of_lowerAfter plain) []).symm
  · rintro rfl
    refine lowerAfter_of_ascii (fun c member => ?_) []
    exact ascii_of_toLower (plain _ (List.mem_map_of_mem member)).1

end DeckBinding.Text
