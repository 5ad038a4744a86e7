import DeckBinding.Alias.Table
import DeckBinding.Proofs.Keyed
import Mathlib.Data.List.Chain

set_option autoImplicit false

namespace DeckBinding

/-- The path declared for a name, if there is one. -/
abbrev Targets := String → Option Path

def Declarations.targets (declared : Declarations) : Targets :=
  fun name => Keyed.get? name declared

namespace Targets

/-- The name at the front of the path declared for a name. -/
def next? (target? : Targets) (name : String) : Option String :=
  (target? name).map Path.root

/-- The name reached from a name after some steps. -/
def follow (target? : Targets) (name : String) : Nat → Option String
  | 0 => some name
  | steps + 1 => (follow target? name steps).bind target?.next?

/-- One comes to some name twice. -/
def Revisits (target? : Targets) (name : String) : Prop :=
  ∃ early late again, early < late ∧
    target?.follow name early = some again ∧ target?.follow name late = some again

/-- One comes to a name without declaration. -/
def Leaves (target? : Targets) (name : String) : Prop :=
  ∃ steps last, target?.follow name steps = some last ∧ target? last = none

/-- Names each of which leads to the next one, all different but for the last, which is the first
one again. -/
structure IsCycle (target? : Targets) (names : List String) : Prop where
  long : 2 ≤ names.length
  closed : names.head? = names.getLast?
  distinct : names.dropLast.Nodup
  linked : names.IsChain fun front back => target?.next? front = some back

/-- The path a name stands for when the names at the fronts of paths are replaced one after the
other, up to a name without declaration. -/
inductive StandsFor (target? : Targets) : String → Path → Prop where
  | direct {name : String} {target : Path} (known : target? name = some target)
      (last : target? target.root = none) : StandsFor target? name target
  | through {name : String} {target path : Path} (known : target? name = some target)
      (further : StandsFor target? target.root path) :
      StandsFor target? name (target.replaceRoot path)

variable {target? : Targets} {name : String}

theorem next?_of_known {target : Path} (known : target? name = some target) :
    target?.next? name = some target.root := by
  simp [next?, known]

theorem follow_add (early late : Nat) :
    target?.follow name (early + late) =
      (target?.follow name early).bind fun middle => target?.follow middle late := by
  induction late with
  | zero => simp [follow]
  | succ late ih => simp [follow, ih, Option.bind_assoc]

theorem follow_succ {next : String} (leads : target?.next? name = some next) (steps : Nat) :
    target?.follow name (steps + 1) = target?.follow next steps := by
  rw [Nat.add_comm, follow_add]
  simp [follow, leads]

/-- Behind a name without declaration there is nothing. -/
theorem follow_eq_none {steps : Nat} {last : String} (here : target?.follow name steps = some last)
    (undeclared : target? last = none) {later : Nat} (behind : steps < later) :
    target?.follow name later = none := by
  obtain ⟨more, rfl⟩ := Nat.exists_eq_add_of_lt behind
  rw [Nat.add_assoc, Nat.add_comm more, ← Nat.add_assoc, follow_add]
  simp [follow, here, next?, undeclared]

/-- One who comes to a name twice comes there again and again. -/
theorem follow_isSome_of_revisits (revisits : target?.Revisits name) (steps : Nat) :
    (target?.follow name steps).isSome := by
  obtain ⟨early, late, again, before, first, second⟩ := revisits
  induction steps using Nat.strongRecOn with
  | ind steps ih =>
    by_cases inside : steps ≤ late
    · obtain ⟨more, rfl⟩ := Nat.exists_eq_add_of_le inside
      rw [follow_add] at second
      exact Option.isSome_of_isSome_bind (Option.isSome_of_eq_some second)
    · obtain ⟨more, rfl⟩ := Nat.exists_eq_add_of_lt (Nat.lt_of_not_le inside)
      have back := ih (early + (more + 1)) (by omega)
      rw [follow_add, first] at back
      rwa [Nat.add_assoc, follow_add, second]

/-- No chain of names both ends and comes around. -/
theorem not_leaves_of_revisits (revisits : target?.Revisits name) : ¬ target?.Leaves name := by
  rintro ⟨steps, last, here, undeclared⟩
  have further := follow_isSome_of_revisits revisits (steps + 1)
  rw [follow_eq_none here undeclared (Nat.lt_succ_self steps)] at further
  cases further

theorem StandsFor.known {path : Path} (stands : target?.StandsFor name path) :
    (target? name).isSome := by
  cases stands with
  | direct known _ => exact Option.isSome_of_eq_some known
  | through known _ => exact Option.isSome_of_eq_some known

/-- A name that stands for a path leads to a name without declaration. -/
theorem StandsFor.leaves {path : Path} (stands : target?.StandsFor name path) :
    target?.Leaves name := by
  induction stands with
  | @direct name target known last =>
    refine ⟨1, target.root, ?_, last⟩
    rw [follow_succ (next?_of_known known)]
    rfl
  | @through name target path known _ ih =>
    obtain ⟨steps, last, here, undeclared⟩ := ih
    refine ⟨steps + 1, last, ?_, undeclared⟩
    rw [follow_succ (next?_of_known known)]
    exact here

theorem follow_eq_getElem? {names : List String} {first : String}
    (linked : (first :: names).IsChain fun front back => target?.next? front = some back) (steps : Nat)
    (inside : steps ≤ names.length) : target?.follow first steps = (first :: names)[steps]? := by
  induction steps with
  | zero => rfl
  | succ steps ih =>
    have before : steps < (first :: names).length := by simp; omega
    have behind : steps + 1 < (first :: names).length := by simp; omega
    have step := List.isChain_iff_getElem.1 linked steps behind
    rw [follow, ih (by omega), List.getElem?_eq_getElem before, List.getElem?_eq_getElem behind,
      Option.bind_some, step]

/-- From the first name of a cycle one comes to it again. -/
theorem IsCycle.revisits {names : List String} (cycle : target?.IsCycle names) {steps : Nat}
    (reached : target?.follow name steps = names.head?) : target?.Revisits name := by
  obtain ⟨long, closed, _, linked⟩ := cycle
  cases names with
  | nil => simp at long
  | cons first rest =>
    have around := follow_eq_getElem? linked rest.length (Nat.le_refl _)
    have last : (first :: rest)[rest.length]? = some first := by
      rw [List.head?_cons, List.getLast?_eq_getElem?] at closed
      exact closed.symm
    rw [List.head?_cons] at reached
    refine ⟨steps, steps + rest.length, first, ?_, reached, ?_⟩
    · simp only [List.length_cons] at long
      omega
    · rw [follow_add, reached, Option.bind_some, around, last]

end Targets

namespace Declarations

variable {declared fresh : Declarations} {trail : List String} {name : String}

/-- The names followed so far, cut where one comes to the last of them again, are a cycle. -/
theorem isCycle_dropWhile (linked : (trail ++ [name]).IsChain fun front back =>
      declared.targets.next? front = some back) (distinct : trail.Nodup) (followed : name ∈ trail) :
    declared.targets.IsCycle (trail.dropWhile (· != name) ++ [name]) ∧
      (trail.dropWhile (· != name) ++ [name]).head? = some name := by
  obtain ⟨front, back, rfl, apart⟩ := List.eq_append_cons_of_mem followed
  have cut : (front ++ name :: back).dropWhile (· != name) = name :: back := by
    have passed : ∀ other ∈ front, (other != name) = true := by
      intro other member
      simp only [bne_iff_ne, ne_eq]
      rintro rfl
      exact apart member
    rw [List.dropWhile_append_of_pos passed, List.dropWhile_cons_of_neg (by simp)]
  rw [cut]
  refine ⟨⟨by simp, ?_, ?_, ?_⟩, rfl⟩
  · rw [List.getLast?_concat]
    rfl
  · rw [List.dropLast_concat]
    exact (List.nodup_append.1 distinct).2.1
  · rw [List.append_assoc] at linked
    exact linked.right_of_append

theorem expandAlias_of_used (used : Keyed.get? name fresh = none) :
    expandAlias declared fresh trail name =
      .error (trail.dropWhile (· != name) ++ [name]) := by
  rw [expandAlias]
  split
  · rfl
  · rename_i target found
    rw [used] at found
    cases found

theorem expandAlias_of_unused {target : Path} (unused : Keyed.get? name fresh = some target) :
    expandAlias declared fresh trail name =
      if (declared.targets target.root).isSome then
        (expandAlias declared (Keyed.remove name fresh) (trail ++ [name]) target.root).map
          target.replaceRoot
      else .ok target := by
  rw [expandAlias]
  split
  · rename_i found
    rw [unused] at found
    cases found
  · rename_i other found
    obtain rfl : target = other := Option.some.inj (unused.symm.trans found)
    unfold targets
    split
    · cases expandAlias declared (Keyed.remove name fresh) (trail ++ [name]) target.root <;> rfl
    · rfl

/-- The names followed so far lead to a name one after the other, and the declarations of the others
are not yet used. -/
structure Trail (declared fresh : Declarations) (trail : List String) (name : String) : Prop where
  left : ∀ other, Keyed.get? other fresh = if other ∈ trail then none else declared.targets other
  linked : (trail ++ [name]).IsChain fun front back => declared.targets.next? front = some back
  distinct : trail.Nodup

namespace Trail

variable {target : Path}

theorem start (declared : Declarations) (name : String) : Trail declared declared [] name where
  left := by simp [targets]
  linked := .singleton _
  distinct := List.nodup_nil

theorem mem_of_used (followed : Trail declared fresh trail name)
    (known : (declared.targets name).isSome) (used : Keyed.get? name fresh = none) : name ∈ trail := by
  by_contra unseen
  rw [followed.left, if_neg unseen] at used
  rw [used] at known
  cases known

theorem not_mem_of_unused (followed : Trail declared fresh trail name)
    (unused : Keyed.get? name fresh = some target) : name ∉ trail := by
  intro member
  rw [followed.left, if_pos member] at unused
  cases unused

theorem known_of_unused (followed : Trail declared fresh trail name)
    (unused : Keyed.get? name fresh = some target) : declared.targets name = some target := by
  rw [← unused, followed.left, if_neg (followed.not_mem_of_unused unused)]

/-- The trail goes on with the name at the front of the path. -/
theorem extend (followed : Trail declared fresh trail name)
    (unused : Keyed.get? name fresh = some target) :
    Trail declared (Keyed.remove name fresh) (trail ++ [name]) target.root where
  left := by
    intro other
    by_cases same : other = name
    · simp [Keyed.get?_remove, same]
    · simp [Keyed.get?_remove, same, followed.left]
  linked := by
    have next := Targets.next?_of_known (followed.known_of_unused unused)
    rw [List.isChain_append]
    refine ⟨followed.linked, .singleton _, ?_⟩
    intro front last back head
    rw [List.getLast?_concat, Option.mem_some_iff] at last
    rw [List.head?_cons, Option.mem_some_iff] at head
    rw [← last, ← head]
    exact next
  distinct := by
    have unseen := followed.not_mem_of_unused unused
    rw [List.nodup_append]
    refine ⟨followed.distinct, List.nodup_singleton name, ?_⟩
    intro front member back single same
    rw [List.mem_singleton] at single
    exact unseen (single ▸ same ▸ member)

end Trail

/-- Expanding a name gives the path it stands for, or a cycle that one comes to from it. -/
theorem expandAlias_spec (followed : Trail declared fresh trail name)
    (known : (declared.targets name).isSome) :
    match expandAlias declared fresh trail name with
    | .ok path => declared.targets.StandsFor name path
    | .error names => declared.targets.IsCycle names ∧
        ∃ steps, declared.targets.follow name steps = names.head? := by
  induction fresh, trail, name using expandAlias.induct declared with
  | case1 fresh trail name used =>
    have again := followed.mem_of_used known used
    obtain ⟨cycle, first⟩ := isCycle_dropWhile followed.linked followed.distinct again
    rw [expandAlias_of_used used]
    exact ⟨cycle, 0, first.symm⟩
  | case2 fresh trail name target unused further ih =>
    change (declared.targets target.root).isSome at further
    have here := followed.known_of_unused unused
    have spec := ih (followed.extend unused) further
    rw [expandAlias_of_unused unused, if_pos further]
    cases expanded : expandAlias declared (Keyed.remove name fresh) (trail ++ [name]) target.root with
    | ok path =>
      rw [expanded] at spec
      exact .through here spec
    | error names =>
      rw [expanded] at spec
      obtain ⟨cycle, steps, reached⟩ := spec
      refine ⟨cycle, steps + 1, ?_⟩
      rw [Targets.follow_succ (Targets.next?_of_known here), reached]
  | case3 fresh trail name target unused last =>
    change ¬ (declared.targets target.root).isSome at last
    rw [expandAlias_of_unused unused, if_neg last]
    exact .direct (followed.known_of_unused unused) (Option.not_isSome_iff_eq_none.1 last)

/-- A declared name stands for the path it is expanded to, and else one comes from it to the cycle
that is reported. -/
theorem expand_spec (known : (declared.targets name).isSome) :
    match declared.expand name with
    | .ok path => declared.targets.StandsFor name path
    | .error names => declared.targets.IsCycle names ∧ declared.targets.Revisits name := by
  have spec := expandAlias_spec (Trail.start declared name) known
  unfold expand
  cases expanded : expandAlias declared declared [] name with
  | ok path =>
    rw [expanded] at spec
    exact spec
  | error names =>
    rw [expanded] at spec
    obtain ⟨cycle, steps, reached⟩ := spec
    exact ⟨cycle, cycle.revisits reached⟩

end Declarations

end DeckBinding
