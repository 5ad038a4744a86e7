import DeckBinding.Path.Walk
import DeckBinding.Proofs.Alias.Cycles
import DeckBinding.Proofs.Path.Steps
import DeckBinding.Proofs.Resolution.Follow

set_option autoImplicit false

namespace DeckBinding

open DeckBinding.Number

/-- The segments of a path with their joins, `.` in front of the first one. -/
def Path.entries (path : Path) : List (Join × Segment) :=
  (.member, path.first) :: path.rest

/-- A path without `>` that can be read from its text. -/
def Path.Absolute (path : Path) : Prop :=
  ∀ entry ∈ path.entries, entry.1 = .member ∧ entry.2.WellFormed

/-- What a path leads to when its first name stands for a value: the item behind the name, if there
is an index, and what the further segments lead to from it. -/
def Path.behindName? (path : Path) (value : Value) : Option Value :=
  let item? := match path.first.index with
    | some index => value.item? index
    | none => some value
  item?.bind fun item => followSegments item (path.rest.map (·.2))

namespace Path

variable {path target : Path}

theorem segments_entries (path : Path) : path.entries.map (·.2) = path.segments :=
  rfl

theorem entries_replaceRoot_bare (bare : path.first.index = none) (target : Path) :
    (path.replaceRoot target).entries = target.entries ++ path.rest := by
  simp [replaceRoot, entries, bare]

theorem entries_replaceRoot_indexed {index : Nat} (indexed : path.first.index = some index)
    (target : Path) :
    (path.replaceRoot target).entries = (target.withLastIndex (some index)).entries ++ path.rest := by
  simp [replaceRoot, entries, indexed]

theorem Absolute.wellFormed (absolute : path.Absolute) : path.WellFormed :=
  ⟨(absolute _ List.mem_cons_self).2,
    fun entry member => (absolute entry (List.mem_cons_of_mem _ member)).2⟩

theorem Absolute.usesContext (absolute : path.Absolute) : path.usesContext = false := by
  rw [Path.usesContext, List.any_eq_false]
  intro entry member
  rw [(absolute entry (List.mem_cons_of_mem _ member)).1]
  decide

theorem absolute_of_readAbsolute {text : List Char} (read : readAbsolute text = .ok path) :
    Path.read text = .ok path ∧ path.Absolute := by
  unfold readAbsolute at read
  obtain ⟨found, first, further⟩ := exists_of_bind_eq_ok read
  split at further
  · cases further
  · rename_i plain
    cases further
    have wellFormed := wellFormed_of_read first
    refine ⟨first, ?_⟩
    intro entry member
    rcases List.mem_cons.1 member with rfl | later
    · exact ⟨rfl, wellFormed.1⟩
    · exact ⟨join_of_mem_rest (Bool.not_eq_true _ ▸ plain) entry later, wellFormed.2 entry later⟩

theorem walk_of_read {text : List Char} (read : readAbsolute text = .ok path) (value : Value) :
    walk value text = .ok (path.from? value) := by
  rw [walk, read]
  rfl

/-- The text of a path leads where the path leads. -/
theorem Absolute.walk_text (absolute : path.Absolute) (value : Value) :
    walk value path.text.toList = .ok (path.from? value) := by
  apply walk_of_read
  unfold readAbsolute
  rw [read_text absolute.wellFormed]
  change (if path.usesContext then _ else _) = _
  rw [absolute.usesContext]
  rfl

theorem Absolute.withLastIndex (absolute : path.Absolute) {index : Option Nat}
    (bound : ∀ number, index = some number → number < writeBound) :
    (path.withLastIndex index).Absolute := by
  obtain ⟨front, last, segment, entries, changed⟩ := exists_lastEntry path .member
  unfold Absolute Path.entries at absolute ⊢
  rw [entries] at absolute
  rw [changed]
  intro entry member
  rcases List.mem_append.1 member with earlier | final
  · exact absolute entry (List.mem_append_left _ earlier)
  · have before := absolute (last, segment) (by simp)
    rw [List.mem_singleton.1 final]
    exact ⟨before.1, before.2.1, bound⟩

theorem Absolute.replaceRoot (absolute : path.Absolute) (front : target.Absolute) :
    (path.replaceRoot target).Absolute := by
  have behind : ∀ entry ∈ path.rest, entry.1 = .member ∧ entry.2.WellFormed :=
    fun entry member => absolute entry (List.mem_cons_of_mem _ member)
  unfold Absolute
  cases index : path.first.index with
  | none =>
    rw [entries_replaceRoot_bare index]
    intro entry member
    rcases List.mem_append.1 member with earlier | later
    · exact front entry earlier
    · exact behind entry later
  | some number =>
    have bound : ∀ other, some number = some other → other < writeBound := by
      rintro other ⟨⟩
      exact absolute.wellFormed.1.2 number index
    rw [entries_replaceRoot_indexed index]
    intro entry member
    rcases List.mem_append.1 member with earlier | later
    · exact front.withLastIndex bound entry earlier
    · exact behind entry later

/-- Selecting an item at the end of a path selects it of what the path leads to without an index. -/
theorem from?_withLastIndex (path : Path) (index : Nat) (value : Value) :
    (path.withLastIndex (some index)).from? value =
      ((path.withLastIndex none).from? value).bind fun found => found.item? (index : Int) := by
  obtain ⟨front, last, segment, _, changed⟩ := exists_lastEntry path .member
  have segments (other : Option Nat) :
      (path.withLastIndex other).segments = front.map (·.2) ++ [⟨segment.name, other⟩] := by
    have mapped := congrArg (List.map (·.2)) (changed other)
    rwa [List.map_append] at mapped
  unfold from?
  rw [segments, segments, followSegments_append, followSegments_append]
  cases followSegments value (front.map (·.2)) with
  | none => rfl
  | some reached =>
    simp only [Option.bind_some, followSegments, from?_of_bare]
    unfold Segment.from?
    cases reached <;> simp [Value.member?]

theorem from?_replaceRoot_bare (bare : path.first.index = none) (target : Path) (value : Value) :
    (path.replaceRoot target).from? value = (target.from? value).bind path.behindName? := by
  unfold from?
  rw [← segments_entries, entries_replaceRoot_bare bare, List.map_append, followSegments_append]
  unfold behindName?
  rw [bare]
  rfl

theorem from?_replaceRoot_indexed {index : Nat} (indexed : path.first.index = some index)
    (target : Path) (value : Value) :
    (path.replaceRoot target).from? value =
      ((target.withLastIndex none).from? value).bind path.behindName? := by
  have moved : (path.replaceRoot target).from? value =
      ((target.withLastIndex (some index)).from? value).bind fun item =>
        followSegments item (path.rest.map (·.2)) := by
    unfold from?
    rw [← segments_entries, entries_replaceRoot_indexed indexed, List.map_append,
      followSegments_append]
    rfl
  rw [moved, from?_withLastIndex, Option.bind_assoc]
  unfold behindName?
  rw [indexed]

end Path

/-- What holds of every declared path, and stays when names are replaced, holds of the paths that
names stand for. -/
theorem Targets.StandsFor.keeps {target? : Targets} {property : Path → Prop}
    (replaced : ∀ path target, property path → property target → property (path.replaceRoot target))
    (declared : ∀ other target, target? other = some target → property target) {name : String}
    {path : Path} (stands : target?.StandsFor name path) : property path := by
  induction stands with
  | direct known _ => exact declared _ _ known
  | through known _ ih => exact replaced _ _ (declared _ _ known) ih

namespace AliasTable

variable {mapping : List (String × String)} {table : AliasTable}

theorem standsFor_of_find? (wellFormed : ∀ entry ∈ Keyed.ofList mapping,
      ∃ path, Path.ofString entry.2 = .ok path)
    (made : AliasTable.ofMapping mapping = .ok table) {name : String} {target : Path}
    (found : table.find? name = some target) :
    (Targets.ofMapping mapping).StandsFor name target := by
  obtain ⟨declared, read, targets⟩ := exists_declared wellFormed
  have spec := expandAll_spec declared declared
  unfold AliasTable.ofMapping at made
  rw [read] at made
  cases expanded : expandAll declared declared with
  | error names => simp [expanded] at made
  | ok entries =>
    simp only [expanded, Except.ok.injEq] at made
    rw [expanded] at spec
    obtain ⟨names, each⟩ := spec
    rw [← made] at found
    have member := Keyed.mem_of_get? found
    have known : (declared.targets name).isSome := by
      rw [Declarations.targets_isSome_iff, ← names]
      exact List.mem_map_of_mem member
    rw [← targets]
    exact Declarations.standsFor_of_expand known (each _ member)

theorem expandText_of_read {text : String} {path target : Path}
    (read : Path.ofString text = .ok path) (known : table.find? path.root = some target) :
    table.expandText text = .ok (path.replaceRoot target).text := by
  have filled : table.entries.isEmpty = false := by
    unfold find? at known
    cases entries : table.entries with
    | nil => simp [entries, Keyed.get?] at known
    | cons entry rest => rfl
  have lettered : text.isEmpty = false := by
    rw [String.isEmpty_eq_false_iff]
    rintro rfl
    cases read
  unfold expandText expandPath
  simp [filled, lettered, read, known]

/-- A path below a name leads to what is found behind the name when the name stands for the value
its path leads to. Only when both the path below the name and the path of the name select an item of
the same value, the item of the name is passed over: the one below it is read of the whole value. -/
theorem walk_expandText (absolute : ∀ entry ∈ Keyed.ofList mapping,
      ∃ path, Path.readAbsolute entry.2.toList = .ok path)
    (made : AliasTable.ofMapping mapping = .ok table) {text : String} {path target : Path}
    (read : Path.readAbsolute text.toList = .ok path)
    (known : table.find? path.root = some target) (data : Value) :
    ∃ rewritten reached whole, table.expandText text = .ok rewritten ∧
      walk data target.text.toList = .ok reached ∧
      walk data (target.withLastIndex none).text.toList = .ok whole ∧
      (path.first.index = none ∨ target.withLastIndex none = target →
        walk data rewritten.toList = .ok (reached.bind path.behindName?)) ∧
      (path.first.index ≠ none →
        walk data rewritten.toList = .ok (whole.bind path.behindName?)) := by
  obtain ⟨here, pathAbsolute⟩ := Path.absolute_of_readAbsolute read
  have wellFormed : ∀ entry ∈ Keyed.ofList mapping, ∃ path, Path.ofString entry.2 = .ok path := by
    intro entry member
    obtain ⟨declared, found⟩ := absolute entry member
    exact ⟨declared, (Path.absolute_of_readAbsolute found).1⟩
  have declared : ∀ name target, Targets.ofMapping mapping name = some target →
      target.Absolute := by
    intro name target stands
    obtain ⟨other, listed, found⟩ := Option.bind_eq_some_iff.1 stands
    obtain ⟨path, entry⟩ := absolute _ (Keyed.mem_of_get? listed)
    obtain ⟨again, plain⟩ := Path.absolute_of_readAbsolute entry
    rw [Path.ofString, again] at found
    cases found
    exact plain
  have front : target.Absolute :=
    (standsFor_of_find? wellFormed made known).keeps (fun _ _ => Path.Absolute.replaceRoot) declared
  have bare : (target.withLastIndex none).Absolute := front.withLastIndex (by simp)
  have whole := (pathAbsolute.replaceRoot front).walk_text data
  refine ⟨_, _, _, expandText_of_read here known, front.walk_text data, bare.walk_text data, ?_, ?_⟩
  · intro either
    rw [whole]
    cases index : path.first.index with
    | none => rw [Path.from?_replaceRoot_bare index]
    | some number =>
      rcases either with none | same
      · rw [index] at none
        cases none
      · rw [Path.from?_replaceRoot_indexed index, same]
  · intro indexed
    cases index : path.first.index with
    | none => exact absurd index indexed
    | some number => rw [whole, Path.from?_replaceRoot_indexed index]

def shortNames : List (String × String) :=
  [("staff", "unit.people"), ("unit", "company.units[1]")]

def staffPath : Path :=
  ⟨⟨"company", none⟩, [(.member, ⟨"units", some 1⟩), (.member, ⟨"people", none⟩)]⟩

def twoUnits : Value :=
  .map [(.text "company", .map [(.text "units", .list [.null,
    .map [(.text "people", .list [.text "ann", .text "bob"])]])])]

/-- The second one of the people, through two short names. -/
theorem walk_expandText_two_names :
    ∃ table rewritten, AliasTable.ofMapping shortNames = .ok table ∧
      table.expandText "staff[1]" = .ok rewritten ∧
      walk twoUnits rewritten.toList = .ok (some (.text "bob")) := by
  have listed : Keyed.ofList shortNames = shortNames := by decide
  have absolute : ∀ entry ∈ Keyed.ofList shortNames,
      ∃ path, Path.readAbsolute entry.2.toList = .ok path := by
    rw [listed]
    intro entry member
    simp only [shortNames, List.mem_cons, List.not_mem_nil, or_false] at member
    rcases member with rfl | rfl
    · exact ⟨⟨⟨"unit", none⟩, [(.member, ⟨"people", none⟩)]⟩, by decide +kernel⟩
    · exact ⟨⟨⟨"company", none⟩, [(.member, ⟨"units", some 1⟩)]⟩, by decide +kernel⟩
  have made : AliasTable.ofMapping shortNames = .ok ⟨[("staff", staffPath),
      ("unit", ⟨⟨"company", none⟩, [(.member, ⟨"units", some 1⟩)]⟩)]⟩ := by
    decide +kernel
  have read : Path.readAbsolute "staff[1]".toList = .ok ⟨⟨"staff", some 1⟩, []⟩ := by
    decide +kernel
  obtain ⟨rewritten, reached, whole, expanded, target, _, meaning, _⟩ :=
    @walk_expandText _ _ absolute made _ _ staffPath read rfl twoUnits
  refine ⟨_, rewritten, made, expanded, ?_⟩
  have people : walk twoUnits staffPath.text.toList =
      .ok (some (.list [.text "ann", .text "bob"])) :=
    @Path.walk_of_read staffPath _ (by decide +kernel) twoUnits
  cases target.symm.trans people
  exact meaning (.inr rfl)

def twoPairs : Value :=
  .map [(.text "a", .list [.list [.text "p", .text "q"], .list [.text "r", .text "s"]])]

/-- The first item of the second pair is "r", but where the name stands for the second pair and the
path selects the first item behind it, the first pair is found. -/
theorem walk_expandText_item_passed_over :
    ∃ table path target, AliasTable.ofMapping [("x", "a[1]")] = .ok table ∧
      Path.readAbsolute "x[0]".toList = .ok path ∧ table.find? path.root = some target ∧
      table.expandText "x[0]" = .ok "a[0]" ∧
      walk twoPairs "a[0]".toList = .ok (some (.list [.text "p", .text "q"])) ∧
      walk twoPairs target.text.toList = .ok (some (.list [.text "r", .text "s"])) ∧
      path.behindName? (.list [.text "r", .text "s"]) = some (.text "r") := by
  have first : walk twoPairs "a[0]".toList = .ok (some (.list [.text "p", .text "q"])) :=
    @Path.walk_of_read ⟨⟨"a", some 0⟩, []⟩ _ (by decide +kernel) twoPairs
  have second : walk twoPairs "a[1]".toList = .ok (some (.list [.text "r", .text "s"])) :=
    @Path.walk_of_read ⟨⟨"a", some 1⟩, []⟩ _ (by decide +kernel) twoPairs
  have text : (⟨⟨"a", some 1⟩, []⟩ : Path).text = "a[1]" := by decide +kernel
  refine ⟨⟨[("x", ⟨⟨"a", some 1⟩, []⟩)]⟩, ⟨⟨"x", some 0⟩, []⟩, ⟨⟨"a", some 1⟩, []⟩, by decide +kernel,
    by decide +kernel, rfl, by decide +kernel, first, ?_, rfl⟩
  rw [text]
  exact second

end AliasTable

end DeckBinding
