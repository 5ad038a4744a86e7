import DeckBinding.Proofs.Path.Keys
import DeckBinding.Proofs.Resolution.Crossing
import Mathlib.Data.List.Find

set_option autoImplicit false

namespace DeckBinding

open DeckBinding.Number

/-- The collection that the first segments of a context go through, by its names from the outermost
one on. -/
def ContextPath.collection (context : ContextPath) : String :=
  ">".intercalate (context.map (·.name))

/-- The index that a plain walk selects of a collection: that of the context where its names make up
the collection, or the offset of the instance. -/
def Instance.currentIndex? (shown : Instance) (collection : String) : Option Int :=
  match shown.context.zipIdx.find? fun entry =>
      ContextPath.collection (shown.context.take (entry.2 + 1)) == collection with
  | some (segment, _) => some segment.index
  | none => if shown.collection = some collection then some shown.offset else none

/-- Whether a segment of the context stands for a collection can be told by its own name: it is the
name of the collection exactly when the names up to it make up the collection. -/
def Instance.ToldByName (shown : Instance) (collection : String) : Prop :=
  ∀ entry ∈ shown.context.zipIdx, entry.1.name = collection ↔
    ContextPath.collection (shown.context.take (entry.2 + 1)) = collection

instance (shown : Instance) (collection : String) : Decidable (shown.ToldByName collection) :=
  inferInstanceAs (Decidable (∀ entry ∈ shown.context.zipIdx, entry.1.name = collection ↔
    ContextPath.collection (shown.context.take (entry.2 + 1)) = collection))

/-- The value that the steps of a path lead to from the root of the data, one after the other. -/
def Path.plainWalk (path : Path) (shown : Instance) (root : Value) : Option Value :=
  crossSteps shown.currentIndex? shown none path.steps root

variable {root : Value} {path : Path} {shown : Instance} {context : ContextPath}

theorem length_collection_lt {left right : Nat} (before : left < right)
    (inside : right < context.length) :
    (ContextPath.collection (context.take (left + 1))).length <
      (ContextPath.collection (context.take (right + 1))).length := by
  have split : context.take (right + 1) =
      context.take (left + 1) ++ (context.take (right + 1)).drop (left + 1) := by
    have rejoined := List.take_append_drop (left + 1) (context.take (right + 1))
    rw [List.take_take, Nat.min_eq_left (by omega)] at rejoined
    exact rejoined.symm
  have front : (context.take (left + 1)).map (·.name) ≠ [] := by
    apply List.ne_nil_of_length_pos
    rw [List.length_map, List.length_take]
    omega
  have behind : ((context.take (right + 1)).drop (left + 1)).map (·.name) ≠ [] := by
    apply List.ne_nil_of_length_pos
    rw [List.length_map, List.length_drop, List.length_take]
    omega
  have mark : ">".length = 1 := rfl
  unfold ContextPath.collection
  rw [split, List.map_append, String.intercalate_append_of_ne_nil front behind, String.length_append,
    String.length_append]
  omega

/-- The names up to a segment of the context select its element. -/
theorem currentIndex?_collection {depth : Nat} {segment : ContextSegment}
    (there : shown.context[depth]? = some segment) :
    shown.currentIndex? (ContextPath.collection (shown.context.take (depth + 1))) =
      some segment.index := by
  have inside := (List.getElem?_eq_some_iff.1 there).1
  have found : (shown.context.zipIdx.find? fun entry =>
      ContextPath.collection (shown.context.take (entry.2 + 1)) ==
        ContextPath.collection (shown.context.take (depth + 1))) = some (segment, depth) := by
    have some : (shown.context.zipIdx.find? fun entry =>
        ContextPath.collection (shown.context.take (entry.2 + 1)) ==
          ContextPath.collection (shown.context.take (depth + 1))).isSome := by
      rw [List.find?_isSome]
      exact ⟨(segment, depth), List.mem_zipIdx_iff_getElem?.2 there, beq_self_eq_true _⟩
    obtain ⟨⟨other, place⟩, first⟩ := Option.isSome_iff_exists.1 some
    have same : ContextPath.collection (shown.context.take (place + 1)) =
        ContextPath.collection (shown.context.take (depth + 1)) := by
      simpa using List.find?_some first
    have placed := List.mem_zipIdx_iff_getElem?.1 (List.mem_of_find?_eq_some first)
    have bound := (List.getElem?_eq_some_iff.1 placed).1
    have lengths := congrArg String.length same
    obtain rfl : place = depth := by
      rcases Nat.lt_trichotomy place depth with before | equal | behind
      · have shorter := length_collection_lt before inside
        omega
      · exact equal
      · have longer := length_collection_lt behind bound
        omega
    obtain rfl : other = segment := Option.some.inj (placed.symm.trans there)
    exact first
  unfold Instance.currentIndex?
  rw [found]

theorem selectedIndex?_eq_currentIndex? {collection : String} (told : shown.ToldByName collection) :
    shown.selectedIndex? collection = shown.currentIndex? collection := by
  have found : (shown.context.find? fun segment => segment.name == collection) =
      (shown.context.zipIdx.find? fun entry =>
        ContextPath.collection (shown.context.take (entry.2 + 1)) == collection).map (·.1) := by
    conv => lhs; rw [← List.zipIdx_map_fst 0 shown.context, List.find?_map]
    congr 1
    apply List.find?_congr
    intro entry member
    rw [Bool.eq_iff_iff, Function.comp_apply, beq_iff_eq, beq_iff_eq]
    exact told entry member
  unfold Instance.selectedIndex? Instance.currentIndex?
  rw [found]
  cases shown.context.zipIdx.find? fun entry =>
    ContextPath.collection (shown.context.take (entry.2 + 1)) == collection <;> rfl

/-- The shared parts have the names of the context, and a part is left. -/
theorem sharedDepth_spec {parts : List (List Step)} (full : parts ≠ []) (context : ContextPath) :
    (parts.take (sharedDepth parts context)).map stepNames =
        (context.take (sharedDepth parts context)).map (·.name) ∧
      sharedDepth parts context < parts.length ∧ sharedDepth parts context ≤ context.length := by
  induction parts generalizing context with
  | nil => exact absurd rfl full
  | cons part rest ih =>
    cases rest with
    | nil => simp [sharedDepth]
    | cons next more =>
      cases context with
      | nil => simp [sharedDepth]
      | cons segment context =>
        rw [sharedDepth]
        split
        · simp
        · rename_i shares
          obtain ⟨names, left, inside⟩ := ih (List.cons_ne_nil _ _) context
          simp only [Bool.or_eq_true, not_or, Bool.not_eq_true, bne_eq_false_iff_eq] at shares
          simp only [List.take_succ_cons, List.map_cons, names, shares.2, List.length_cons] at left ⊢
          exact ⟨trivial, by omega, by omega⟩

/-- The elements that the first segments of a context lead to, looked up with nothing kept. -/
theorem contextElement_nil {depth : Nat} {key : String}
    (written : ContextPath.text (context.take depth) = .ok key) (inside : depth ≤ context.length)
    (readable : ∀ segment ∈ context.take depth,
      ∃ path, Path.readAbsolute segment.name.toList = .ok path) :
    (contextElement root context depth []).1 = .ok (ContextPath.follow root (context.take depth)) := by
  induction depth generalizing key with
  | zero => rfl
  | succ depth ih =>
    obtain ⟨segment, here⟩ : ∃ segment, context[depth]? = some segment :=
      ⟨_, List.getElem?_eq_getElem (by omega)⟩
    have front : context.take (depth + 1) = context.take depth ++ [segment] := by
      rw [List.take_add_one, here]
      rfl
    obtain ⟨shorter, wrote⟩ := ContextPath.exists_text_take written depth
    rw [List.take_take, Nat.min_eq_left (by omega)] at wrote
    have before := ih wrote (by omega) fun other member => readable other (by
      rw [front]
      exact List.mem_append_left _ member)
    obtain ⟨path, read⟩ := readable segment (by simp [front])
    rw [contextElement_of_absent here written rfl, ContextPath.follow_take_succ here]
    rcases walked : contextElement root context depth [] with ⟨parent, after⟩
    rw [walked] at before
    dsimp only at before
    subst before
    have step : segment.from? (ContextPath.follow root (context.take depth)) =
        .ok ((ContextPath.follow root (context.take depth)).bind segment.element?) := by
      unfold ContextSegment.from?
      rw [read]
      dsimp only
      congr 1
      cases ContextPath.follow root (context.take depth) with
      | none => rfl
      | some value =>
        unfold ContextSegment.element? walk
        rw [read]
        show (path.from? value).bind _ = _
        cases reached : path.from? value with
        | none => simp [bind, Except.bind, reached]
        | some collection => simp [bind, Except.bind, reached]
    dsimp only
    rw [step]

/-- The walk over a part and the `>` behind it leads to an element of the collection of the part. -/
theorem crossSteps_part {select : String → Option Int} {part rest : List Step} {next last : Step}
    {index : Int} (bare : Bare part) (valid : ∀ step ∈ part, step.segment.WellFormed)
    (inside : ∃ first rest, part = first :: rest ∧ ∀ step ∈ rest, step.join ≠ some .context)
    (crosses : next.join = some .context) (ends : part.getLast? = some last)
    (selects : select last.key = some index) (value : Value) :
    crossSteps select shown none (part ++ next :: rest) value =
      (ContextSegment.element? ⟨partText part, index⟩ value).bind
        (crossSteps select shown none (next :: rest)) := by
  obtain ⟨first, more, rfl, plain⟩ := inside
  have free : last.segment.index = none := bare last (List.mem_of_getLast? ends)
  have front : crossSteps select shown none (first :: more) value =
      followSegments value ((first :: more).map Step.segment) := by
    rw [crossSteps_plain none plain]
    exact followSteps_of_bare bare value
  rw [crossSteps_append, front, ends, element?_partText (List.cons_ne_nil _ _) valid]
  cases followSegments value ((first :: more).map Step.segment) with
  | none => rfl
  | some found =>
    have start : next.start? select (some last) found = found.item? index := by
      unfold Step.start? Step.cross?
      dsimp only
      rw [if_pos crosses, free, selects]
      rfl
    change ((next.start? select (some last) found).bind _) = (found.item? index).bind _
    rw [start]
    rfl

section Shared

variable (bare : ∀ part ∈ path.chunks.take (sharedDepth path.chunks shown.context), Bare part)

include bare

theorem partTexts_shared {depth : Nat}
    (shared : depth ≤ sharedDepth path.chunks shown.context) :
    (path.chunks.take depth).map partText = (shown.context.take depth).map (·.name) := by
  have names := (sharedDepth_spec path.chunks_ne_nil shown.context).1
  have texts : (path.chunks.take (sharedDepth path.chunks shown.context)).map partText =
      (path.chunks.take (sharedDepth path.chunks shown.context)).map stepNames :=
    List.map_congr_left fun part member => (Path.stepNames_of_bare (bare part member)).symm
  have fronts := congrArg (List.take depth) (texts.trans names)
  rw [← List.map_take, ← List.map_take, List.take_take, List.take_take, Nat.min_eq_left shared] at fronts
  exact fronts

/-- A shared part has the name of its context segment, and the key at its end is made up of the
names up to the segment. A `>` stands behind it. -/
theorem exists_shared_part {depth : Nat} (shared : depth < sharedDepth path.chunks shown.context) :
    ∃ part next rest more segment last, path.chunks.drop depth = part :: (next :: rest) :: more ∧
      next.join = some .context ∧ Bare part ∧ shown.context[depth]? = some segment ∧
      segment.name = partText part ∧ part.getLast? = some last ∧
      last.key = ContextPath.collection (shown.context.take (depth + 1)) := by
  obtain ⟨_, left, inside⟩ := sharedDepth_spec path.chunks_ne_nil shown.context
  obtain ⟨part, placed⟩ : ∃ part, path.chunks[depth]? = some part :=
    ⟨_, List.getElem?_eq_getElem (by omega)⟩
  obtain ⟨following, behind⟩ : ∃ following, path.chunks[depth + 1]? = some following :=
    ⟨_, List.getElem?_eq_getElem (by omega)⟩
  obtain ⟨segment, there⟩ : ∃ segment, shown.context[depth]? = some segment :=
    ⟨_, List.getElem?_eq_getElem (by omega)⟩
  have front : path.chunks.take (depth + 1) = path.chunks.take depth ++ [part] := by
    rw [List.take_add_one, placed]
    rfl
  have back : path.chunks.drop (depth + 1) = following :: path.chunks.drop (depth + 2) :=
    List.drop_eq_getElem?_toList_append.trans (by rw [behind]; rfl)
  have split : path.chunks = path.chunks.take (depth + 1) ++ following :: path.chunks.drop (depth + 2) := by
    rw [← back, List.take_append_drop]
  obtain ⟨next, rest, rfl, crosses⟩ := Path.exists_crossing split (by simp [front])
  have barePart : ∀ other ∈ path.chunks.take (depth + 1), Bare other :=
    fun other member => bare other (List.take_subset_take_left _ shared member)
  have texts := partTexts_shared bare shared
  have name : segment.name = partText part := by
    have same := congrArg (·[depth]?) texts
    simpa [List.getElem?_take, placed, there] using same.symm
  obtain ⟨last, ends⟩ := Option.isSome_iff_exists.1
    (List.getLast?_isSome.2 (Path.ne_nil_of_mem_chunks (List.mem_of_getElem? placed)))
  have key : last.key = ">".intercalate ((path.chunks.take (depth + 1)).map partText) := by
    apply Path.key_of_parts split barePart
    rw [front, List.flatten_append, List.flatten_singleton, List.getLast?_append, ends]
    rfl
  refine ⟨part, next, rest, path.chunks.drop (depth + 2), segment, last, ?_, crosses, ?_, there, name, ends,
    ?_⟩
  · rw [← back]
    exact List.drop_eq_getElem?_toList_append.trans (by rw [placed]; rfl)
  · apply barePart
    rw [front]
    exact List.mem_append_right _ List.mem_cons_self
  · rw [key, texts]
    rfl

/-- The plain walk goes where the shared parts of the context lead. -/
theorem plainWalk_eq (wellFormed : path.WellFormed) {depth : Nat}
    (shared : depth ≤ sharedDepth path.chunks shown.context) :
    path.plainWalk shown root =
      (ContextPath.follow root (shown.context.take depth)).bind
        (crossSteps shown.currentIndex? shown none (path.chunks.drop depth).flatten) := by
  induction depth with
  | zero =>
    rw [List.drop_zero, Path.flatten_chunks]
    rfl
  | succ depth ih =>
    obtain ⟨part, next, rest, more, segment, last, here, crosses, free, there, name, ends, key⟩ :=
      exists_shared_part bare shared
    have later : path.chunks.drop (depth + 1) = (next :: rest) :: more := by
      rw [← List.tail_drop, here, List.tail_cons]
    have member : part ∈ path.chunks := List.mem_of_mem_drop (here ▸ List.mem_cons_self)
    have valid : ∀ step ∈ part, step.segment.WellFormed := fun step among =>
      wellFormed.segment (Path.mem_steps_of_mem_chunks member among)
    have selects := currentIndex?_collection there
    rw [← key] at selects
    rw [ih (by omega), ContextPath.follow_take_succ there, later, here, List.flatten_cons,
      List.flatten_cons, Option.bind_assoc]
    congr 1
    funext value
    refine (crossSteps_part free valid (Path.exists_cons_of_mem_chunks member) crosses ends selects
      value).trans ?_
    rw [← name]
    rfl

theorem exists_read_of_shared (wellFormed : path.WellFormed) {segment : ContextSegment}
    (member : segment ∈ shown.context.take (sharedDepth path.chunks shown.context)) :
    ∃ other, Path.readAbsolute segment.name.toList = .ok other := by
  have named := @List.mem_map_of_mem _ _ _ _ (·.name) member
  rw [← partTexts_shared bare (Nat.le_refl _)] at named
  obtain ⟨part, among, name⟩ := List.mem_map.1 named
  have placed : part ∈ path.chunks := List.mem_of_mem_take among
  obtain ⟨other, read, _⟩ := Path.exists_of_partText (Path.ne_nil_of_mem_chunks placed)
    fun step inner => wellFormed.segment (Path.mem_steps_of_mem_chunks placed inner)
  exact ⟨other, name ▸ read⟩

end Shared

/-- The resolver returns what the plain walk leads to, when the parts shared with the context select
no element and the names of its segments tell the collections that are crossed behind them. -/
theorem resolvePath_eq_plainWalk (root : Value) (text : List Char) (path : Path)
    (parsed : Path.read text = .ok path) (shown : Instance) (cache : ContextCache)
    (same : SameElements root shown.context cache []) (key : String)
    (written : ContextPath.text (shown.context.take (sharedDepth path.chunks shown.context)) = .ok key)
    (bare : ∀ part ∈ path.chunks.take (sharedDepth path.chunks shown.context), Bare part)
    (told : ∀ step ∈ crossed (path.chunks.drop (sharedDepth path.chunks shown.context)).flatten,
      step.segment.index = none → shown.ToldByName step.key) :
    ∃ outcome, (resolvePath root path shown cache).1 = .ok outcome ∧
      outcome.toOption = path.plainWalk shown root := by
  have wellFormed := Path.wellFormed_of_read parsed
  have current := @contextElement_nil root shown.context _ key written
    (sharedDepth_spec path.chunks_ne_nil shown.context).2.2
    fun segment member => exists_read_of_shared bare wellFormed member
  obtain ⟨outcome, resolved, walked⟩ := exists_outcome current
  refine ⟨outcome, (resolvePath_congr path same).trans resolved, ?_⟩
  rw [walked, plainWalk_eq bare wellFormed (Nat.le_refl _)]
  congr 1
  funext element
  exact crossSteps_congr (fun step member pinned =>
    selectedIndex?_eq_currentIndex? (told step member pinned)) element

/-- Items of `d` below the second `c` of the only `p`. -/
def nestedItems : Value :=
  .map [(.text "p", .list [.map [(.text "c", .list [.null,
    .map [(.text "d", .list [.map [(.text "n", .text "x")]])]])]])]

/-- A slide for the items below the second `c` of the first `p`. -/
def belowInner : Instance :=
  ⟨1, 0, [⟨"p", 0⟩, ⟨"c", 1⟩], 0, some 1, false, some "p>c>d"⟩

theorem resolvePath_eq_plainWalk_nested :
    (resolvePath nestedItems ⟨⟨"p", none⟩, [(.context, ⟨"c", none⟩), (.context, ⟨"d", none⟩),
      (.context, ⟨"n", none⟩)]⟩ belowInner []).1 = .ok (.ok (.text "x")) := by
  obtain ⟨outcome, resolved, walked⟩ := resolvePath_eq_plainWalk nestedItems "p>c>d>n".toList
    ⟨⟨"p", none⟩, [(.context, ⟨"c", none⟩), (.context, ⟨"d", none⟩), (.context, ⟨"n", none⟩)]⟩
    (by decide +kernel) belowInner [] (SameElements.refl []) "p[0]>c[1]" (by decide +kernel)
    (by decide) (by decide)
  have value : outcome.toOption = some (.text "x") := walked.trans rfl
  cases outcome with
  | error absence => cases value
  | ok found => rw [resolved, Option.some.inj value]

/-- Items of `c` at the top, and others below the only `p`. -/
def namesakes : Value :=
  .map [(.text "p", .list [.map [(.text "c", .list [.null, .null])]]),
    (.text "c", .list [.map [(.text "n", .text "x")], .map [(.text "n", .text "y")]])]

/-- An item of `c` in a `p` that is no sequence. -/
def mappedItem : Value :=
  .map [(.text "p", .map [(.text "c", .list [.map [(.text "n", .text "x")]])])]

def belowMember : Instance :=
  ⟨1, 0, [⟨"p.c", 0⟩], 0, some 0, false, some "p.c>d"⟩

/-- The index of an inner segment is used for a collection at the top with the last name of the
inner one, and an element of the context for a path that selects another one ahead. -/
theorem resolvePath_ne_plainWalk :
    (∃ path, Path.read "c>n".toList = .ok path ∧
      (resolvePath namesakes path belowInner []).1 = .ok (.ok (.text "y")) ∧
      path.plainWalk belowInner namesakes = none) ∧
    ∃ path, Path.read "p[0].c>n".toList = .ok path ∧
      (resolvePath mappedItem path belowMember []).1 = .ok (.ok (.text "x")) ∧
      path.plainWalk belowMember mappedItem = none := by
  refine ⟨⟨⟨⟨"c", none⟩, [(.context, ⟨"n", none⟩)]⟩, by decide +kernel, rfl, rfl⟩,
    ⟨⟨"p", some 0⟩, [(.member, ⟨"c", none⟩), (.context, ⟨"n", none⟩)]⟩, by decide +kernel, ?_, rfl⟩
  have current := @contextElement_nil mappedItem belowMember.context 1 "p.c[0]" (by decide +kernel)
    (by decide) fun segment member => by
      rw [List.mem_singleton.1 member]
      exact ⟨⟨⟨"p", none⟩, [(.member, ⟨"c", none⟩)]⟩, by decide +kernel⟩
  obtain ⟨outcome, resolved, walked⟩ := @exists_outcome belowMember mappedItem
    ⟨⟨"p", some 0⟩, [(.member, ⟨"c", none⟩), (.context, ⟨"n", none⟩)]⟩ [] _ current
  have value : outcome.toOption = some (.text "x") := walked.trans rfl
  cases outcome with
  | error absence => cases value
  | ok found => rw [resolved, Option.some.inj value]

end DeckBinding
