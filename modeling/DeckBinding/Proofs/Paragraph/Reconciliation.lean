import DeckBinding.Proofs.Outcome
import DeckBinding.Proofs.Paragraph.Groups
import DeckBinding.Proofs.Resolution.Texts

set_option autoImplicit false

namespace DeckBinding

open DeckBinding.Number

variable {resolver : Resolver} {shown : Instance} {start : ResolverState}

/-- What the runs of groups turn into: a share of fillings for each run, which fill the pieces of
the groups and hold what was resolved for them. -/
structure Assembles (resolver : Resolver) (shown : Instance) (start : ResolverState)
    (groups : List RunGroup) (resolved : List Filling) (texts : List (List Char))
    (shares : List (List Filling)) : Prop where
  stands : List.Forall₂ (Stands resolver shown start)
    (groups.flatMap fun group => resolver.piecesOf group.runs.flatten) shares.flatten
  texts : texts = shares.map fillingsText
  count : shares.length = (groups.flatMap RunGroup.runs).length
  resolutions : (shares.flatten.filterMap Filling.resolution?).Perm
    (resolved.filterMap Filling.resolution?)

theorem resolutions_plain (run : List Char) :
    (run.map fun c => Filling.kept [c]).filterMap Filling.resolution? = [] := by
  induction run with
  | nil => rfl
  | cons c rest ih => exact ih

namespace Assembles

variable {groups : List RunGroup} {resolved : List Filling} {texts : List (List Char)}
  {shares : List (List Filling)}

theorem kept (behind : Assembles resolver shown start groups resolved texts shares)
    {run : List Char} (bare : expressionSpans run = []) :
    Assembles resolver shown start (.kept run :: groups) resolved (run :: texts)
      ((run.map fun c => .kept [c]) :: shares) := by
  refine ⟨?_, ?_, ?_, ?_⟩
  · rw [List.flatten_cons, List.flatMap_cons, RunGroup.runs, List.flatten_singleton,
      piecesOf_of_bare bare]
    exact List.rel_append (stands_plain start run) behind.stands
  · rw [List.map_cons, fillingsText_plain, behind.texts]
  · rw [List.flatMap_cons, List.length_cons, List.length_append, behind.count, RunGroup.runs,
      List.length_singleton, Nat.add_comm]
  · rw [List.flatten_cons, List.filterMap_append, resolutions_plain]
    exact behind.resolutions

theorem alone (behind : Assembles resolver shown start groups resolved texts shares)
    {run : List Char} {fillings : List Filling}
    (filled : List.Forall₂ (Stands resolver shown start) (resolver.piecesOf run) fillings) :
    Assembles resolver shown start (.alone run :: groups) (fillings ++ resolved)
      (fillingsText fillings :: texts) (fillings :: shares) := by
  refine ⟨?_, ?_, ?_, ?_⟩
  · rw [List.flatten_cons, List.flatMap_cons, RunGroup.runs, List.flatten_singleton]
    exact List.rel_append filled behind.stands
  · rw [List.map_cons, behind.texts]
  · rw [List.flatMap_cons, List.length_cons, List.length_append, behind.count, RunGroup.runs,
      List.length_singleton, Nat.add_comm]
  · rw [List.flatten_cons, List.filterMap_append, List.filterMap_append]
    exact behind.resolutions.append_left _

theorem joined (behind : Assembles resolver shown start groups resolved texts shares)
    {runs : List (List Char)} {spreads : List (List Filling)}
    (filled : List.Forall₂ (Stands resolver shown start) (resolver.piecesOf runs.flatten)
      spreads.flatten) (count : spreads.length = runs.length) :
    Assembles resolver shown start (.joined runs :: groups) (spreads.flatten ++ resolved)
      (spreads.map fillingsText ++ texts) (spreads ++ shares) := by
  refine ⟨?_, ?_, ?_, ?_⟩
  · rw [List.flatten_append, List.flatMap_cons, RunGroup.runs]
    exact List.rel_append filled behind.stands
  · rw [List.map_append, behind.texts]
  · rw [List.flatMap_cons, List.length_append, List.length_append, behind.count, count,
      RunGroup.runs]
  · rw [List.flatten_append, List.filterMap_append, List.filterMap_append]
    exact behind.resolutions.append_left _

/-- The order in which the groups were resolved does not matter. -/
theorem perm (assembles : Assembles resolver shown start groups resolved texts shares)
    {others : List Filling} (moved : resolved.Perm others) :
    Assembles resolver shown start groups others texts shares :=
  ⟨assembles.stands, assembles.texts, assembles.count,
    assembles.resolutions.trans (moved.filterMap _)⟩

end Assembles

/-- What a range of runs is spread to, which is a share for each one. -/
theorem spread_range {runs : List (List Char)} {first last : Nat} (ordered : first ≤ last)
    (inside : last < runs.length) {text : List Char} {fillings : List Filling}
    (filled : List.Forall₂ (Stands resolver shown start) (resolver.piecesOf text) fillings) :
    ∃ spreads : List (List Filling), spreads.flatten = fillings ∧
      spreads.length = last + 1 - first ∧
      spread ((runs.drop first).take (last + 1 - first)) (.ofFillings fillings) =
        spreads.map fillingsText := by
  have size : ((runs.drop first).take (last + 1 - first)).length = last + 1 - first := by
    rw [List.length_take, List.length_drop]
    omega
  have nonempty : (runs.drop first).take (last + 1 - first) ≠ [] :=
    List.length_pos_iff.1 (by omega)
  obtain ⟨spreads, flat, count, texts⟩ := spread_shares nonempty (atomic_of_stands filled)
  exact ⟨spreads, flat, count.trans size, texts⟩

theorem assemble_assembles {runs : List (List Char)} {position : Nat} {groups : List RunGroup}
    (grouping : Grouping runs position groups) {alone joined : List (List Filling)}
    (standsAlone : FillTexts resolver shown start (groups.filterMap RunGroup.alone?) alone)
    (standsJoined : FillTexts resolver shown start (groups.filterMap RunGroup.joined?) joined) :
    ∃ shares, Assembles resolver shown start groups (alone ++ joined).flatten
      (assemble groups (alone.map .ofFillings) (joined.map .ofFillings)) shares := by
  induction grouping generalizing alone joined with
  | done =>
    cases standsAlone
    cases standsJoined
    exact ⟨[], .nil, rfl, rfl, .nil⟩
  | kept here uncrossed bare more ih =>
    obtain ⟨shares, behind⟩ := ih standsAlone standsJoined
    exact ⟨_, behind.kept bare⟩
  | alone here uncrossed more ih =>
    cases standsAlone with
    | cons filled standsOthers =>
      obtain ⟨shares, behind⟩ := ih standsOthers standsJoined
      exact ⟨_, behind.alone filled⟩
  | joined ordered inside uncrossed joins more ih =>
    cases standsJoined with
    | @cons _ fillings _ others filled standsOthers =>
      obtain ⟨shares, behind⟩ := ih standsAlone standsOthers
      obtain ⟨spreads, rfl, count, texts⟩ := spread_range ordered inside filled
      have moved : (spreads.flatten ++ (alone ++ others).flatten).Perm
          (alone ++ spreads.flatten :: others).flatten := by
        rw [List.flatten_append, List.flatten_append, List.flatten_cons]
        exact List.perm_append_comm_assoc _ _ _
      rw [List.map_cons, assemble, texts]
      refine ⟨_, (behind.joined filled ?_).perm moved⟩
      rw [count, List.length_take, List.length_drop]
      omega

/-- A run without expressions that no expression joins with another comes out as it went in. -/
theorem getElem?_assemble {runs : List (List Char)} {position : Nat} {groups : List RunGroup}
    (grouping : Grouping runs position groups) {alone joined : List (List Filling)}
    (standsAlone : FillTexts resolver shown start (groups.filterMap RunGroup.alone?) alone)
    (standsJoined : FillTexts resolver shown start (groups.filterMap RunGroup.joined?) joined)
    {offset : Nat} {run : List Char} (there : runs[position + offset]? = some run)
    (bare : expressionSpans run = []) (loose : ¬ Joined runs (position + offset)) :
    (assemble groups (alone.map .ofFillings) (joined.map .ofFillings))[offset]? = some run := by
  induction grouping generalizing alone joined offset with
  | done =>
    have inside := (List.getElem?_eq_some_iff.1 there).1
    omega
  | @kept position other rest here uncrossed plain more ih =>
    rw [assemble]
    cases offset with
    | zero => exact here.symm.trans there
    | succ offset =>
      rw [← Nat.add_assoc, Nat.add_right_comm] at there loose
      exact ih standsAlone standsJoined there loose
  | @alone position other rest here uncrossed more ih =>
    cases standsAlone with
    | @cons _ fillings _ others first standsOthers =>
      rw [List.map_cons, assemble]
      cases offset with
      | zero =>
        obtain rfl : other = run := Option.some.inj (here.symm.trans there)
        rw [piecesOf_of_bare bare] at first
        rw [eq_of_stands_plain first, List.getElem?_cons_zero, TextResolution.ofFillings_text,
          fillingsText_plain]
      | succ offset =>
        rw [← Nat.add_assoc, Nat.add_right_comm] at there loose
        exact ih standsOthers standsJoined there loose
  | @joined first last rest ordered inside uncrossed joins more ih =>
    cases standsJoined with
    | @cons _ fillings _ others filled standsOthers =>
      obtain ⟨spreads, _, count, texts⟩ := spread_range ordered inside filled
      have behind : last + 1 - first ≤ offset := by
        by_contra within
        exact loose (joins _ (Nat.le_add_right _ _) (by omega))
      rw [List.map_cons, assemble, texts, List.getElem?_append_right (by
        rw [List.length_map, count]
        exact behind), List.length_map, count]
      have place : last + 1 + (offset - (last + 1 - first)) = first + offset := by omega
      exact ih standsAlone standsOthers (place ▸ there) (place ▸ loose)

/-- What runs turn into: a share of fillings for each one, which are what the pieces of the whole
paragraph stand for. -/
structure Reconciles (resolver : Resolver) (shown : Instance) (start : ResolverState)
    (runs : List (List Char)) (reconciled : Reconciled) (shares : List (List Filling)) : Prop where
  stands : List.Forall₂ (Stands resolver shown start) (resolver.piecesOf runs.flatten) shares.flatten
  texts : reconciled.texts = shares.map fillingsText
  count : shares.length = runs.length
  reasons : reconciled.reasons.Perm (hideReasons shares.flatten)
  deferred : reconciled.deferred.Perm (deferredCalls shares.flatten)
  numbered : NumberedFrom start.issued reconciled.deferred

theorem piecesOf_groups {runs : List (List Char)} {groups : List RunGroup}
    (grouping : Grouping runs 0 groups) :
    resolver.piecesOf runs.flatten =
      groups.flatMap fun group => resolver.piecesOf group.runs.flatten := by
  have whole := grouping.pieces_eq
  rw [List.drop_zero] at whole
  rw [piecesOf_eq_map, whole, List.map_flatMap]
  simp only [piecesOf_eq_map]

/-- What resolving the groups of runs comes to. -/
theorem reconcile_groups {runs : List (List Char)} {reconciled : Reconciled}
    (done : (reconcile (fun text state => resolver.resolveText text shown state) runs start).1 =
      .ok reconciled) :
    ∃ alone joined,
      FillTexts resolver shown start ((runGroups runs).filterMap RunGroup.alone?) alone ∧
      FillTexts resolver shown start ((runGroups runs).filterMap RunGroup.joined?) joined ∧
      reconciled.texts =
        assemble (runGroups runs) (alone.map .ofFillings) (joined.map .ofFillings) ∧
      reconciled.reasons = hideReasons (alone ++ joined).flatten ∧
      reconciled.deferred = deferredCalls (alone ++ joined).flatten ∧
      NumberedFrom start.issued reconciled.deferred := by
  unfold reconcile at done
  dsimp only at done
  rcases found : resolveTexts (fun text state => resolver.resolveText text shown state)
    (groupTexts (runGroups runs)) start with ⟨_ | resolutions, after⟩
  · rw [found] at done
    cases done
  · obtain ⟨filled, rfl, fills⟩ := resolveTexts_fills (.refl _) found
    rw [found] at done
    cases done
    have count := fills.stands.length_eq
    have first := List.forall₂_take ((runGroups runs).filterMap RunGroup.alone?).length fills.stands
    have second := List.forall₂_drop ((runGroups runs).filterMap RunGroup.alone?).length fills.stands
    unfold groupTexts at first second
    rw [List.take_left] at first
    rw [List.drop_left] at second
    have reasons (parts : List (List Filling)) :
        (parts.map TextResolution.ofFillings).flatMap (·.reasons) = hideReasons parts.flatten := by
      rw [hideReasons_flatten, List.flatMap_map]
      rfl
    have calls (parts : List (List Filling)) :
        (parts.map TextResolution.ofFillings).flatMap (·.deferred) = deferredCalls parts.flatten := by
      rw [deferredCalls_flatten, List.flatMap_map]
      rfl
    refine ⟨_, _, first, second, ?_, ?_, ?_, ?_⟩
    · rw [List.map_take, List.map_drop]
    · rw [List.take_append_drop]
      exact reasons filled
    · rw [List.take_append_drop]
      exact calls filled
    · dsimp only
      rw [calls filled]
      exact fills.numbered

theorem reconcile_reconciles {runs : List (List Char)} {reconciled : Reconciled}
    (done : (reconcile (fun text state => resolver.resolveText text shown state) runs start).1 =
      .ok reconciled) :
    ∃ shares, Reconciles resolver shown start runs reconciled shares := by
  obtain ⟨alone, joined, first, second, texts, reasons, deferred, numbered⟩ := reconcile_groups done
  have grouping := grouping_runGroups runs
  obtain ⟨shares, assembles⟩ := assemble_assembles grouping first second
  have flat := grouping.flatMap_runs
  rw [List.drop_zero] at flat
  refine ⟨shares, ?_, texts.trans assembles.texts, ?_, ?_, ?_, numbered⟩
  · rw [piecesOf_groups grouping]
    exact assembles.stands
  · rw [assembles.count, flat]
  · rw [reasons]
    exact (assembles.resolutions.filterMap _).symm
  · rw [deferred]
    exact (assembles.resolutions.filterMap _).symm

theorem reconcile_keeps {property : ContextCache → Prop}
    (kept : KeptBy resolver.root shown.context property) (runs : List (List Char))
    (holds : property start.cache) :
    property (reconcile (fun text state => resolver.resolveText text shown state) runs
      start).2.cache :=
  resolveTexts_keeps kept (groupTexts (runGroups runs)) holds

theorem mem_groupTexts {groups : List RunGroup} {text : List Char}
    (member : text ∈ groupTexts groups) : ∃ group ∈ groups, text = group.runs.flatten := by
  rcases List.mem_append.1 member with single | several
  · obtain ⟨group, among, found⟩ := List.mem_filterMap.1 single
    cases group with
    | kept run => cases found
    | alone run =>
      cases found
      exact ⟨_, among, List.flatten_singleton.symm⟩
    | joined runs => cases found
  · obtain ⟨group, among, found⟩ := List.mem_filterMap.1 several
    cases group with
    | kept run => cases found
    | alone run => cases found
    | joined runs =>
      cases found
      exact ⟨_, among, rfl⟩

/-- Runs can be resolved when their whole text can. -/
theorem exists_reconcile {runs : List (List Char)} {fillings : List Filling}
    (stands : List.Forall₂ (Stands resolver shown start) (resolver.piecesOf runs.flatten) fillings) :
    ∃ reconciled,
      (reconcile (fun text state => resolver.resolveText text shown state) runs start).1 =
        .ok reconciled := by
  have each := exists_stands_iff.1 ⟨fillings, stands⟩
  rw [piecesOf_groups (grouping_runGroups runs)] at each
  obtain ⟨resolutions, after, found⟩ := @exists_resolveTexts resolver shown start
    (groupTexts (runGroups runs)) (by
      intro text member
      obtain ⟨group, among, rfl⟩ := mem_groupTexts member
      refine exists_stands_iff.2 fun piece inside => each piece ?_
      exact List.mem_flatMap.2 ⟨group, among, inside⟩) start
  unfold reconcile
  simp only [found]
  exact ⟨_, rfl⟩

/-- A paragraph that is resolved by its runs beside the resolution of its whole text. Two lists of
fillings that differ in the numbers of calls alone give both: the one the text, the hide reasons and
the calls of the whole, the other those of the runs. -/
structure SameResolution (whole : TextResolution) (fillings : List Filling)
    (reconciled : Reconciled) (others : List Filling) : Prop where
  filled : whole = .ofFillings fillings
  same : List.Forall₂ Filling.SameButNumber fillings others
  text : reconciled.texts.flatten = fillingsText others
  hidden : reconciled.hidden = whole.hidden
  reasons : reconciled.reasons.Perm whole.reasons
  calls : reconciled.deferred.Perm (deferredCalls others)
  deferred : (reconciled.deferred.map Deferred.unnumbered).Perm
    (whole.deferred.map Deferred.unnumbered)

theorem sameResolution_of_stands {runs : List (List Char)} {fillings : List Filling}
    {reconciled : Reconciled} {shares : List (List Filling)}
    (stands : List.Forall₂ (Stands resolver shown start) (resolver.piecesOf runs.flatten) fillings)
    (reconciles : Reconciles resolver shown start runs reconciled shares) :
    SameResolution (.ofFillings fillings) fillings reconciled shares.flatten := by
  have same := sameButNumber_of_stands stands reconciles.stands
  have reasons : reconciled.reasons.Perm (hideReasons fillings) := by
    rw [hideReasons_eq same]
    exact reconciles.reasons
  refine ⟨rfl, same, ?_, ?_, reasons, reconciles.deferred, ?_⟩
  · rw [reconciles.texts, fillingsText_flatten]
  · unfold Reconciled.hidden TextResolution.hidden
    rw [TextResolution.ofFillings_reasons, reasons.isEmpty_eq]
  · rw [TextResolution.ofFillings_deferred, unnumbered_deferredCalls same]
    exact reconciles.deferred.map _

/-- Without calls the runs put together are the resolved whole. -/
theorem SameResolution.text_eq {whole : TextResolution} {fillings others : List Filling}
    {reconciled : Reconciled} (same : SameResolution whole fillings reconciled others)
    (none : whole.deferred = []) : reconciled.texts.flatten = whole.text := by
  obtain ⟨rfl, fillings, text, _⟩ := same
  rw [text, ← eq_of_no_deferredCalls fillings none]
  rfl

/-- Whenever the whole text of a paragraph can be resolved, so can its runs, to as many texts. Every
piece of the paragraph is filled once by either, with the same value, the same hide reason or the
same call but for its number; the fillings of the runs stand in their texts share by share, and
their numbers are those that the calls of the runs have. Another division into runs is filled in the
same way. -/
theorem reconcile_sameResolution (resolver : Resolver) (shown : Instance) (start : ResolverState)
    (runs : List (List Char)) (whole : TextResolution)
    (resolved : (resolver.resolveText runs.flatten shown start).1 = .ok whole) :
    ∃ fillings reconciled shares,
      List.Forall₂ (Stands resolver shown start) (resolver.piecesOf runs.flatten) fillings ∧
      NumberedFrom start.issued whole.deferred ∧
      (reconcile (fun text state => resolver.resolveText text shown state) runs start).1 =
        .ok reconciled ∧
      reconciled.texts.length = runs.length ∧
      Reconciles resolver shown start runs reconciled shares ∧
      SameResolution whole fillings reconciled shares.flatten ∧
      ∀ others : List (List Char), others.flatten = runs.flatten →
        ∃ other sharesOther,
          (reconcile (fun text state => resolver.resolveText text shown state) others start).1 =
            .ok other ∧
          Reconciles resolver shown start others other sharesOther ∧
          SameResolution whole fillings other sharesOther.flatten ∧
          List.Forall₂ Filling.SameButNumber shares.flatten sharesOther.flatten ∧
          (whole.deferred = [] → other.texts.flatten = reconciled.texts.flatten) := by
  obtain ⟨fillings, rfl, fills⟩ :=
    @resolveText_fills resolver shown start start _ _ _ (.refl _) (Prod.ext resolved rfl)
  obtain ⟨reconciled, done⟩ := exists_reconcile fills.stands
  obtain ⟨shares, reconciles⟩ := reconcile_reconciles done
  have same := sameResolution_of_stands fills.stands reconciles
  refine ⟨fillings, reconciled, shares, fills.stands, fills.numbered, done, ?_, reconciles, same, ?_⟩
  · rw [reconciles.texts, List.length_map, reconciles.count]
  · intro others division
    have stands := fills.stands
    rw [← division] at stands
    obtain ⟨other, doneOther⟩ := exists_reconcile stands
    obtain ⟨sharesOther, reconcilesOther⟩ := reconcile_reconciles doneOther
    have alike := reconcilesOther.stands
    rw [division] at alike
    have sameOther := sameResolution_of_stands stands reconcilesOther
    exact ⟨other, sharesOther, doneOther, reconcilesOther, sameOther,
      sameButNumber_of_stands reconciles.stands alike,
      fun none => (sameOther.text_eq none).trans (same.text_eq none).symm⟩

/-- A call in two runs, with an expression that cannot be read behind it, and a call, an expression
without value and a plain run. -/
def mixedRuns : List (List Char) :=
  ["$\x7bf(".toList, "a)\x7d $\x7ba!\x7d".toList, "$\x7bg(a)\x7d$\x7bb\x7d".toList, " Hi".toList]

/-- Resolves a text of a slide that stands below nothing, for data in which `a` has a value. -/
def resolveMixed (text : List Char) (state : ResolverState) :
    Except NumeralError TextResolution × ResolverState :=
  Resolver.resolveText ⟨.map [(.text "a", .text "x")], .empty, true⟩ text
    ⟨0, 0, [], 0, none, false, none⟩ state

private theorem reconcile_mixed :
    (reconcile resolveMixed mixedRuns .start).1.toOption.map
      (fun reconciled => (reconciled.texts, reconciled.deferred.map (·.token))) =
        some (["[[f#1]]".toList, " $\x7ba!\x7d".toList, "[[g#0]]".toList, " Hi".toList],
          ["[[g#0]]", "[[f#1]]"]) := by
  have single : (resolveMixed "$\x7bg(a)\x7d$\x7bb\x7d".toList .start).1.toOption.map
      (fun resolution => (resolution.text, resolution.deferred.map (·.token))) =
        some ("[[g#0]]".toList, ["[[g#0]]"]) := by
    decide +kernel
  have several : (resolveMixed ("$\x7bf(".toList ++ "a)\x7d $\x7ba!\x7d".toList)
      (resolveMixed "$\x7bg(a)\x7d$\x7bb\x7d".toList .start).2).1.toOption.map
      (fun resolution => (resolution.text, resolution.spans, resolution.deferred.map (·.token))) =
        some ("[[f#1]] $\x7ba!\x7d".toList, [(0, 7)], ["[[f#1]]"]) := by
    decide +kernel
  have groups : runGroups mixedRuns = [.joined ["$\x7bf(".toList, "a)\x7d $\x7ba!\x7d".toList],
      .alone "$\x7bg(a)\x7d$\x7bb\x7d".toList, .kept " Hi".toList] := by
    decide +kernel
  obtain ⟨one, first, same⟩ := Option.map_eq_some_iff.1 single
  obtain ⟨two, second, alike⟩ := Option.map_eq_some_iff.1 several
  simp only [Prod.mk.injEq] at same alike
  obtain ⟨text, spans, tokens⟩ := alike
  have cut : spread ["$\x7bf(".toList, "a)\x7d $\x7ba!\x7d".toList] two =
      ["[[f#1]]".toList, " $\x7ba!\x7d".toList] := by
    rw [spread, wholeSpans_of_sorted (by rw [spans, text]; decide +kernel), spans, text]
    decide +kernel
  rcases start : resolveMixed "$\x7bg(a)\x7d$\x7bb\x7d".toList .start with ⟨outcome, middle⟩
  rcases further : resolveMixed ("$\x7bf(".toList ++ "a)\x7d $\x7ba!\x7d".toList) middle with
    ⟨later, last⟩
  rw [start] at first second
  rw [further] at second
  obtain rfl := eq_ok_of_toOption first
  obtain rfl := eq_ok_of_toOption second
  have found : resolveTexts resolveMixed (groupTexts (runGroups mixedRuns)) .start =
      (.ok [one, two], last) := by
    rw [groups]
    change resolveTexts resolveMixed ["$\x7bg(a)\x7d$\x7bb\x7d".toList,
      "$\x7bf(".toList ++ "a)\x7d $\x7ba!\x7d".toList] .start = _
    rw [resolveTexts, start]
    dsimp only
    rw [resolveTexts, further]
    rfl
  unfold reconcile
  dsimp only
  rw [found, groups]
  change some (spread _ two ++ [one.text, _],
    (one.deferred ++ (two.deferred ++ [])).map Deferred.token) = _
  rw [cut, same.1, List.append_nil, List.map_append, same.2, tokens]
  rfl

/-- The second call is resolved before the one in two runs, which takes the other number. -/
theorem reconcile_sameResolution_mixed :
    ∃ whole fillings reconciled other, ∃ shares : List (List Filling),
      (resolveMixed mixedRuns.flatten .start).1 = .ok whole ∧
      whole.text = "[[f#0]] $\x7ba!\x7d[[g#1]] Hi".toList ∧
      whole.deferred.map (·.token) = ["[[f#0]]", "[[g#1]]"] ∧
      (reconcile resolveMixed mixedRuns .start).1 = .ok reconciled ∧
      reconciled.texts =
        ["[[f#1]]".toList, " $\x7ba!\x7d".toList, "[[g#0]]".toList, " Hi".toList] ∧
      reconciled.deferred.map (·.token) = ["[[g#0]]", "[[f#1]]"] ∧
      reconciled.hidden = true ∧ reconciled.reasons = ["no member 'b' in 'b'"] ∧
      reconciled.texts = shares.map fillingsText ∧
      SameResolution whole fillings reconciled shares.flatten ∧
      (reconcile resolveMixed [mixedRuns.flatten] .start).1 = .ok other ∧
      (other.deferred.map Deferred.unnumbered).Perm (whole.deferred.map Deferred.unnumbered) := by
  have resolution : (resolveMixed mixedRuns.flatten .start).1.toOption.map
      (fun whole => (whole.text, whole.deferred.map (·.token), whole.reasons)) =
        some ("[[f#0]] $\x7ba!\x7d[[g#1]] Hi".toList, ["[[f#0]]", "[[g#1]]"],
          ["no member 'b' in 'b'"]) := by
    decide +kernel
  obtain ⟨whole, found, same⟩ := Option.map_eq_some_iff.1 resolution
  simp only [Prod.mk.injEq] at same
  obtain ⟨text, tokens, reasons⟩ := same
  have resolved := eq_ok_of_toOption found
  obtain ⟨fillings, reconciled, shares, _, _, done, _, reconciles, comes, divides⟩ :=
    reconcile_sameResolution _ _ .start mixedRuns whole resolved
  obtain ⟨other, _, doneOther, _, comesOther, _⟩ := divides [mixedRuns.flatten] (by simp)
  have hides := comes.reasons
  rw [reasons, List.perm_singleton] at hides
  have hidden := comes.hidden
  rw [TextResolution.hidden, reasons] at hidden
  have ran : (reconcile resolveMixed mixedRuns .start).1 = .ok reconciled := done
  have runs := reconcile_mixed
  rw [ran] at runs
  obtain ⟨texts, numbers⟩ := Prod.mk.inj (Option.some.inj runs)
  exact ⟨whole, fillings, reconciled, other, shares, resolved, text, tokens, ran, texts, numbers,
    hidden, hides, reconciles.texts, comes, doneOther, comesOther.deferred⟩

/-- Every value and every literal expression of a paragraph ends up within one run, and a run
without expressions that none joins with another stays as it is. -/
theorem reconcile_uncut (resolver : Resolver) (shown : Instance) (start : ResolverState)
    (runs : List (List Char)) (reconciled : Reconciled)
    (done : (reconcile (fun text state => resolver.resolveText text shown state) runs start).1 =
      .ok reconciled) :
    (∃ shares : List (List Filling),
      List.Forall₂ (Stands resolver shown start) (resolver.piecesOf runs.flatten) shares.flatten ∧
      reconciled.texts = shares.map fillingsText ∧ shares.length = runs.length ∧
      reconciled.deferred.Perm (deferredCalls shares.flatten)) ∧
    ∀ position run, runs[position]? = some run → expressionSpans run = [] →
      ¬ Joined runs position → reconciled.texts[position]? = some run := by
  obtain ⟨shares, reconciles⟩ := reconcile_reconciles done
  refine ⟨⟨shares, reconciles.stands, reconciles.texts, reconciles.count, reconciles.deferred⟩, ?_⟩
  intro position run here bare loose
  obtain ⟨alone, joined, first, second, texts, _⟩ := reconcile_groups done
  rw [texts]
  rw [← Nat.zero_add position] at here loose
  exact getElem?_assemble (grouping_runGroups runs) first second here bare loose

/-- The expression that cannot be read stays whole behind the call, and the plain run stays as it
is. -/
theorem reconcile_uncut_mixed :
    ∃ reconciled, ∃ shares : List (List Filling),
      (reconcile resolveMixed mixedRuns .start).1 = .ok reconciled ∧
      reconciled.texts =
        ["[[f#1]]".toList, " $\x7ba!\x7d".toList, "[[g#0]]".toList, " Hi".toList] ∧
      reconciled.texts[3]? = some " Hi".toList ∧
      reconciled.texts = shares.map fillingsText ∧ shares.length = 4 ∧
      reconciled.deferred.map (·.token) = ["[[g#0]]", "[[f#1]]"] ∧
      reconciled.deferred.Perm (deferredCalls shares.flatten) := by
  obtain ⟨reconciled, found, same⟩ := Option.map_eq_some_iff.1 reconcile_mixed
  obtain ⟨texts, numbers⟩ := Prod.mk.inj same
  have done := eq_ok_of_toOption found
  obtain ⟨⟨shares, _, spread, count, calls⟩, plain⟩ :=
    reconcile_uncut _ _ .start mixedRuns reconciled done
  have bare : expressionSpans " Hi".toList = [] := by decide +kernel
  -- no expression reaches behind the start of the last run
  have ends : ∀ span ∈ expressionSpans mixedRuns.flatten, span.2 ≤ runStart mixedRuns 3 := by
    decide +kernel
  have loose : ¬ Joined mixedRuns 3 := by
    rintro ⟨span, member, first, last, ordered, _, ⟨_, _, reaches⟩, _, above⟩
    have place := runStart_mono mixedRuns above
    have inside := ends span member
    omega
  refine ⟨reconciled, shares, done, texts, plain 3 _ rfl bare loose, spread, count, numbers, calls⟩

end DeckBinding
