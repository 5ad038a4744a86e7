import DeckBinding.Proofs.Alias.Chain
import DeckBinding.Proofs.Path.RoundTrip

set_option autoImplicit false

namespace DeckBinding

open DeckBinding.Number

def Targets.ofMapping (mapping : List (String × String)) : Targets :=
  fun name => (Keyed.get? name (Keyed.ofList mapping)).bind fun text => (Path.ofString text).toOption

/-- The path a directive declares for a name, when its text is one. -/
def Directive.declares? (name : String) : Directive → Option Path
  | .alias text other =>
    if other = name ∧ other.isEmpty = false then (Path.ofString text).toOption else none
  | _ => none

/-- The last path that directives declare for each name. -/
def Targets.ofDirectives (directives : List Directive) : Targets :=
  fun name => (directives.filterMap (Directive.declares? name)).getLast?

def Diagnostic.isCycleOf (name : String) (diagnostic : Diagnostic) : Bool :=
  match diagnostic.problem with
  | .aliasCycle other _ => other == name
  | _ => false

namespace Targets

variable {target? : Targets} {name : String}

theorem wellFormed_of_toOption {text : String} {target : Path}
    (read : (Path.ofString text).toOption = some target) : target.WellFormed := by
  cases here : Path.ofString text with
  | error failure =>
    rw [here] at read
    cases read
  | ok path =>
    rw [here] at read
    cases read
    exact Path.wellFormed_of_read here

theorem wellFormed_ofMapping {mapping : List (String × String)} {target : Path}
    (known : Targets.ofMapping mapping name = some target) : target.WellFormed := by
  obtain ⟨text, _, read⟩ := Option.bind_eq_some_iff.1 known
  exact wellFormed_of_toOption read

theorem wellFormed_ofDirectives {directives : List Directive} {target : Path}
    (known : Targets.ofDirectives directives name = some target) : target.WellFormed := by
  obtain ⟨directive, _, here⟩ := List.mem_filterMap.1 (List.mem_of_getLast? known)
  unfold Directive.declares? at here
  split at here
  · split at here
    · exact wellFormed_of_toOption here
    · cases here
  · cases here

theorem known_of_revisits (revisits : target?.Revisits name) : (target? name).isSome := by
  have further := follow_isSome_of_revisits revisits 1
  simpa [follow, next?] using further

end Targets

namespace Declarations

variable {declared : Declarations} {name : String}

/-- A declared name is expanded to the path it stands for, unless one comes from it to some name
twice. -/
theorem expand_error_iff (known : (declared.targets name).isSome) :
    (∃ names, declared.expand name = .error names) ↔ declared.targets.Revisits name := by
  have spec := expand_spec known
  cases expanded : declared.expand name with
  | ok path =>
    rw [expanded] at spec
    have quiet : ¬ declared.targets.Revisits name :=
      fun revisits => Targets.not_leaves_of_revisits revisits spec.leaves
    simp [quiet]
  | error names =>
    rw [expanded] at spec
    simp [spec.2]

theorem isCycle_of_expand (known : (declared.targets name).isSome) {names : List String}
    (expanded : declared.expand name = .error names) : declared.targets.IsCycle names := by
  have spec := expand_spec known
  rw [expanded] at spec
  exact spec.1

theorem standsFor_of_expand (known : (declared.targets name).isSome) {path : Path}
    (expanded : declared.expand name = .ok path) : declared.targets.StandsFor name path := by
  have spec := expand_spec known
  rw [expanded] at spec
  exact spec

theorem targets_isSome_iff : (declared.targets name).isSome ↔ name ∈ declared.map (·.1) := by
  rw [targets, ← not_iff_not, Bool.not_eq_true, Option.isSome_eq_false_iff, Option.isNone_iff_eq_none,
    Keyed.get?_eq_none_iff]

/-- Whether names end or come around is settled by what is declared for them. -/
theorem not_leaves_iff_revisits (known : (declared.targets name).isSome) :
    ¬ declared.targets.Leaves name ↔ declared.targets.Revisits name := by
  constructor
  · intro stays
    have spec := expand_spec known
    cases expanded : declared.expand name with
    | ok path =>
      rw [expanded] at spec
      exact absurd spec.leaves stays
    | error names =>
      rw [expanded] at spec
      exact spec.2
  · exact Targets.not_leaves_of_revisits

end Declarations

namespace AliasTable

theorem exists_readMapping {entries : List (String × String)}
    (wellFormed : ∀ entry ∈ entries, ∃ path, Path.ofString entry.2 = .ok path) :
    ∃ declared, readMapping entries = .ok declared ∧
      ∀ name, declared.targets name =
        (Keyed.get? name entries).bind fun text => (Path.ofString text).toOption := by
  induction entries with
  | nil => exact ⟨[], rfl, fun name => rfl⟩
  | cons entry rest ih =>
    obtain ⟨known, text⟩ := entry
    obtain ⟨path, here⟩ := wellFormed (known, text) List.mem_cons_self
    obtain ⟨declared, further, targets⟩ :=
      ih fun other member => wellFormed other (List.mem_cons_of_mem _ member)
    refine ⟨(known, path) :: declared, ?_, ?_⟩
    · rw [readMapping, here, further]
      rfl
    · intro name
      have behind := targets name
      unfold Declarations.targets at behind ⊢
      by_cases same : known = name
      · simp [Keyed.get?, same, here, Except.toOption]
      · simp [Keyed.get?, same, behind]

theorem expandAll_spec (declared rest : Declarations) :
    match expandAll declared rest with
    | .ok entries => entries.map (·.1) = rest.map (·.1) ∧
        ∀ entry ∈ entries, declared.expand entry.1 = .ok entry.2
    | .error names => ∃ name ∈ rest.map (·.1), declared.expand name = .error names := by
  induction rest with
  | nil => simp [expandAll]
  | cons entry rest ih =>
    obtain ⟨name, target⟩ := entry
    rw [expandAll]
    cases here : declared.expand name with
    | error names => exact ⟨name, by simp, here⟩
    | ok path =>
      cases further : expandAll declared rest with
      | error names =>
        rw [further] at ih
        obtain ⟨other, member, expanded⟩ := ih
        exact ⟨other, by simp [member], expanded⟩
      | ok entries =>
        rw [further] at ih
        obtain ⟨names, expanded⟩ := ih
        refine ⟨by simp [names], ?_⟩
        intro entry member
        rcases List.mem_cons.1 member with rfl | later
        · exact here
        · exact expanded entry later

variable {mapping : List (String × String)}

/-- The declarations of a mapping whose texts are paths. -/
theorem exists_declared
    (wellFormed : ∀ entry ∈ Keyed.ofList mapping, ∃ path, Path.ofString entry.2 = .ok path) :
    ∃ declared, readMapping (Keyed.ofList mapping) = .ok declared ∧
      declared.targets = Targets.ofMapping mapping := by
  obtain ⟨declared, read, targets⟩ := exists_readMapping wellFormed
  exact ⟨declared, read, funext targets⟩

/-- A mapping of names to paths is refused for a cycle, or every name is kept. -/
theorem ofMapping_spec
    (wellFormed : ∀ entry ∈ Keyed.ofList mapping, ∃ path, Path.ofString entry.2 = .ok path) :
    match AliasTable.ofMapping mapping with
    | .ok _ => ¬ ∃ name, (Targets.ofMapping mapping).Revisits name
    | .error (.cycle names) => (Targets.ofMapping mapping).IsCycle names
    | .error (.path _) => False := by
  obtain ⟨declared, read, targets⟩ := exists_declared wellFormed
  have spec := expandAll_spec declared declared
  unfold AliasTable.ofMapping
  simp only [read, ← targets]
  cases expanded : expandAll declared declared with
  | ok entries =>
    rw [expanded] at spec
    obtain ⟨names, each⟩ := spec
    dsimp only
    rintro ⟨name, revisits⟩
    have known := Targets.known_of_revisits revisits
    have member : name ∈ entries.map (·.1) := by
      rw [names]
      exact Declarations.targets_isSome_iff.1 known
    obtain ⟨entry, among, rfl⟩ := List.mem_map.1 member
    obtain ⟨cycle, refused⟩ := (Declarations.expand_error_iff known).2 revisits
    rw [each entry among] at refused
    cases refused
  | error names =>
    rw [expanded] at spec
    obtain ⟨name, member, refused⟩ := spec
    exact Declarations.isCycle_of_expand (Declarations.targets_isSome_iff.2 member) refused

/-- What the aliases among directives add to those declared so far. -/
structure Adds (directives : List Directive) (before after : Declared) : Prop where
  get? : ∀ name, Keyed.get? name after.entries =
    (Targets.ofDirectives directives name).or (Keyed.get? name before.entries)
  nodup : (before.entries.map (·.1)).Nodup → (after.entries.map (·.1)).Nodup
  quiet : ∀ name, after.diagnostics.countP (Diagnostic.isCycleOf name) =
    before.diagnostics.countP (Diagnostic.isCycleOf name)

theorem targets_cons (directive : Directive) (rest : List Directive) (name : String) :
    Targets.ofDirectives (directive :: rest) name =
      (Targets.ofDirectives rest name).or (directive.declares? name) := by
  unfold Targets.ofDirectives
  cases declares : directive.declares? name with
  | none => simp [declares]
  | some path => simp [declares, List.getLast?_cons]

/-- Directives are gone through one by one. -/
theorem Adds.cons {directive : Directive} {rest : List Directive} {before middle after : Declared}
    (first : Adds [directive] before middle) (further : Adds rest middle after) :
    Adds (directive :: rest) before after where
  get? name := by
    rw [further.get?, first.get?, targets_cons directive rest, targets_cons directive []]
    simp [Targets.ofDirectives, Option.or_assoc]
  nodup distinct := further.nodup (first.nodup distinct)
  quiet name := (further.quiet name).trans (first.quiet name)

theorem Adds.skip {directive : Directive} (silent : ∀ name, directive.declares? name = none)
    (before : Declared) : Adds [directive] before before where
  get? name := by simp [Targets.ofDirectives, silent]
  nodup distinct := distinct
  quiet name := rfl

/-- Adding one declaration: a text that is a path takes the place of an earlier one, and a text that
is none is left out. -/
theorem add_spec (before : Declared) (text name : String) (filled : name.isEmpty = false) :
    match before.add name text with
    | .ok after => Adds [.alias text name] before after
    | .error error => Path.ofString text = .error (.numeral error) := by
  unfold Declared.add
  dsimp only
  cases read : Path.ofString text with
  | ok path =>
    refine ⟨?_, Keyed.nodup_keys_put name path, fun other => rfl⟩
    intro other
    rw [Keyed.get?_put]
    by_cases same : name = other
    · subst same
      simp [Targets.ofDirectives, Directive.declares?, filled, read, Except.toOption]
    · simp [Targets.ofDirectives, Directive.declares?, same]
  | error failure =>
    cases failure with
    | malformed error =>
      refine ⟨?_, id, fun other => ?_⟩
      · intro other
        simp [Targets.ofDirectives, Directive.declares?, read, Except.toOption]
      · simp [List.countP_append, Diagnostic.isCycleOf]
    | numeral error => rfl

theorem addAll_spec (directives : List Directive) (before : Declared) :
    match before.addAll directives with
    | .ok after => Adds directives before after
    | .error error => ∃ text name, Directive.alias text name ∈ directives ∧
        Path.ofString text = .error (.numeral error) := by
  induction directives generalizing before with
  | nil => exact ⟨fun name => by simp [Targets.ofDirectives], id, fun name => rfl⟩
  | cons directive rest ih =>
    have behind (middle : Declared) (first : Adds [directive] before middle) :
        match middle.addAll rest with
        | .ok after => Adds (directive :: rest) before after
        | .error error => ∃ text name, Directive.alias text name ∈ directive :: rest ∧
            Path.ofString text = .error (.numeral error) := by
      have spec := ih middle
      cases further : middle.addAll rest with
      | ok after =>
        rw [further] at spec
        exact first.cons spec
      | error error =>
        rw [further] at spec
        obtain ⟨text, name, member, refused⟩ := spec
        exact ⟨text, name, List.mem_cons_of_mem _ member, refused⟩
    rcases directive with ⟨path, max, offset⟩ | ⟨boundary, path⟩ | ⟨text, name⟩
    · exact behind before (.skip (fun name => rfl) before)
    · exact behind before (.skip (fun name => rfl) before)
    · rw [Declared.addAll]
      by_cases blank : name.isEmpty
      · rw [if_pos blank]
        refine behind before (.skip (fun other => ?_) before)
        simp [Directive.declares?, blank]
      · have spec := add_spec before text name (by simpa using blank)
        rw [if_neg blank]
        cases added : before.add name text with
        | ok middle =>
          rw [added] at spec
          exact behind middle spec
        | error error =>
          rw [added] at spec
          exact ⟨text, name, List.mem_cons_self, spec⟩

/-- The kept names are those whose expansion gives a path, with that path. -/
theorem find?_kept (declared : Declarations) (names : List String) (name : String) :
    find? ⟨names.filterMap (kept? declared)⟩ name =
      if name ∈ names then (declared.expand name).toOption else none := by
  unfold find?
  induction names with
  | nil => rfl
  | cons first rest ih =>
    cases expanded : declared.expand first with
    | ok path =>
      have here : kept? declared first = some (first, path) := by
        rw [kept?, expanded]
      rw [List.filterMap_cons_some here, Keyed.get?, ih]
      by_cases same : first = name
      · subst same
        simp [expanded, Except.toOption]
      · simp [same, Ne.symm same]
    | error cycle =>
      have here : kept? declared first = none := by
        rw [kept?, expanded]
      rw [List.filterMap_cons_none here, ih]
      by_cases same : first = name
      · subst same
        simp [expanded, Except.toOption]
      · simp [Ne.symm same]

/-- A name whose expansion fails has a diagnostic for each time it is listed. -/
theorem countP_dropped (declared : Declarations) (names : List String) (name : String) :
    (names.filterMap (dropped? declared)).countP (Diagnostic.isCycleOf name) =
      if (declared.expand name).toOption.isSome then 0 else names.count name := by
  induction names with
  | nil => simp
  | cons first rest ih =>
    cases expanded : declared.expand first with
    | ok path =>
      have here : dropped? declared first = none := by
        rw [dropped?, expanded]
      rw [List.filterMap_cons_none here, ih]
      by_cases same : first = name
      · subst same
        simp [expanded, Except.toOption]
      · simp [same]
    | error cycle =>
      have here : dropped? declared first = some ⟨.aliasCycle first cycle, none⟩ := by
        rw [dropped?, expanded]
      rw [List.filterMap_cons_some here, List.countP_cons, ih]
      by_cases same : first = name
      · subst same
        simp [expanded, Except.toOption, Diagnostic.isCycleOf]
      · simp [same, Diagnostic.isCycleOf]

/-- What becomes of a name among directives. It is kept, with the path it stands for, when one comes
from it to a name without declaration; a declared name that is not kept has one diagnostic, which
speaks of a real cycle, and no other name has any. -/
structure Sifted (target? : Targets) (built : Built) (name : String) : Prop where
  kept_iff : built.table.contains name ↔ (target? name).isSome ∧ target?.Leaves name
  stands : ∀ path, built.table.find? name = some path → target?.StandsFor name path
  reported : (target? name).isSome → ¬ target?.Leaves name →
    built.diagnostics.countP (Diagnostic.isCycleOf name) = 1
  unreported : (target? name).isSome = false ∨ target?.Leaves name →
    built.diagnostics.countP (Diagnostic.isCycleOf name) = 0
  real : ∀ diagnostic ∈ built.diagnostics, ∀ cycle,
    diagnostic.problem = .aliasCycle name cycle → target?.IsCycle cycle

/-- The table of declarations, with the diagnostics for the names left out behind others. -/
def sift (declared : Declarations) (diagnostics : List Diagnostic) (warnings : List Warning) : Built :=
  { table := ⟨(declared.map (·.1)).filterMap (kept? declared)⟩
    diagnostics := diagnostics ++ (declared.map (·.1)).filterMap (dropped? declared)
    warnings }

section Sifting

variable {declared : Declarations} {diagnostics : List Diagnostic} {name : String}

theorem countP_sift (quiet : diagnostics.countP (Diagnostic.isCycleOf name) = 0)
    (warnings : List Warning) :
    (sift declared diagnostics warnings).diagnostics.countP (Diagnostic.isCycleOf name) =
      if (declared.expand name).toOption.isSome then 0 else (declared.map (·.1)).count name := by
  rw [sift, List.countP_append, quiet, countP_dropped, Nat.zero_add]

/-- The cycles that diagnostics speak of are real. -/
theorem isCycle_of_mem_sift (quiet : diagnostics.countP (Diagnostic.isCycleOf name) = 0)
    {warnings : List Warning} {diagnostic : Diagnostic} {cycle : List String}
    (member : diagnostic ∈ (sift declared diagnostics warnings).diagnostics)
    (problem : diagnostic.problem = .aliasCycle name cycle) : declared.targets.IsCycle cycle := by
  rcases List.mem_append.1 member with earlier | dropped
  · have other := List.countP_eq_zero.1 quiet diagnostic earlier
    simp [Diagnostic.isCycleOf, problem] at other
  · obtain ⟨known, among, found⟩ := List.mem_filterMap.1 dropped
    unfold dropped? at found
    cases expanded : declared.expand known with
    | ok path =>
      rw [expanded] at found
      cases found
    | error names =>
      rw [expanded] at found
      cases found
      cases problem
      exact Declarations.isCycle_of_expand (Declarations.targets_isSome_iff.2 among) expanded

theorem sift_sifted (distinct : (declared.map (·.1)).Nodup)
    (quiet : diagnostics.countP (Diagnostic.isCycleOf name) = 0) (warnings : List Warning) :
    Sifted declared.targets (sift declared diagnostics warnings) name := by
  have found := find?_kept declared (declared.map (·.1)) name
  have count := @countP_sift declared diagnostics name quiet warnings
  have contained : (sift declared diagnostics warnings).table.contains name =
      (find? ⟨(declared.map (·.1)).filterMap (kept? declared)⟩ name).isSome := rfl
  by_cases known : (declared.targets name).isSome
  · have member := Declarations.targets_isSome_iff.1 known
    rw [if_pos member] at found
    cases expanded : declared.expand name with
    | ok path =>
      have stands := Declarations.standsFor_of_expand known expanded
      rw [expanded] at found count
      refine ⟨?_, ?_, ?_, ?_, fun _ member _ => isCycle_of_mem_sift quiet member⟩
      · rw [contained, found]
        simp [Except.toOption, known, stands.leaves]
      · intro other same
        cases found.symm.trans same
        exact stands
      · exact fun _ stays => absurd stands.leaves stays
      · exact fun _ => count
    | error cycle =>
      have stays := (Declarations.not_leaves_iff_revisits known).2
        ((Declarations.expand_error_iff known).1 ⟨cycle, expanded⟩)
      rw [expanded] at found count
      refine ⟨?_, ?_, ?_, ?_, fun _ member _ => isCycle_of_mem_sift quiet member⟩
      · rw [contained, found]
        simp [Except.toOption, stays]
      · intro other same
        cases found.symm.trans same
      · exact fun _ _ => count.trans (List.count_eq_one_of_mem distinct member)
      · simp [known, stays]
  · have absent : name ∉ declared.map (·.1) :=
      fun member => known (Declarations.targets_isSome_iff.2 member)
    rw [if_neg absent] at found
    refine ⟨?_, ?_, ?_, ?_, fun _ member _ => isCycle_of_mem_sift quiet member⟩
    · rw [contained, found]
      simp [known]
    · intro other same
      cases found.symm.trans same
    · exact fun other => absurd other known
    · intro _
      rw [count, List.count_eq_zero_of_not_mem absent, ite_self]

end Sifting

/-- The aliases among directives give a table, unless a path among them holds an index too long to
be read. -/
theorem ofDirectives_spec (directives : List Directive) :
    match AliasTable.ofDirectives directives with
    | .error error => ∃ text name, Directive.alias text name ∈ directives ∧
        Path.ofString text = .error (.numeral error)
    | .ok built => ∀ name, Sifted (Targets.ofDirectives directives) built name := by
  have spec := addAll_spec directives ⟨[], [], []⟩
  unfold AliasTable.ofDirectives
  cases added : Declared.addAll ⟨[], [], []⟩ directives with
  | error error =>
    rw [added] at spec
    exact spec
  | ok after =>
    rw [added] at spec
    have targets : after.entries.targets = Targets.ofDirectives directives := by
      funext other
      rw [Declarations.targets, spec.get?]
      simp [Keyed.get?]
    intro name
    rw [← targets]
    exact sift_sifted (spec.nodup List.nodup_nil) (spec.quiet name) after.warnings

/-- A mapping of names to paths is refused exactly when following the names at the fronts of the
paths comes to some name twice, and what is reported is a cycle; else there is a table. The
aliases among directives always give a table, unless an index is too long to be read, and of the
last path declared for each name it keeps those of names from which one comes to a name without
declaration. -/
theorem alias_cycles_found (mapping : List (String × String))
    (wellFormed : ∀ entry ∈ Keyed.ofList mapping, ∃ path, Path.ofString entry.2 = .ok path)
    (directives : List Directive) :
    ((∃ names, AliasTable.ofMapping mapping = .error (.cycle names)) ↔
        ∃ name, (Targets.ofMapping mapping).Revisits name) ∧
      (∀ names, AliasTable.ofMapping mapping = .error (.cycle names) →
        (Targets.ofMapping mapping).IsCycle names) ∧
      ((¬ ∃ name, (Targets.ofMapping mapping).Revisits name) →
        ∃ table, AliasTable.ofMapping mapping = .ok table) ∧
      match AliasTable.ofDirectives directives with
      | .error error => ∃ text name, Directive.alias text name ∈ directives ∧
          Path.ofString text = .error (.numeral error)
      | .ok built => ∀ name, Sifted (Targets.ofDirectives directives) built name := by
  have spec := ofMapping_spec wellFormed
  cases made : AliasTable.ofMapping mapping with
  | ok table =>
    rw [made] at spec
    exact ⟨by simp [spec], by simp, fun _ => ⟨table, rfl⟩, ofDirectives_spec directives⟩
  | error failure =>
    cases failure with
    | path failure =>
      rw [made] at spec
      exact spec.elim
    | cycle names =>
      rw [made] at spec
      obtain ⟨first, head⟩ : ∃ first, names.head? = some first := by
        have positive : 0 < names.length := Nat.lt_of_lt_of_le Nat.zero_lt_two spec.long
        exact ⟨_, List.head?_eq_some_head (List.length_pos_iff.1 positive)⟩
      have start : (Targets.ofMapping mapping).follow first 0 = names.head? := head.symm
      have around := spec.revisits start
      refine ⟨⟨fun _ => ⟨first, around⟩, fun _ => ⟨names, rfl⟩⟩, ?_, ?_, ofDirectives_spec directives⟩
      · rintro other ⟨⟩
        exact spec
      · exact fun none => absurd ⟨first, around⟩ none

/-- Two names in a cycle, and one that leads into it. -/
theorem alias_cycles_found_two_names :
    (∀ entry ∈ Keyed.ofList [("a", "b.x"), ("b", "a.y"), ("c", "a")],
      ∃ path, Path.ofString entry.2 = .ok path) ∧
    ∃ names, AliasTable.ofMapping [("a", "b.x"), ("b", "a.y"), ("c", "a")] = .error (.cycle names) := by
  have wellFormed : ∀ entry ∈ Keyed.ofList [("a", "b.x"), ("b", "a.y"), ("c", "a")],
      ∃ path, Path.ofString entry.2 = .ok path := by
    intro entry member
    have listed : Keyed.ofList [("a", "b.x"), ("b", "a.y"), ("c", "a")] =
        [("a", "b.x"), ("b", "a.y"), ("c", "a")] := by decide
    rw [listed] at member
    simp only [List.mem_cons, List.not_mem_nil, or_false] at member
    rcases member with rfl | rfl | rfl
    · exact ⟨⟨⟨"b", none⟩, [(.member, ⟨"x", none⟩)]⟩, by decide +kernel⟩
    · exact ⟨⟨⟨"a", none⟩, [(.member, ⟨"y", none⟩)]⟩, by decide +kernel⟩
    · exact ⟨⟨⟨"a", none⟩, []⟩, by decide +kernel⟩
  refine ⟨wellFormed, (alias_cycles_found _ wellFormed []).1.2 ⟨"c", 1, 3, "a", by decide, ?_, ?_⟩⟩
  · decide +kernel
  · decide +kernel

end AliasTable

end DeckBinding
