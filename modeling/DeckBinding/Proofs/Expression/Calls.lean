import DeckBinding.Proofs.Expression.Arguments

set_option autoImplicit false

namespace DeckBinding

open DeckBinding.Number DeckBinding.Text

/-- What may stand behind a call: blanks, and a format behind a colon if there is one. -/
inductive EndsCall : Option (List Char) → List Char → Prop
  | bare {blanks : List Char} (blank : Blanks blanks) : EndsCall none blanks
  | format {blanks : List Char} (blank : Blanks blanks) (format : List Char) :
      EndsCall (some format) (blanks ++ ':' :: format)

/-- No closing bracket of a text ends a call. -/
def Unclosing (text : List Char) : Prop :=
  ∀ front back, text = front ++ ')' :: back → ∀ format, ¬ EndsCall format back

def functionText : Option (List Char) → List Char → List Char
  | none, name => name
  | some owner, name => owner ++ '.' :: name

/-- A text is a function call: the name, the arguments in brackets, and what ends the call behind
the last bracket that can close it, with blanks in front of each. -/
inductive CallText.SpelledBy : CallText → List Char → Prop
  | call {owner : Option (List Char)} {name arguments tail before between : List Char}
      {format : Option (List Char)} (ahead : Blanks before)
      (owned : ∀ word ∈ owner, isName (String.ofList word) = true)
      (named : isName (String.ofList name) = true) (opening : Blanks between) (ends : EndsCall format tail)
      (last : Unclosing tail) :
      SpelledBy ⟨owner, name, arguments, format⟩
        (before ++ (functionText owner name ++ (between ++ '(' :: (arguments ++ ')' :: tail))))

variable {text name arguments format : List Char} {owner : Option (List Char)}

theorem takeCallFormat?_eq_some_iff {format : Option (List Char)} :
    takeCallFormat? text = some format ↔ EndsCall format text := by
  constructor
  · intro taken
    have whole := takeWhile_append_trimLeft text
    have blank := blanks_takeWhile text
    unfold takeCallFormat? at taken
    split at taken
    · rename_i none
      cases taken
      rw [none, List.append_nil] at whole
      exact .bare (whole ▸ blank)
    · rename_i inner found
      cases taken
      rw [found] at whole
      rw [← whole]
      exact .format blank inner
    · cases taken
  · intro ends
    unfold takeCallFormat?
    cases ends with
    | bare blank => rw [trimLeft_of_blanks blank]
    | format blank inner =>
      rw [trimLeft_append blank, trimLeft_of_head (by decide)]
      rfl

theorem cutAtClosing?_eq_none_iff : cutAtClosing? text = none ↔ Unclosing text := by
  induction text with
  | nil =>
    refine ⟨fun _ front back same => ?_, fun _ => rfl⟩
    exact absurd same.symm (List.append_ne_nil_of_right_ne_nil front (List.cons_ne_nil _ _))
  | cons c rest ih =>
    unfold cutAtClosing?
    constructor
    · intro none front back same format ends
      split at none
      · cases none
      · rename_i absent
        cases front with
        | nil =>
          obtain ⟨rfl, rfl⟩ := List.cons.inj same
          rw [if_pos rfl, takeCallFormat?_eq_some_iff.2 ends] at none
          cases none
        | cons _ front =>
          obtain ⟨rfl, rfl⟩ := List.cons.inj same
          exact ih.1 absent front back rfl format ends
    · intro unclosing
      have absent : cutAtClosing? rest = none :=
        ih.2 fun front back same => unclosing (c :: front) back (by rw [same, List.cons_append])
      rw [absent]
      dsimp only
      split
      · rename_i closing
        subst closing
        rw [Option.map_eq_none_iff, Option.eq_none_iff_forall_ne_some]
        exact fun format taken => unclosing [] rest rfl format (takeCallFormat?_eq_some_iff.1 taken)
      · rfl

theorem cutAtClosing?_append {inner : List Char} {format : Option (List Char)}
    (cut : cutAtClosing? text = some (inner, format)) (front : List Char) :
    cutAtClosing? (front ++ text) = some (front ++ inner, format) := by
  induction front with
  | nil => exact cut
  | cons c front ih => rw [List.cons_append, cutAtClosing?, ih, List.cons_append]

/-- A text is cut at a closing bracket exactly when it ends a call and no later one does. -/
theorem cutAtClosing?_eq_some_iff {inner : List Char} {format : Option (List Char)} :
    cutAtClosing? text = some (inner, format) ↔
      ∃ tail, text = inner ++ ')' :: tail ∧ EndsCall format tail ∧ Unclosing tail := by
  constructor
  · intro cut
    induction text generalizing inner with
    | nil => cases cut
    | cons c rest ih =>
      unfold cutAtClosing? at cut
      split at cut
      · rename_i further
        cases cut
        obtain ⟨tail, rfl, ends, last⟩ := ih further
        exact ⟨tail, rfl, ends, last⟩
      · rename_i absent
        split at cut
        · rename_i closing
          obtain ⟨kept, taken, same⟩ := Option.map_eq_some_iff.1 cut
          cases same
          rw [closing]
          exact ⟨rest, rfl, takeCallFormat?_eq_some_iff.1 taken, cutAtClosing?_eq_none_iff.1 absent⟩
        · cases cut
  · rintro ⟨tail, rfl, ends, last⟩
    have here : cutAtClosing? (')' :: tail) = some ([], format) := by
      rw [cutAtClosing?, cutAtClosing?_eq_none_iff.2 last, takeCallFormat?_eq_some_iff.2 ends]
      rfl
    have whole := cutAtClosing?_append here inner
    rwa [List.append_nil] at whole

theorem trimLeft_of_isName (named : isName (String.ofList name) = true) (rest : List Char) :
    trimLeft (name ++ rest) = name ++ rest := by
  obtain ⟨c, others, first, start, _⟩ := toList_of_isName named
  rw [String.toList_ofList] at first
  rw [first]
  exact trimLeft_of_head (isBlank_of_isWord (isWord_of_isNameStart start))

theorem takeName?_append (named : isName (String.ofList name) = true) {rest : List Char}
    (ends : ∀ c ∈ rest.head?, isWord c = false) : takeName? (name ++ rest) = some (name, rest) := by
  have taken := takeName?_of_isName named ends
  rwa [String.toList_ofList] at taken

theorem exists_of_takeFunctionName? {rest : List Char}
    (taken : takeFunctionName? text = some (owner, name, rest)) :
    ∃ blanks, Blanks blanks ∧ (∀ word ∈ owner, isName (String.ofList word) = true) ∧
      isName (String.ofList name) = true ∧ text = blanks ++ (functionText owner name ++ rest) := by
  unfold takeFunctionName? at taken
  obtain ⟨⟨word, behind⟩, first, further⟩ := Option.bind_eq_some_iff.1 taken
  have whole := takeWhile_append_trimLeft text
  have ahead := blanks_takeWhile text
  rw [← append_of_takeName? first] at whole
  generalize text.takeWhile isBlank = blanks at whole ahead
  refine ⟨blanks, ahead, ?_⟩
  dsimp only at further
  split at further
  · obtain ⟨⟨other, last⟩, second, same⟩ := Option.bind_eq_some_iff.1 further
    cases same
    rw [← append_of_takeName? second] at whole
    refine ⟨?_, isName_of_takeName? second, ?_⟩
    · rintro word ⟨⟩
      exact isName_of_takeName? first
    · rw [← whole, functionText, List.append_assoc, List.cons_append]
  · cases further
    refine ⟨?_, isName_of_takeName? first, whole.symm⟩
    rintro word ⟨⟩

theorem takeFunctionName?_append {blanks rest : List Char} (blank : Blanks blanks)
    (owned : ∀ word ∈ owner, isName (String.ofList word) = true)
    (named : isName (String.ofList name) = true)
    (ends : ∀ c ∈ rest.head?, isWord c = false ∧ c ≠ '.') :
    takeFunctionName? (blanks ++ (functionText owner name ++ rest)) = some (owner, name, rest) := by
  have apart : ∀ c ∈ rest.head?, isWord c = false := fun c first => (ends c first).1
  unfold takeFunctionName?
  rw [trimLeft_append blank]
  cases owner with
  | none =>
    rw [functionText, trimLeft_of_isName named, takeName?_append named apart, Option.bind_eq_bind,
      Option.bind_some]
    dsimp only
    split
    · exact absurd rfl (ends '.' rfl).2
    · rfl
  | some owner =>
    have owned := owned owner rfl
    have point : ∀ c ∈ ('.' :: (name ++ rest)).head?, isWord c = false := by
      rintro c ⟨⟩
      decide
    rw [functionText, List.append_assoc, List.cons_append, trimLeft_of_isName owned,
      takeName?_append owned point, Option.bind_eq_bind, Option.bind_some]
    show ((takeName? (name ++ rest)).bind fun found => some (some owner, found.1, found.2)) = _
    rw [takeName?_append named apart]
    rfl

/-- A text has the form of a call exactly when it is one. -/
theorem splitCall?_eq_some_iff {parts : CallText} : splitCall? text = some parts ↔ parts.SpelledBy text := by
  constructor
  · intro split
    unfold splitCall? at split
    obtain ⟨⟨owner, name, rest⟩, taken, further⟩ := Option.bind_eq_some_iff.1 split
    obtain ⟨blanks, ahead, owned, named, rfl⟩ := exists_of_takeFunctionName? taken
    have whole := takeWhile_append_trimLeft rest
    dsimp only at further
    split at further
    · rename_i opened found
      obtain ⟨⟨arguments, format⟩, cut, same⟩ := Option.bind_eq_some_iff.1 further
      cases same
      obtain ⟨tail, rfl, ends, last⟩ := cutAtClosing?_eq_some_iff.1 cut
      rw [← whole, found]
      exact .call ahead owned named (blanks_takeWhile rest) ends last
    · cases further
  · rintro ⟨ahead, owned, named, opening, ends, last⟩
    rename_i owner name arguments tail before between format
    have behind : ∀ c ∈ (between ++ '(' :: (arguments ++ ')' :: tail)).head?, isWord c = false ∧ c ≠ '.' := by
      refine head?_append_of_blanks opening (fun c blank => ⟨isWord_of_isBlank blank, ?_⟩) ?_
      · rintro rfl
        exact absurd blank (by decide)
      · rintro c ⟨⟩
        decide
    have cut : cutAtClosing? (arguments ++ ')' :: tail) = some (arguments, format) :=
      cutAtClosing?_eq_some_iff.2 ⟨tail, rfl, ends, last⟩
    unfold splitCall?
    rw [takeFunctionName?_append ahead owned named behind, Option.bind_eq_bind, Option.bind_some]
    dsimp only
    rw [trimLeft_append opening, trimLeft_of_head (by decide)]
    show ((cutAtClosing? (arguments ++ ')' :: tail)).bind fun found =>
      some (CallText.mk owner name found.1 found.2)) = _
    rw [cut]
    rfl

/-- The parts of a call are those of the text, and what is read between the brackets. -/
theorem read_eq_ok_call_iff {body : List Char} {expression : Expression} {call : Call} :
    Expression.read body text = .ok expression ∧ expression.source = .call call ↔
      ∃ parts : CallText, parts.SpelledBy body ∧ readCall parts = .ok call ∧
        expression = ⟨String.ofList text, .call call, trimmedFormat? parts.format,
          (Source.call call).references⟩ := by
  unfold Expression.read
  constructor
  · rintro ⟨read, calls⟩
    split at read
    · rename_i parts found
      obtain ⟨other, accepted, same⟩ := exists_of_bind_eq_ok read
      cases same
      cases calls
      exact ⟨parts, splitCall?_eq_some_iff.1 found, accepted, rfl⟩
    · dsimp only at read
      split at read
      · cases read
      · cases read
        cases calls
  · rintro ⟨parts, spelled, accepted, rfl⟩
    rw [splitCall?_eq_some_iff.2 spelled]
    dsimp only
    rw [accepted]
    exact ⟨rfl, rfl⟩

/-- A text is read as a call exactly when a list of arguments stands between its brackets, each of
them a path, a string, or a text that starts with a string and ends with another one of the same
quote. Anything else between the brackets is malformed, if its indices are short enough to be
converted. -/
theorem read_call (body text : List Char) :
    (∀ expression call, (Expression.read body text = .ok expression ∧ expression.source = .call call ↔
      ∃ parts : CallText, parts.SpelledBy body ∧ call.owner = parts.owner.map String.ofList ∧
        call.name = String.ofList parts.name ∧ ArgumentList call.arguments parts.arguments ∧
        expression = ⟨String.ofList text, .call call, trimmedFormat? parts.format,
          (Source.call call).references⟩)) ∧
    ∀ parts : CallText, parts.SpelledBy body → ShortIndices parts.arguments →
      (∀ arguments, ¬ ArgumentList arguments parts.arguments) →
      ∃ error, Expression.read body text = .error (.malformed error) := by
  constructor
  · intro expression call
    simp only [read_eq_ok_call_iff, readCall_eq_ok_iff, and_assoc]
  · intro parts spelled short none
    obtain ⟨error, refused⟩ := readCall_malformed short.below none
    refine ⟨error, ?_⟩
    unfold Expression.read
    rw [splitCall?_eq_some_iff.2 spelled]
    dsimp only
    rw [refused]
    rfl

/-- Text behind a string is no argument, and the call with it is malformed. -/
theorem read_call_text_behind :
    (⟨none, ['F'], "'a' b".toList, none⟩ : CallText).SpelledBy "F('a' b)".toList ∧
      ShortIndices "'a' b".toList ∧ (∀ arguments, ¬ ArgumentList arguments "'a' b".toList) ∧
      ∃ error, Expression.read "F('a' b)".toList (braced "F('a' b)".toList) = .error (.malformed error) := by
  have spelled : (⟨none, ['F'], "'a' b".toList, none⟩ : CallText).SpelledBy "F('a' b)".toList :=
    splitCall?_eq_some_iff.1 (by decide +kernel)
  have short : ShortIndices "'a' b".toList := Path.shortIndices_of_length (by decide)
  have none : ∀ arguments, ¬ ArgumentList arguments "'a' b".toList := by
    intro arguments list
    have read : readCall ⟨none, ['F'], "'a' b".toList, none⟩ = .ok ⟨none, "F", arguments⟩ :=
      readCall_eq_ok_iff.2 ⟨rfl, rfl, list⟩
    have refused : (readCall ⟨none, ['F'], "'a' b".toList, none⟩).isOk = false := by decide +kernel
    rw [read] at refused
    cases refused
  exact ⟨spelled, short, none, (read_call _ _).2 _ spelled short none⟩

/-- Two strings side by side are accepted as one argument, which is no path and holds its quote. -/
theorem strings_side_by_side_accepted :
    (Expression.read "F('a' 'b')".toList (braced "F('a' 'b')".toList)).map Expression.source =
        .ok (.call ⟨none, "F", [.literal "a' 'b"]⟩) ∧
      ∀ texts, joinWith [','] texts = "'a' 'b'".toList → ∃ text ∈ texts,
        (∀ path, Path.read (trim text) ≠ .ok path) ∧
        ∀ quote inner, trim text = quote :: (inner ++ [quote]) → quote ∈ inner := by
  refine ⟨by decide +kernel, ?_⟩
  intro texts joined
  cases texts with
  | nil => cases joined
  | cons text more =>
    cases more with
    | nil =>
      rw [joinWith] at joined
      have whole : trim text = '\'' :: ("a' 'b".toList ++ ['\'']) := by
        rw [joined]
        decide +kernel
      refine ⟨text, List.mem_cons_self, ?_, ?_⟩
      · intro path read
        have refused : (Path.read ('\'' :: ("a' 'b".toList ++ ['\'']))).isOk = false := by decide +kernel
        rw [← whole, read] at refused
        cases refused
      · intro quote inner same
        obtain ⟨rfl, behind⟩ := List.cons.inj (whole.symm.trans same)
        rw [← List.append_cancel_right behind]
        decide
    | cons next more =>
      have comma : ',' ∈ "'a' 'b'".toList := by
        rw [← joined]
        simp [joinWith]
      exact absurd comma (by decide)

/-- What the braces of a call hold as it is written: its name behind its owner and a point, the
arguments in brackets with a comma and a space between them, and the format behind a colon. -/
def callBody (owner : Option String) (name : String) (texts : List (List Char)) (format : List Char) :
    List Char :=
  functionText (owner.map String.toList) name.toList ++ '(' :: (joinWith [',', ' '] texts ++ ')' :: ':' :: format)

/-- What stands behind a mark is shorter than the whole, also without the blanks around it. -/
theorem length_trim_lt {mark : Char} (full : isBlank mark = false) (front back : List Char) :
    (trim back).length < (trim (front ++ mark :: back)).length := by
  have kept := (infix_trim (trimRight back)).length_le
  rw [trim_trimRight] at kept
  rw [trim_append_mark full]
  simp only [List.length_append, List.length_cons]
  omega

theorem trimmedFormat?_eq_some_iff {format : Option (List Char)} {shown : String} :
    trimmedFormat? format = some shown ↔
      ∃ kept, format = some kept ∧ ¬ Blanks kept ∧ shown = String.ofList (trim kept) := by
  cases format with
  | none => simp [trimmedFormat?]
  | some kept =>
    by_cases blank : Blanks kept
    · simp [trimmedFormat?, trim_eq_nil_iff.2 blank, blank]
    · have filled : (trim kept).isEmpty = false := by
        rwa [List.isEmpty_eq_false_iff, ne_eq, trim_eq_nil_iff]
      simp [trimmedFormat?, filled, blank, eq_comm]

theorem Unclosing.cons {c : Char} (last : Unclosing text) (apart : c ≠ ')') : Unclosing (c :: text) := by
  intro front back same format ends
  cases front with
  | nil => exact apart (List.cons.inj same).1
  | cons _ front => exact last front back (List.cons.inj same).2 format ends

section Written

variable {owner : Option String} {name : String}

/-- A name with brackets behind it is a call that ends at the last bracket that can close it. -/
theorem spelledBy_named (owned : ∀ word ∈ owner, isName word = true) (named : isName name = true)
    {tail : List Char} {format : Option (List Char)} (ends : EndsCall format tail) (last : Unclosing tail)
    (arguments : List Char) :
    (CallText.mk (owner.map String.toList) name.toList arguments format).SpelledBy
      (functionText (owner.map String.toList) name.toList ++ '(' :: (arguments ++ ')' :: tail)) := by
  refine .call blanks_nil ?_ ?_ blanks_nil ends last
  · intro word member
    obtain ⟨other, among, rfl⟩ := Option.map_eq_some_iff.1 member
    rw [String.ofList_toList]
    exact owned other among
  · rwa [String.ofList_toList]

/-- A written call is read as the call with these arguments and the format without the blanks around
it exactly when no closing bracket of the format can end a call. -/
theorem read_callBody {arguments : List Argument} {texts : List (List Char)}
    (owned : ∀ word ∈ owner, isName word = true) (named : isName name = true)
    (written : List.Forall₂ Argument.WrittenAs arguments texts) (filled : ¬ Blanks format) (text : List Char) :
    (∃ expression, Expression.read (callBody owner name texts format) text = .ok expression ∧
      expression.source = .call ⟨owner, name, arguments⟩ ∧
      expression.format = some (String.ofList (trim format)) ∧
      expression.references = (arguments.filterMap Argument.path?).flatMap Path.references) ↔
    Unclosing format := by
  constructor
  · rintro ⟨expression, read, calls, shown, _⟩
    by_contra closing
    -- the last bracket of the format that can end a call ends it, and what is left of the format is too short
    obtain ⟨⟨inner, kept⟩, cut⟩ := Option.ne_none_iff_exists'.1 (cutAtClosing?_eq_none_iff.not.2 closing)
    obtain ⟨tail, whole, ends, last⟩ := cutAtClosing?_eq_some_iff.1 cut
    have spelled := spelledBy_named owned named ends last (joinWith [',', ' '] texts ++ ')' :: ':' :: inner)
    have shape : functionText (owner.map String.toList) name.toList ++
        '(' :: (joinWith [',', ' '] texts ++ ')' :: ':' :: inner ++ ')' :: tail) =
          callBody owner name texts format := by
      simp [callBody, whole]
    obtain ⟨parts, other, _, rfl⟩ := read_eq_ok_call_iff.1 ⟨read, calls⟩
    rw [shape, ← splitCall?_eq_some_iff, splitCall?_eq_some_iff.2 other] at spelled
    cases spelled
    obtain ⟨behind, rfl, _, same⟩ := trimmedFormat?_eq_some_iff.1 shown
    cases ends with
    | @format blanks _ _ =>
      have shorter := @length_trim_lt ':' (by decide) (inner ++ ')' :: blanks) behind
      rw [List.append_assoc, List.cons_append, ← whole, String.ofList_injective same] at shorter
      exact absurd shorter (Nat.lt_irrefl _)
  · intro last
    have spelled := spelledBy_named owned named (.format blanks_nil format) (last.cons (by decide))
      (joinWith [',', ' '] texts)
    have accepted : readCall ⟨owner.map String.toList, name.toList, joinWith [',', ' '] texts, some format⟩ =
        .ok ⟨owner, name, arguments⟩ := by
      refine readCall_eq_ok_iff.2 ⟨?_, String.ofList_toList.symm, argumentList_of_written written⟩
      simp [Option.map_map, Function.comp_def]
    obtain ⟨read, calls⟩ := read_eq_ok_call_iff.2 ⟨_, spelled, accepted, rfl⟩
    exact ⟨_, read, calls, trimmedFormat?_eq_some_iff.2 ⟨format, rfl, filled, rfl⟩, rfl⟩

/-- A call with an owner, a path and a string with a comma in it, and blanks around its format. -/
theorem read_callBody_owned :
    (∀ word ∈ some "ns", isName word = true) ∧ isName "F" = true ∧
      List.Forall₂ Argument.WrittenAs [.path ⟨⟨"a", some 1⟩, []⟩, .literal "x, y"]
        ["a[1]".toList, "'x, y'".toList] ∧
      ¬ Blanks " N2 ".toList ∧
      ∃ expression, Expression.read "ns.F(a[1], 'x, y'): N2 ".toList [] = .ok expression ∧
        expression.source = .call ⟨some "ns", "F", [.path ⟨⟨"a", some 1⟩, []⟩, .literal "x, y"]⟩ ∧
        expression.format = some "N2" ∧ expression.references = [("a", 1)] := by
  have owned : ∀ word ∈ some "ns", isName word = true := by
    rintro word ⟨⟩
    decide
  have named : isName "F" = true := by decide
  have wellFormed : (⟨⟨"a", some 1⟩, []⟩ : Path).WellFormed :=
    @Path.wellFormed_of_read "a[1]".toList _ (by decide +kernel)
  have path : Argument.WrittenAs (.path ⟨⟨"a", some 1⟩, []⟩) "a[1]".toList := .path wellFormed
  have literal : Argument.WrittenAs (.literal "x, y") "'x, y'".toList :=
    @Argument.WrittenAs.literal '\'' "x, y".toList (by decide) (by decide)
  have written := List.Forall₂.cons path (.cons literal .nil)
  have filled : ¬ Blanks " N2 ".toList := fun blank => absurd (blank 'N' (by decide)) (by decide)
  have last : Unclosing " N2 ".toList := cutAtClosing?_eq_none_iff.1 (by decide)
  exact ⟨owned, named, written, filled, (read_callBody owned named written filled []).2 last⟩

/-- A format with a word in brackets at its end is taken for arguments, and the call is
malformed. -/
theorem format_in_brackets_refused :
    List.Forall₂ Argument.WrittenAs [.path ⟨⟨"A", none⟩, []⟩] ["A".toList] ∧
      ¬ Blanks "yyyy (MMM)".toList ∧
      Expression.read (callBody none "F" ["A".toList] "yyyy (MMM)".toList) (braced "F(A):yyyy (MMM)".toList) =
        .error (.malformed (.path
          (.malformedSegment "A):yyyy (MMM".toList "A):yyyy (MMM".toList))) := by
  have wellFormed : (⟨⟨"A", none⟩, []⟩ : Path).WellFormed :=
    @Path.wellFormed_of_read "A".toList _ (by decide +kernel)
  have path : Argument.WrittenAs (.path ⟨⟨"A", none⟩, []⟩) "A".toList := .path wellFormed
  refine ⟨.cons path .nil, ?_, by decide +kernel⟩
  exact fun blank => absurd (blank 'y' (by decide)) (by decide)

end Written

end DeckBinding
