import DeckBinding.Proofs.Expression.Calls
import DeckBinding.Proofs.Generation.History
import DeckBinding.Proofs.Text.Removal

set_option autoImplicit false

namespace DeckBinding

open DeckBinding.Number DeckBinding.Text

namespace Resolver

def tokenBody (name : String) (number : Nat) : List Char :=
  name.toList ++ '#' :: Nat.toDigits 10 number

theorem toList_token (name : String) (number : Nat) :
    (token name number).toList = doubleBracketed (tokenBody name number) := by
  simp only [token, String.toList_append, Nat.toString_eq_repr, Nat.toList_repr, List.append_assoc]
  rw [doubleBracketed, tokenBody, List.append_assoc]
  rfl

variable {name other : String} {number count : Nat}

theorem unbracketed_tokenBody (plain : Unbracketed name.toList) : Unbracketed (tokenBody name number) := by
  have digits {c : Char} (bracket : c.isDigit = false) : c ∉ Nat.toDigits 10 number := by
    intro member
    rw [isDigit_of_mem_numeral member] at bracket
    cases bracket
  constructor
  · simp [tokenBody, plain.1, digits]
  · simp [tokenBody, plain.2, digits]

/-- The number of a token can be read off behind its last mark. -/
theorem number_of_tokenBody (same : tokenBody name number = tokenBody other count) : number = count := by
  have behind (name : String) (number : Nat) :
      (tokenBody name number).reverse.takeWhile (· != '#') = (Nat.toDigits 10 number).reverse := by
    rw [tokenBody, List.reverse_append, List.reverse_cons, List.append_assoc]
    refine takeWhile_of_head ?_ ?_
    · intro c member
      rw [List.mem_reverse] at member
      have digit := isDigit_of_mem_numeral member
      rw [bne_iff_ne]
      rintro rfl
      cases digit
    · rintro c ⟨⟩
      rfl
  have digits : Nat.toDigits 10 number = Nat.toDigits 10 count := by
    rw [← List.reverse_inj, ← behind name, ← behind other, same]
  simpa using congrArg (fun digits => Nat.ofDigitChars 10 digits 0) digits

end Resolver

/-- One token has nothing to do with another: it is a different text that does not occur in it, and
taking it out of a text in which the other one stands leaves that one as it is. -/
structure TokenApart (left right : String) : Prop where
  distinct : left ≠ right
  outside : ¬ left.toList <:+: right.toList
  kept : ∀ front behind, remove left.toList (front ++ right.toList ++ behind) =
    remove left.toList front ++ right.toList ++ remove left.toList behind

theorem tokenApart {name other : String} {number count : Nat} (plain : Unbracketed name.toList)
    (others : Unbracketed other.toList) (apart : number ≠ count) :
    TokenApart (Resolver.token name number) (Resolver.token other count) := by
  have bodies : Resolver.tokenBody name number ≠ Resolver.tokenBody other count :=
    fun same => apart (Resolver.number_of_tokenBody same)
  have inner := @Resolver.unbracketed_tokenBody name number plain
  have outer := @Resolver.unbracketed_tokenBody other count others
  have outside : ¬ (Resolver.token name number).toList <:+: (Resolver.token other count).toList := by
    rw [Resolver.toList_token, Resolver.toList_token]
    exact fun within => bodies (eq_of_infix_doubleBracketed outer within)
  refine ⟨?_, outside, ?_⟩
  · intro same
    rw [same] at outside
    exact outside List.infix_rfl
  · rw [Resolver.toList_token, Resolver.toList_token]
    exact remove_doubleBracketed inner outer bodies

/-- Calls whose tokens have numbers that increase, from one number on and below another, and whose
names have no brackets. -/
inductive Counted : Nat → Nat → List Deferred → Prop where
  | nil {low high : Nat} (ordered : low ≤ high) : Counted low high []
  | cons {low number high : Nat} {call : Deferred} {rest : List Deferred} (reached : low ≤ number)
      (numbered : call.token = Resolver.token call.name number) (plain : Unbracketed call.name.toList)
      (behind : Counted (number + 1) high rest) : Counted low high (call :: rest)

namespace Counted

variable {low middle high : Nat} {calls others : List Deferred}

theorem ordered (counted : Counted low high calls) : low ≤ high := by
  induction counted with
  | nil ordered => exact ordered
  | cons reached _ _ _ ih => omega

theorem from_lower {lower : Nat} (less : lower ≤ low) (counted : Counted low high calls) :
    Counted lower high calls := by
  cases counted with
  | nil ordered => exact .nil (less.trans ordered)
  | cons reached numbered plain behind => exact .cons (less.trans reached) numbered plain behind

theorem append (first : Counted low middle calls) (second : Counted middle high others) :
    Counted low high (calls ++ others) := by
  induction first with
  | nil ordered => exact second.from_lower ordered
  | cons reached numbered plain _ ih => exact .cons reached numbered plain (ih second)

theorem sublist (counted : Counted low high calls) (fewer : others.Sublist calls) : Counted low high others := by
  induction counted generalizing others with
  | nil ordered =>
    rw [List.sublist_nil.1 fewer]
    exact .nil ordered
  | cons reached numbered plain behind ih =>
    cases fewer with
    | cons _ inner => exact (ih inner).from_lower (by omega)
    | cons_cons _ inner => exact .cons reached numbered plain (ih inner)

/-- A later call has a higher number. -/
theorem exists_of_mem (counted : Counted low high calls) {call : Deferred} (member : call ∈ calls) :
    ∃ number, low ≤ number ∧ call.token = Resolver.token call.name number ∧ Unbracketed call.name.toList := by
  induction counted with
  | nil => cases member
  | cons reached numbered plain _ ih =>
    rcases List.mem_cons.1 member with rfl | later
    · exact ⟨_, reached, numbered, plain⟩
    · obtain ⟨number, above, further⟩ := ih later
      exact ⟨number, by omega, further⟩

/-- The tokens of counted calls have nothing to do with each other. -/
theorem pairwise (counted : Counted low high calls) :
    calls.Pairwise fun left right => TokenApart left.token right.token ∧ TokenApart right.token left.token := by
  induction counted with
  | nil => exact .nil
  | cons _ numbered plain behind ih =>
    refine List.pairwise_cons.2 ⟨?_, ih⟩
    intro other member
    obtain ⟨number, above, named, bare⟩ := behind.exists_of_mem member
    rw [numbered, named]
    exact ⟨tokenApart plain bare (by omega), tokenApart bare plain (by omega)⟩

end Counted

def callsOf {ε α : Type} (calls : α → List Deferred) : Except ε α → List Deferred
  | .error _ => []
  | .ok result => calls result

/-- Whatever was counted before, a run counts its calls from there on. -/
def Counts {α : Type} (calls : α → List Deferred) (run : ResolverState → α × ResolverState) : Prop :=
  ∀ state, Counted state.issued (run state).2.issued (calls (run state).1)

section Counts

variable {ε α β : Type} {calls : α → List Deferred} {others : β → List Deferred}

/-- A run still counts when some of its calls are left out of its result. -/
theorem Counts.map {run : ResolverState → Except ε α × ResolverState} (counts : Counts (callsOf calls) run)
    {view : α → β} (fewer : ∀ result, (others (view result)).Sublist (calls result)) :
    Counts (callsOf others) fun state => ((run state).1.map view, (run state).2) := by
  intro state
  have counted := counts state
  dsimp only
  cases result : (run state).1 with
  | error error => exact .nil counted.ordered
  | ok found =>
    rw [result] at counted
    exact counted.sublist (fewer found)

/-- Runs that count one after the other count together. -/
theorem Counts.collect {run : ResolverState → Except ε α × ResolverState}
    {further : ResolverState → Except ε (List α) × ResolverState} (first : Counts (callsOf calls) run)
    (second : Counts (callsOf (List.flatMap calls)) further) :
    Counts (callsOf (List.flatMap calls)) (collect run further) := by
  intro state
  have here := first state
  unfold DeckBinding.collect
  rcases ran : run state with ⟨_ | item, middle⟩
  · rw [ran] at here
    exact here
  · rw [ran] at here
    have behind := second middle
    dsimp only
    cases rest : (further middle).1 with
    | error error => exact .nil (here.ordered.trans behind.ordered)
    | ok items =>
      rw [rest] at behind
      exact here.append behind

theorem counts_ok {result : α} (bare : calls result = []) :
    Counts (callsOf (ε := ε) calls) fun state => (.ok result, state) :=
  fun state => by
    rw [callsOf, bare]
    exact .nil (Nat.le_refl _)

end Counts

/-- An expression whose function, if it calls one, has a name without brackets. -/
def Expression.PlainlyNamed (expression : Expression) : Prop :=
  match expression.source with
  | .path _ => True
  | .call call => Unbracketed call.name.toList

/-- Names of functions that are read from a text have no brackets. -/
theorem plainlyNamed_of_read {body text : List Char} {expression : Expression}
    (read : Expression.read body text = .ok expression) : expression.PlainlyNamed := by
  unfold Expression.PlainlyNamed
  cases source : expression.source with
  | path path => trivial
  | call call =>
    obtain ⟨parts, spelled, accepted, -⟩ := read_eq_ok_call_iff.1 ⟨read, source⟩
    obtain ⟨-, named, -⟩ := readCall_eq_ok_iff.1 accepted
    cases spelled with
    | call _ _ isName _ _ _ =>
      dsimp only
      rw [named]
      constructor
      · intro member
        exact absurd (isWord_of_isName isName _ member) (by decide)
      · intro member
        exact absurd (isWord_of_isName isName _ member) (by decide)

theorem plainlyNamed_of_ofBody {body : List Char} {expression : Expression}
    (read : Reading.ofBody body = .ok (.parsed expression)) : expression.PlainlyNamed := by
  unfold Reading.ofBody at read
  split at read
  · rename_i found
    cases read
    exact plainlyNamed_of_read found
  · cases read
  · cases read

theorem Expression.PlainlyNamed.expandExpression {expression : Expression} (plain : expression.PlainlyNamed)
    (table : AliasTable) : (table.expandExpression expression).PlainlyNamed := by
  unfold PlainlyNamed at plain ⊢
  rw [AliasTable.source_expandExpression]
  cases source : expression.source with
  | path path => trivial
  | call call =>
    rw [source] at plain
    exact plain

variable {resolver : Resolver} {shown : Instance}

theorem obstructed_issued (expression : Expression) (obstacle : Obstacle) (state : ResolverState) :
    (Resolver.obstructed expression shown obstacle state).2.issued = state.issued := by
  cases obstacle <;> rfl

/-- An expression takes the next number if it leaves a call, and none otherwise. -/
theorem resolve_counts {expression : Expression} (plain : expression.PlainlyNamed) :
    Counts (·.deferred?.toList) (resolver.resolve expression shown) := by
  intro state
  have named := plain.expandExpression resolver.aliases
  unfold Resolver.resolve Resolver.resolveExpanded
  unfold Expression.PlainlyNamed at named
  generalize resolver.aliases.expandExpression expression = expression at named ⊢
  cases source : expression.source with
  | path path =>
    dsimp only
    split
    · rw [obstructed_issued, obstructed_deferred?]
      exact .nil (Nat.le_refl _)
    · split
      · exact .nil (Nat.le_refl _)
      · rw [obstructed_issued, obstructed_deferred?]
        exact .nil (Nat.le_refl _)
  | call call =>
    rw [source] at named
    dsimp only
    split
    · rw [obstructed_issued, obstructed_deferred?]
      exact .nil (Nat.le_refl _)
    · exact .cons (Nat.le_refl _) rfl named (.nil (Nat.le_refl _))

theorem fill_counts (ps : List Piece) : Counts (callsOf deferredCalls) (resolver.fill shown ps) := by
  induction ps with
  | nil => exact fun state => .nil (Nat.le_refl _)
  | cons piece rest ih =>
    -- what stands in front of the rest puts its calls in front of the others
    have behind (first : Filling) {low : Nat} {state : ResolverState}
        (here : Counted low state.issued (deferredCalls [first])) :
        Counted low (resolver.fill shown rest state).2.issued
          (callsOf deferredCalls ((resolver.fill shown rest state).1.map (first :: ·))) := by
      have further := ih state
      cases found : (resolver.fill shown rest state).1 with
      | error error => exact .nil (here.ordered.trans further.ordered)
      | ok fillings =>
        rw [found] at further
        show Counted low _ (deferredCalls ([first] ++ fillings))
        rw [deferredCalls_append]
        exact here.append further
    intro state
    cases piece with
    | plain c => exact behind (.kept [c]) (.nil (Nat.le_refl _))
    | bound body =>
      rw [Resolver.fill]
      split
      · exact .nil (Nat.le_refl _)
      · rename_i text error read
        exact behind (.kept text) (.nil (Nat.le_refl _))
      · rename_i expression read
        have plain : expression.PlainlyNamed := plainlyNamed_of_ofBody read
        have here := @resolve_counts resolver shown expression plain state
        refine behind (.filled (resolver.resolve expression shown state).1) ?_
        generalize resolver.resolve expression shown state = outcome at here
        rcases outcome with ⟨_ | call | reason, after⟩ <;> exact here

/-- A text takes the next numbers for the calls in it, from left to right. -/
theorem resolveText_counts (text : List Char) :
    Counts (callsOf TextResolution.deferred) (resolver.resolveText text shown) :=
  (fill_counts _).map fun _ => List.Sublist.refl _

theorem resolveTexts_counts (texts : List (List Char)) :
    Counts (callsOf (List.flatMap TextResolution.deferred))
      (resolveTexts (fun text state => resolver.resolveText text shown state) texts) := by
  induction texts with
  | nil => exact counts_ok rfl
  | cons text rest ih =>
    rw [resolveTexts_cons]
    exact (resolveText_counts text).collect ih

theorem reconcile_counts (runs : List (List Char)) :
    Counts (callsOf Reconciled.deferred)
      (reconcile (fun text state => resolver.resolveText text shown state) runs) :=
  (resolveTexts_counts _).map fun _ => List.Sublist.refl _

theorem bindParagraphs_counts (paragraphs : List (List (List Char))) :
    Counts (callsOf (List.flatMap Reconciled.deferred)) (bindParagraphs resolver shown paragraphs) := by
  induction paragraphs with
  | nil => exact counts_ok rfl
  | cons runs rest ih =>
    rw [bindParagraphs_cons]
    exact (reconcile_counts runs).collect ih

def ShapeOutput.calls (output : ShapeOutput) : List Deferred :=
  output.deferred.map (·.2)

def SlideOutput.calls (output : SlideOutput) : List Deferred :=
  output.deferred.map (·.2)

/-- The calls of a shape are those of its paragraphs, or none when it is hidden. -/
theorem ofParagraphs_calls (shape : TextShape) (resolved : List Reconciled) :
    (ShapeOutput.ofParagraphs shape resolved).calls.Sublist (resolved.flatMap Reconciled.deferred) := by
  unfold ShapeOutput.calls ShapeOutput.ofParagraphs
  dsimp only
  split
  · exact List.nil_sublist _
  · rw [List.map_map]
    exact (List.map_id _).symm ▸ List.Sublist.refl _

theorem bindShapes_counts (shapes : List TextShape) :
    Counts (callsOf (List.flatMap ShapeOutput.calls))
      (bindShapes resolver shown shapes) := by
  induction shapes with
  | nil => exact counts_ok rfl
  | cons shape rest ih =>
    rw [bindShapes_cons]
    exact ((bindParagraphs_counts shape.paragraphs).map (ofParagraphs_calls shape)).collect ih

theorem bindSlide_counts (source : TemplateSlide) :
    Counts (callsOf SlideOutput.calls) (bindSlide resolver source shown) := by
  refine (bindShapes_counts source.shapes).map fun shapes => ?_
  rw [SlideOutput.calls, List.map_flatMap]
  exact List.Sublist.refl _

def Answer.calls : Answer → List Deferred
  | .text found => callsOf TextResolution.deferred found
  | .expression found => found.deferred?.toList
  | .slide found => callsOf SlideOutput.calls found
  | .path _ | .cleared => []

namespace Operation

/-- An operation whose function, if it is an expression that calls one, has a name without brackets.
Names that are read from texts have none. -/
def PlainlyNamed : Operation → Prop
  | .ofExpression expression _ => expression.PlainlyNamed
  | _ => True

/-- An operation takes the next numbers for its calls, and forgetting elements takes none back. -/
theorem run_counts {operation : Operation} (plain : operation.PlainlyNamed) :
    Counts Answer.calls (operation.run resolver) := by
  intro state
  cases operation with
  | ofText text shown => exact resolveText_counts text state
  | ofExpression expression shown => exact resolve_counts plain state
  | ofPath path shown => exact .nil (Nat.le_refl _)
  | ofSlide source shown => exact bindSlide_counts source state
  | clear => exact .nil (Nat.le_refl _)

theorem runAll_counts {operations : List Operation} (plain : ∀ operation ∈ operations, operation.PlainlyNamed) :
    Counts (List.flatMap Answer.calls) (runAll resolver operations) := by
  induction operations with
  | nil => exact fun state => .nil (Nat.le_refl _)
  | cons operation rest ih =>
    intro state
    have here := @run_counts resolver operation (plain operation List.mem_cons_self) state
    exact here.append (ih (fun other member => plain other (List.mem_cons_of_mem _ member)) _)

/-- The calls that a resolver ever leaves to the document have tokens that have nothing to do with
each other: whatever it is asked for and in whatever order, no two of them are the same, none occurs
in another one, and taking one out of a text leaves every other one in it whole. -/
theorem runAll_tokens (resolver : Resolver) (state : ResolverState) {operations : List Operation}
    (plain : ∀ operation ∈ operations, operation.PlainlyNamed) :
    ((runAll resolver operations state).1.flatMap Answer.calls).Pairwise fun left right =>
      TokenApart left.token right.token ∧ TokenApart right.token left.token :=
  (runAll_counts plain state).pairwise

/-- Calls of functions with names that end alike, one of them on a hidden shape, before and after
the elements are forgotten. -/
def photoVisits : List Operation :=
  [.ofText "${Photo(Teams>Name)} ${LargePhoto(Teams>Name)} ${Photo(Teams>Logo)}".toList (elementPage "Teams" 0),
    .clear,
    .ofExpression ⟨"$\x7bPhoto('a')\x7d", .call ⟨none, "Photo", [.literal "a"]⟩, none, []⟩
      (elementPage "Teams" 1),
    .ofSlide (.ofTexts 1 ["${Photo(Teams>Name)}${Teams>Logo}".toList, "${Photo(Teams>Name)}".toList] [])
      (elementPage "Teams" 1)]

theorem runAll_tokens_photos :
    (∀ operation ∈ photoVisits, operation.PlainlyNamed) ∧
      ((runAll teams photoVisits ⟨[], 9, []⟩).1.flatMap Answer.calls).map (·.token) =
        ["[[Photo#9]]", "[[LargePhoto#10]]", "[[Photo#11]]", "[[Photo#13]]"] ∧
      ((runAll teams photoVisits ⟨[], 9, []⟩).1.flatMap Answer.calls).Pairwise fun left right =>
        TokenApart left.token right.token ∧ TokenApart right.token left.token := by
  have plain : ∀ operation ∈ photoVisits, operation.PlainlyNamed := by
    simp [photoVisits, PlainlyNamed, Expression.PlainlyNamed, Unbracketed]
  exact ⟨plain, by decide +kernel, runAll_tokens teams ⟨[], 9, []⟩ plain⟩

end Operation

end DeckBinding
