import DeckBinding.Expression.Reading
import DeckBinding.Proofs.Expression.Pieces
import DeckBinding.Proofs.Path.RoundTrip

set_option autoImplicit false

namespace DeckBinding

open DeckBinding.Number DeckBinding.Text

def Expression.ofPath (text : String) (path : Path) : Expression :=
  ⟨text, .path path, none, path.references⟩

theorem mem_of_takeName? {cs name rest : List Char} (found : takeName? cs = some (name, rest)) :
    ∀ c ∈ rest, c ∈ cs := by
  cases cs with
  | nil => cases found
  | cons d tail =>
    rw [takeName?] at found
    split at found
    · cases found
      intro c member
      exact List.mem_cons_of_mem _ ((List.dropWhile_sublist isWord).mem member)
    · cases found

theorem mem_of_trimLeft {cs : List Char} : ∀ c ∈ trimLeft cs, c ∈ cs :=
  fun _ member => (List.dropWhile_sublist isBlank).mem member

theorem mem_of_takeFunctionName? {cs name rest : List Char} {owner : Option (List Char)}
    (found : takeFunctionName? cs = some (owner, name, rest)) : ∀ c ∈ rest, c ∈ cs := by
  unfold takeFunctionName? at found
  cases first : takeName? (trimLeft cs) with
  | none =>
    rw [first] at found
    cases found
  | some taken =>
    obtain ⟨word, behind⟩ := taken
    have inside : ∀ c ∈ behind, c ∈ cs :=
      fun c member => mem_of_trimLeft c (mem_of_takeName? first c member)
    rw [first] at found
    dsimp only [Option.bind_eq_bind, Option.bind_some] at found
    split at found
    · rename_i point
      cases second : takeName? point with
      | none =>
        rw [second] at found
        cases found
      | some other =>
        rw [second] at found
        cases found
        exact fun c member => inside c (List.mem_cons_of_mem _ (mem_of_takeName? second c member))
    · cases found
      exact inside

/-- Without an opening bracket there is no call. -/
theorem splitCall?_of_not_mem {cs : List Char} (absent : '(' ∉ cs) : splitCall? cs = none := by
  unfold splitCall?
  cases found : takeFunctionName? cs with
  | none => rfl
  | some taken =>
    obtain ⟨owner, name, rest⟩ := taken
    dsimp only [Option.bind_eq_bind, Option.bind_some]
    split
    · rename_i opening
      have member : '(' ∈ trimLeft rest := by
        rw [opening]
        exact List.mem_cons_self
      exact absurd (mem_of_takeFunctionName? found _ (mem_of_trimLeft _ member)) absent
    · rfl

theorem cutAtColon_of_not_mem {cs : List Char} (absent : ':' ∉ cs) : cutAtColon cs = (cs, none) := by
  induction cs with
  | nil => rfl
  | cons c rest ih =>
    have apart : c ≠ ':' := fun same => absent (same ▸ List.mem_cons_self)
    have more := ih fun member => absent (List.mem_cons_of_mem c member)
    rw [cutAtColon, if_neg apart, more]

theorem isBodyChar_of_isPathChar {c : Char} (char : isPathChar c = true) : isBodyChar c = true := by
  have opening := ne_of_isPathChar char (d := '\x7b') (by decide)
  have closing := ne_of_isPathChar char (d := '\x7d') (by decide)
  simp [isBodyChar, opening, closing]

theorem map_plainQuote_of_isPathChar {cs : List Char} (plain : ∀ c ∈ cs, isPathChar c = true) :
    cs.map plainQuote = cs := by
  have same : ∀ c ∈ cs, plainQuote c = c := by
    intro c member
    have char := plain c member
    have first := ne_of_isPathChar char (d := '\u201c') (by decide +kernel)
    have second := ne_of_isPathChar char (d := '\u201d') (by decide +kernel)
    have third := ne_of_isPathChar char (d := '\u2018') (by decide +kernel)
    have fourth := ne_of_isPathChar char (d := '\u2019') (by decide +kernel)
    simp [plainQuote, first, second, third, fourth]
  exact (List.map_congr_left same).trans (List.map_id _)

variable {path : Path}

theorem not_mem_text (wellFormed : path.WellFormed) {c : Char} (other : isPathChar c = false) :
    c ∉ path.text.toList := by
  intro member
  rw [Path.isPathChar_of_mem wellFormed c member] at other
  cases other

/-- What the braces around the text of a path hold is the path. -/
theorem ofBody_text (wellFormed : path.WellFormed) :
    Reading.ofBody path.text.toList =
      .ok (.parsed (.ofPath (String.ofList (braced path.text.toList)) path)) := by
  unfold Reading.ofBody Expression.read
  rw [splitCall?_of_not_mem (not_mem_text wellFormed (by decide)),
    cutAtColon_of_not_mem (not_mem_text wellFormed (by decide))]
  dsimp only
  rw [Path.read_text wellFormed]
  rfl

theorem isBodyChar_text (wellFormed : path.WellFormed) :
    ∀ c ∈ path.text.toList, isBodyChar c = true :=
  fun c member => isBodyChar_of_isPathChar (Path.isPathChar_of_mem wellFormed c member)

theorem map_plainQuote_text (wellFormed : path.WellFormed) :
    path.text.toList.map plainQuote = path.text.toList :=
  map_plainQuote_of_isPathChar (Path.isPathChar_of_mem wellFormed)

theorem pieces_braced_text (wellFormed : path.WellFormed) :
    pieces (braced path.text.toList) = [.bound path.text.toList] := by
  have cut := pieces_braced (isBodyChar_text wellFormed) []
  rwa [List.append_nil, pieces_nil] at cut

theorem withPlainQuotes_braced_text (wellFormed : path.WellFormed) :
    withPlainQuotes (braced path.text.toList) = braced path.text.toList := by
  rw [withPlainQuotes, pieces_braced_text wellFormed, List.flatMap_singleton,
    Piece.withPlainQuotes, map_plainQuote_text wellFormed, Piece.text]

/-- A text that is one expression with a path is analyzed as that expression. -/
theorem readExpressions_braced_text (wellFormed : path.WellFormed) (slide : Option Int) :
    readExpressions slide (braced path.text.toList) =
      .ok ([.ofPath (String.ofList (braced path.text.toList)) path], []) := by
  have found : readings (braced path.text.toList) =
      .ok [.parsed (.ofPath (String.ofList (braced path.text.toList)) path)] := by
    unfold readings
    rw [withPlainQuotes_braced_text wellFormed, pieces_braced_text wellFormed]
    simp only [List.filterMap_cons, Piece.body?, List.filterMap_nil, List.mapM_cons,
      List.mapM_nil, ofBody_text wellFormed]
    rfl
  unfold readExpressions
  rw [found]
  rfl

end DeckBinding
