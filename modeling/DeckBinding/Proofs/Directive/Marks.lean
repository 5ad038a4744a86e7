import DeckBinding.Proofs.Expression.Readable
import DeckBinding.Proofs.Text.Lines

set_option autoImplicit false

namespace DeckBinding

open DeckBinding.Number DeckBinding.Text

variable {c : Char} {cs back : List Char}

def quotes : List Char :=
  ['"', '\'', '\u201c', '\u201d', '\u2018', '\u2019']

theorem plainQuote_eq_or (c : Char) : plainQuote c = c ∨ c ∈ quotes ∧ plainQuote c ∈ quotes := by
  unfold plainQuote
  split
  · rename_i double
    rcases double with rfl | rfl <;> exact .inr (by decide)
  · split
    · rename_i single
      rcases single with rfl | rfl <;> exact .inr (by decide)
    · exact .inl rfl

section Kinds

variable {holds : Char → Bool}

/-- A kind of characters to which no quote belongs does not notice plain quotes. -/
theorem holds_plainQuote (none : quotes.any holds = false) (c : Char) :
    holds (plainQuote c) = holds c := by
  have apart := List.any_eq_false.1 none
  rcases plainQuote_eq_or c with same | ⟨before, after⟩
  · rw [same]
  · rw [Bool.eq_false_iff.2 (apart _ before), Bool.eq_false_iff.2 (apart _ after)]

theorem plainQuote_of_holds (none : quotes.any holds = false) (here : holds c = true) :
    plainQuote c = c := by
  rcases plainQuote_eq_or c with same | ⟨before, -⟩
  · exact same
  · exact absurd here (List.any_eq_false.1 none c before)

theorem map_plainQuote_of_holds (none : quotes.any holds = false)
    (here : ∀ c ∈ cs, holds c = true) : cs.map plainQuote = cs := by
  conv => rhs; rw [← List.map_id' cs]
  exact List.map_congr_left fun c member => plainQuote_of_holds none (here c member)

theorem dropWhile_map_plainQuote (none : quotes.any holds = false) (cs : List Char) :
    (cs.map plainQuote).dropWhile holds = (cs.dropWhile holds).map plainQuote := by
  rw [List.dropWhile_map, funext (f := holds ∘ plainQuote) (holds_plainQuote none)]

theorem takeWhile_map_plainQuote (none : quotes.any holds = false) (cs : List Char) :
    (cs.map plainQuote).takeWhile holds = cs.takeWhile holds := by
  rw [List.takeWhile_map, funext (f := holds ∘ plainQuote) (holds_plainQuote none)]
  exact map_plainQuote_of_holds none fun c member => List.mem_takeWhile_imp member

end Kinds

theorem plainQuote_eq_iff {mark : Char} (none : mark ∉ quotes) : plainQuote c = mark ↔ c = mark := by
  have apart : quotes.any (· == mark) = false :=
    List.any_eq_false.2 fun quote member equal => none (beq_iff_eq.1 equal ▸ member)
  have same := @holds_plainQuote (· == mark) apart c
  rw [← beq_iff_eq (a := plainQuote c), ← beq_iff_eq (a := c), same]

/-- A mark with the text behind it, as it is with plain quotes. -/
def plainMark (mark : List Char × List Char) : List Char × List Char :=
  (mark.1, mark.2.map plainQuote)

def behindColon? : List Char → Option (List Char)
  | ':' :: after => some after
  | _ => none

theorem behindColon?_of_ne (apart : c ≠ ':') (rest : List Char) : behindColon? (c :: rest) = none := by
  unfold behindColon?
  split
  · rename_i same
    cases same
    exact absurd rfl apart
  · rfl

theorem takeMarker?_hash (letter : Char) (rest : List Char) :
    takeMarker? ('#' :: letter :: rest) =
      if letter.isAlpha then
        (behindColon? (trimLeft (rest.dropWhile isKeywordChar))).map
          (letter :: rest.takeWhile isKeywordChar, ·)
      else none := by
  rw [takeMarker?]
  congr 1
  rcases trimLeft (rest.dropWhile isKeywordChar) with _ | ⟨d, after⟩
  · rfl
  · by_cases colon : d = ':'
    · subst colon
      rfl
    · rw [behindColon?_of_ne colon]
      split
      · rename_i same
        cases same
        exact absurd rfl colon
      · rfl

theorem behindColon?_map_plainQuote (cs : List Char) :
    behindColon? (cs.map plainQuote) = (behindColon? cs).map (List.map plainQuote) := by
  cases cs with
  | nil => rfl
  | cons c rest =>
    by_cases colon : c = ':'
    · subst colon
      rfl
    · have apart : plainQuote c ≠ ':' := fun same => colon ((plainQuote_eq_iff (by decide)).1 same)
      rw [List.map_cons, behindColon?_of_ne apart, behindColon?_of_ne colon, Option.map_none]

theorem trim_map_plainQuote (cs : List Char) : trim (cs.map plainQuote) = (trim cs).map plainQuote := by
  have left (cs : List Char) : trimLeft (cs.map plainQuote) = (trimLeft cs).map plainQuote :=
    dropWhile_map_plainQuote (by decide) cs
  have right := @dropWhile_map_plainQuote isBlank (by decide) (trimLeft cs).reverse
  rw [trim, left, trimRight, ← List.map_reverse, right, ← List.map_reverse]
  rfl

theorem takeMarker?_map_plainQuote (cs : List Char) :
    takeMarker? (cs.map plainQuote) = (takeMarker? cs).map plainMark := by
  cases cs with
  | nil => rfl
  | cons c rest =>
    by_cases hash : c = '#'
    · subst hash
      cases rest with
      | nil => rfl
      | cons letter rest =>
        have alphas := @holds_plainQuote Char.isAlpha (by decide) letter
        have blanks := @dropWhile_map_plainQuote isBlank (by decide)
        have words := @dropWhile_map_plainQuote isKeywordChar (by decide +kernel)
        have keys := @takeWhile_map_plainQuote isKeywordChar (by decide +kernel)
        rw [List.map_cons, List.map_cons, show plainQuote '#' = '#' from rfl, takeMarker?_hash, takeMarker?_hash,
          alphas, words, trimLeft, blanks, behindColon?_map_plainQuote, keys]
        by_cases alpha : letter.isAlpha = true
        · rw [if_pos alpha, if_pos alpha, @plainQuote_of_holds letter Char.isAlpha (by decide) alpha,
            Option.map_map, Option.map_map]
          rfl
        · rw [if_neg alpha, if_neg alpha, Option.map_none]
    · have apart : plainQuote c ≠ '#' := fun same => hash ((plainQuote_eq_iff (by decide)).1 same)
      rw [List.map_cons, takeMarker?_of_ne apart, takeMarker?_of_ne hash, Option.map_none]

theorem cutAtMarkers_map_plainQuote (cs : List Char) :
    cutAtMarkers (cs.map plainQuote) =
      ((cutAtMarkers cs).1.map plainQuote, (cutAtMarkers cs).2.map plainMark) := by
  induction cs using cutAtMarkers.induct with
  | case1 => rw [List.map_nil, cutAtMarkers]; rfl
  | case2 c rest keyword after found body more _ ih =>
    have mapped := takeMarker?_map_plainQuote (c :: rest)
    rw [found, List.map_cons] at mapped
    rw [List.map_cons, cutAtMarkers_of_some mapped, cutAtMarkers_of_some found, ih]
    rfl
  | case3 c rest none body more _ ih =>
    have mapped := takeMarker?_map_plainQuote (c :: rest)
    rw [none, List.map_cons] at mapped
    rw [List.map_cons, cutAtMarkers_of_none mapped, cutAtMarkers_of_none none, ih]
    rfl

theorem lines_of_end {rest : List Char} (alone : ∀ more, c = '\r' → rest = '\n' :: more → False)
    (ends : isLineEnd c = true) : lines (c :: rest) = [] :: lines rest := by
  rw [lines, if_pos ends]
  exact alone

theorem lines_map_plainQuote (cs : List Char) :
    lines (cs.map plainQuote) = (lines cs).map (List.map plainQuote) := by
  have kept := @holds_plainQuote isLineEnd (by decide)
  induction cs using lines.induct with
  | case1 => rfl
  | case2 rest ih =>
    have both (rest : List Char) : lines ('\r' :: '\n' :: rest) = [] :: lines rest := by rw [lines]
    show lines ('\r' :: '\n' :: rest.map plainQuote) = _
    rw [both, both, ih]
    rfl
  | case3 c rest alone ends ih =>
    have other : ∀ more, plainQuote c = '\r' → rest.map plainQuote = '\n' :: more → False := by
      intro more first second
      obtain ⟨d, further, rfl, feed, -⟩ := List.map_eq_cons_iff.1 second
      exact alone further ((plainQuote_eq_iff (by decide)).1 first)
        (by rw [(plainQuote_eq_iff (by decide)).1 feed])
    rw [List.map_cons, lines_of_end alone ends, lines_of_end other (by rw [kept, ends]), ih]
    rfl
  | case4 c rest _ inside none ih | case5 c rest _ inside line more cut ih =>
    have inner : isLineEnd c = false := Bool.eq_false_iff.2 inside
    rw [List.map_cons, lines_cons_of_inside inner, lines_cons_of_inside (by rw [kept, inner]), ih]
    cases lines rest <;> rfl

theorem markers_map_plainQuote (cs : List Char) : markers (cs.map plainQuote) = (markers cs).map plainMark := by
  rw [markers, lines_map_plainQuote, List.flatMap_map, markers, List.map_flatMap]
  refine congrArg (fun view => (lines cs).flatMap view) (funext fun line => ?_)
  rw [cutAtMarkers_map_plainQuote]

/-- With plain quotes the parser finds the marks that stand in the notes. -/
theorem plainMark_markedTexts (notes : List Char) :
    (markedTexts notes).map plainMark = (markers notes).map plainMark := by
  have same : markers ((withPlainQuotes notes).map plainQuote) = markers (notes.map plainQuote) := by
    rw [map_plainQuote_withPlainQuotes]
  rwa [markers_map_plainQuote, markers_map_plainQuote] at same

/-- The same keyword, with the same text behind it but for blanks around it. -/
def SameTrimmed (left right : List Char × List Char) : Prop :=
  left.1 = right.1 ∧ trim left.2 = trim right.2

/-- The same keyword, with the same text behind it but for blanks around it and typographic
quotes. -/
def SameMark (left right : List Char × List Char) : Prop :=
  SameTrimmed (plainMark left) (plainMark right)

theorem SameTrimmed.sameMark {left right : List Char × List Char} (same : SameTrimmed left right) :
    SameMark left right := by
  obtain ⟨keyword, text⟩ := same
  refine ⟨keyword, ?_⟩
  rw [plainMark, plainMark, trim_map_plainQuote, trim_map_plainQuote, text]

theorem forall₂_sameMark_iff {marks others : List (List Char × List Char)} :
    List.Forall₂ SameMark marks others ↔
      List.Forall₂ SameTrimmed (marks.map plainMark) (others.map plainMark) := by
  rw [List.forall₂_map_left_iff, List.forall₂_map_right_iff]
  rfl

theorem isKeywordChar_of_isBlank (blank : isBlank c = true) : isKeywordChar c = false := by
  have hyphen : c ≠ '-' := by
    rintro rfl
    exact absurd blank (by decide)
  rw [isKeywordChar, isWord_of_isBlank blank, Bool.false_or, beq_eq_false_iff_ne]
  exact hyphen

/-- A run of keyword characters is not longer when blanks stand behind the text. -/
theorem keywordRun_append (blank : Blanks back) (cs : List Char) :
    (cs ++ back).takeWhile isKeywordChar = cs.takeWhile isKeywordChar ∧
      (cs ++ back).dropWhile isKeywordChar = cs.dropWhile isKeywordChar ++ back := by
  have stop : ∀ c ∈ (cs.dropWhile isKeywordChar ++ back).head?, isKeywordChar c = false := by
    cases behind : cs.dropWhile isKeywordChar with
    | nil =>
      intro c first
      exact isKeywordChar_of_isBlank (blank c (List.mem_of_mem_head? first))
    | cons d more =>
      rintro c ⟨⟩
      have stopped := List.head?_dropWhile_not isKeywordChar cs
      rw [behind] at stopped
      simpa using stopped
  have front : ∀ c ∈ cs.takeWhile isKeywordChar, isKeywordChar c = true := fun c member =>
    List.mem_takeWhile_imp member
  have whole : cs ++ back = cs.takeWhile isKeywordChar ++ (cs.dropWhile isKeywordChar ++ back) := by
    rw [← List.append_assoc, List.takeWhile_append_dropWhile]
  rw [whole]
  exact ⟨takeWhile_of_head front stop, dropWhile_of_head front stop⟩

theorem behindColon?_append_blanks (blank : Blanks back) (cs : List Char) :
    behindColon? (trimLeft (cs ++ back)) = (behindColon? (trimLeft cs)).map (· ++ back) := by
  by_cases empty : Blanks cs
  · rw [trimLeft_of_blanks empty, trimLeft_of_blanks (blanks_append.2 ⟨empty, blank⟩)]
    rfl
  · rw [trimLeft_append_full empty]
    rcases left : trimLeft cs with _ | ⟨d, more⟩
    · exact absurd (List.dropWhile_eq_nil_iff.1 left) empty
    · by_cases colon : d = ':'
      · subst colon
        rfl
      · rw [List.cons_append, behindColon?_of_ne colon, behindColon?_of_ne colon, Option.map_none]

theorem takeMarker?_append_blanks (blank : Blanks back) (cs : List Char) :
    takeMarker? (cs ++ back) = (takeMarker? cs).map fun found => (found.1, found.2 ++ back) := by
  cases cs with
  | nil =>
    cases back with
    | nil => rfl
    | cons b more =>
      refine takeMarker?_of_ne ?_ more
      rintro rfl
      exact absurd (blank '#' List.mem_cons_self) (by decide)
  | cons c rest =>
    by_cases hash : c = '#'
    · subst hash
      cases rest with
      | nil =>
        cases back with
        | nil => rfl
        | cons b more =>
          have alpha : ¬ b.isAlpha = true := by
            intro letter
            have start : isNameStart b = true := by rw [isNameStart, letter, Bool.true_or]
            have word := isBlank_of_isWord (isWord_of_isNameStart start)
            rw [blank b List.mem_cons_self] at word
            cases word
          rw [List.cons_append, List.nil_append, takeMarker?_hash, if_neg alpha]
          rfl
      | cons letter rest =>
        obtain ⟨taken, behind⟩ := keywordRun_append blank rest
        rw [List.cons_append, List.cons_append, takeMarker?_hash, takeMarker?_hash, taken, behind,
          behindColon?_append_blanks blank]
        by_cases alpha : letter.isAlpha = true
        · rw [if_pos alpha, if_pos alpha, Option.map_map, Option.map_map]
          rfl
        · rw [if_neg alpha, if_neg alpha, Option.map_none]
    · rw [List.cons_append, takeMarker?_of_ne hash, takeMarker?_of_ne hash, Option.map_none]

theorem cutAtMarkers_blanks (blank : Blanks back) : cutAtMarkers back = (back, []) := by
  induction back with
  | nil => rw [cutAtMarkers]
  | cons c rest ih =>
    have apart : c ≠ '#' := by
      rintro rfl
      exact absurd (blank '#' List.mem_cons_self) (by decide)
    rw [cutAtMarkers_of_none (takeMarker?_of_ne apart rest),
      ih fun d member => blank d (List.mem_cons_of_mem c member)]

/-- Blanks behind a line are added to what stands behind its last mark. -/
theorem cutAtMarkers_append_blanks (blank : Blanks back) (cs : List Char) :
    (∃ tail, Blanks tail ∧ (cutAtMarkers (cs ++ back)).1 = (cutAtMarkers cs).1 ++ tail) ∧
      List.Forall₂ SameTrimmed (cutAtMarkers (cs ++ back)).2 (cutAtMarkers cs).2 := by
  induction cs using cutAtMarkers.induct with
  | case1 =>
    rw [List.nil_append, cutAtMarkers_blanks blank, cutAtMarkers]
    exact ⟨⟨back, blank, rfl⟩, .nil⟩
  | case2 c rest keyword after found body more _ ih =>
    have further := takeMarker?_append_blanks blank (c :: rest)
    rw [found, List.cons_append] at further
    rw [List.cons_append, cutAtMarkers_of_some further, cutAtMarkers_of_some found]
    obtain ⟨⟨tail, blanks, longer⟩, marks⟩ := ih
    refine ⟨⟨[], blanks_nil, rfl⟩, .cons ⟨rfl, ?_⟩ marks⟩
    have trimmed := trim_append blanks_nil blanks (cutAtMarkers after).1
    rwa [List.nil_append, ← longer] at trimmed
  | case3 c rest none body more _ ih =>
    have further := takeMarker?_append_blanks blank (c :: rest)
    rw [none, List.cons_append] at further
    rw [List.cons_append, cutAtMarkers_of_none further, cutAtMarkers_of_none none]
    obtain ⟨⟨tail, blanks, longer⟩, marks⟩ := ih
    exact ⟨⟨tail, blanks, by rw [longer]; rfl⟩, marks⟩

/-- Blanks in front of a text have no mark in them. -/
theorem markers_trim (cs : List Char) : markers (trim cs) = markers (trimRight cs) := by
  have blank := blanks_takeWhile cs
  have plain : '#' ∉ cs.takeWhile isBlank := fun member => absurd (blank '#' member) (by decide)
  by_cases empty : Blanks cs
  · rw [trim_eq_nil_iff.2 empty, trimRight_blanks_self empty]
  · have full : ¬ Blanks (trimLeft cs) := fun behind =>
      empty (by rw [← takeWhile_append_trimLeft cs]; exact blanks_append.2 ⟨blank, behind⟩)
    conv => rhs; rw [← takeWhile_append_trimLeft cs]
    rw [trimRight_append_full full, markers_append plain, trim]

theorem cutAtMarkers_nil : (cutAtMarkers []).2 = [] := by
  rw [cutAtMarkers]

theorem sameTrimmed_refl (marks : List (List Char × List Char)) : List.Forall₂ SameTrimmed marks marks :=
  List.forall₂_same.2 fun _ _ => ⟨rfl, rfl⟩

/-- Trimmed lines that are joined have the marks of the lines. -/
theorem markers_trim_joinWith {ls : List (List Char)} (plain : ∀ line ∈ ls, IsLine line) :
    List.Forall₂ SameTrimmed (ls.flatMap fun line => (cutAtMarkers line).2) (markers (trim (joinWith ['\n'] ls))) := by
  rw [markers_trim]
  rcases trimRight_joinWith ls with ⟨blanks, none⟩ | ⟨front, last, behind, rfl, blanks, trimmed⟩
  · rw [none, List.flatMap_eq_nil_iff.2 fun line member => by rw [cutAtMarkers_blanks (blanks line member)]]
    exact .nil
  · obtain ⟨tail, blank, whole⟩ := exists_append_trimRight last
    have shorter : ∀ line ∈ front ++ [trimRight last], IsLine line := by
      rw [List.forall_mem_append] at plain ⊢
      refine ⟨plain.1, List.forall_mem_singleton.2 fun c member => plain.2 last List.mem_cons_self c ?_⟩
      rw [whole]
      exact List.mem_append_left tail member
    have none : behind.flatMap (fun line => (cutAtMarkers line).2) = [] :=
      List.flatMap_eq_nil_iff.2 fun line member => by rw [cutAtMarkers_blanks (blanks line member)]
    have marks := (cutAtMarkers_append_blanks blank (trimRight last)).2
    rw [← whole] at marks
    rw [trimmed, markers, flatMap_lines_joinWith cutAtMarkers_nil shorter, List.flatMap_append,
      List.flatMap_append, List.flatMap_cons, none, List.append_nil, List.flatMap_singleton]
    exact List.rel_append (sameTrimmed_refl _) marks

end DeckBinding
