import DeckBinding.Proofs.Generation.Template
import DeckBinding.Proofs.Number.Ceiling
import DeckBinding.Proofs.Plan.Instances
import DeckBinding.Proofs.Resolution.Selection
import DeckBinding.Proofs.Text.Cut

set_option autoImplicit false

namespace DeckBinding

open DeckBinding.Number DeckBinding.Text

section Lists

variable {α : Type}

/-- The items at the positions of a page are a part of the list. -/
theorem filterMap_getElem?_range (items : List α) (start size : Nat) :
    (List.range size).filterMap (fun number => items[number + start]?) =
      (items.drop start).take size := by
  induction size generalizing start with
  | zero => simp
  | succ size ih =>
    have behind : (List.range size).filterMap (fun number => items[number + 1 + start]?) =
        (items.drop (start + 1)).take size := by
      rw [← ih]
      apply List.filterMap_congr
      intro number _
      rw [Nat.add_right_comm, Nat.add_assoc]
    rw [List.range_succ_eq_map, List.filterMap_cons, List.filterMap_map]
    simp only [Function.comp_def, Nat.succ_eq_add_one, behind, Nat.zero_add]
    by_cases inside : start < items.length
    · rw [List.getElem?_eq_getElem inside, List.drop_eq_getElem_cons inside, List.take_succ_cons]
    · have empty : items.drop start = [] := List.drop_eq_nil_of_le (by omega)
      have further : items.drop (start + 1) = [] := List.drop_eq_nil_of_le (by omega)
      rw [List.getElem?_eq_none (by omega), empty, further]
      simp

theorem le_ceilDiv_mul (count : Nat) {size : Nat} (positive : 0 < size) :
    count ≤ (count + size - 1) / size * size := by
  have divided := Nat.div_add_mod (count + size - 1) size
  have rest := Nat.mod_lt (count + size - 1) positive
  rw [Nat.mul_comm] at divided
  omega

/-- Enough pages of a list make up the list. -/
theorem flatMap_take_drop {size count : Nat} {items : List α} (enough : items.length ≤ count * size) :
    (List.range count).flatMap (fun page => (items.drop (page * size)).take size) = items := by
  induction count generalizing items with
  | zero =>
    rw [Nat.zero_mul] at enough
    rw [List.eq_nil_of_length_eq_zero (Nat.le_zero.1 enough)]
    rfl
  | succ count ih =>
    have fewer : (items.drop size).length ≤ count * size := by
      rw [Nat.succ_mul] at enough
      rw [List.length_drop]
      omega
    have behind : (List.range count).flatMap
        (fun page => (items.drop ((page + 1) * size)).take size) = items.drop size := by
      refine Eq.trans ?_ (ih fewer)
      apply List.flatMap_congr
      intro page _
      rw [List.drop_drop, Nat.succ_mul, Nat.add_comm]
    rw [List.range_succ_eq_map, List.flatMap_cons, List.flatMap_map, Nat.zero_mul, List.drop_zero]
    simp only [Nat.succ_eq_add_one, behind]
    exact List.take_append_drop size items

/-- As many pages as a list needs make up the list. -/
theorem flatMap_pages {size : Nat} (positive : 0 < size) (items : List α) :
    (List.range ((items.length + size - 1) / size)).flatMap
      (fun page => (items.drop (page * size)).take size) = items :=
  flatMap_take_drop (le_ceilDiv_mul items.length positive)

end Lists

theorem pageCount_eq {items size : Nat} (positive : 0 < size) (few : items < 2 ^ 53)
    (small : size < 2 ^ 53) : pageCount items size = (items + size - 1) / size := by
  unfold pageCount
  rw [Binary64.ceil?_ofQuotient positive few small]
  rfl

def pageTexts (texts : List String) (size start : Nat) : List (List Char) :=
  ((texts.drop start).take size).map String.toList

theorem flatMap_pageTexts {size : Nat} (positive : 0 < size) (texts : List String) (offset : Nat) :
    (List.range ((texts.length - offset + size - 1) / size)).flatMap
      (fun page => pageTexts texts size (offset + page * size)) =
        (texts.drop offset).map String.toList := by
  have joined := flatMap_pages positive (texts.drop offset)
  rw [List.length_drop] at joined
  rw [← joined, List.map_flatMap]
  simp only [pageTexts, List.drop_drop]

theorem splitString_text {path : Path} (dotted : path.Dotted) :
    splitString '>' path.text = [path.text] := by
  rw [splitString, splitAt_of_not_mem dotted.not_mem_text]
  simp

theorem splitString_below {path other : Path} (dotted : path.Dotted) (below : other.Dotted) :
    splitString '>' (path.text ++ ">" ++ other.text) = [path.text, other.text] := by
  have letters : (path.text ++ ">" ++ other.text).toList =
      path.text.toList ++ '>' :: other.text.toList := by
    simp
  rw [splitString, letters, splitAt, cutAt_append dotted.not_mem_text,
    splitAt_of_not_mem below.not_mem_text]
  simp

variable {template : SlideTemplate} {size offset : Nat}

theorem SlideTemplate.Pages.chunks_text {path : Path} (pages : template.Pages path.text size offset)
    (dotted : path.Dotted) : template.chunks = [path.text] := by
  rw [chunks_of_collection pages.collection (Path.toList_text_ne_nil dotted.wellFormed)]
  exact splitString_text dotted

theorem SlideTemplate.Pages.chunks_below {path other : Path}
    (pages : template.Pages (path.text ++ ">" ++ other.text) size offset) (dotted : path.Dotted)
    (below : other.Dotted) : template.chunks = [path.text, other.text] := by
  rw [chunks_of_collection pages.collection (by simp)]
  exact splitString_below dotted below

theorem collectionItems_text {path : Path} (dotted : path.Dotted) {value : Value}
    {items : List Value} (found : path.items? value = some items) :
    collectionItems value path.text = .ok items := by
  unfold Path.items? at found
  have walked : walk value path.text.toList = .ok (path.from? value) := by
    unfold walk
    rw [dotted.readAbsolute_text]
    rfl
  unfold collectionItems
  rw [walked]
  cases reached : path.from? value with
  | none =>
    rw [reached] at found
    cases found
  | some collection =>
    rw [reached, Option.bind_some] at found
    cases collection with
    | null => cases found
    | _ => simp only [found]

theorem withItems_text {path : Path} (dotted : path.Dotted) {value : Value} {items : List Value}
    (found : path.items? value = some items) (slide : Int)
    (expand : List Value → List PlanEntry) : withItems value path.text slide expand = expand items := by
  unfold withItems
  rw [collectionItems_text dotted found]

/-- The slides of the result for all pages of some items, from an offset on. -/
def SlideTemplate.pagesFrom (template : SlideTemplate) (context : ContextPath)
    (parentIndex : Option Int) (size offset items : Nat) : List Instance :=
  (List.range ((items - offset + size - 1) / size)).map fun page =>
    template.pageAt context parentIndex (offset + page * size)

theorem flatEntries_pages {path : Path} (dotted : path.Dotted)
    (pages : template.Pages path.text size offset) (positive : 0 < size) (small : size < 2 ^ 53)
    {data : Value} {items : List Value} (found : path.items? data = some items)
    (few : items.length < 2 ^ 53) (context : ContextPath) :
    flatEntries template data context =
      (template.pagesFrom context none size offset items.length).map .shown := by
  have count : pageCount (items.length - offset) size = (items.length - offset + size - 1) / size :=
    pageCount_eq positive (by omega) small
  unfold flatEntries SlideTemplate.pagesFrom
  rw [pages.collection, Option.getD_some, withItems_text dotted found, pages.itemsPerSlide,
    pages.offset, List.map_map]
  dsimp only
  rw [count]
  apply List.map_congr_left
  intro page _
  simp only [Function.comp_def, SlideTemplate.pageAt, pages.collection]

/-- Where the pages of some items begin that stand below an element. There is always one page. -/
def pageStarts (size items : Nat) : List Nat :=
  (List.range (max 1 ((items + size - 1) / size))).map (· * size)

theorem pageStarts_zero {size : Nat} (positive : 0 < size) : pageStarts size 0 = [0] := by
  rw [pageStarts, Nat.div_eq_of_lt (by omega)]
  show [0 * size] = [0]
  rw [Nat.zero_mul]

theorem pageStarts_of_pos {size items : Nat} (positive : 0 < size) (some : 0 < items) :
    pageStarts size items = (List.range ((items + size - 1) / size)).map (· * size) := by
  have pages : 1 ≤ (items + size - 1) / size := Nat.div_pos (by omega) positive
  rw [pageStarts, Nat.max_eq_right pages]

/-- The slides of the result for some items below an element. -/
def SlideTemplate.pagesBelow (template : SlideTemplate) (context : ContextPath)
    (parentIndex : Option Int) (size items : Nat) : List Instance :=
  (pageStarts size items).map fun start =>
    { template.pageAt context parentIndex start with empty := items == 0 }

theorem leafEntries_pages {key : String} (pages : template.Pages key size 0) (positive : 0 < size)
    (small : size < 2 ^ 53) {items : List Value} (few : items.length < 2 ^ 53)
    (context : ContextPath) :
    leafEntries template context items =
      (template.pagesBelow context (context.getLast?.map (·.index)) size items.length).map
        .shown := by
  unfold leafEntries SlideTemplate.pagesBelow
  by_cases none : items.length = 0
  · rw [if_pos (by omega), none, pageStarts_zero positive]
    rfl
  · have count : pageCount (items.length - 0) size = (items.length - 0 + size - 1) / size :=
      pageCount_eq positive (by omega) small
    have filled : (items.length == 0) = false := beq_eq_false_iff_ne.2 none
    rw [pages.itemsPerSlide, pages.offset, if_neg (by omega), count,
      pageStarts_of_pos positive (by omega), List.map_map, List.map_map, filled]
    apply List.map_congr_left
    intro page _
    simp only [Function.comp_def, SlideTemplate.pageAt, Nat.zero_add]

end DeckBinding
