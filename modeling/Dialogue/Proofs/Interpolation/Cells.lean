import Dialogue.Proofs.Markup.Representation
import Dialogue.Proofs.Text.Cursor

set_option autoImplicit false

namespace Dialogue.Interpolation

open Markup
open Text (Cursor)

inductive Cell where
  | literal (c : Char)
  | placeholder (expr : List Char)
  deriving DecidableEq, Repr

namespace Cell

/-- The characters of a cell as they are written. -/
def source : Cell → List Char
  | literal c => [c]
  | placeholder expr => '\x7b' :: (expr ++ ['\x7d'])

/-- The characters that a cell which starts at `start` stands for. -/
def filled (s : Store) (start : Nat) : Cell → List Char
  | literal c => [c]
  | placeholder expr => render s start expr

@[simp] theorem length_source_literal (c : Char) : (literal c).source.length = 1 := rfl

@[simp] theorem length_source_placeholder (expr : List Char) :
    (placeholder expr).source.length = expr.length + 2 := by
  simp [source]

end Cell

/-- The cells of a text. An opening brace with a closing one behind it begins a placeholder, which
ends with the first closing brace; every other character stands for itself. -/
inductive Divides : List Char → List Cell → Prop
  | nil : Divides [] []
  | literal {c : Char} {rest : List Char} {cells : List Cell}
      (unclosed : c = '\x7b' → '\x7d' ∉ rest) (next : Divides rest cells) :
      Divides (c :: rest) (.literal c :: cells)
  | placeholder {expr rest : List Char} {cells : List Cell} (bare : '\x7d' ∉ expr)
      (next : Divides rest cells) :
      Divides ('\x7b' :: (expr ++ '\x7d' :: rest)) (.placeholder expr :: cells)

theorem exists_divides (text : List Char) : ∃ cells, Divides text cells := by
  induction length : text.length using Nat.strong_induction_on generalizing text with
  | _ size ih =>
      subst length
      cases text with
      | nil => exact ⟨[], .nil⟩
      | cons c rest =>
          by_cases closed : c = '\x7b' ∧ '\x7d' ∈ rest
          · obtain ⟨rfl, inside⟩ := closed
            obtain ⟨expr, after, shape, bare⟩ := List.eq_append_cons_of_mem inside
            obtain ⟨cells, divides⟩ := ih after.length (by
              rw [shape]
              simp
              omega) after rfl
            rw [shape]
            exact ⟨_, .placeholder bare divides⟩
          · obtain ⟨cells, divides⟩ := ih rest.length (by simp) rest rfl
            exact ⟨_, .literal (fun opening inside => closed ⟨opening, inside⟩) divides⟩

namespace Divides

variable {text : List Char} {cells : List Cell}

theorem source_eq (divides : Divides text cells) : cells.flatMap Cell.source = text := by
  induction divides with
  | nil => rfl
  | literal _ _ ih => rw [List.flatMap_cons, ih]; rfl
  | placeholder _ _ ih =>
      rw [List.flatMap_cons, ih]
      simp [Cell.source]

/-- A text in which no opening brace has a closing one behind it has no placeholders. -/
theorem eq_literal (divides : Divides text cells)
    (unclosed : ∀ before rest, text = before ++ '\x7b' :: rest → '\x7d' ∉ rest) :
    cells = text.map .literal := by
  induction divides with
  | nil => rfl
  | @literal c rest cells _ _ ih =>
      have next := ih fun before behind shape => unclosed (c :: before) behind (by rw [shape]; rfl)
      rw [next, List.map_cons]
  | @placeholder expr rest cells _ _ _ =>
      exact absurd (by simp) (unclosed [] (expr ++ '\x7d' :: rest) rfl)

theorem eq_literal_of_no_brace (divides : Divides text cells) (plain : '\x7b' ∉ text) :
    cells = text.map .literal := by
  refine divides.eq_literal ?_
  rintro before rest rfl
  exact absurd (by simp) plain

end Divides

/-- What cells are read as one after another, each where it starts; the first starts at `start`. -/
def spread (read : Nat → Cell → List Char) (start : Nat) : List Cell → List Char
  | [] => []
  | cell :: cells => read start cell ++ spread read (start + cell.source.length) cells

theorem spread_const (read : Cell → List Char) (start : Nat) (cells : List Cell) :
    spread (fun _ => read) start cells = cells.flatMap read := by
  induction cells generalizing start with
  | nil => rfl
  | cons cell cells ih => rw [spread, ih, List.flatMap_cons]

theorem spread_literal (s : Store) (start : Nat) (cs : List Char) :
    spread (Cell.filled s) start (cs.map .literal) = cs := by
  induction cs generalizing start with
  | nil => rfl
  | cons c cs ih =>
      rw [List.map_cons, spread, ih]
      rfl

/-- The literal piece that literal text makes, if there is any. -/
def literalRun (start : Nat) (literal : List Char) : List Piece :=
  if literal = [] then [] else [.literal start literal]

/-- The pieces of cells behind literal text that starts at `start`. Cells that stand for themselves
make one piece with those next to them. -/
def gathered (start : Nat) (literal : List Char) : List Cell → List Piece
  | [] => literalRun start literal
  | .literal c :: cells => gathered start (literal ++ [c]) cells
  | .placeholder expr :: cells =>
      let opening := start + literal.length
      let stop := opening + (expr.length + 2)
      literalRun start literal ++ .placeholder opening stop expr :: gathered stop [] cells

/-- Where literal text has begun, if there is any: `literal`, with `before` on its left and `after`
on its right. -/
inductive Began {text : String} (before after : List Char) :
    Option (Cursor text) → List Char → Prop
  | nowhere : Began before after none []
  | somewhere {c : Cursor text} {literal : List Char} (filled : literal ≠ [])
      (here : c.Between before (literal ++ after)) : Began before after (some c) literal

namespace Began

variable {text : String} {before after literal : List Char} {began : Option (Cursor text)}

theorem snoc {ch : Char} {c : Cursor text} (opened : Began before (ch :: after) began literal)
    (here : c.Between (before ++ literal) (ch :: after)) :
    Began before after (began.or (some c)) (literal ++ [ch]) := by
  cases opened with
  | nowhere =>
      rw [List.append_nil] at here
      exact .somewhere (by simp) here
  | somewhere _ there =>
      refine .somewhere (by simp) ?_
      rw [List.append_assoc]
      exact there

theorem literalPiece_eq {stop : text.Pos} (opened : Began before after began literal)
    (ended : stop.Splits (String.ofList (before ++ literal)) (String.ofList after)) :
    literalPiece began stop = literalRun before.length literal := by
  cases opened with
  | nowhere => rfl
  | somewhere filled here =>
      rw [literalPiece, literalRun, if_neg filled, Text.extract_eq_ofList here.splits ended,
        here.index, String.toList_ofList]

end Began

/-- However many bytes its characters take, walking over a text gathers its cells. -/
theorem piecesFrom_eq {text : String} {after : List Char} {cells : List Cell}
    (divides : Divides after cells) {before literal : List Char} {began : Option (Cursor text)}
    {c : Cursor text} (here : c.Between (before ++ literal) after)
    (opened : Began before after began literal) :
    piecesFrom began c = gathered before.length literal cells := by
  induction divides generalizing before literal began c with
  | nil =>
      have ended : c.pos = text.endPos := here.splits.eq_endPos_iff.mpr rfl
      rw [piecesFrom, here.next?_eq_none, gathered, ← ended, opened.literalPiece_eq here.splits]
  | @literal ch rest cells unclosed _ ih =>
      obtain ⟨next, stepped, there⟩ := here.exists_next?
      have kept : (if ch = '\x7b' then next.pos.find? '\x7d' else none) = none := by
        split
        · rename_i opening
          exact Text.find?_eq_none there.splits (unclosed opening)
        · rfl
      rw [List.append_assoc] at there
      rw [piecesFrom, stepped]
      simp only [kept]
      rw [ih there (opened.snoc here), gathered]
  | @placeholder expr rest cells bare _ ih =>
      obtain ⟨next, stepped, there⟩ := here.exists_next?
      obtain ⟨close, found, closed⟩ := Text.exists_find?_eq_some there.splits bare
      have inside : (String.extract next.pos close).toList = expr := by
        rw [Text.extract_eq_ofList there.splits closed, String.toList_ofList]
      -- The closing brace is skipped along with the expression.
      have ahead : next.Between (before ++ literal ++ ['\x7b']) ((expr ++ ['\x7d']) ++ rest) := by
        simpa using there
      have skipped := ahead.skip
      rw [List.length_append, List.length_singleton, ← List.append_nil (_ ++ _)] at skipped
      rw [piecesFrom, stepped]
      simp only [↓reduceIte, found, inside]
      rw [opened.literalPiece_eq here.splits, here.index, ih skipped .nowhere, gathered]
      simp [Nat.add_assoc]

theorem pieces_eq {text : String} {cells : List Cell} (divides : Divides text.toList cells) :
    pieces text = gathered 0 [] cells := by
  have here : (Cursor.start text).Between ([] ++ []) text.toList := Cursor.between_start text
  exact piecesFrom_eq divides here .nowhere

/-- Reading pieces one after another is reading cells one after another, where literal pieces are
read as they are. -/
theorem flatMap_gathered {piece : Piece → List Char} {cell : Nat → Cell → List Char}
    (text : ∀ start text, piece (.literal start text) = text)
    (single : ∀ start c, cell start (.literal c) = [c])
    (expr : ∀ start stop expr,
      piece (.placeholder start stop expr) = cell start (.placeholder expr))
    (start : Nat) (literal : List Char) (cells : List Cell) :
    (gathered start literal cells).flatMap piece =
      literal ++ spread cell (start + literal.length) cells := by
  have ended (start : Nat) (literal : List Char) :
      (literalRun start literal).flatMap piece = literal := by
    unfold literalRun
    cases literal <;> simp [text]
  induction cells generalizing start literal with
  | nil => rw [gathered, ended, spread, List.append_nil]
  | cons first cells ih =>
      cases first with
      | literal c =>
          rw [gathered, ih, spread, single, List.append_assoc, List.length_append,
            List.length_singleton, Cell.length_source_literal, Nat.add_assoc]
      | placeholder inside =>
          rw [gathered, List.flatMap_append, ended, List.flatMap_cons, ih, spread, expr,
            List.nil_append, Cell.length_source_placeholder, List.length_nil, Nat.add_zero]

/-- Without markup, a text shows what its cells stand for. -/
theorem plain_gathered (s : Store) (start : Nat) (literal : List Char) (cells : List Cell) :
    (gathered start literal cells).flatMap (Piece.plain s) =
      literal ++ spread (Cell.filled s) (start + literal.length) cells :=
  flatMap_gathered (fun _ _ => rfl) (fun _ _ => rfl) (fun _ _ _ => rfl) start literal cells

theorem literalItems_append (m : Markup) (index : Nat) (front back : List Char) :
    literalItems m index (front ++ back) =
      literalItems m index front ++ literalItems m (index + front.length) back := by
  induction front generalizing index with
  | nil => rfl
  | cons c front ih =>
      rw [List.cons_append, literalItems, literalItems, ih, List.length_cons, List.append_assoc,
        List.cons_append, Nat.add_right_comm, Nat.add_assoc]

/-- What cells that start at `start` show: each the markers that stand in it, and then what it
stands for. -/
def cellItems (s : Store) (m : Markup) (start : Nat) : List Cell → List Markup.Item
  | [] => []
  | cell :: cells =>
      markerItems m start (start + cell.source.length) ++
        Markup.Item.literal (wrappersNear m start) (cell.filled s start) ++
          cellItems s m (start + cell.source.length) cells

theorem items_gathered (s : Store) (m : Markup) (start : Nat) (literal : List Char)
    (cells : List Cell) :
    (gathered start literal cells).flatMap (pieceItems s m) =
      literalItems m start literal ++ cellItems s m (start + literal.length) cells := by
  have ended (start : Nat) (literal : List Char) :
      (literalRun start literal).flatMap (pieceItems s m) = literalItems m start literal := by
    unfold literalRun
    cases literal <;> simp [pieceItems, literalItems]
  induction cells generalizing start literal with
  | nil => rw [gathered, ended, cellItems, List.append_nil]
  | cons cell cells ih =>
      cases cell with
      | literal c =>
          rw [gathered, ih, literalItems_append, List.append_assoc, List.length_append, cellItems,
            ← Nat.add_assoc]
          simp [literalItems, Cell.filled, Item.literal]
      | placeholder expr =>
          rw [gathered, List.flatMap_append, ended, List.flatMap_cons, ih, cellItems,
            Cell.length_source_placeholder]
          simp [pieceItems, literalItems, Cell.filled]

/-- What a text with markup shows, cell by cell. -/
theorem filledItems_eq (s : Store) (m : Markup) {text : String} {cells : List Cell}
    (divides : Divides text.toList cells) :
    filledItems s text m =
      cellItems s m 0 cells ++ markerItems m text.toList.length (text.toList.length + 1) := by
  rw [filledItems, pieces_eq divides, items_gathered]
  rfl

theorem text_markerItems (m : Markup) (low high : Nat) :
    Item.text (markerItems m low high) = [] := by
  unfold markerItems
  generalize m.segments.filter _ = marked
  induction marked with
  | nil => rfl
  | cons s marked ih =>
      have none (wrappers : List Wrapper) : Item.text (wrappers.map Item.marker) = [] := by
        induction wrappers with
        | nil => rfl
        | cons wrapper wrappers ih => exact ih
      rw [List.flatMap_cons, Item.text_append, none, ih, List.append_nil]

theorem text_cellItems (s : Store) (m : Markup) (start : Nat) (cells : List Cell) :
    Item.text (cellItems s m start cells) = spread (Cell.filled s) start cells := by
  induction cells generalizing start with
  | nil => rfl
  | cons cell cells ih =>
      rw [cellItems, Item.text_append, Item.text_append, text_markerItems, Item.text_literal, ih,
        spread, List.nil_append]

/-- With markup as without, a text shows what its cells stand for. -/
theorem text_filledItems (s : Store) (m : Markup) {text : String} {cells : List Cell}
    (divides : Divides text.toList cells) :
    Item.text (filledItems s text m) = spread (Cell.filled s) 0 cells := by
  rw [filledItems_eq s m divides, Item.text_append, text_cellItems, text_markerItems,
    List.append_nil]

/-- Without markup, a text shows what its cells stand for. -/
theorem interpolate_plain (s : Store) {text : String} {cells : List Cell}
    (divides : Divides text.toList cells) :
    (interpolate s text none).1.toList = spread (Cell.filled s) 0 cells := by
  by_cases brace : text.toList.contains '\x7b' = true
  · rw [interpolate_none_of_brace s brace, String.toList_ofList, pieces_eq divides,
      plain_gathered]
    rfl
  · rw [interpolate_of_no_brace s none (by simpa using brace),
      divides.eq_literal_of_no_brace (by simpa using brace), spread_literal]

end Dialogue.Interpolation
