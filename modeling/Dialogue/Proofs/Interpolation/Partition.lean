import Dialogue.Proofs.Interpolation.Cells

set_option autoImplicit false

namespace Dialogue.Interpolation

/-- No opening brace of literal text that stands at `place` has a closing one anywhere behind it in
the text. -/
def Unclosed (text : List Char) (place : Nat) (literal : List Char) : Prop :=
  ∀ index, literal[index]? = some '\x7b' → '\x7d' ∉ text.drop (place + index)

namespace Piece

def start : Piece → Nat
  | literal start _ => start
  | placeholder start _ _ => start

/-- The number of characters up to the end of a piece. -/
def stop : Piece → Nat
  | literal start text => start + text.length
  | placeholder _ stop _ => stop

/-- The characters of a piece as they are written. -/
def source : Piece → List Char
  | literal _ text => text
  | placeholder _ _ expr => '\x7b' :: (expr ++ ['\x7d'])

/-- A placeholder is as wide as its expression with the braces, and the first closing brace ends it.
Literal text holds no opening brace that is closed in the text, not even behind the piece. -/
def Fits (whole : List Char) : Piece → Prop
  | literal start text => Unclosed whole start text
  | placeholder start stop expr => stop = start + (expr.length + 2) ∧ '\x7d' ∉ expr

def isLiteral : Piece → Bool
  | literal _ _ => true
  | placeholder _ _ _ => false

/-- Two pieces that are not both literal. -/
def Apart (a b : Piece) : Prop :=
  ¬(a.isLiteral = true ∧ b.isLiteral = true)

def cells : Piece → List Cell
  | literal _ text => text.map .literal
  | placeholder _ _ expr => [.placeholder expr]

end Piece

/-- Pieces that lie one behind another from `start` up to `stop`, none of them empty. -/
inductive Contiguous : Nat → List Piece → Nat → Prop
  | nil {start : Nat} : Contiguous start [] start
  | cons {start stop : Nat} {piece : Piece} {pieces : List Piece} (begins : piece.start = start)
      (filled : start < piece.stop) (next : Contiguous piece.stop pieces stop) :
      Contiguous start (piece :: pieces) stop

/-- A division of a text at its placeholders. -/
structure Partitions (text : List Char) (pieces : List Piece) : Prop where
  /-- The pieces cover the characters of the text, from the first one to the last. -/
  contiguous : Contiguous 0 pieces text.length
  spelled : pieces.flatMap Piece.source = text
  fits : ∀ piece ∈ pieces, piece.Fits text
  /-- Literal text that is not interrupted is one piece. -/
  apart : pieces.IsChain Piece.Apart

theorem unclosed_nil (text : List Char) (place : Nat) : Unclosed text place [] := by
  intro index brace
  rw [List.getElem?_nil] at brace
  cases brace

theorem Unclosed.snoc {text rest : List Char} {place : Nat} {literal : List Char} {c : Char}
    (opened : Unclosed text place literal) (behind : text.drop (place + literal.length) = c :: rest)
    (unclosed : c = '\x7b' → '\x7d' ∉ rest) : Unclosed text place (literal ++ [c]) := by
  intro index brace
  rw [List.getElem?_append] at brace
  split at brace
  · exact opened index brace
  · rename_i beyond
    rw [List.getElem?_singleton] at brace
    split at brace
    · have last : index = literal.length := by omega
      have opening := Option.some.inj brace
      rw [last, behind, opening, List.mem_cons, not_or]
      exact ⟨by decide, unclosed opening⟩
    · cases brace

theorem mem_literalRun {piece : Piece} {start : Nat} {literal : List Char} :
    piece ∈ literalRun start literal ↔ literal ≠ [] ∧ piece = .literal start literal := by
  unfold literalRun
  split <;> simp_all

theorem contiguous_literalRun (start : Nat) (literal : List Char) :
    Contiguous start (literalRun start literal) (start + literal.length) := by
  unfold literalRun
  split
  · rename_i none
    rw [none]
    exact .nil
  · rename_i filled
    have := List.length_pos_iff.mpr filled
    exact .cons rfl (show start < start + literal.length by omega) .nil

theorem Contiguous.append {start mid stop : Nat} {front back : List Piece}
    (first : Contiguous start front mid) (second : Contiguous mid back stop) :
    Contiguous start (front ++ back) stop := by
  induction first with
  | nil => exact second
  | cons begins filled _ ih => exact .cons begins filled (ih second)

theorem contiguous_gathered (start : Nat) (literal : List Char) (cells : List Cell) :
    Contiguous start (gathered start literal cells)
      (start + literal.length + (cells.flatMap Cell.source).length) := by
  induction cells generalizing start literal with
  | nil => exact contiguous_literalRun start literal
  | cons cell cells ih =>
      rw [List.flatMap_cons, List.length_append]
      cases cell with
      | literal c =>
          have next := ih start (literal ++ [c])
          rw [List.length_append, List.length_singleton] at next
          rw [gathered, Cell.length_source_literal, ← Nat.add_assoc, Nat.add_assoc start]
          exact next
      | placeholder expr =>
          have next := ih (start + literal.length + (expr.length + 2)) []
          rw [List.length_nil, Nat.add_zero] at next
          rw [gathered, Cell.length_source_placeholder,
            ← Nat.add_assoc (start + literal.length) (expr.length + 2)]
          refine (contiguous_literalRun start literal).append (.cons rfl ?_ next)
          show start + literal.length < start + literal.length + (expr.length + 2)
          omega

theorem source_gathered (start : Nat) (literal : List Char) (cells : List Cell) :
    (gathered start literal cells).flatMap Piece.source =
      literal ++ cells.flatMap Cell.source := by
  rw [← spread_const Cell.source (start + literal.length)]
  exact flatMap_gathered (fun _ _ => rfl) (fun _ _ => rfl) (fun _ _ _ => rfl) start literal cells

theorem fits_gathered {text after : List Char} {cells : List Cell} (divides : Divides after cells)
    {start : Nat} {literal : List Char} (behind : text.drop (start + literal.length) = after)
    (opened : Unclosed text start literal) :
    ∀ piece ∈ gathered start literal cells, piece.Fits text := by
  induction divides generalizing start literal with
  | nil =>
      intro piece member
      obtain ⟨-, rfl⟩ := mem_literalRun.mp member
      exact opened
  | @literal c rest cells unclosed _ ih =>
      refine ih ?_ (opened.snoc behind unclosed)
      rw [List.length_append, List.length_singleton, ← Nat.add_assoc, ← List.drop_drop, behind]
      rfl
  | @placeholder expr rest cells bare _ ih =>
      intro piece member
      rw [gathered, List.mem_append, List.mem_cons, mem_literalRun] at member
      rcases member with ⟨-, rfl⟩ | rfl | later
      · exact opened
      · exact ⟨rfl, bare⟩
      -- Behind a placeholder, no literal text has begun.
      · refine ih ?_ (unclosed_nil text _) piece later
        rw [List.length_nil, Nat.add_zero, ← List.drop_drop, behind]
        simp

theorem apart_gathered (start : Nat) (literal : List Char) (cells : List Cell) :
    (gathered start literal cells).IsChain Piece.Apart := by
  induction cells generalizing start literal with
  | nil =>
      rw [gathered, literalRun]
      split
      · exact .nil
      · exact .singleton _
  | cons cell cells ih =>
      cases cell with
      | literal c => exact ih start (literal ++ [c])
      | placeholder expr =>
          let opening := start + literal.length
          let stop := opening + (expr.length + 2)
          have led : (Piece.placeholder opening stop expr :: gathered stop [] cells).IsChain
              Piece.Apart := by
            refine (ih stop []).cons fun _ _ both => ?_
            cases both.1
          rw [gathered, literalRun]
          split
          · exact led
          · refine .cons_cons (fun both => ?_) led
            cases both.2

theorem partitions_gathered {text : List Char} {cells : List Cell} (divides : Divides text cells) :
    Partitions text (gathered 0 [] cells) where
  contiguous := by
    have covered := contiguous_gathered 0 [] cells
    rw [divides.source_eq, List.length_nil, Nat.zero_add] at covered
    exact covered
  spelled := by rw [source_gathered, divides.source_eq, List.nil_append]
  fits := fits_gathered divides rfl (unclosed_nil text 0)
  apart := apart_gathered 0 [] cells

theorem gathered_literals (start : Nat) (literal more : List Char) (cells : List Cell) :
    gathered start literal (more.map .literal ++ cells) =
      gathered start (literal ++ more) cells := by
  induction more generalizing literal with
  | nil => rw [List.map_nil, List.nil_append, List.append_nil]
  | cons c more ih =>
      rw [List.map_cons, List.cons_append, gathered, ih, List.append_assoc, List.singleton_append]

/-- Literal text with no literal piece behind it is a piece of its own. -/
theorem gathered_split (start : Nat) (literal : List Char) {pieces : List Piece}
    (ended : ∀ piece ∈ pieces.head?, piece.isLiteral = false) :
    gathered start literal (pieces.flatMap Piece.cells) =
      literalRun start literal ++
        gathered (start + literal.length) [] (pieces.flatMap Piece.cells) := by
  cases pieces with
  | nil => simp [gathered, literalRun]
  | cons piece pieces =>
      cases piece with
      | literal place text => cases ended _ rfl
      | placeholder opening stop expr => simp [Piece.cells, gathered, literalRun]

theorem Divides.literals {before after : List Char} {cells : List Cell}
    (divides : Divides after cells) {literal : List Char}
    (opened : Unclosed (before ++ (literal ++ after)) before.length literal) :
    Divides (literal ++ after) (literal.map .literal ++ cells) := by
  induction literal generalizing before with
  | nil => exact divides
  | cons c literal ih =>
      have next :
          Unclosed (before ++ [c] ++ (literal ++ after)) (before ++ [c]).length literal := by
        intro index brace
        have further := opened (index + 1) brace
        rw [List.length_append, List.length_singleton, Nat.add_assoc, Nat.add_comm 1,
          List.append_assoc]
        exact further
      refine .literal ?_ (ih next)
      rintro rfl closed
      refine opened 0 rfl ?_
      rw [Nat.add_zero, List.drop_left]
      exact List.mem_cons_of_mem _ closed

/-- Pieces that spell out what is left of a text, and that fit the text, divide it. -/
theorem divides_cells {before after : List Char} {pieces : List Piece} {stop : Nat}
    (contiguous : Contiguous before.length pieces stop)
    (spelled : pieces.flatMap Piece.source = after)
    (fits : ∀ piece ∈ pieces, piece.Fits (before ++ after)) :
    Divides after (pieces.flatMap Piece.cells) := by
  induction pieces generalizing before after with
  | nil =>
      subst spelled
      exact .nil
  | cons piece pieces ih =>
      obtain ⟨own, others⟩ := List.forall_mem_cons.mp fits
      rw [List.flatMap_cons] at spelled ⊢
      subst spelled
      rw [← List.append_assoc] at others
      cases contiguous with
      | cons begins _ next =>
          cases piece with
          | literal start literal =>
              obtain rfl : start = before.length := begins
              have behind : Contiguous (before ++ literal).length pieces stop := by
                rw [List.length_append]
                exact next
              exact (ih behind rfl others).literals own
          | placeholder start close expr =>
              obtain rfl : start = before.length := begins
              obtain ⟨rfl, bare⟩ := own
              have behind : Contiguous (before ++ '\x7b' :: (expr ++ ['\x7d'])).length pieces
                  stop := by
                simpa [Piece.stop] using next
              have rest := ih behind rfl others
              simpa [Piece.source, Piece.cells] using Divides.placeholder bare rest

/-- Pieces one behind another are what their cells gather to, if literal text that is not
interrupted is one piece. -/
theorem gathered_cells {text : List Char} {start stop : Nat} {pieces : List Piece}
    (contiguous : Contiguous start pieces stop) (fits : ∀ piece ∈ pieces, piece.Fits text)
    (apart : pieces.IsChain Piece.Apart) :
    gathered start [] (pieces.flatMap Piece.cells) = pieces := by
  induction contiguous with
  | nil => rfl
  | @cons start stop piece pieces begins filled next ih =>
      obtain ⟨own, others⟩ := List.forall_mem_cons.mp fits
      have rest := ih others apart.tail
      rw [List.flatMap_cons]
      cases piece with
      | literal place literal =>
          obtain rfl : place = start := begins
          have ended : ∀ piece ∈ pieces.head?, piece.isLiteral = false := by
            intro piece first
            by_contra both
            exact apart.rel_head? first ⟨rfl, by simpa using both⟩
          have solid : literal ≠ [] := by
            rintro rfl
            exact absurd filled (Nat.lt_irrefl _)
          -- What comes next is a placeholder or the end, so gathering stops where the piece does.
          rw [Piece.cells, gathered_literals, List.nil_append, gathered_split place literal ended,
            literalRun, if_neg solid]
          exact congrArg (Piece.literal place literal :: ·) rest
      | placeholder opening stop expr =>
          obtain rfl : opening = start := begins
          obtain ⟨rfl, -⟩ := own
          exact congrArg (Piece.placeholder opening _ expr :: ·) rest

/-- The pieces of a text divide it at its placeholders, and are the only ones that do. -/
theorem pieces_partition (text : String) :
    Partitions text.toList (pieces text) ∧
      ∀ others, Partitions text.toList others → others = pieces text := by
  obtain ⟨cells, divides⟩ := exists_divides text.toList
  refine ⟨?_, ?_⟩
  · rw [pieces_eq divides]
    exact partitions_gathered divides
  · intro others other
    have whole : Contiguous ([] : List Char).length others text.toList.length := other.contiguous
    have divided := divides_cells whole other.spelled other.fits
    rw [pieces_eq divided, gathered_cells other.contiguous other.fits other.apart]

end Dialogue.Interpolation
