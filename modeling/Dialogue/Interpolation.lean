import Dialogue.Markup.Builder
import Dialogue.Store.Evaluate
import Dialogue.Text.Cursor

set_option autoImplicit false

namespace Dialogue.Interpolation

open Dialogue.Text

/-- A part of a text, with the number of characters before it. A placeholder has braces around its
expression and ends behind the closing one. -/
inductive Piece where
  | literal (start : Nat) (text : List Char)
  | placeholder (start stop : Nat) (expr : List Char)
  deriving DecidableEq, Repr

/-- Literal text up to a position, if any has begun. -/
def literalPiece {text : String} (began : Option (Cursor text)) (stop : text.Pos) : List Piece :=
  match began with
  | some c => [.literal c.index (String.extract c.pos stop).toList]
  | none => []

/-- The pieces of a text from a cursor on, behind literal text that belongs to no piece yet if any
has begun. A brace that is never closed is literal. -/
def piecesFrom {text : String} (began : Option (Cursor text)) (c : Cursor text) : List Piece :=
  match _stepped : c.next? with
  | none => literalPiece began text.endPos
  | some (ch, next) =>
      match if ch = '\x7b' then next.pos.find? '\x7d' else none with
      | some close =>
          let expr := (String.extract next.pos close).toList
          literalPiece began c.pos ++
            .placeholder c.index (c.index + expr.length + 2) expr ::
              piecesFrom none (next.skip (expr.length + 1))
      | none => piecesFrom (began.or (some c)) next
termination_by c.pos
decreasing_by
  · exact Cursor.lt_skip _stepped _
  · exact Cursor.lt_of_next? _stepped

def pieces (text : String) : List Piece :=
  piecesFrom none (.start text)

/-- The text that the placeholder at `start` stands for. -/
def render (s : Store) (start : Nat) (expr : List Char) : List Char :=
  match (s.drawing start).evaluate (String.ofList expr) with
  | .ok v => v.toText.toList
  | .error _ => []

/-- The wrappers at a position, or else at the nearest covered position before it, or else those
of the first run. -/
def wrappersNear (m : Markup) (index : Nat) : List Wrapper :=
  let covering (i : Nat) : Option Segment := m.segments.find? fun s => s.covers i
  match (List.range (index + 1)).reverse.findSome? covering with
  | some s => s.wrappers
  | none => ((m.segments.find? fun s => !s.marker).map Segment.wrappers).getD []

/-- Repeats the markers that stand from `low` up to `high`. -/
def addMarkers (m : Markup) (low high : Nat) (b : Markup.Builder) : Markup.Builder :=
  (m.segments.filter fun s => s.marker && low ≤ s.start && s.start < high).foldl
    (fun b s => s.wrappers.foldl Markup.Builder.marker b) b

/-- Adds literal text that starts at `index`. -/
def addLiteral (m : Markup) (index : Nat) (b : Markup.Builder) : List Char → Markup.Builder
  | [] => b
  | c :: cs =>
      addLiteral m (index + 1)
        ((addMarkers m index (index + 1) b).pushChar (wrappersNear m index) c) cs

def addPiece (s : Store) (m : Markup) (b : Markup.Builder) : Piece → Markup.Builder
  | .literal start text => addLiteral m start b text
  | .placeholder start stop expr =>
      (addMarkers m start stop b).pushText (wrappersNear m start) (render s start expr)

def Piece.plain (s : Store) : Piece → List Char
  | .literal _ text => text
  | .placeholder start _ expr => render s start expr

/-- Replaces the placeholders of a text and realigns its formatting. Formatting that has become
empty is dropped. -/
def interpolate (s : Store) (text : String) (markup : Option Markup) : String × Option Markup :=
  let chars := text.toList
  if !chars.contains '\x7b' then (text, markup)
  else
    match markup with
    | none => (String.ofList ((pieces text).flatMap (Piece.plain s)), none)
    | some m =>
        let b := (pieces text).foldl (addPiece s m) .empty
        let result := (addMarkers m chars.length (chars.length + 1) b).finish
        (result.text, result.normalized)

end Dialogue.Interpolation
