import Dialogue.Interpolation
import Dialogue.Proofs.Markup.Outline

set_option autoImplicit false

namespace Dialogue

namespace Markup

namespace Builder

/-- An operation on a builder. -/
inductive Op where
  | pushChar (wrappers : List Wrapper) (c : Char)
  | pushText (wrappers : List Wrapper) (text : List Char)
  | marker (wrapper : Wrapper)
  | flush

def apply (b : Builder) : Op → Builder
  | .pushChar wrappers c => b.pushChar wrappers c
  | .pushText wrappers text => b.pushText wrappers text
  | .marker wrapper => b.marker wrapper
  | .flush => b.flush

/-- What an operation adds. -/
def Op.items : Op → List Item
  | .pushChar wrappers c => [.char c wrappers]
  | .pushText wrappers text => Item.literal wrappers text
  | .marker wrapper => [.marker wrapper]
  | .flush => []

theorem grows_apply (b : Builder) (op : Op) : b.Grows (b.apply op) op.items := by
  cases op with
  | pushChar wrappers c => exact grows_pushChar b wrappers c
  | pushText wrappers text => exact grows_pushText b wrappers text
  | marker wrapper => exact grows_marker b wrapper
  | flush => exact grows_flush b

theorem grows_foldl {α : Type} {step : Builder → α → Builder} {items : α → List Item}
    (grows : ∀ b x, Grows b (step b x) (items x)) (b : Builder) (xs : List α) :
    b.Grows (xs.foldl step b) (xs.flatMap items) := by
  induction xs generalizing b with
  | nil => exact .refl b
  | cons x xs ih =>
      rw [List.foldl_cons, List.flatMap_cons]
      exact (grows b x).trans (ih (step b x))

/-- The result of a sequence of operations. -/
def build (ops : List Op) : Markup :=
  (ops.foldl apply empty).finish

theorem build_eq_ofItems (ops : List Op) : build ops = ofItems (ops.flatMap Op.items) :=
  (grows_foldl grows_apply empty ops).finish

end Builder

end Markup

namespace Interpolation

open Markup

/-- The markers that stand from `low` up to `high`. -/
def markerItems (m : Markup) (low high : Nat) : List Markup.Item :=
  (m.segments.filter fun s => s.marker && low ≤ s.start && s.start < high).flatMap fun s =>
    s.wrappers.map Markup.Item.marker

/-- Literal text that starts at `index`, with the markers in it. -/
def literalItems (m : Markup) (index : Nat) : List Char → List Markup.Item
  | [] => []
  | c :: cs =>
      markerItems m index (index + 1) ++
        .char c (wrappersNear m index) :: literalItems m (index + 1) cs

def pieceItems (s : Store) (m : Markup) : Piece → List Markup.Item
  | .literal start text => literalItems m start text
  | .placeholder start stop expr =>
      markerItems m start stop ++
        Markup.Item.literal (wrappersNear m start) (render s start expr)

theorem grows_addMarkers (m : Markup) (low high : Nat) (b : Builder) :
    b.Grows (addMarkers m low high b) (markerItems m low high) := by
  apply Builder.grows_foldl
  intro b s
  rw [List.map_eq_flatMap]
  exact Builder.grows_foldl Builder.grows_marker b s.wrappers

theorem grows_addLiteral (m : Markup) (index : Nat) (b : Builder) (text : List Char) :
    b.Grows (addLiteral m index b text) (literalItems m index text) := by
  induction text generalizing index b with
  | nil => exact .refl b
  | cons c text ih =>
      have marked := grows_addMarkers m index (index + 1) b
      have pushed := marked.trans (Builder.grows_pushChar _ (wrappersNear m index) c)
      have whole := pushed.trans (ih (index + 1) _)
      rw [List.append_assoc] at whole
      exact whole

theorem grows_addPiece (s : Store) (m : Markup) (b : Builder) (piece : Piece) :
    b.Grows (addPiece s m b piece) (pieceItems s m piece) := by
  cases piece with
  | literal start text => exact grows_addLiteral m start b text
  | placeholder start stop expr =>
      exact (grows_addMarkers m start stop b).trans
        (Builder.grows_pushText _ (wrappersNear m start) (render s start expr))

/-- What the text shows once its placeholders are filled in. -/
def filledItems (s : Store) (text : String) (m : Markup) : List Markup.Item :=
  (pieces text).flatMap (pieceItems s m) ++
    markerItems m text.toList.length (text.toList.length + 1)

theorem interpolate_of_brace (s : Store) {text : String} (m : Markup)
    (brace : text.toList.contains '\x7b' = true) :
    interpolate s text (some m) =
      ((ofItems (filledItems s text m)).text, (ofItems (filledItems s text m)).normalized) := by
  have filled := Builder.grows_foldl (grows_addPiece s m) .empty (pieces text)
  have ended := filled.trans
    (grows_addMarkers m text.toList.length (text.toList.length + 1) _)
  have finished := ended.finish
  unfold interpolate
  simp only [brace, Bool.not_true, Bool.false_eq_true, ↓reduceIte]
  rw [finished]
  rfl

theorem interpolate_none_of_brace (s : Store) {text : String}
    (brace : text.toList.contains '\x7b' = true) :
    interpolate s text none =
      (String.ofList ((pieces text).flatMap (Piece.plain s)), none) := by
  unfold interpolate
  simp only [brace, Bool.not_true, Bool.false_eq_true, ↓reduceIte]

theorem interpolate_of_no_brace (s : Store) {text : String} (markup : Option Markup)
    (brace : text.toList.contains '\x7b' = false) :
    interpolate s text markup = (text, markup) := by
  unfold interpolate
  simp only [brace, Bool.not_false, ↓reduceIte]

end Interpolation

namespace Markup

theorem eq_of_normalized {m n : Markup} (same : m.normalized = some n) : n = m := by
  unfold normalized at same
  split at same
  · exact (Option.some.inj same).symm
  · cases same

/-- Markup that is read, built, cut out of other markup, or made by filling in placeholders. -/
inductive Made : Markup → Prop
  | parsed (source : String) : Made (parse source)
  | built (ops : List Builder.Op) : Made (Builder.build ops)
  | sliced {m : Markup} (made : Made m) (start : Nat) (stop : Option Nat) :
      Made (m.slice start stop)
  | interpolated {m n : Markup} (made : Made m) (s : Store) (text : String)
      (result : (Interpolation.interpolate s text (some m)).2 = some n) : Made n

theorem Made.tiled {m : Markup} (made : Made m) : m.Tiled := by
  induction made with
  | parsed source =>
      rw [parse_eq_ofItems]
      exact ofItems_tiled _
  | built ops =>
      rw [Builder.build_eq_ofItems]
      exact ofItems_tiled _
  | sliced _ start stop ih => exact ih.slice start stop
  | @interpolated m n _ s text result ih =>
      by_cases brace : text.toList.contains '\x7b' = true
      · rw [Interpolation.interpolate_of_brace s m brace] at result
        rw [eq_of_normalized result]
        exact ofItems_tiled _
      · rw [Interpolation.interpolate_of_no_brace s (some m) (by simpa using brace)] at result
        rw [← Option.some.inj result]
        exact ih

/-- However markup is made, its segments are runs and markers in order, and the runs cover its
text. -/
theorem made_wellFormed {m : Markup} (made : Made m) : m.WellFormed :=
  made.tiled.wellFormed

theorem greeting_wellFormed :
    Made ((parse "[b]Hi[/b][br/] [em]there").slice 1 (some 9)) ∧
      ((parse "[b]Hi[/b][br/] [em]there").slice 1 (some 9)).WellFormed :=
  have made := Made.sliced (.parsed "[b]Hi[/b][br/] [em]there") 1 (some 9)
  ⟨made, made_wellFormed made⟩

end Markup

end Dialogue
