set_option autoImplicit false

namespace Dialogue.Text

/-- A place between two characters, with the number of characters before it. -/
structure Cursor (text : String) where
  index : Nat
  pos : text.Pos

namespace Cursor

variable {text : String}

def start (text : String) : Cursor text :=
  ⟨0, text.startPos⟩

/-- The character at a cursor, and the cursor behind it. -/
def next? (c : Cursor text) : Option (Char × Cursor text) :=
  if ended : c.pos = text.endPos then none
  else some (c.pos.get ended, ⟨c.index + 1, c.pos.next ended⟩)

/-- Steps over characters, at most as many as there are. -/
def skip : Nat → Cursor text → Cursor text
  | 0, c => c
  | n + 1, c =>
      match c.next? with
      | some (_, next) => skip n next
      | none => c

theorem lt_of_next? {c next : Cursor text} {ch : Char} (stepped : c.next? = some (ch, next)) :
    c.pos < next.pos := by
  unfold next? at stepped
  split at stepped
  · cases stepped
  · rename_i inside
    cases stepped
    exact String.Pos.lt_next (h := inside)

theorem le_skip (n : Nat) (c : Cursor text) : c.pos ≤ (c.skip n).pos := by
  induction n generalizing c with
  | zero => exact Std.le_refl _
  | succ n ih =>
      rw [skip]
      split
      · rename_i next stepped
        exact Std.le_trans (Std.le_of_lt (lt_of_next? stepped)) (ih next)
      · exact Std.le_refl _

theorem lt_skip {c next : Cursor text} {ch : Char} (stepped : c.next? = some (ch, next))
    (n : Nat) : c.pos < (next.skip n).pos :=
  Std.lt_of_lt_of_le (lt_of_next? stepped) (le_skip n next)

end Cursor

end Dialogue.Text
