import Dialogue.Expr.Parse

set_option autoImplicit false

namespace Dialogue

/-- A truth value, a number or a text. -/
def Value.Plain : Value → Prop
  | .bool _ | .number _ | .text _ => True
  | .enumCase _ _ => False

instance (v : Value) : Decidable v.Plain :=
  match v with
  | .bool _ | .number _ | .text _ => .isTrue trivial
  | .enumCase _ _ => .isFalse id

namespace Expr

open Dialogue.Text

/-- All literals are plain values. -/
inductive Literal : Expr → Prop
  | literal {v : Value} (plain : v.Plain) : Literal (.literal v)
  | var (name : String) : Literal (.var name)
  | enumCase (enum case : String) : Literal (.enumCase enum case)
  | call {function : String} {args : List Expr} (inside : ∀ e ∈ args, Literal e) :
      Literal (.call function args)
  | unary {op : UnaryOp} {operand : Expr} (inside : Literal operand) :
      Literal (.unary op operand)
  | binary {op : BinaryOp} {left right : Expr} (first : Literal left) (second : Literal right) :
      Literal (.binary op left right)

/-- A reader gives expressions with plain literals only. -/
def LiteralReader (reader : Reader Expr) : Prop :=
  ∀ cs e rest, reader cs = some (e, rest) → Literal e

theorem LiteralReader.orElse {first second : Reader Expr} (front : LiteralReader first)
    (back : LiteralReader second) :
    LiteralReader fun cs => (first cs).orElse fun _ => second cs := by
  intro cs e rest found
  cases tried : first cs with
  | none =>
      simp only [tried, Option.orElse_none] at found
      exact back cs e rest found
  | some pair =>
      simp only [tried, Option.orElse_some, Option.some.injEq] at found
      rw [found] at tried
      exact front cs e rest tried

theorem reads_number? : LiteralReader number? := by
  intro cs e rest found
  unfold number? at found
  extract_lets whole behind at found
  split at found
  split at found
  · cases found
  · obtain ⟨x, -, same⟩ := Option.map_eq_some_iff.mp found
    cases same
    exact .literal trivial

theorem reads_textIn? (quote : Char) : LiteralReader (textIn? quote) := by
  intro cs e rest found
  obtain ⟨pair, -, same⟩ := Option.map_eq_some_iff.mp found
  cases same
  exact .literal trivial

theorem reads_string? : LiteralReader string? := by
  intro cs e rest found
  unfold string? at found
  split at found
  · exact reads_textIn? _ _ _ _ found
  · exact reads_textIn? _ _ _ _ found
  · cases found

theorem reads_boolean? : LiteralReader boolean? := by
  intro cs e rest found
  unfold boolean? at found
  split at found
  · cases found
    exact .literal trivial
  · split at found
    · cases found
      exact .literal trivial
    · cases found

theorem reads_reference? : LiteralReader reference? := by
  intro cs e rest found
  unfold reference? at found
  split at found
  · obtain ⟨pair, -, same⟩ := Option.map_eq_some_iff.mp found
    cases same
    exact .enumCase ..
  · obtain ⟨pair, -, same⟩ := Option.map_eq_some_iff.mp found
    cases same
    exact .var _
  · split at found
    · cases found
    · split at found
      · split at found <;> cases found
        · exact .enumCase ..
        · exact .var _
      · cases found
        exact .var _

theorem reads_atom? : LiteralReader atom? :=
  reads_number?.orElse (reads_string?.orElse (reads_boolean?.orElse reads_reference?))

section Operand

variable {operand : Reader Expr} (reads : LiteralReader operand)

include reads

theorem literal_moreArgs (fuel : Nat) (cs : List Char) :
    ∀ e ∈ (moreArgs operand fuel cs).1, Literal e := by
  induction fuel generalizing cs with
  | zero =>
      intro e member
      cases member
  | succ fuel ih =>
      intro e member
      unfold moreArgs at member
      split at member
      · split at member
        · rename_i arg rest found
          rcases List.mem_cons.mp member with rfl | inside
          · exact reads _ _ _ found
          · exact ih rest e inside
        · cases member
      · cases member

theorem literal_args (fuel : Nat) (cs : List Char) :
    ∀ e ∈ (args operand fuel cs).1, Literal e := by
  intro e member
  unfold args at member
  split at member
  · rename_i arg rest found
    rcases List.mem_cons.mp member with rfl | inside
    · exact reads _ _ _ found
    · exact literal_moreArgs reads fuel rest e inside
  · cases member

theorem reads_call? (fuel : Nat) : LiteralReader (call? operand fuel) := by
  intro cs e rest found
  unfold call? at found
  split at found
  · cases found
  · split at found
    · rename_i inner spelled
      dsimp only at found
      split at found
      · cases found
        exact .call (literal_args reads fuel inner)
      · cases found
    · cases found

theorem reads_group? : LiteralReader (group? operand) := by
  intro cs e rest found
  unfold group? at found
  split at found
  · split at found
    · rename_i inside
      split at found
      · cases found
        exact reads _ _ _ inside
      · cases found
    · cases found
  · cases found

theorem reads_primary? (fuel : Nat) : LiteralReader (primary? operand fuel) :=
  (reads_call? reads fuel).orElse ((reads_group? reads).orElse reads_atom?)

theorem reads_unary? (fuel : Nat) : LiteralReader (unary? operand fuel) := by
  induction fuel with
  | zero =>
      intro cs e rest found
      cases found
  | succ fuel ih =>
      intro cs e rest found
      unfold unary? at found
      split at found
      · obtain ⟨⟨inner, behind⟩, inside, same⟩ := Option.map_eq_some_iff.mp found
        cases same
        exact .unary (ih _ _ _ inside)
      · exact reads_primary? reads fuel _ _ _ found

theorem literal_chain (table : List (Spelling × BinaryOp)) (fuel : Nat) {left : Expr}
    (first : Literal left) (cs : List Char) : Literal (chain table operand fuel left cs).1 := by
  induction fuel generalizing left cs with
  | zero => exact first
  | succ fuel ih =>
      unfold chain
      split
      · split
        · rename_i found
          exact ih (.binary first (reads _ _ _ found)) _
        · exact first
      · exact first

theorem reads_climb (fuel : Nat) (tables : List (List (Spelling × BinaryOp))) :
    LiteralReader (climb fuel operand tables) := by
  induction tables with
  | nil => exact reads
  | cons table tighter ih =>
      intro cs e rest found
      unfold climb at found
      split at found
      · rename_i left behind inside
        have chained := literal_chain ih table fuel (ih _ _ _ inside) behind
        rw [Option.some.inj found] at chained
        exact chained
      · cases found

end Operand

theorem reads_expression? (fuel : Nat) : LiteralReader (expression? fuel) := by
  induction fuel with
  | zero =>
      intro cs e rest found
      cases found
  | succ fuel ih => exact reads_climb (reads_unary? ih _) _ levels

/-- An expression that a text spells has plain literals only. -/
theorem literal_of_parse? {source : String} {e : Expr} (read : parse? source = some e) :
    Literal e := by
  unfold parse? at read
  dsimp only at read
  split at read
  · rename_i found
    split at read
    · cases read
      exact reads_expression? _ _ _ _ found
    · cases read
  · cases read

end Expr

end Dialogue
