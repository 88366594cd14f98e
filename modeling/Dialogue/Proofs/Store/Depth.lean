import Dialogue.Store.Evaluate

set_option autoImplicit false

namespace Dialogue

/-- The report that smart variables nest too deep. -/
def Limited {α : Type} (x : Except EvalError α) : Prop :=
  ∃ name, x = .error (.recursionLimit name)

/-- The other computation gives the same result, unless the first one reports that smart variables
nest too deep. -/
def SameUnlessLimited {α : Type} (x y : Except EvalError α) : Prop :=
  ¬Limited x → y = x

theorem SameUnlessLimited.refl {α : Type} (x : Except EvalError α) : SameUnlessLimited x x :=
  fun _ => rfl

theorem SameUnlessLimited.bind {α β : Type} {x y : Except EvalError α}
    {f g : α → Except EvalError β} (first : SameUnlessLimited x y)
    (second : ∀ a, SameUnlessLimited (f a) (g a)) :
    SameUnlessLimited (x >>= f) (y >>= g) := by
  intro free
  cases result : x with
  | error e =>
      have early : ¬Limited x := by
        rintro ⟨name, same⟩
        exact free ⟨name, by rw [same]; rfl⟩
      rw [first early, result]
      rfl
  | ok a =>
      have early : ¬Limited x := by
        rintro ⟨name, same⟩
        rw [result] at same
        cases same
      rw [result] at free
      rw [first early, result]
      exact second a free

namespace Store

variable {s : Store} {access : Draws → Access}
  {read other : Draws → String → Except EvalError Value}

mutual

/-- What a variable is read as is passed on, and so is the report. -/
theorem eval_sameUnlessLimited
    (reads : ∀ draws name, SameUnlessLimited (read draws name) (other draws name))
    (draws : Draws) :
    ∀ e, SameUnlessLimited (s.eval access read draws e) (s.eval access other draws e)
  | .literal v => .refl _
  | .var name => reads draws name
  | .enumCase enum case => .refl _
  | .call name args => by
      rw [eval, eval]
      split
      · exact .refl _
      · exact (evalAll_sameUnlessLimited reads _ args).bind fun values => .refl _
  | .unary op operand => by
      rw [eval, eval]
      exact (eval_sameUnlessLimited reads _ operand).bind fun v => .refl _
  | .binary op left right => by
      rw [eval, eval]
      refine (eval_sameUnlessLimited reads _ left).bind ?_
      intro l
      split
      · exact .refl _
      · exact (eval_sameUnlessLimited reads _ right).bind fun r => .refl _

theorem evalAll_sameUnlessLimited
    (reads : ∀ draws name, SameUnlessLimited (read draws name) (other draws name))
    (draws : Draws) :
    ∀ args, SameUnlessLimited (s.evalAll access read draws args) (s.evalAll access other draws args)
  | [] => .refl _
  | e :: rest => by
      rw [evalAll, evalAll]
      refine (eval_sameUnlessLimited reads _ e).bind ?_
      intro v
      exact (evalAll_sameUnlessLimited reads _ rest).bind fun values => .refl _

end

/-- With more room, smart variables have the same values. -/
theorem readWithin_sameUnlessLimited {room more : Nat} (le : room ≤ more) (draws : Draws)
    (name : String) :
    SameUnlessLimited (s.readWithin access room draws name)
      (s.readWithin access more draws name) := by
  induction room generalizing more draws name with
  | zero =>
      intro free
      unfold readWithin at free ⊢
      split
      · rename_i text smart
        simp only [smart] at free
        exact absurd ⟨name, rfl⟩ free
      · rfl
  | succ room ih =>
      obtain ⟨more, rfl⟩ : ∃ rest, more = rest + 1 := ⟨more - 1, by omega⟩
      rw [readWithin, readWithin]
      split
      · refine (SameUnlessLimited.refl _).bind ?_
        intro e
        exact eval_sameUnlessLimited (fun draws other => ih (by omega) draws other) draws e
      · exact .refl _

/-- The value of an expression inside so many smart variables, where at most `limit` may nest. -/
def evalAt (s : Store) (limit depth : Nat) (draws : Draws) (e : Expr) : Except EvalError Value :=
  s.eval s.access (s.readWithin s.access (limit - depth)) draws e

theorem evalAt_sameUnlessLimited {limit depth more less : Nat} (room : limit - depth ≤ more - less)
    (draws : Draws) (e : Expr) :
    SameUnlessLimited (s.evalAt limit depth draws e) (s.evalAt more less draws e) :=
  eval_sameUnlessLimited (fun draws name => readWithin_sameUnlessLimited room draws name) draws e

/-- A smart variable has the value of its text. -/
theorem valueOf_smart {name text : String} (smart : s.smart.get? (bareName name) = some text) :
    SameUnlessLimited (s.valueOf name) (s.evaluate text) := by
  have shape : s.valueOf name = parseExpr text >>= fun e => s.evalAt smartDepth 1 s.draws e := by
    unfold valueOf
    rw [show smartDepth = 31 + 1 from rfl, readWithin, smart]
    rfl
  rw [shape]
  refine (SameUnlessLimited.refl _).bind ?_
  intro e
  show SameUnlessLimited (s.evalAt smartDepth 1 s.draws e) (s.evalAt smartDepth 0 s.draws e)
  apply evalAt_sameUnlessLimited
  omega

end Store

end Dialogue
