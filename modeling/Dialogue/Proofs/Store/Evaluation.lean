import Dialogue.Proofs.Store.Depth
import Dialogue.Table
import Mathlib.Tactic.FinCases

set_option autoImplicit false

namespace Dialogue

/-- The expressions that texts have left behind. -/
abbrev Cache := Table Expr

namespace Cache

/-- The expression that a text spells, outer white space aside, which is not read twice. -/
def parse (cache : Cache) (text : String) : Except EvalError Expr × Cache :=
  let text := Text.trimmed text
  match cache.get? text with
  | some e => (.ok e, cache)
  | none =>
      match Expr.parse? text with
      | some e => (.ok e, cache.insert text e)
      | none => (.error (.malformed text), cache)

/-- What texts leave behind that are read one after the other. -/
def after (texts : List String) : Cache :=
  texts.foldl (fun cache text => (cache.parse text).2) .empty

/-- Every text stands for the expression that it spells. -/
def Faithful (cache : Cache) : Prop :=
  ∀ text e, cache.get? text = some e → Expr.parse? text = some e

theorem parse_faithful {cache : Cache} (faithful : cache.Faithful) (text : String) :
    (cache.parse text).1 = Store.parseExpr text ∧ (cache.parse text).2.Faithful := by
  unfold parse Store.parseExpr
  dsimp only
  generalize Text.trimmed text = text
  split
  · rename_i e kept
    rw [faithful text e kept]
    exact ⟨rfl, faithful⟩
  · cases read : Expr.parse? text with
    | none => exact ⟨rfl, faithful⟩
    | some e =>
      refine ⟨rfl, ?_⟩
      intro other found located
      by_cases same : other = text
      · subst same
        rw [Table.get?_insert_self] at located
        rw [read, located]
      · rw [Table.get?_insert_of_ne _ _ same] at located
        exact faithful other found located

theorem faithful_after (texts : List String) : (after texts).Faithful := by
  have kept : ∀ cache : Cache, cache.Faithful →
      (texts.foldl (fun cache text => (cache.parse text).2) cache).Faithful := by
    induction texts with
    | nil => exact fun cache faithful => faithful
    | cons text rest ih =>
        intro cache faithful
        exact ih _ (parse_faithful faithful text).2
  exact kept .empty fun text e located => (nomatch located)

end Cache

namespace Store

mutual

/-- The value of an expression inside `depth` smart variables, and what is left behind by it.
Functions are not served when they read variables. -/
inductive Evaluates (s : Store) (limit : Nat) :
    Nat → Draws → Cache → Expr → Except EvalError Value → Cache → Prop
  | literal {depth : Nat} {draws : Draws} {cache : Cache} (v : Value) :
      Evaluates s limit depth draws cache (.literal v) (.ok v) cache
  | var {depth : Nat} {draws : Draws} {cache after : Cache} {name : String}
      {x : Except EvalError Value} (reads : Reads s limit depth draws cache name x after) :
      Evaluates s limit depth draws cache (.var name) x after
  | enumCase {depth : Nat} {draws : Draws} {cache : Cache} (enum case : String) :
      Evaluates s limit depth draws cache (.enumCase enum case) (s.enumCase enum case) cache
  | unknown {depth : Nat} {draws : Draws} {cache : Cache} {name : String} {args : List Expr}
      (absent : s.functions.get? name = none) :
      Evaluates s limit depth draws cache (.call name args) (.error (.unknownFunction name)) cache
  | call {depth : Nat} {draws : Draws} {cache after : Cache} {name : String} {args : List Expr}
      {f : Function} {values : Except EvalError (List Value)}
      (known : s.functions.get? name = some f)
      (evaluated : EvaluatesAll s limit depth (draws.part 0) cache args values after) :
      Evaluates s limit depth draws cache (.call name args)
        (values >>= f (s.silent (draws.part 1))) after
  | unary {depth : Nat} {draws : Draws} {cache after : Cache} {op : UnaryOp} {e : Expr}
      {x : Except EvalError Value} (inner : Evaluates s limit depth draws cache e x after) :
      Evaluates s limit depth draws cache (.unary op e) (x >>= applyUnary op) after
  | failed {depth : Nat} {draws : Draws} {cache after : Cache} {op : BinaryOp} {left right : Expr}
      {cause : EvalError}
      (first : Evaluates s limit depth (draws.part 0) cache left (.error cause) after) :
      Evaluates s limit depth draws cache (.binary op left right) (.error cause) after
  | decided {depth : Nat} {draws : Draws} {cache after : Cache} {op : BinaryOp} {left right : Expr}
      {l v : Value} (first : Evaluates s limit depth (draws.part 0) cache left (.ok l) after)
      (decides : shortCircuit? op l = some v) :
      Evaluates s limit depth draws cache (.binary op left right) (.ok v) after
  | binary {depth : Nat} {draws : Draws} {cache between after : Cache} {op : BinaryOp}
      {left right : Expr} {l : Value} {x : Except EvalError Value}
      (first : Evaluates s limit depth (draws.part 0) cache left (.ok l) between)
      (undecided : shortCircuit? op l = none)
      (second : Evaluates s limit depth (draws.part 1) between right x after) :
      Evaluates s limit depth draws cache (.binary op left right) (x >>= applyBinary op l) after

/-- The values of arguments, from left to right up to the first that has none. -/
inductive EvaluatesAll (s : Store) (limit : Nat) :
    Nat → Draws → Cache → List Expr → Except EvalError (List Value) → Cache → Prop
  | nil {depth : Nat} {draws : Draws} {cache : Cache} :
      EvaluatesAll s limit depth draws cache [] (.ok []) cache
  | failed {depth : Nat} {draws : Draws} {cache after : Cache} {e : Expr} {rest : List Expr}
      {cause : EvalError}
      (first : Evaluates s limit depth (draws.part 0) cache e (.error cause) after) :
      EvaluatesAll s limit depth draws cache (e :: rest) (.error cause) after
  | cons {depth : Nat} {draws : Draws} {cache between after : Cache} {e : Expr} {rest : List Expr}
      {v : Value} {values : Except EvalError (List Value)}
      (first : Evaluates s limit depth (draws.part 0) cache e (.ok v) between)
      (later : EvaluatesAll s limit depth (draws.part 1) between rest values after) :
      EvaluatesAll s limit depth draws cache (e :: rest)
        (values >>= fun values => .ok (v :: values)) after

/-- The value of a variable. A smart one is limited when `limit` of them are being read already. -/
inductive Reads (s : Store) (limit : Nat) :
    Nat → Draws → Cache → String → Except EvalError Value → Cache → Prop
  | plain {depth : Nat} {draws : Draws} {cache : Cache} {name : String} {v : Value}
      (fixed : s.smart.get? name = none) (stored : s.vars.get? name = some v) :
      Reads s limit depth draws cache name (.ok v) cache
  | unknown {depth : Nat} {draws : Draws} {cache : Cache} {name : String}
      (fixed : s.smart.get? name = none) (absent : s.vars.get? name = none) :
      Reads s limit depth draws cache name (.error (.unknownVariable name)) cache
  | limited {depth : Nat} {draws : Draws} {cache : Cache} {name text : String}
      (smart : s.smart.get? name = some text) (met : limit ≤ depth) :
      Reads s limit depth draws cache name (.error (.recursionLimit name)) cache
  | malformed {depth : Nat} {draws : Draws} {cache after : Cache} {name text : String}
      {cause : EvalError} (smart : s.smart.get? name = some text) (room : depth < limit)
      (read : cache.parse text = (.error cause, after)) :
      Reads s limit depth draws cache name (.error cause) after
  | smart {depth : Nat} {draws : Draws} {cache between after : Cache} {name text : String}
      {e : Expr} {x : Except EvalError Value} (smart : s.smart.get? name = some text)
      (room : depth < limit)
      (read : cache.parse text = (.ok e, between))
      (inner : Evaluates s limit (depth + 1) draws between e x after) :
      Reads s limit depth draws cache name x after

end

section Rules

variable {s : Store} {limit depth : Nat}

/-- The value of an expression inside so many smart variables, if functions are not served. -/
def quietAt (s : Store) (limit depth : Nat) (draws : Draws) (e : Expr) : Except EvalError Value :=
  s.eval s.silent (s.readWithin s.silent (limit - depth)) draws e

def quietAllAt (s : Store) (limit depth : Nat) (draws : Draws) (args : List Expr) :
    Except EvalError (List Value) :=
  s.evalAll s.silent (s.readWithin s.silent (limit - depth)) draws args

def quietRead (s : Store) (limit depth : Nat) (draws : Draws) (name : String) :
    Except EvalError Value :=
  s.readWithin s.silent (limit - depth) draws name

/-- Every variable can be read inside so many smart variables. -/
def Readable (s : Store) (limit depth : Nat) : Prop :=
  ∀ (draws : Draws) (cache : Cache) (name : String), cache.Faithful →
    ∃ after, after.Faithful ∧
      Reads s limit depth draws cache name (s.quietRead limit depth draws name) after

mutual

/-- An expression whose variables can be read has a value, by induction on its structure. -/
theorem evaluates_of_readable (readable : Readable s limit depth) (draws : Draws) {cache : Cache}
    (faithful : cache.Faithful) : ∀ e, ∃ after, after.Faithful ∧
      Evaluates s limit depth draws cache e (s.quietAt limit depth draws e) after
  | .literal v => ⟨cache, faithful, .literal v⟩
  | .var name => by
      obtain ⟨after, kept, reads⟩ := readable draws cache name faithful
      exact ⟨after, kept, .var reads⟩
  | .enumCase enum case => ⟨cache, faithful, .enumCase enum case⟩
  | .call name args => by
      unfold quietAt
      rw [eval]
      split
      · rename_i absent
        exact ⟨cache, faithful, .unknown absent⟩
      · rename_i f known
        obtain ⟨after, kept, values⟩ :=
          evaluatesAll_of_readable readable (draws.part 0) faithful args
        exact ⟨after, kept, .call known values⟩
  | .unary op e => by
      obtain ⟨after, kept, inner⟩ := evaluates_of_readable readable draws faithful e
      exact ⟨after, kept, .unary inner⟩
  | .binary op left right => by
      obtain ⟨between, kept, first⟩ :=
        evaluates_of_readable readable (draws.part 0) faithful left
      unfold quietAt at first ⊢
      rw [eval]
      cases value : s.eval s.silent
          (s.readWithin s.silent (limit - depth)) (draws.part 0) left with
      | error cause =>
          rw [value] at first
          exact ⟨between, kept, .failed first⟩
      | ok l =>
          rw [value] at first
          cases decides : shortCircuit? op l with
          | some v =>
              refine ⟨between, kept, ?_⟩
              simp only [bind, Except.bind, decides]
              exact .decided first decides
          | none =>
              obtain ⟨after, keptAfter, second⟩ :=
                evaluates_of_readable readable (draws.part 1) kept right
              refine ⟨after, keptAfter, ?_⟩
              simp only [bind, Except.bind, decides]
              exact .binary first decides second

theorem evaluatesAll_of_readable (readable : Readable s limit depth) (draws : Draws) {cache : Cache}
    (faithful : cache.Faithful) : ∀ args, ∃ after, after.Faithful ∧
      EvaluatesAll s limit depth draws cache args (s.quietAllAt limit depth draws args) after
  | [] => ⟨cache, faithful, .nil⟩
  | e :: rest => by
      obtain ⟨between, kept, first⟩ := evaluates_of_readable readable (draws.part 0) faithful e
      unfold quietAt at first
      unfold quietAllAt
      rw [evalAll]
      cases value : s.eval s.silent
          (s.readWithin s.silent (limit - depth)) (draws.part 0) e with
      | error cause =>
          rw [value] at first
          exact ⟨between, kept, .failed first⟩
      | ok v =>
          rw [value] at first
          obtain ⟨after, keptAfter, later⟩ :=
            evaluatesAll_of_readable readable (draws.part 1) kept rest
          exact ⟨after, keptAfter, .cons first later⟩

end

/-- Variables can be read at every depth, by induction on the levels that are left. -/
theorem readable (s : Store) (limit depth : Nat) : Readable s limit depth := by
  obtain ⟨room, size⟩ : ∃ room, limit - depth = room := ⟨_, rfl⟩
  induction room generalizing depth with
  | zero =>
      intro draws cache name faithful
      unfold quietRead
      rw [size]
      unfold readWithin
      cases smart : s.smart.get? name with
      | some text => exact ⟨cache, faithful, .limited smart (by omega)⟩
      | none =>
          cases stored : s.vars.get? name with
          | some v => exact ⟨cache, faithful, .plain smart stored⟩
          | none => exact ⟨cache, faithful, .unknown smart stored⟩
  | succ room ih =>
      intro draws cache name faithful
      unfold quietRead
      rw [size]
      unfold readWithin
      cases smart : s.smart.get? name with
      | some text =>
          obtain ⟨parsed, kept⟩ := Cache.parse_faithful faithful text
          cases read : cache.parse text with
          | mk outcome between =>
              rw [read] at parsed kept
              dsimp only at parsed ⊢
              rw [← parsed]
              cases outcome with
              | error cause =>
                  exact ⟨between, kept, .malformed smart (by omega) read⟩
              | ok e =>
                  have deeper : limit - (depth + 1) = room := by omega
                  obtain ⟨after, keptAfter, inner⟩ :=
                    evaluates_of_readable (ih (depth + 1) deeper) draws kept e
                  unfold quietAt at inner
                  rw [deeper] at inner
                  exact ⟨after, keptAfter, .smart smart (by omega) read inner⟩
      | none =>
          cases stored : s.vars.get? name with
          | some v => exact ⟨cache, faithful, .plain smart stored⟩
          | none => exact ⟨cache, faithful, .unknown smart stored⟩

mutual

/-- The rules give no other value, by induction on how they were applied. -/
theorem Evaluates.unique {depth : Nat} {draws : Draws} {cache after : Cache} {e : Expr}
    {x : Except EvalError Value} (faithful : cache.Faithful) :
    Evaluates s limit depth draws cache e x after →
      after.Faithful ∧ x = s.quietAt limit depth draws e
  | .literal v => ⟨faithful, rfl⟩
  | .var reads => reads.unique faithful
  | .enumCase enum case => ⟨faithful, rfl⟩
  | .unknown absent => by
      refine ⟨faithful, ?_⟩
      unfold quietAt
      rw [eval, absent]
  | .call known values => by
      obtain ⟨kept, rfl⟩ := values.unique faithful
      refine ⟨kept, ?_⟩
      unfold quietAt
      rw [eval, known]
      rfl
  | .unary inner => by
      obtain ⟨kept, rfl⟩ := inner.unique faithful
      exact ⟨kept, rfl⟩
  | .failed first => by
      obtain ⟨kept, same⟩ := first.unique faithful
      refine ⟨kept, ?_⟩
      unfold quietAt at same ⊢
      rw [eval, ← same]
      rfl
  | .decided first decides => by
      obtain ⟨kept, same⟩ := first.unique faithful
      refine ⟨kept, ?_⟩
      unfold quietAt at same ⊢
      rw [eval, ← same]
      simp only [bind, Except.bind, decides]
      rfl
  | .binary first undecided second => by
      obtain ⟨kept, same⟩ := first.unique faithful
      obtain ⟨keptAfter, rfl⟩ := second.unique kept
      refine ⟨keptAfter, ?_⟩
      unfold quietAt at same ⊢
      rw [eval, ← same]
      simp only [bind, Except.bind, undecided]

theorem EvaluatesAll.unique {depth : Nat} {draws : Draws} {cache after : Cache} {args : List Expr}
    {x : Except EvalError (List Value)} (faithful : cache.Faithful) :
    EvaluatesAll s limit depth draws cache args x after →
      after.Faithful ∧ x = s.quietAllAt limit depth draws args
  | .nil => ⟨faithful, rfl⟩
  | .failed first => by
      obtain ⟨kept, same⟩ := first.unique faithful
      refine ⟨kept, ?_⟩
      unfold quietAt at same
      unfold quietAllAt
      rw [evalAll, ← same]
      rfl
  | .cons first later => by
      obtain ⟨kept, same⟩ := first.unique faithful
      obtain ⟨keptAfter, rfl⟩ := later.unique kept
      refine ⟨keptAfter, ?_⟩
      unfold quietAt at same
      unfold quietAllAt
      rw [evalAll, ← same]
      rfl

theorem Reads.unique {depth : Nat} {draws : Draws} {cache after : Cache} {name : String}
    {x : Except EvalError Value} (faithful : cache.Faithful) :
    Reads s limit depth draws cache name x after →
      after.Faithful ∧ x = s.quietRead limit depth draws name
  | .plain fixed stored => by
      refine ⟨faithful, ?_⟩
      unfold quietRead readWithin
      rw [fixed, stored]
  | .unknown fixed absent => by
      refine ⟨faithful, ?_⟩
      unfold quietRead readWithin
      rw [fixed, absent]
  | .limited smart met => by
      refine ⟨faithful, ?_⟩
      unfold quietRead
      rw [show limit - depth = 0 by omega, readWithin, smart]
  | .malformed smart room read => by
      obtain ⟨parsed, kept⟩ := Cache.parse_faithful faithful _
      rw [read] at parsed kept
      refine ⟨kept, ?_⟩
      unfold quietRead
      rw [show limit - depth = (limit - (depth + 1)) + 1 by omega, readWithin, smart]
      dsimp only at parsed ⊢
      rw [← parsed]
      rfl
  | .smart smart room read inner => by
      obtain ⟨parsed, kept⟩ := Cache.parse_faithful faithful _
      rw [read] at parsed kept
      obtain ⟨keptAfter, rfl⟩ := inner.unique kept
      refine ⟨keptAfter, ?_⟩
      unfold quietRead
      rw [show limit - depth = (limit - (depth + 1)) + 1 by omega, readWithin, smart]
      dsimp only at parsed ⊢
      rw [← parsed]
      rfl

end

end Rules

/-- The value of the expression that a text spells. -/
inductive EvaluatesText (s : Store) (limit : Nat) (cache : Cache) (text : String) :
    Except EvalError Value → Cache → Prop
  | malformed {after : Cache} {cause : EvalError}
      (read : cache.parse text = (.error cause, after)) :
      EvaluatesText s limit cache text (.error cause) after
  | spelled {between after : Cache} {e : Expr} {x : Except EvalError Value}
      (read : cache.parse text = (.ok e, between)) 
      (inner : Evaluates s limit 0 s.draws between e x after) :
      EvaluatesText s limit cache text x after

section Builtins

variable {s : Store} {a b : Access}

/-- Two accesses show the same and draw the same. -/
structure Alike (a b : Access) : Prop where
  view : a.toView = b.toView
  draw : a.draw = b.draw

/-- The functions that every store starts with neither read variables nor evaluate. -/
theorem builtins_unread {name : String} {f : Function} (found : builtins.get? name = some f)
    (alike : Alike a b) : f a = f b := by
  have listed := Table.mem_of_mem_ofList (Table.mem_of_get? found)
  obtain ⟨seen, draw, read, evaluate, snapshot⟩ := a
  obtain ⟨seen', draw', read', evaluate', snapshot'⟩ := b
  obtain rfl : seen = seen' := alike.view
  obtain rfl : draw = draw' := alike.draw
  fin_cases listed <;> rfl

variable {access other : Draws → Access}

mutual

theorem eval_unread (basic : s.functions = builtins)
    (alike : ∀ draws, Alike (access draws) (other draws))
    (read : Draws → String → Except EvalError Value) (draws : Draws) :
    ∀ e, s.eval access read draws e = s.eval other read draws e
  | .literal v => rfl
  | .var name => rfl
  | .enumCase enum case => rfl
  | .call name args => by
      rw [eval, eval, basic]
      split
      · rfl
      · rename_i f found
        rw [evalAll_unread basic alike read _ args, builtins_unread found (alike _)]
  | .unary op e => by
      rw [eval, eval, eval_unread basic alike read _ e]
  | .binary op left right => by
      rw [eval, eval, eval_unread basic alike read _ left, eval_unread basic alike read _ right]

theorem evalAll_unread (basic : s.functions = builtins)
    (alike : ∀ draws, Alike (access draws) (other draws))
    (read : Draws → String → Except EvalError Value) (draws : Draws) :
    ∀ args, s.evalAll access read draws args = s.evalAll other read draws args
  | [] => rfl
  | e :: rest => by
      rw [evalAll, evalAll, eval_unread basic alike read _ e,
        evalAll_unread basic alike read _ rest]

end

theorem readWithin_unread (basic : s.functions = builtins)
    (alike : ∀ draws, Alike (access draws) (other draws)) (room : Nat) :
    s.readWithin access room = s.readWithin other room := by
  induction room with
  | zero =>
      funext draws name
      unfold readWithin
      rfl
  | succ room ih =>
      funext draws name
      unfold readWithin
      simp only [ih, eval_unread basic alike]

theorem silent_alike (s : Store) (calls : Nat) (draws : Draws) :
    Alike (s.silent draws) (s.accessWithin calls draws) := by
  cases calls with
  | zero => exact ⟨rfl, rfl⟩
  | succ calls => exact ⟨rfl, rfl⟩

theorem readWithin_unserved (basic : s.functions = builtins) (room : Nat) :
    s.readWithin s.silent room = s.readWithin s.access room :=
  readWithin_unread basic (silent_alike s s.calls) room

theorem quietAt_eq (basic : s.functions = builtins) (limit depth : Nat) (draws : Draws)
    (e : Expr) : s.quietAt limit depth draws e = s.evalAt limit depth draws e := by
  unfold quietAt evalAt
  rw [readWithin_unserved basic]
  exact eval_unread basic (silent_alike s s.calls) _ draws e

end Builtins

/-- An expression has one value by the rules. -/
theorem evaluates_iff {s : Store} (basic : s.functions = builtins) {cache : Cache}
    (faithful : cache.Faithful) (limit depth : Nat) (draws : Draws) (e : Expr)
    (x : Except EvalError Value) :
    (∃ after, Evaluates s limit depth draws cache e x after) ↔
      x = s.evalAt limit depth draws e := by
  rw [← quietAt_eq basic]
  constructor
  · rintro ⟨after, evaluates⟩
    exact (evaluates.unique faithful).2
  · rintro rfl
    obtain ⟨after, -, evaluates⟩ := evaluates_of_readable (readable s limit depth) draws faithful e
    exact ⟨after, evaluates⟩

/-- A variable has one value by the rules. -/
theorem reads_iff {s : Store} (basic : s.functions = builtins) {cache : Cache}
    (faithful : cache.Faithful) (name : String) (x : Except EvalError Value) :
    (∃ after, Reads s smartDepth 0 s.draws cache (bareName name) x after) ↔
      x = s.valueOf name := by
  have shape : s.valueOf name = s.quietRead smartDepth 0 s.draws (bareName name) := by
    unfold valueOf quietRead
    rw [readWithin_unserved basic]
    rfl
  rw [shape]
  constructor
  · rintro ⟨after, reads⟩
    exact (reads.unique faithful).2
  · rintro rfl
    obtain ⟨after, -, reads⟩ := readable s smartDepth 0 s.draws cache (bareName name) faithful
    exact ⟨after, reads⟩

/-- A text has one value by the rules. -/
theorem evaluatesText_iff {s : Store} (basic : s.functions = builtins) {cache : Cache}
    (faithful : cache.Faithful) (text : String) (x : Except EvalError Value) :
    (∃ after, EvaluatesText s smartDepth cache text x after) ↔ x = s.evaluate text := by
  obtain ⟨parsed, kept⟩ := Cache.parse_faithful faithful text
  have shape : s.evaluate text = parseExpr text >>= s.evalAt smartDepth 0 s.draws := rfl
  rw [shape, ← parsed]
  constructor
  · rintro ⟨after, evaluates⟩
    cases evaluates with
    | malformed read =>
        rw [read]
        rfl
    | spelled read inner =>
        rw [read] at kept ⊢
        exact (evaluates_iff basic kept _ _ _ _ _).mp ⟨after, inner⟩
  · rintro rfl
    cases read : cache.parse text with
    | mk outcome between =>
        rw [read] at kept
        cases outcome with
        | error cause => exact ⟨between, .malformed read⟩
        | ok e =>
            obtain ⟨after, inner⟩ := (evaluates_iff basic kept smartDepth 0 s.draws e _).mpr rfl
            exact ⟨after, .spelled read inner⟩

/-- Whatever has been evaluated before, whatever smart variables refer to and whatever is drawn,
variables, texts and expressions at every depth have one value each, and no value but the report
that smart variables nest too deep depends on the depth or on the limit. -/
theorem evaluation_ends {s : Store} (basic : s.functions = builtins) (history : List String) :
    (∀ name x, (∃ after, Reads s smartDepth 0 s.draws (.after history) (bareName name) x after) ↔
      x = s.valueOf name) ∧
    (∀ text x, (∃ after, EvaluatesText s smartDepth (.after history) text x after) ↔
      x = s.evaluate text) ∧
    (∀ limit depth draws e x,
      (∃ after, Evaluates s limit depth draws (.after history) e x after) ↔
        x = s.evalAt limit depth draws e) ∧
    (∀ depth less draws e, less ≤ depth →
      SameUnlessLimited (s.evalAt smartDepth depth draws e) (s.evalAt smartDepth less draws e)) ∧
    (∀ depth more draws e, smartDepth ≤ more →
      SameUnlessLimited (s.evalAt smartDepth depth draws e) (s.evalAt more depth draws e)) ∧
    ∀ name text, s.smart.get? (bareName name) = some text →
      SameUnlessLimited (s.valueOf name) (s.evaluate text) := by
  have faithful := Cache.faithful_after history
  refine ⟨reads_iff basic faithful, evaluatesText_iff basic faithful,
    evaluates_iff basic faithful, ?_, ?_, ?_⟩
  · intro depth less draws e le
    apply evalAt_sameUnlessLimited
    omega
  · intro depth more draws e le
    apply evalAt_sameUnlessLimited
    omega
  · intro name text smart
    exact valueOf_smart smart

/-- Two smart variables that refer to each other, and one that need not read them. -/
def circle : Store :=
  (((withEnums .empty).setSmart "a" "$b + 1").setSmart "b" "$a + 1").setSmart "safe" "true or $a"

theorem evaluation_ends_circle :
    circle.functions = builtins ∧
      (∃ after, EvaluatesText circle smartDepth (.after ["$a"]) " $safe" (.ok (.bool true)) after) ∧
      ∃ after, Reads circle smartDepth 0 circle.draws (.after ["$a"]) (bareName "$a")
        (.error (.recursionLimit "a")) after := by
  have basic : circle.functions = builtins := rfl
  obtain ⟨reads, texts, -⟩ := evaluation_ends basic ["$a"]
  exact ⟨basic, (texts " $safe" _).mpr rfl, (reads "$a" _).mpr rfl⟩

end Store

end Dialogue
