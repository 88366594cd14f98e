import Dialogue.Proofs.Store.Evaluation

set_option autoImplicit false

namespace Dialogue

/-- What a function asks for. -/
inductive Question where
  | read (name : String)
  | evaluate (text : String)
  | snapshot

def Question.Answer : Question → Type
  | read _ => Except EvalError Value
  | evaluate _ => Except EvalError Value
  | snapshot => Table Value

def Access.reply (access : Access) (n : Nat) : (question : Question) → question.Answer
  | .read name => access.read n name
  | .evaluate text => access.evaluate n text
  | .snapshot => access.snapshot n

/-- What a function does: it asks one thing after the other, then it answers. How it numbers what
it asks is its own business. -/
inductive Inquiry where
  | answer (result : Except EvalError Value)
  | ask (n : Nat) (question : Question) (next : question.Answer → Inquiry)

/-- What a function does with what it sees, its draws and the values of its arguments. -/
abbrev Conduct := View → (Nat → Float) → List Value → Inquiry

namespace Inquiry

def run (reply : Nat → (question : Question) → question.Answer) :
    Inquiry → Except EvalError Value
  | answer result => result
  | ask n question next => (next (reply n question)).run reply

end Inquiry

/-- What a function sees whose questions are not answered. -/
def Access.unanswered (view : View) (draw : Nat → Float) : Access where
  toView := view
  draw := draw
  read _ name := .error (.callLimit name)
  evaluate _ text := .error (.callLimit text)
  snapshot _ := view.vars

namespace Conduct

def Describes (conduct : Conduct) (f : Function) : Prop :=
  ∀ access values, f access values = (conduct access.toView access.draw values).run access.reply

/-- A function that asks for nothing. -/
def Quiet (conduct : Conduct) : Prop :=
  ∀ view draw values, ∃ result, conduct view draw values = .answer result

/-- A function that would get nothing if it asked. -/
def alone (f : Function) : Conduct := fun view draw values =>
  .answer (f (.unanswered view draw) values)

end Conduct

namespace Store

inductive Reading where
  /-- A smart variable whose text is evaluated. -/
  | smart (name : String)
  /-- What a function asks for. -/
  | asked (question : Question)

def Reading.isSmart : Reading → Bool
  | smart _ => true
  | asked _ => false

/-- A result, and the paths of readings that arose on the way to it, each outermost first. -/
structure Traced (α : Type) where
  result : α
  paths : List (List Reading)

/-- A value or none, with the paths that arose on the way. -/
abbrev Followed (α : Type) := Traced (Except EvalError α)

namespace Traced

variable {α β : Type}

def plain (result : α) : Traced α :=
  ⟨result, []⟩

def andThen (x : Traced α) (f : α → Traced β) : Traced β :=
  ⟨(f x.result).result, x.paths ++ (f x.result).paths⟩

def bind (x : Followed α) (f : α → Followed β) : Followed β :=
  x.andThen fun
    | .ok a => f a
    | .error cause => plain (.error cause)

/-- What happens inside a reading. -/
def inside (reading : Reading) (x : Traced α) : Traced α :=
  ⟨x.result, [reading] :: x.paths.map (reading :: ·)⟩

/-- Every path that arises is of the given kind. -/
def All (P : List Reading → Prop) (x : Traced α) : Prop :=
  ∀ path ∈ x.paths, P path

variable {P Q : List Reading → Prop} {x : Traced α}

@[simp] theorem plain_result (result : α) : (plain result).result = result :=
  rfl

@[simp] theorem andThen_result (x : Traced α) (f : α → Traced β) :
    (x.andThen f).result = (f x.result).result :=
  rfl

@[simp] theorem bind_result (x : Followed α) (f : α → Followed β) :
    (x.bind f).result = x.result >>= fun a => (f a).result := by
  obtain ⟨result, paths⟩ := x
  cases result <;> rfl

@[simp] theorem inside_result (reading : Reading) (x : Traced α) :
    (inside reading x).result = x.result :=
  rfl

theorem mem_inside (reading : Reading) {path : List Reading} (arose : path ∈ x.paths) :
    reading :: path ∈ (inside reading x).paths :=
  List.mem_cons_of_mem _ (List.mem_map_of_mem arose)

theorem all_plain (P : List Reading → Prop) (result : α) : (plain result).All P :=
  fun _ member => (List.not_mem_nil member).elim

theorem All.andThen {f : α → Traced β} (first : x.All P) (second : ∀ a, (f a).All P) :
    (x.andThen f).All P :=
  List.forall_mem_append.mpr ⟨first, second x.result⟩

theorem All.bind {x : Followed α} {f : α → Followed β} (first : x.All P)
    (second : ∀ a, (f a).All P) : (x.bind f).All P := by
  refine first.andThen fun result => ?_
  cases result with
  | error cause => exact all_plain P _
  | ok a => exact second a

theorem All.inside {reading : Reading} (inner : x.All P) (alone : Q [reading])
    (within : ∀ path, P path → Q (reading :: path)) : (x.inside reading).All Q := by
  intro path member
  rcases List.mem_cons.mp member with rfl | deeper
  · exact alone
  · obtain ⟨rest, arose, rfl⟩ := List.mem_map.mp deeper
    exact within rest (inner rest arose)

end Traced

/-- How what functions ask for is answered. -/
abbrev Replies := Nat → (question : Question) → Traced question.Answer

end Store

namespace Inquiry

open Store

/-- What a function does, followed through what it asks for. -/
def trace (replies : Replies) : Inquiry → Followed Value
  | answer result => .plain result
  | ask n question next => (replies n question).andThen fun reply => (next reply).trace replies

theorem trace_result (replies : Replies) (inquiry : Inquiry) :
    (inquiry.trace replies).result = inquiry.run fun n question => (replies n question).result := by
  induction inquiry with
  | answer result => rfl
  | ask n question next ih => exact ih (replies n question).result

theorem trace_all {replies : Replies} {P : List Reading → Prop}
    (asks : ∀ n question, (replies n question).All P) (inquiry : Inquiry) :
    (inquiry.trace replies).All P := by
  induction inquiry with
  | answer result => exact Traced.all_plain P result
  | ask n question next ih => exact (asks n question).andThen ih

end Inquiry

namespace Store

section Following

variable (s : Store) (conducts : String → Conduct) (replies : Draws → Replies)

mutual

/-- The value of an expression whose variables `read` gives, where functions are answered by
`replies`. -/
def follow (read : Draws → String → Followed Value) (draws : Draws) : Expr → Followed Value
  | .literal v => .plain (.ok v)
  | .var name => read draws name
  | .enumCase enum case => .plain (s.enumCase enum case)
  | .call name args =>
      match s.functions.get? name with
      | none => .plain (.error (.unknownFunction name))
      | some _ =>
          (followAll read (draws.part 0) args).bind fun values =>
            (conducts name s.view (s.silent (draws.part 1)).draw values).trace
              (replies (draws.part 1))
  | .unary op e => (follow read draws e).bind fun v => .plain (applyUnary op v)
  | .binary op left right =>
      (follow read (draws.part 0) left).bind fun l =>
        match shortCircuit? op l with
        | some v => .plain (.ok v)
        | none =>
            (follow read (draws.part 1) right).bind fun r => .plain (applyBinary op l r)

def followAll (read : Draws → String → Followed Value) (draws : Draws) :
    List Expr → Followed (List Value)
  | [] => .plain (.ok [])
  | e :: rest =>
      (follow read (draws.part 0) e).bind fun v =>
        (followAll read (draws.part 1) rest).bind fun values => .plain (.ok (v :: values))

end

/-- The value of a variable, where smart variables may nest `room` levels deep. -/
def followRead (room : Nat) (draws : Draws) (name : String) : Followed Value :=
  match s.smart.get? name with
  | some text =>
      match room with
      | 0 => .plain (.error (.recursionLimit name))
      | room + 1 =>
          .inside (.smart name) ((Traced.plain (parseExpr text)).bind
            (s.follow conducts replies (followRead room) draws))
  | none =>
      match s.vars.get? name with
      | some v => .plain (.ok v)
      | none => .plain (.error (.unknownVariable name))

def followText (draws : Draws) (text : String) : Followed Value :=
  (Traced.plain (parseExpr text)).bind
    (s.follow conducts replies (s.followRead conducts replies smartDepth) draws)

def followSurvey (draws : Draws) : Traced (Table Value) :=
  s.smart.names.zipIdx.foldl (fun all (name, index) =>
    all.andThen fun values =>
      (s.followRead conducts replies smartDepth (draws.part index) name).andThen fun
        | .ok v => .plain (values.insert name v)
        | .error _ => .plain values) (.plain s.vars)

def followReply (draws : Draws) (n : Nat) : (question : Question) → Traced question.Answer
  | .read name =>
      s.followRead conducts replies smartDepth ((draws.part 1).part n) (bareName name)
  | .evaluate text => s.followText conducts replies ((draws.part 2).part n) text
  | .snapshot => s.followSurvey conducts replies ((draws.part 3).part n)

/-- What functions ask for, where such questions may nest `calls` deep. -/
def followAsk : Nat → Draws → Replies
  | 0, draws, n, question => .plain ((s.silent draws).reply n question)
  | calls + 1, draws, n, question =>
      .inside (.asked question) (s.followReply conducts (followAsk calls) draws n question)

def followValue (calls : Nat) (name : String) : Followed Value :=
  s.followRead conducts (s.followAsk conducts calls) smartDepth s.draws (bareName name)

def followEvaluate (calls : Nat) (text : String) : Followed Value :=
  s.followText conducts (s.followAsk conducts calls) s.draws text

end Following

/-- Every function of the store does what its conduct says. -/
def Conducted (s : Store) (conducts : String → Conduct) : Prop :=
  ∀ name f, s.functions.get? name = some f → (conducts name).Describes f

/-- What functions may ask is answered as the followed evaluation answers it. -/
structure Answers (s : Store) (replies : Draws → Replies) (access : Draws → Access) : Prop where
  alike : ∀ draws, Alike (s.silent draws) (access draws)
  reply : ∀ draws,
    (access draws).reply = fun n question => (replies draws n question).result

section Results

variable {s : Store} {conducts : String → Conduct} {access : Draws → Access}
  {replies : Draws → Replies}

mutual

theorem follow_result (conducted : s.Conducted conducts) (answers : s.Answers replies access)
    (read : Draws → String → Followed Value) (draws : Draws) :
    ∀ e, (s.follow conducts replies read draws e).result =
      s.eval access (fun draws name => (read draws name).result) draws e
  | .literal v => rfl
  | .var name => rfl
  | .enumCase enum case => rfl
  | .call name args => by
      rw [follow, eval]
      cases found : s.functions.get? name with
      | none => rfl
      | some f =>
          dsimp only
          rw [Traced.bind_result, followAll_result conducted answers read _ args]
          refine bind_congr fun values => ?_
          rw [Inquiry.trace_result, conducted name f found, ← (answers.alike _).view,
            ← (answers.alike _).draw, answers.reply]
          rfl
  | .unary op e => by
      rw [follow, eval, Traced.bind_result, follow_result conducted answers read _ e]
      rfl
  | .binary op left right => by
      rw [follow, eval, Traced.bind_result, follow_result conducted answers read _ left]
      refine bind_congr fun l => ?_
      cases shortCircuit? op l with
      | some v => rfl
      | none =>
          dsimp only
          rw [Traced.bind_result, follow_result conducted answers read _ right]
          rfl

theorem followAll_result (conducted : s.Conducted conducts) (answers : s.Answers replies access)
    (read : Draws → String → Followed Value) (draws : Draws) :
    ∀ args, (s.followAll conducts replies read draws args).result =
      s.evalAll access (fun draws name => (read draws name).result) draws args
  | [] => rfl
  | e :: rest => by
      rw [followAll, evalAll, Traced.bind_result, follow_result conducted answers read _ e]
      refine bind_congr fun v => ?_
      rw [Traced.bind_result, followAll_result conducted answers read _ rest]
      rfl

end

variable (conducted : s.Conducted conducts)

include conducted

theorem followRead_result (answers : s.Answers replies access) (room : Nat) :
    (fun draws name => (s.followRead conducts replies room draws name).result) =
      s.readWithin access room := by
  induction room with
  | zero =>
      funext draws name
      unfold followRead readWithin
      cases s.smart.get? name with
      | some text => rfl
      | none => cases s.vars.get? name <;> rfl
  | succ room ih =>
      funext draws name
      unfold followRead readWithin
      cases s.smart.get? name with
      | some text =>
          dsimp only
          rw [Traced.inside_result, Traced.bind_result, Traced.plain_result, ← ih]
          generalize parseExpr text = parsed
          exact bind_congr fun e => follow_result conducted answers _ draws e
      | none => cases s.vars.get? name <;> rfl

theorem followText_result (answers : s.Answers replies access) (draws : Draws) (text : String) :
    (s.followText conducts replies draws text).result = s.evaluateText access draws text := by
  unfold followText evaluateText
  rw [Traced.bind_result, Traced.plain_result, ← followRead_result conducted answers smartDepth]
  generalize parseExpr text = parsed
  exact bind_congr fun e => follow_result conducted answers _ draws e

theorem followSurvey_result (answers : s.Answers replies access) (draws : Draws) :
    (s.followSurvey conducts replies draws).result = s.survey access draws := by
  unfold followSurvey survey
  rw [← followRead_result conducted answers smartDepth]
  refine (List.foldl_hom Traced.result ?_).symm
  rintro all ⟨name, index⟩
  rw [Traced.andThen_result, Traced.andThen_result]
  dsimp only
  cases (s.followRead conducts replies smartDepth (draws.part index) name).result <;> rfl

theorem followReply_result (answers : s.Answers replies access) (draws : Draws) (n : Nat) :
    ∀ question, (s.followReply conducts replies draws n question).result =
      (s.served access draws).reply n question
  | .read name =>
      congrFun (congrFun (followRead_result conducted answers smartDepth) _) (bareName name)
  | .evaluate text => followText_result conducted answers _ text
  | .snapshot => followSurvey_result conducted answers _

theorem followAsk_result (calls : Nat) :
    s.Answers (s.followAsk conducts calls) (s.accessWithin calls) := by
  induction calls with
  | zero => exact ⟨silent_alike s 0, fun draws => rfl⟩
  | succ calls ih =>
      refine ⟨silent_alike s (calls + 1), fun draws => ?_⟩
      funext n question
      exact (followReply_result conducted ih draws n question).symm

theorem followValue_result (name : String) :
    (s.followValue conducts s.calls name).result = s.valueOf name := by
  have answers := followAsk_result conducted s.calls
  exact congrFun (congrFun (followRead_result conducted answers smartDepth) _) (bareName name)

theorem followEvaluate_result (text : String) :
    (s.followEvaluate conducts s.calls text).result = s.evaluate text :=
  followText_result conducted (followAsk_result conducted s.calls) s.draws text

end Results

section Paths

variable {s : Store} {conducts : String → Conduct} {replies : Draws → Replies}
  {read : Draws → String → Followed Value} {P : List Reading → Prop}

/-- Whatever known functions do, the paths that arise are of the given kind. -/
def Serves (s : Store) (conducts : String → Conduct) (replies : Draws → Replies)
    (P : List Reading → Prop) : Prop :=
  ∀ draws name values, s.functions.contains name = true →
    ((conducts name s.view (s.silent draws).draw values).trace (replies draws)).All P

mutual

theorem follow_all (serves : s.Serves conducts replies P)
    (reads : ∀ draws name, (read draws name).All P) (draws : Draws) :
    ∀ e, (s.follow conducts replies read draws e).All P
  | .literal v => Traced.all_plain P _
  | .var name => reads draws name
  | .enumCase enum case => Traced.all_plain P _
  | .call name args => by
      rw [follow]
      cases found : s.functions.get? name with
      | none => exact Traced.all_plain P _
      | some f =>
          have known : s.functions.contains name = true := by
            rw [Table.contains, found]
            rfl
          exact (followAll_all serves reads _ args).bind fun values => serves _ name values known
  | .unary op e => by
      rw [follow]
      exact (follow_all serves reads _ e).bind fun v => Traced.all_plain P _
  | .binary op left right => by
      rw [follow]
      refine (follow_all serves reads _ left).bind fun l => ?_
      cases shortCircuit? op l with
      | some v => exact Traced.all_plain P _
      | none => exact (follow_all serves reads _ right).bind fun r => Traced.all_plain P _

theorem followAll_all (serves : s.Serves conducts replies P)
    (reads : ∀ draws name, (read draws name).All P) (draws : Draws) :
    ∀ args, (s.followAll conducts replies read draws args).All P
  | [] => Traced.all_plain P _
  | e :: rest => by
      rw [followAll]
      exact (follow_all serves reads _ e).bind fun v =>
        (followAll_all serves reads _ rest).bind fun values => Traced.all_plain P _

end

theorem serves_of_asks (asks : ∀ draws n question, (replies draws n question).All P) :
    s.Serves conducts replies P :=
  fun draws _ _ _ => Inquiry.trace_all (asks draws) _

theorem serves_of_quiet
    (quiet : ∀ name, s.functions.contains name = true → (conducts name).Quiet) :
    s.Serves conducts replies P := by
  intro draws name values known
  obtain ⟨result, answered⟩ := quiet name known s.view (s.silent draws).draw values
  rw [answered]
  exact Traced.all_plain P result

/-- What holds of the paths of an expression inside a smart variable, with the variable in front
of them, holds of the paths of the variable. -/
theorem followRead_smart {Q : List Reading → Prop} {room : Nat}
    (serves : s.Serves conducts replies P)
    (reads : ∀ draws name, (s.followRead conducts replies room draws name).All P)
    (alone : ∀ name, Q [.smart name]) (within : ∀ name path, P path → Q (.smart name :: path))
    (draws : Draws) (name : String) :
    (s.followRead conducts replies (room + 1) draws name).All Q := by
  unfold followRead
  cases s.smart.get? name with
  | some text =>
      have inner := (Traced.all_plain P (parseExpr text)).bind (follow_all serves reads draws)
      exact inner.inside (alone name) (within name)
  | none => cases s.vars.get? name <;> exact Traced.all_plain Q _

theorem followRead_zero (draws : Draws) (name : String) :
    (s.followRead conducts replies 0 draws name).All P := by
  unfold followRead
  cases s.smart.get? name with
  | some text => exact Traced.all_plain P _
  | none => cases s.vars.get? name <;> exact Traced.all_plain P _

section Replying

variable (serves : s.Serves conducts replies P)
  (reads : ∀ draws name, (s.followRead conducts replies smartDepth draws name).All P)

include serves reads

theorem followText_all (draws : Draws) (text : String) :
    (s.followText conducts replies draws text).All P :=
  (Traced.all_plain P (parseExpr text)).bind (follow_all serves reads draws)

omit serves in
theorem followSurvey_all (draws : Draws) : (s.followSurvey conducts replies draws).All P := by
  refine List.foldlRecOn s.smart.names.zipIdx _ (Traced.all_plain P s.vars) ?_
  rintro all sofar ⟨name, index⟩ -
  refine sofar.andThen fun values => (reads _ name).andThen fun value => ?_
  cases value <;> exact Traced.all_plain P _

theorem followReply_all (draws : Draws) (n : Nat) :
    ∀ question, (s.followReply conducts replies draws n question).All P
  | .read name => reads _ (bareName name)
  | .evaluate text => followText_all serves reads _ text
  | .snapshot => followSurvey_all reads _

end Replying

end Paths

end Store

end Dialogue
