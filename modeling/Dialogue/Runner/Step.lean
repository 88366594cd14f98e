import Dialogue.Runner.Basic

set_option autoImplicit false

namespace Dialogue.Runner

/-- What one step of a machine comes to. -/
inductive Step (σ : Type) where
  | running (state : σ)
  /-- There is a result to show. -/
  | suspended (state : σ)
  | faulted (state : σ) (cause : RuntimeError)

/-- How a run ends. -/
inductive Signal where
  | suspended
  | faulted (cause : RuntimeError)
  /-- The allowed number of steps did not lead to a result. -/
  | exhausted
  deriving DecidableEq, Repr

/-- Goes on in a nested block of the instruction at `index` of the block at `path`. -/
def openBlock (r : Runner) (path : BlockPath) (index sub : Nat) : Runner :=
  { r with stack := .block (path ++ [(index, sub)]) 0 :: r.stack }

/-- Enters a node, or faults in the state that the transfer has reached. -/
def transfer (r : Runner) (target : String) : Step Runner :=
  match r.enter target with
  | .ok r => .running r
  | .error e => .faulted r e

/-- Leaves the current node and its blocks for good. -/
def depart (r : Runner) : Runner :=
  { r with toStage := r.recordVisit r.title, stack := r.stack.dropWhile Frame.isBlock }

/-- Saves the place that a detour returns to. -/
def save (r : Runner) : Runner :=
  { r with stack := .detour r.title r.member r.ip :: r.stack }

/-- The options that are offered, with their numbers in the instruction. -/
def offered (r : Runner) (choices : List (Choice × Block)) : List (Choice × Nat) :=
  ((choices.map (·.1)).zipIdx).filter fun c => r.meets c.2 c.1.condition

/-- The number of the first branch whose condition holds. -/
def taken? (r : Runner) (branches : List (Option String × Block)) : Option Nat :=
  (branches.zipIdx.find? fun b => r.meets b.2 b.1.1).map (·.2)

/-- Offers options of the instruction at `index` of the block at `path`. -/
def offer (r : Runner) (node : Node) (path : BlockPath) (index : Nat) (atEnd : Bool)
    (visible : List (Choice × Nat)) : Runner :=
  let views := visible.map fun c => r.optionView c.2 c.1
  let pending : PendingOptions := ⟨path, index, visible.map (·.2)⟩
  { r with pending := some pending }.emit (.options ⟨views, node.style, node.scene, atEnd⟩) false

/-- Executes an instruction, which stands at `index` of the block at `path`. `atEnd` says that it
is the last of the node's own list. -/
def exec (r : Runner) (node : Node) (path : BlockPath) (index : Nat) (atEnd : Bool) :
    Instruction → Step Runner
  | .line l => .suspended (r.emit (.text (r.textResult node l atEnd)) false)
  | .command content =>
      .suspended ({ r with toStage := r.dispatch content }.emit (.command ⟨content, atEnd⟩) false)
  | .jump target => r.depart.transfer target
  | .detour target => r.save.transfer target
  | .options choices =>
      match r.offered choices with
      | [] => .running r
      | visible => .suspended (r.offer node path index atEnd visible)
  | .branches branches =>
      match r.taken? branches with
      | some sub => .running (r.openBlock path index sub)
      | none => .running r
  | .once id _ =>
      if r.ledger.blockSeen id then .running r
      else .running ({ r with ledger := r.ledger.markBlock id }.openBlock path index 0)

/-- Ends a node that has no more instructions. With nothing to return to, the dialogue is over. -/
def endNode (r : Runner) (node : Node) : Runner :=
  { r with toStage := r.leave r.title r.stack.isEmpty }.emit (.closing node) true

/-- Executes the next instruction of the node's own list, or ends the node. -/
def stepNode (r : Runner) (node : Node) : Step Runner :=
  match node.instructions[r.ip]? with
  | none => .suspended (r.endNode node)
  | some i =>
      exec { r with toStage := r.renewed, ip := r.ip + 1 } node [] r.ip
        (node.instructions.length ≤ r.ip + 1) i

/-- Executes the next instruction of the innermost block, or drops the block. -/
def stepBlock (r : Runner) (node : Node) (path : BlockPath) (index : Nat) (below : List Frame) :
    Step Runner :=
  match Block.instruction? node.instructions path index with
  | none => .running { r with stack := below }
  | some i =>
      exec { r with toStage := r.renewed, stack := .block path (index + 1) :: below } node path
        index false i

/-- Executes the next instruction. -/
def step (r : Runner) : Step Runner :=
  match r.node? with
  | none => .faulted r (.unknownNode r.title)
  | some node =>
      match r.stack with
      | .block path index :: below => r.stepBlock node path index below
      | _ => r.stepNode node

/-- Takes steps until there is a result, but at most `fuel` of them. A script that loops without
showing anything never gets there. -/
def runBy {σ : Type} (step : σ → Step σ) : Nat → σ → σ × Signal
  | 0, state => (state, .exhausted)
  | fuel + 1, state =>
      match step state with
      | .running state => runBy step fuel state
      | .suspended state => (state, .suspended)
      | .faulted state cause => (state, .faulted cause)

def run (fuel : Nat) (r : Runner) : Runner × Signal :=
  runBy step fuel r

/-- Starts a program and runs it up to its first result. -/
def start (fuel : Nat) (p : Program) (s : Setup) : Runner × Signal :=
  match (initial p s).enter s.start with
  | .ok r => r.run fuel
  | .error e => (initial p s, .faulted e)

/-- Takes up a choice. Options need the number of one that is on offer; otherwise the choice is
ignored. -/
def choose (r : Runner) (choice : Option Nat) : Except RuntimeError Runner :=
  if r.finished then .error .dialogueFinished
  else
    match r.pending with
    | none => .ok r
    | some pending =>
        match choice with
        | none => .error .optionRequired
        | some index =>
            match pending.visible[index]? with
            | none => .error (.invalidOption index pending.visible.length)
            | some sub =>
                .ok ({ r with pending := none }.openBlock pending.path pending.index sub)

/-- Goes on after the current result. -/
def advance (fuel : Nat) (r : Runner) (choice : Option Nat) : Runner × Signal :=
  match r.choose choice with
  | .ok r => r.run fuel
  | .error e => (r, .faulted e)

/-- The value of an expression in the current state, and the runner with the draws that are
left. -/
def evaluate (r : Runner) (text : String) : Except RuntimeError Value × Runner :=
  ((r.renewed.store.evaluate text).mapError .eval, { r with toStage := r.renewed })

end Dialogue.Runner
