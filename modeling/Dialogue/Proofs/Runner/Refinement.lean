import Dialogue.Proofs.Runner.Machine
import Dialogue.Proofs.Runner.Session
import Mathlib.Data.List.DropRight

set_option autoImplicit false

namespace Dialogue

namespace Block

/-- What is left, from `index` on, of the block that a path leads to. -/
def remaining (root : Block) (path : BlockPath) (index : Nat) : Block :=
  ((resolve? root path).getD []).drop index

theorem remaining_eq_nil {root : Block} {path : BlockPath} {index : Nat}
    (missing : instruction? root path index = none) :
    remaining root path index = [] := by
  unfold instruction? at missing
  unfold remaining
  cases found : resolve? root path with
  | none => simp
  | some block =>
      rw [found, Option.bind_some, List.getElem?_eq_none_iff] at missing
      simpa using missing

theorem remaining_eq_cons {root : Block} {path : BlockPath} {index : Nat} {i : Instruction}
    (next : instruction? root path index = some i) :
    remaining root path index = i :: remaining root path (index + 1) := by
  unfold instruction? at next
  unfold remaining
  cases found : resolve? root path with
  | none => simp [found] at next
  | some block =>
      rw [found, Option.bind_some, List.getElem?_eq_some_iff] at next
      obtain ⟨inside, rfl⟩ := next
      simp only [Option.getD_some]
      exact List.drop_eq_getElem_cons inside

/-- A path that is one step longer leads to a block of the instruction that the step names. -/
theorem remaining_snoc {root : Block} {path : BlockPath} {index sub : Nat} {i : Instruction}
    (next : instruction? root path index = some i) :
    remaining root (path ++ [(index, sub)]) 0 = (i.subBlock? sub).getD [] := by
  have reached : resolve? root (path ++ [(index, sub)]) = i.subBlock? sub := by
    rw [resolve?_snoc, next, Option.bind_some]
  rw [remaining, reached, List.drop_zero]

end Block

namespace Program

/-- The own list of the node at a place; it is empty if there is no node. -/
def listing (p : Program) (title : String) (member : Nat) : Block :=
  ((p.nodeAt? title member).map Node.instructions).getD []

theorem listing_of_node {p : Program} {title : String} {member : Nat} {node : Node}
    (found : p.nodeAt? title member = some node) : p.listing title member = node.instructions := by
  rw [listing, found, Option.map_some, Option.getD_some]

end Program

namespace Runner

/-- The instructions that frames stand for. A detour frame says in which node those below it lie. -/
def continuations (p : Program) : Block → List Frame → List Continuation
  | _, [] => []
  | root, .block path index :: below =>
      .block (root.remaining path index) :: continuations p root below
  | _, .detour title member ip :: below =>
      let root := p.listing title member
      .detour title member (root.drop ip) :: continuations p root below

/-- The own list of the node that is running. -/
def root (r : Runner) : Block :=
  r.program.listing r.title r.member

/-- The machine that a runner stands for. -/
def machine (r : Runner) : Machine where
  toStage := r.toStage
  title := r.title
  member := r.member
  rest := r.root.drop r.ip
  stack := continuations r.program r.root r.stack
  pending := r.pending.map fun o =>
    o.visible.map fun sub => r.root.remaining (o.path ++ [(o.index, sub)]) 0

@[simp] theorem machine_toStage (r : Runner) : r.machine.toStage = r.toStage := rfl

/-- Only block frames depend on the node that is running. -/
theorem continuations_dropWhile (p : Program) (here there : Block) (frames : List Frame) :
    continuations p there (frames.dropWhile Frame.isBlock) =
      (continuations p here frames).dropWhile Continuation.isBlock := by
  induction frames with
  | nil => rfl
  | cons frame below ih =>
      cases frame with
      | detour title member ip => rfl
      | block path index => exact ih

theorem continuations_isEmpty (p : Program) (root : Block) (frames : List Frame) :
    (continuations p root frames).isEmpty = frames.isEmpty := by
  cases frames with
  | nil => rfl
  | cons frame below => cases frame <;> rfl

theorem continuations_settled (p : Program) (here there : Block) {frames : List Frame}
    (settled : frames.dropWhile Frame.isBlock = frames) :
    continuations p there frames = continuations p here frames := by
  have other := continuations_dropWhile p here there frames
  have same := continuations_dropWhile p here here frames
  rw [settled] at other same
  exact other.trans same.symm

/-- The step that the image of a state takes. -/
def Step.map {σ τ : Type} (f : σ → τ) : Step σ → Step τ
  | running state => running (f state)
  | suspended state => suspended (f state)
  | faulted state cause => faulted (f state) cause

theorem enter_machine (r : Runner) (title : String) (idle : r.pending = none)
    (settled : r.stack.dropWhile Frame.isBlock = r.stack) :
    (r.enter title).map machine = r.machine.enter title := by
  have selecting : r.machine.select title = r.select title := rfl
  unfold enter Machine.enter
  rw [selecting]
  cases selected : r.select title with
  | error e => rfl
  | ok entry =>
      obtain ⟨member, node, stage⟩ := entry
      obtain ⟨found, changed⟩ := Stage.select_ok selected
      have same : stage.program = r.program := by rw [changed]
      simp only [Except.map, machine, root, idle, Option.map_none, List.drop_zero, same]
      rw [continuations_settled r.program (r.program.listing r.title r.member) _ settled,
        Program.listing_of_node found]

theorem transfer_machine (r : Runner) (title : String) (idle : r.pending = none)
    (settled : r.stack.dropWhile Frame.isBlock = r.stack) :
    (r.transfer title).map machine = r.machine.transfer title := by
  have entered := enter_machine r title idle settled
  unfold transfer Machine.transfer
  rw [← entered]
  cases r.enter title <;> rfl

/-- A result that closes a node resumes what the detour frame stands for. -/
theorem emit_machine (r : Runner) (result : RunResult) (visitRecorded : Bool)
    (idle : result.closes = true → r.pending = none) :
    (r.emit result visitRecorded).machine = r.machine.emit result visitRecorded := by
  obtain ⟨stage, title, member, ip, stack, pending⟩ := r
  unfold emit Machine.emit
  cases closes : result.closes with
  | false => rfl
  | true =>
      cases stack with
      | nil => rfl
      | cons frame below =>
          cases frame with
          | block path index => rfl
          | detour title member ip =>
              have idle : pending = none := idle closes
              subst idle
              cases visitRecorded <;> rfl

/-- The options that a runner offers by number are those that a machine offers with their blocks. -/
theorem offered_machine (r : Runner) (choices : List (Choice × Block)) :
    r.offered choices = (r.machine.offered choices).map fun c => (c.1.1, c.2) := by
  unfold offered Machine.offered
  rw [List.zipIdx_map, List.filter_map]
  rfl

/-- The branch that a runner takes by number is the one whose block a machine takes. -/
theorem taken?_machine (r : Runner) (branches : List (Option String × Block)) :
    r.machine.taken? branches =
      (r.taken? branches).bind fun sub => (Instruction.branches branches).subBlock? sub := by
  unfold taken? Machine.taken?
  have same : (fun b : (Option String × Block) × Nat => r.machine.meets b.2 b.1.1) =
      fun b => r.meets b.2 b.1.1 := rfl
  rw [same]
  cases first : branches.zipIdx.find? fun b => r.meets b.2 b.1.1 with
  | none => rfl
  | some b =>
      have listed := List.mem_zipIdx_iff_getElem?.mp (List.mem_of_find?_eq_some first)
      rw [Option.map_some, Option.map_some, Option.bind_some, Instruction.subBlock?,
        Instruction.blocks, List.getElem?_map, listed]
      rfl

theorem openBlock_machine (r : Runner) {path : BlockPath} {index sub : Nat} {i : Instruction}
    {block : Block}
    (next : r.root.instruction? path index = some i)
    (owned : i.subBlock? sub = some block) :
    (r.openBlock path index sub).machine = r.machine.openBlock block := by
  have reached : r.root.remaining (path ++ [(index, sub)]) 0 = block := by
    rw [Block.remaining_snoc next, owned, Option.getD_some]
  have opened : continuations r.program r.root (.block (path ++ [(index, sub)]) 0 :: r.stack) =
      .block block :: continuations r.program r.root r.stack := by
    rw [continuations, reached]
  unfold openBlock Machine.openBlock machine
  rw [← opened]
  rfl

theorem depart_machine (r : Runner) : r.depart.machine = r.machine.depart := by
  have dropped := continuations_dropWhile r.program r.root r.root r.stack
  unfold machine Machine.depart
  simp only [depart, ← dropped]
  rfl

theorem offer_machine (r : Runner) (node : Node) {path : BlockPath} {index : Nat} (atEnd : Bool)
    {choices : List (Choice × Block)} {visible : List ((Choice × Block) × Nat)}
    (listed : ∀ c ∈ visible, choices[c.2]? = some c.1)
    (next : r.root.instruction? path index = some (.options choices)) :
    (r.offer node path index atEnd (visible.map fun c => (c.1.1, c.2))).machine =
      r.machine.offer node atEnd visible := by
  have blocks : ((visible.map (·.2)).map fun sub => r.root.remaining (path ++ [(index, sub)]) 0) =
      visible.map fun c => c.1.2 := by
    rw [List.map_map]
    apply List.map_congr_left
    intro c member
    rw [Function.comp_apply, Block.remaining_snoc next, Instruction.subBlock?, Instruction.blocks,
      List.getElem?_map, listed c member]
    rfl
  unfold offer Machine.offer
  rw [emit_machine]
  · simp only [List.map_map, Function.comp_def]
    rw [← blocks]
    rfl
  · intro closes
    simp at closes

/-- An instruction does the same to a runner, which knows where it stands, as to a machine. -/
theorem exec_machine (r : Runner) (node : Node) (path : BlockPath) (index : Nat) (atEnd : Bool)
    (i : Instruction) (idle : r.pending = none)
    (next : r.root.instruction? path index = some i) :
    (r.exec node path index atEnd i).map machine = r.machine.exec node atEnd i := by
  cases i with
  | line l => exact congrArg Step.suspended (emit_machine r _ _ fun _ => idle)
  | command content =>
      have emitted := emit_machine { r with toStage := r.dispatch content }
        (.command ⟨content, atEnd⟩) false fun _ => idle
      have dispatched : { r with toStage := r.dispatch content }.machine =
          { r.machine with toStage := r.dispatch content } := by
        simp only [machine, root, Stage.dispatch_program]
      rw [dispatched] at emitted
      exact congrArg Step.suspended emitted
  | jump target =>
      have moved := transfer_machine r.depart target idle
        (List.dropWhile_idempotent Frame.isBlock r.stack)
      rw [depart_machine] at moved
      exact moved
  | detour target => exact transfer_machine r.save target idle rfl
  | options choices =>
      simp only [exec, Machine.exec]
      rw [offered_machine]
      have listed : ∀ c ∈ r.machine.offered choices, choices[c.2]? = some c.1 :=
        fun c member => List.mem_zipIdx_iff_getElem?.mp (List.mem_filter.mp member).1
      cases visible : r.machine.offered choices with
      | nil => rfl
      | cons first others =>
          rw [visible] at listed
          exact congrArg Step.suspended (offer_machine r node atEnd listed next)
  | branches branches =>
      simp only [exec, Machine.exec]
      rw [taken?_machine]
      cases chosen : r.taken? branches with
      | none => rfl
      | some sub =>
          obtain ⟨block, owned⟩ := subBlock?_of_taken? chosen
          rw [Option.bind_some, owned]
          exact congrArg Step.running (openBlock_machine r next owned)
  | once id block =>
      have owned : Instruction.subBlock? (.once id block) 0 = some block := rfl
      simp only [exec, Machine.exec]
      by_cases seen : r.ledger.blockSeen id
      · have alsoSeen : r.machine.ledger.blockSeen id := seen
        rw [if_pos seen, if_pos alsoSeen]
        rfl
      · have alsoUnseen : ¬ r.machine.ledger.blockSeen id := seen
        rw [if_neg seen, if_neg alsoUnseen]
        exact congrArg Step.running
          (openBlock_machine { r with ledger := r.ledger.markBlock id } next owned)

theorem endNode_machine (r : Runner) (node : Node) (idle : r.pending = none) :
    (r.endNode node).machine = r.machine.endNode node := by
  have alone : r.machine.stack.isEmpty = r.stack.isEmpty :=
    continuations_isEmpty r.program r.root r.stack
  have ended := emit_machine { r with toStage := r.leave r.title r.stack.isEmpty }
    (.closing node) true fun _ => idle
  refine ended.trans ?_
  unfold Machine.endNode
  rw [alone]
  rfl

theorem stepNode_machine (r : Runner) (node : Node) (idle : r.pending = none)
    (found : r.node? = some node) :
    (r.stepNode node).map machine = r.machine.stepNode node := by
  have listed : r.root = node.instructions := Program.listing_of_node found
  have rest : r.machine.rest = r.root.remaining [] r.ip := rfl
  unfold stepNode Machine.stepNode
  rw [rest, ← listed, ← Block.instruction?_nil]
  cases next : r.root.instruction? [] r.ip with
  | none =>
      rw [Block.remaining_eq_nil next]
      exact congrArg Step.suspended (endNode_machine r node idle)
  | some i =>
      have last : decide (r.root.length ≤ r.ip + 1) =
          (r.root.remaining [] (r.ip + 1)).isEmpty := by
        rw [Bool.eq_iff_iff, decide_eq_true_iff, List.isEmpty_iff]
        exact List.drop_eq_nil_iff.symm
      rw [Block.remaining_eq_cons next, last]
      exact exec_machine { r with toStage := r.renewed, ip := r.ip + 1 } node [] r.ip _ i idle next

theorem stepBlock_machine (r : Runner) (node : Node) (path : BlockPath) (index : Nat)
    (below : List Frame) (idle : r.pending = none) (found : r.node? = some node) :
    (r.stepBlock node path index below).map machine =
      r.machine.stepBlock node (r.root.remaining path index)
        (continuations r.program r.root below) := by
  have listed : r.root = node.instructions := Program.listing_of_node found
  unfold stepBlock Machine.stepBlock
  rw [← listed]
  cases next : r.root.instruction? path index with
  | none =>
      rw [Block.remaining_eq_nil next]
      rfl
  | some i =>
      rw [Block.remaining_eq_cons next]
      exact exec_machine { r with toStage := r.renewed, stack := .block path (index + 1) :: below }
        node path index false i idle next

/-- Each step of a runner that waits for no choice is the step of its machine. -/
theorem step_machine (r : Runner) (idle : r.pending = none) :
    r.step.map machine = r.machine.step := by
  have sameNode : r.machine.node? = r.node? := rfl
  have stacked : r.machine.stack = continuations r.program r.root r.stack := rfl
  unfold step Machine.step
  rw [sameNode, stacked]
  cases found : r.node? with
  | none => rfl
  | some node =>
      cases r.stack with
      | nil => exact stepNode_machine r node idle found
      | cons frame below =>
          cases frame with
          | detour title member ip => exact stepNode_machine r node idle found
          | block path index => exact stepBlock_machine r node path index below idle found

theorem run_machine (fuel : Nat) (r : Runner) (idle : r.pending = none) :
    ((r.run fuel).1.machine, (r.run fuel).2) = r.machine.run fuel := by
  induction fuel generalizing r with
  | zero => rfl
  | succ fuel ih =>
      have same := step_machine r idle
      have unrolled : r.machine.run (fuel + 1) = match r.machine.step with
          | .running after => after.run fuel
          | .suspended after => (after, .suspended)
          | .faulted after cause => (after, .faulted cause) := by
        unfold Machine.run
        rw [runBy]
        cases r.machine.step <;> rfl
      rw [unrolled, ← same, run_succ]
      cases taken : r.step with
      | running after => exact ih after ((running_idle taken).1.trans idle)
      | suspended after => rfl
      | faulted after cause => rfl

theorem choose_machine (r : Runner) (choice : Option Nat) :
    (r.choose choice).map machine = r.machine.choose choice := by
  unfold choose Machine.choose
  by_cases finished : r.finished
  · have alsoFinished : r.machine.finished = true := finished
    rw [if_pos finished, if_pos alsoFinished]
    rfl
  · have alsoUnfinished : ¬ r.machine.finished = true := finished
    rw [if_neg finished, if_neg alsoUnfinished]
    have waiting : r.machine.pending = r.pending.map fun o =>
        o.visible.map fun sub => r.root.remaining (o.path ++ [(o.index, sub)]) 0 := rfl
    rw [waiting]
    cases r.pending with
    | none => rfl
    | some pending =>
        simp only [Option.map_some, List.getElem?_map, List.length_map]
        cases choice with
        | none => rfl
        | some index =>
            simp only
            cases pending.visible[index]? <;> rfl

theorem advance_machine (fuel : Nat) (r : Runner) (choice : Option Nat) :
    ((r.advance fuel choice).1.machine, (r.advance fuel choice).2) =
      r.machine.advance fuel choice := by
  have same := choose_machine r choice
  unfold advance Machine.advance
  rw [← same]
  cases taken : r.choose choice with
  | error cause => rfl
  | ok ready => exact run_machine fuel ready (choose_idle taken).1

/-- A machine that enters a node forgets what was left of the one before. -/
theorem enter_forgets (m : Machine) (rest : Block) (title : String) :
    { m with rest := rest }.enter title = m.enter title := by
  unfold Machine.enter
  cases m.select title <;> rfl

theorem start_machine (fuel : Nat) (p : Program) (s : Setup) :
    (∃ cause, start fuel p s = (initial p s, .faulted cause) ∧
      Machine.start fuel p s = (Machine.initial p s, .faulted cause)) ∨
    ((start fuel p s).1.machine, (start fuel p s).2) = Machine.start fuel p s := by
  have entered := enter_machine (initial p s) s.start rfl rfl
  have forgotten : (initial p s).machine.enter s.start = (Machine.initial p s).enter s.start :=
    enter_forgets (Machine.initial p s) _ s.start
  rw [forgotten] at entered
  unfold start Machine.start
  rw [← entered]
  cases first : (initial p s).enter s.start with
  | error cause => exact .inl ⟨cause, rfl, rfl⟩
  | ok begun =>
      obtain ⟨member, node, ledger, -, rfl⟩ := enter_ok first
      exact .inr (run_machine fuel _ rfl)

end Runner

/-- What a host sees of a machine when a call has ended: all but the position. -/
structure Report where
  stage : Stage
  title : String
  member : Nat
  signal : Runner.Signal

namespace Report

open Runner (Signal)

/-- The reports of a sequence of calls, each of which has a number of steps and a choice. -/
def ofCalls {σ : Type} (report : σ × Signal → Report)
    (advance : Nat → σ → Option Nat → σ × Signal) :
    σ × Signal → List (Nat × Option Nat) → List Report
  | reached, [] => [report reached]
  | reached, (fuel, choice) :: calls =>
      report reached :: ofCalls report advance (advance fuel reached.1 choice) calls

/-- The reports of a start and of the calls that follow it. A start that fails leaves nothing that
could be called. -/
def transcript {σ : Type} (report : σ × Signal → Report)
    (advance : Nat → σ → Option Nat → σ × Signal) (begun : σ × Signal)
    (calls : List (Nat × Option Nat)) : List Report :=
  match begun.2 with
  | .faulted _ => [report begun]
  | _ => ofCalls report advance begun calls

theorem ofCalls_image {σ τ : Type} {f : σ → τ} {ofState : σ × Signal → Report}
    {ofImage : τ × Signal → Report} {advance : Nat → σ → Option Nat → σ × Signal}
    {advanceImage : Nat → τ → Option Nat → τ × Signal}
    (same : ∀ state signal, ofState (state, signal) = ofImage (f state, signal))
    (commutes : ∀ fuel state choice,
      (f (advance fuel state choice).1, (advance fuel state choice).2) =
        advanceImage fuel (f state) choice)
    (reached : σ × Signal) (calls : List (Nat × Option Nat)) :
    ofCalls ofState advance reached calls =
      ofCalls ofImage advanceImage (f reached.1, reached.2) calls := by
  induction calls generalizing reached with
  | nil => exact congrArg (fun report => [report]) (same reached.1 reached.2)
  | cons call calls ih =>
      obtain ⟨fuel, choice⟩ := call
      simp only [ofCalls]
      rw [ih, commutes]
      exact congrArg (fun report => report :: _) (same reached.1 reached.2)

end Report

def Runner.report (reached : Runner × Runner.Signal) : Report :=
  ⟨reached.1.toStage, reached.1.title, reached.1.member, reached.2⟩

def Machine.report (reached : Machine × Runner.Signal) : Report :=
  ⟨reached.1.toStage, reached.1.title, reached.1.member, reached.2⟩

/-- Runners and machines of continuations cannot be told apart: started with the same program and
setup, and called with the same choices, they show the same results, fail with the same errors, and
reach the same store, ledger and end, step by step and call by call. -/
theorem transcript_eq_machine (p : Program) (s : Setup) (fuel : Nat)
    (calls : List (Nat × Option Nat)) :
    Report.transcript Runner.report Runner.advance (Runner.start fuel p s) calls =
      Report.transcript Machine.report Machine.advance (Machine.start fuel p s) calls := by
  rcases Runner.start_machine fuel p s with ⟨cause, started, alsoStarted⟩ | started
  · rw [started, alsoStarted]
    rfl
  · have same : ∀ r signal, Runner.report (r, signal) = Machine.report (r.machine, signal) :=
      fun _ _ => rfl
    have image := fun reached =>
      Report.ofCalls_image same Runner.advance_machine reached calls
    rw [← started]
    obtain ⟨r, signal⟩ := Runner.start fuel p s
    cases signal with
    | faulted cause => rfl
    | suspended => exact image (r, .suspended)
    | exhausted => exact image (r, .exhausted)

end Dialogue
