import Dialogue.Runner.Step

set_option autoImplicit false

namespace Dialogue

/-- Frames of which the innermost is no block frame. -/
theorem Frame.outside_blocks {frames : List Frame}
    (outside : frames.dropWhile Frame.isBlock = frames) :
    frames = [] ∨ ∃ title member ip below, frames = .detour title member ip :: below := by
  cases frames with
  | nil => exact .inl rfl
  | cons frame below =>
      cases frame with
      | detour title member ip => exact .inr ⟨title, member, ip, below, rfl⟩
      | block path index =>
          have shorter := (List.dropWhile_sublist Frame.isBlock (l := below)).length_le
          have same := congrArg List.length outside
          simp only [List.dropWhile_cons, Frame.isBlock, if_true, List.length_cons] at same
          omega

/-- What is read off the detour frames does not depend on the innermost blocks. -/
theorem Frame.filterMap_dropWhile {α : Type} {f : Frame → Option α}
    (blind : ∀ path index, f (.block path index) = none) (frames : List Frame) :
    (frames.dropWhile Frame.isBlock).filterMap f = frames.filterMap f := by
  induction frames with
  | nil => rfl
  | cons frame below ih =>
      cases frame with
      | detour title member ip => rfl
      | block path index => exact ih.trans (List.filterMap_cons_none (blind path index)).symm

namespace Runner

/-- The instruction that the next step executes, if there is one. -/
def next? (r : Runner) : Option Instruction :=
  r.node?.bind fun node =>
    match r.stack with
    | .block path index :: _ => Block.instruction? node.instructions path index
    | _ => node.instructions[r.ip]?

/-- The runner in its next step, when it has moved behind its next instruction. -/
def fetched (r : Runner) : Runner :=
  match r.stack with
  | .block path index :: below =>
      { r with toStage := r.renewed, stack := .block path (index + 1) :: below }
  | _ => { r with toStage := r.renewed, ip := r.ip + 1 }

/-- The block in which the next instruction stands, and its number there. -/
def place (r : Runner) : BlockPath × Nat :=
  match r.stack with
  | .block path index :: _ => (path, index)
  | _ => ([], r.ip)

/-- Whether the next instruction is the last of the node's own list. -/
def isLast (r : Runner) (node : Node) : Bool :=
  match r.stack with
  | .block _ _ :: _ => false
  | _ => node.instructions.length ≤ r.ip + 1

@[simp] theorem fetched_toStage (r : Runner) : r.fetched.toStage = r.renewed := by
  unfold fetched
  split <;> rfl

@[simp] theorem fetched_title (r : Runner) : r.fetched.title = r.title := by
  unfold fetched
  split <;> rfl

@[simp] theorem fetched_member (r : Runner) : r.fetched.member = r.member := by
  unfold fetched
  split <;> rfl

@[simp] theorem fetched_pending (r : Runner) : r.fetched.pending = r.pending := by
  unfold fetched
  split <;> rfl

/-- Only an instruction outside of blocks can be the last of a node. -/
theorem isLast_outside {r : Runner} {node : Node} (last : r.isLast node = true) :
    r.fetched.stack.dropWhile Frame.isBlock = r.fetched.stack := by
  unfold isLast at last
  unfold fetched
  cases stack : r.stack with
  | nil => rfl
  | cons frame below =>
      cases frame with
      | detour title member ip => rfl
      | block path index => simp [stack] at last

theorem step_of_next {r : Runner} {node : Node} {i : Instruction} (found : r.node? = some node)
    (next : r.next? = some i) :
    r.step = r.fetched.exec node r.place.1 r.place.2 (r.isLast node) i := by
  unfold next? at next
  rw [found, Option.bind_some] at next
  unfold step
  rw [found]
  unfold fetched place isLast
  cases stack : r.stack with
  | nil =>
      rw [stack] at next
      simp only [stepNode, next, stack]
  | cons frame below =>
      rw [stack] at next
      cases frame with
      | detour title member ip => simp only [stepNode, next, stack]
      | block path index => simp only [stepBlock, next]

theorem step_of_none {r : Runner} {node : Node} (found : r.node? = some node)
    (done : r.next? = none) :
    (∃ path index below, r.stack = .block path index :: below ∧
      r.step = .running { r with stack := below }) ∨
    (r.stack.dropWhile Frame.isBlock = r.stack ∧ r.step = .suspended (r.endNode node)) := by
  unfold next? at done
  rw [found, Option.bind_some] at done
  unfold step
  rw [found]
  cases stack : r.stack with
  | nil =>
      rw [stack] at done
      exact .inr ⟨rfl, by simp only [stepNode, done]⟩
  | cons frame below =>
      rw [stack] at done
      cases frame with
      | detour title member ip => exact .inr ⟨rfl, by simp only [stepNode, done]⟩
      | block path index =>
          exact .inl ⟨path, index, below, rfl, by simp only [stepBlock, done]⟩

/-- The branch that is taken has a block. -/
theorem subBlock?_of_taken? {r : Runner} {branches : List (Option String × Block)} {sub : Nat}
    (taken : r.taken? branches = some sub) :
    ∃ block, (Instruction.branches branches).subBlock? sub = some block := by
  obtain ⟨⟨branch, number⟩, found, rfl⟩ := Option.map_eq_some_iff.mp taken
  have listed := List.mem_zipIdx_iff_getElem?.mp (List.mem_of_find?_eq_some found)
  refine ⟨branch.2, ?_⟩
  rw [Instruction.subBlock?, Instruction.blocks, List.getElem?_map, listed]
  rfl

/-- No option of the instruction is visible, no branch is taken, or its block has run before. -/
def Skips (r : Runner) : Instruction → Prop
  | .options choices => r.fetched.offered choices = []
  | .branches branches => r.fetched.taken? branches = none
  | .once id _ => r.ledger.blockSeen id = true
  | _ => False

/-- The instruction runs its block `sub`, and leaves the ledger as given. -/
def Opens (r : Runner) (sub : Nat) (ledger : Ledger) : Instruction → Prop
  | .branches branches => r.fetched.taken? branches = some sub ∧ ledger = r.ledger
  | .once id _ => r.ledger.blockSeen id = false ∧ sub = 0 ∧ ledger = r.ledger.markBlock id
  | _ => False

theorem Skips.target? {r : Runner} {i : Instruction} (skips : r.Skips i) : i.target? = none := by
  cases i <;> first | rfl | exact skips.elim

theorem Opens.target? {r : Runner} {sub : Nat} {ledger : Ledger} {i : Instruction}
    (opens : r.Opens sub ledger i) : i.target? = none := by
  cases i <;> first | rfl | exact opens.elim

/-- The outcomes of a step. -/
inductive Transition (r : Runner) : Step Runner → Prop
  /-- There is no such node. -/
  | lost (missing : r.node? = none) : Transition r (.faulted r (.unknownNode r.title))
  /-- The innermost block has no more instructions. -/
  | blockDone {node : Node} {path : BlockPath} {index : Nat} {below : List Frame}
      (found : r.node? = some node) (inside : r.stack = .block path index :: below)
      (done : r.next? = none) :
      Transition r (.running { r with stack := below })
  /-- The node itself has no more instructions. -/
  | nodeDone {node : Node} (found : r.node? = some node)
      (outside : r.stack.dropWhile Frame.isBlock = r.stack) (done : r.next? = none) :
      Transition r (.suspended (r.endNode node))
  | line {node : Node} {l : Line} (found : r.node? = some node)
      (next : r.next? = some (.line l)) :
      Transition r (.suspended
        (r.fetched.emit (.text (r.fetched.textResult node l (r.isLast node))) false))
  | command {node : Node} {content : String} (found : r.node? = some node)
      (next : r.next? = some (.command content)) :
      Transition r (.suspended
        ({ r.fetched with toStage := r.fetched.dispatch content }.emit
          (.command ⟨content, r.isLast node⟩) false))
  | jump {target : String} {entered : Runner} (next : r.next? = some (.jump target))
      (ok : r.fetched.depart.enter target = .ok entered) : Transition r (.running entered)
  | jumpRefused {target : String} {cause : RuntimeError} (next : r.next? = some (.jump target))
      (refused : r.fetched.depart.enter target = .error cause) :
      Transition r (.faulted r.fetched.depart cause)
  | detour {target : String} {entered : Runner} (next : r.next? = some (.detour target))
      (ok : r.fetched.save.enter target = .ok entered) : Transition r (.running entered)
  | detourRefused {target : String} {cause : RuntimeError}
      (next : r.next? = some (.detour target))
      (refused : r.fetched.save.enter target = .error cause) :
      Transition r (.faulted r.fetched.save cause)
  | offer {node : Node} {choices : List (Choice × Block)} (found : r.node? = some node)
      (next : r.next? = some (.options choices)) (visible : r.fetched.offered choices ≠ []) :
      Transition r (.suspended
        (r.fetched.offer node r.place.1 r.place.2 (r.isLast node) (r.fetched.offered choices)))
  | pass {i : Instruction} (next : r.next? = some i) (skips : r.Skips i) :
      Transition r (.running r.fetched)
  | openBlock {i : Instruction} {sub : Nat} {ledger : Ledger} (next : r.next? = some i)
      (opens : r.Opens sub ledger i) :
      Transition r (.running
        ({ r.fetched with ledger := ledger }.openBlock r.place.1 r.place.2 sub))

/-- Entering a node moves to its start and changes nothing else but the ledger. -/
theorem enter_ok {r entered : Runner} {title : String} (ok : r.enter title = .ok entered) :
    ∃ member node ledger, r.program.nodeAt? title member = some node ∧
      entered = { r with ledger := ledger, title := title, member := member, ip := 0 } := by
  unfold enter at ok
  split at ok
  · cases ok
  · rename_i member node stage selected
    obtain ⟨found, changed⟩ := Stage.select_ok selected
    refine ⟨member, node, stage.ledger, found, ?_⟩
    rw [changed] at ok
    exact (Except.ok.inj ok).symm

theorem enter_error {r : Runner} {title : String} {cause : RuntimeError}
    (refused : r.enter title = .error cause) : r.select title = .error cause := by
  unfold enter at refused
  split at refused
  · rename_i selected
    rw [selected, Except.error.inj refused]
  · cases refused

/-- A result that closes a node in a detour returns from it; any other is only shown. -/
theorem emit_cases (r : Runner) (result : RunResult) (visitRecorded : Bool) :
    (result.closes = true ∧ ∃ title member ip below, r.stack = .detour title member ip :: below ∧
      r.emit result visitRecorded =
        { r with
          toStage := (if visitRecorded then r.toStage else r.recordVisit r.title).present result
          title := title
          member := member
          ip := ip
          stack := below }) ∨
    ((result.closes = true → ∀ title member ip below, r.stack ≠ .detour title member ip :: below) ∧
      r.emit result visitRecorded = { r with toStage := r.present result }) := by
  unfold emit
  split
  · rename_i title member ip below closes stack
    exact .inl ⟨closes, title, member, ip, below, stack, rfl⟩
  · rename_i other
    exact .inr ⟨fun closes title member ip below stack => other title member ip below closes stack,
      rfl⟩

@[simp] theorem emit_program (r : Runner) (result : RunResult) (visitRecorded : Bool) :
    (r.emit result visitRecorded).program = r.program := by
  unfold emit
  split
  · cases visitRecorded <;> rfl
  · rfl

@[simp] theorem emit_handlers (r : Runner) (result : RunResult) (visitRecorded : Bool) :
    (r.emit result visitRecorded).handlers = r.handlers := by
  unfold emit
  split
  · cases visitRecorded <;> rfl
  · rfl

@[simp] theorem emit_pending (r : Runner) (result : RunResult) (visitRecorded : Bool) :
    (r.emit result visitRecorded).pending = r.pending := by
  unfold emit
  split <;> rfl

@[simp] theorem emit_finished (r : Runner) (result : RunResult) (visitRecorded : Bool) :
    (r.emit result visitRecorded).finished = r.finished := by
  unfold emit
  split
  · cases visitRecorded <;> rfl
  · rfl

@[simp] theorem emit_current (r : Runner) (result : RunResult) (visitRecorded : Bool) :
    (r.emit result visitRecorded).current = some result := by
  unfold emit
  split <;> rfl

@[simp] theorem emit_history (r : Runner) (result : RunResult) (visitRecorded : Bool) :
    (r.emit result visitRecorded).history = r.history ++ [result] := by
  unfold emit
  split
  · cases visitRecorded <;> rfl
  · rfl

/-- The end of a node is the end of the dialogue, or a return from the innermost detour. -/
theorem endNode_cases {r : Runner} (outside : r.stack.dropWhile Frame.isBlock = r.stack)
    (node : Node) :
    (r.stack = [] ∧
      r.endNode node = { r with toStage := (r.leave r.title true).present (.closing node) }) ∨
    ∃ title member ip below, r.stack = .detour title member ip :: below ∧
      r.endNode node =
        { r with
          toStage := (r.leave r.title false).present (.closing node)
          title := title
          member := member
          ip := ip
          stack := below } := by
  obtain ⟨stage, here, place, position, stack, pending⟩ := r
  rcases Frame.outside_blocks outside with rfl | ⟨title, member, ip, below, rfl⟩
  · exact .inl ⟨rfl, rfl⟩
  · exact .inr ⟨title, member, ip, below, rfl, rfl⟩

theorem transfer_cases (r : Runner) (target : String) :
    (∃ entered, r.enter target = .ok entered ∧ r.transfer target = .running entered) ∨
    (∃ cause, r.enter target = .error cause ∧ r.transfer target = .faulted r cause) := by
  unfold transfer
  cases outcome : r.enter target with
  | ok entered => exact .inl ⟨entered, rfl, rfl⟩
  | error cause => exact .inr ⟨cause, rfl, rfl⟩

/-- Every step is one of the listed outcomes. -/
theorem transition (r : Runner) : Transition r r.step := by
  cases found : r.node? with
  | none =>
      have fault : r.step = .faulted r (.unknownNode r.title) := by simp only [step, found]
      rw [fault]
      exact .lost found
  | some node =>
      cases next : r.next? with
      | none =>
          rcases step_of_none found next with ⟨path, index, below, inside, same⟩ | ⟨outside, same⟩
          · rw [same]
            exact .blockDone found inside next
          · rw [same]
            exact .nodeDone found outside next
      | some i =>
          rw [step_of_next found next]
          cases i with
          | line l =>
              simp only [exec]
              exact .line found next
          | command content =>
              simp only [exec]
              exact .command found next
          | jump target =>
              rcases r.fetched.depart.transfer_cases target with
                ⟨entered, ok, same⟩ | ⟨cause, refused, same⟩
              · simp only [exec, same]
                exact .jump next ok
              · simp only [exec, same]
                exact .jumpRefused next refused
          | detour target =>
              rcases r.fetched.save.transfer_cases target with
                ⟨entered, ok, same⟩ | ⟨cause, refused, same⟩
              · simp only [exec, same]
                exact .detour next ok
              · simp only [exec, same]
                exact .detourRefused next refused
          | options choices =>
              simp only [exec]
              split
              · rename_i hidden
                exact .pass next hidden
              · rename_i visible
                exact .offer found next visible
          | branches branches =>
              simp only [exec]
              split
              · rename_i sub chosen
                have kept : r.fetched.ledger = r.ledger := by simp
                exact .openBlock next ⟨chosen, kept⟩
              · rename_i untaken
                exact .pass next untaken
          | once id block =>
              simp only [exec]
              split
              · rename_i seen
                exact .pass next (by simpa [Skips] using seen)
              · rename_i unseen
                exact .openBlock next (by simpa [Opens] using unseen)

namespace Step

variable {σ : Type}

/-- The state that a step ends in. -/
def state : Step σ → σ
  | running state => state
  | suspended state => state
  | faulted state _ => state

def fault? : Step σ → Option RuntimeError
  | faulted _ cause => some cause
  | _ => none

end Step

/-- A step neither waits for a choice nor ends the dialogue without showing a result. -/
theorem running_idle {r after : Runner} (running : r.step = .running after) :
    after.pending = r.pending ∧ after.finished = r.finished := by
  have outcome := r.transition
  rw [running] at outcome
  cases outcome with
  | blockDone found inside done => exact ⟨rfl, rfl⟩
  | jump next ok =>
      obtain ⟨member, node, ledger, -, rfl⟩ := enter_ok ok
      simp [depart]
  | detour next ok =>
      obtain ⟨member, node, ledger, -, rfl⟩ := enter_ok ok
      simp [save]
  | pass next skips => simp
  | openBlock next opens => simp [openBlock]

/-- A step that shows nothing adds nothing to the results. -/
theorem running_history {r after : Runner} (running : r.step = .running after) :
    after.history = r.history := by
  have outcome := r.transition
  rw [running] at outcome
  cases outcome with
  | blockDone found inside done => rfl
  | jump next ok =>
      obtain ⟨member, node, ledger, -, rfl⟩ := enter_ok ok
      simp [depart, Stage.recordVisit]
  | detour next ok =>
      obtain ⟨member, node, ledger, -, rfl⟩ := enter_ok ok
      simp [save]
  | pass next skips => simp
  | openBlock next opens => simp [openBlock]

/-- No step changes the program or the handlers. -/
theorem step_fixed (r : Runner) :
    r.step.state.program = r.program ∧ r.step.state.handlers = r.handlers := by
  have outcome := r.transition
  generalize r.step = taken at outcome
  cases outcome with
  | lost missing => exact ⟨rfl, rfl⟩
  | blockDone found inside done => exact ⟨rfl, rfl⟩
  | nodeDone found outside done => simp [Step.state, endNode]
  | line found next => simp [Step.state]
  | command found next => simp [Step.state]
  | jump next ok =>
      obtain ⟨member, node, ledger, -, rfl⟩ := enter_ok ok
      simp [Step.state, depart]
  | jumpRefused next refused => simp [Step.state, depart]
  | detour next ok =>
      obtain ⟨member, node, ledger, -, rfl⟩ := enter_ok ok
      simp [Step.state, save]
  | detourRefused next refused => simp [Step.state, save]
  | offer found next visible => simp [Step.state, offer]
  | pass next skips => simp [Step.state]
  | openBlock next opens => simp [Step.state, openBlock]

/-- A step that faults has missed its own node, or was refused by the node that its instruction
hands over to. -/
theorem fault_cases {r : Runner} {cause : RuntimeError} (fault : r.step.fault? = some cause) :
    (r.node? = none ∧ cause = .unknownNode r.title) ∨
      ∃ i target g, r.next? = some i ∧ i.target? = some target ∧ g.program = r.program ∧
        Stage.select g target = .error cause := by
  have outcome := r.transition
  generalize r.step = taken at outcome fault
  cases outcome with
  | lost missing => exact .inl ⟨missing, (Option.some.inj fault).symm⟩
  | @jumpRefused target cause next refused =>
      obtain rfl := Option.some.inj fault
      refine .inr ⟨_, target, r.fetched.depart.toStage, next, rfl, ?_, enter_error refused⟩
      simp [depart]
  | @detourRefused target cause next refused =>
      obtain rfl := Option.some.inj fault
      refine .inr ⟨_, target, r.fetched.save.toStage, next, rfl, ?_, enter_error refused⟩
      simp [save]
  | _ => cases fault

end Runner

end Dialogue
