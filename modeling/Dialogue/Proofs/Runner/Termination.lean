import Dialogue.Proofs.Program.Links
import Dialogue.Proofs.Runner.Progress
import Dialogue.Proofs.Runner.Refinement

set_option autoImplicit false

namespace Dialogue

open Relation
open Runner (Step Signal)

namespace Continuation

/-- What is left of the block or the node. -/
def rest : Continuation → Block
  | block rest => rest
  | detour _ _ rest => rest

end Continuation

namespace Machine

/-- The blocks that are still to come. -/
def contents (m : Machine) : List Block :=
  m.rest :: (m.pending.getD [] ++ m.stack.map Continuation.rest)

/-- How many steps a machine can still take. -/
def toil (ahead : String → Nat) (m : Machine) : Nat :=
  if m.finished then 0 else totalEffort ahead m.contents

/-- The program is running, and whatever is still to come hands over to titles with the property. -/
structure Homed (p : Program) (good : String → Prop) (m : Machine) : Prop where
  program_eq : m.program = p
  leads : ∀ block ∈ m.contents, Block.Leads good block

/-- A step leads to titles with the property only, and to less toil than given unless it fails. -/
def Falls (p : Program) (good : String → Prop) (ahead : String → Nat) (limit : Nat) :
    Step Machine → Prop
  | .running after => after.Homed p good ∧ after.toil ahead < limit
  | .suspended after => after.Homed p good ∧ after.toil ahead < limit
  | .faulted after _ => after.Homed p good

/-- A machine that has dropped some of what was to come. -/
structure Drops (m after : Machine) : Prop where
  program_eq : after.program = m.program
  finished_eq : after.finished = m.finished
  sublist : after.contents.Sublist m.contents

variable {p : Program} {good : String → Prop} {ahead : String → Nat} {m after : Machine}
  {i : Instruction} {limit : Nat}

theorem contents_idle (idle : m.pending = none) :
    m.contents = m.rest :: m.stack.map Continuation.rest := by
  rw [contents, idle]
  rfl

theorem toil_unfinished (ahead : String → Nat) (unfinished : m.finished = false) :
    m.toil ahead = totalEffort ahead m.contents := by
  simp [toil, unfinished]

theorem toil_le (m : Machine) : m.toil ahead ≤ totalEffort ahead m.contents := by
  unfold toil
  split
  · exact Nat.zero_le _
  · exact Nat.le_refl _

theorem toil_pos (unfinished : m.finished = false) : 0 < m.toil ahead := by
  rw [toil_unfinished ahead unfinished, contents, totalEffort_cons]
  omega

theorem Drops.homed (drops : Drops m after) (homed : m.Homed p good) : after.Homed p good :=
  ⟨drops.program_eq.trans homed.program_eq,
    fun block listed => homed.leads block (drops.sublist.mem listed)⟩

theorem Drops.total_le (ahead : String → Nat) (drops : Drops m after) :
    totalEffort ahead after.contents ≤ totalEffort ahead m.contents :=
  totalEffort_sublist ahead drops.sublist

theorem Drops.toil_le (ahead : String → Nat) (drops : Drops m after) :
    after.toil ahead ≤ m.toil ahead := by
  unfold toil
  rw [drops.finished_eq]
  split
  · exact Nat.le_refl 0
  · exact drops.total_le ahead

/-- Showing a result drops the rest of a node that is left, and nothing else. -/
theorem drops_emit (m : Machine) (result : RunResult) (visitRecorded : Bool)
    (idle : result.closes = true → m.pending = none) :
    Drops m (m.emit result visitRecorded) := by
  unfold emit
  split
  · rename_i title member rest below closes stack
    refine ⟨?_, ?_, ?_⟩
    · cases visitRecorded <;> rfl
    · cases visitRecorded <;> rfl
    · simp only [contents, idle closes, stack]
      exact List.sublist_cons_self _ _
  · exact ⟨rfl, rfl, .refl _⟩

theorem drops_depart (m : Machine) : Drops m m.depart := by
  refine ⟨rfl, rfl, ?_⟩
  exact (((List.dropWhile_sublist _).map _).append_left _).cons_cons _

theorem enter_ok {title : String} (ok : m.enter title = .ok after) :
    ∃ member node ledger, m.program.nodeAt? title member = some node ∧
      after = { m with ledger := ledger, title := title, member := member,
                       rest := node.instructions } := by
  unfold enter at ok
  split at ok
  · cases ok
  · rename_i member node stage selected
    obtain ⟨found, changed⟩ := Stage.select_ok selected
    refine ⟨member, node, stage.ledger, found, ?_⟩
    rw [changed] at ok
    exact (Except.ok.inj ok).symm

/-- A hand-over exchanges the rest of the node for a node of the target, which the target has paid
for. -/
theorem transfer_falls (budget : Program.Budget p good ahead) (homed : m.Homed p good)
    {target : String} (known : good target)
    (paid : 1 + ahead target + totalEffort ahead m.contents.tail < limit) :
    Falls p good ahead limit (m.transfer target) := by
  unfold transfer
  cases entering : m.enter target with
  | error cause => exact homed
  | ok entered =>
      obtain ⟨member, node, ledger, found, rfl⟩ := enter_ok entering
      rw [homed.program_eq] at found
      have pays := budget.pays target member node known found
      refine ⟨⟨homed.program_eq, ?_⟩, ?_⟩
      · intro block listed
        rcases List.mem_cons.mp listed with rfl | later
        · exact budget.leads target member node known found
        · exact homed.leads block (List.mem_cons_of_mem _ later)
      · refine lt_of_le_of_lt ((toil_le _).trans ?_) paid
        show 1 + blockEffort ahead node.instructions + totalEffort ahead m.contents.tail ≤ _
        omega

/-- Going on in a block of an instruction costs no more than the instruction. -/
theorem openBlock_falls (homed : m.Homed p good) (own : Block.Leads good [i])
    (idle : m.pending = none) (paid : totalEffort ahead m.contents + i.effort ahead ≤ limit)
    {block : Block} (owned : block ∈ i.blocks) :
    Falls p good ahead limit (.running (m.openBlock block)) := by
  have opened : (m.openBlock block).contents =
      m.rest :: block :: m.stack.map Continuation.rest := contents_idle idle
  rw [contents_idle idle] at paid
  refine ⟨⟨homed.program_eq, ?_⟩, ?_⟩
  · intro other listed
    rw [opened] at listed
    have earlier := contents_idle idle ▸ homed.leads
    rcases List.mem_cons.mp listed with rfl | listed
    · exact earlier _ List.mem_cons_self
    · rcases List.mem_cons.mp listed with rfl | later
      · exact (Block.everywhere_singleton.mp own).2 other owned
      · exact earlier other (List.mem_cons_of_mem _ later)
  · have costs := i.effort_blocks ahead
    have one := totalEffort_sublist ahead (List.singleton_sublist.mpr owned)
    refine lt_of_le_of_lt (toil_le _) ?_
    rw [opened, totalEffort_cons, totalEffort_cons]
    rw [totalEffort_cons] at paid
    rw [totalEffort_cons] at one
    omega

/-- Showing a result is less than the instruction that led to it. -/
theorem emit_falls (homed : m.Homed p good) (result : RunResult) (visitRecorded : Bool)
    (idle : result.closes = true → m.pending = none)
    (paid : totalEffort ahead m.contents < limit) :
    Falls p good ahead limit (.suspended (m.emit result visitRecorded)) := by
  have drops := drops_emit m result visitRecorded idle
  exact ⟨drops.homed homed, lt_of_le_of_lt ((drops.toil_le ahead).trans (toil_le m)) paid⟩

theorem offer_falls (homed : m.Homed p good) (node : Node) (atEnd : Bool)
    {choices : List (Choice × Block)} {visible : List ((Choice × Block) × Nat)}
    (own : Block.Leads good [.options choices]) (idle : m.pending = none)
    (sub : (visible.map (·.1)).Sublist choices)
    (paid : totalEffort ahead m.contents + Instruction.effort ahead (.options choices) ≤ limit) :
    Falls p good ahead limit (.suspended (m.offer node atEnd visible)) := by
  have inside : (visible.map fun c => c.1.2).Sublist (Instruction.options choices).blocks := by
    have blocks := sub.map (·.2)
    rwa [List.map_map] at blocks
  have waiting : contents { m with pending := some (visible.map fun c => c.1.2) } =
      m.rest :: ((visible.map fun c => c.1.2) ++ m.stack.map Continuation.rest) := rfl
  refine emit_falls (m := { m with pending := some (visible.map fun c => c.1.2) })
    ⟨homed.program_eq, ?_⟩ _ _ ?_ ?_
  · rw [waiting]
    have earlier := contents_idle idle ▸ homed.leads
    intro block listed
    rcases List.mem_cons.mp listed with rfl | listed
    · exact earlier _ List.mem_cons_self
    · rcases List.mem_append.mp listed with offered | later
      · exact (Block.everywhere_singleton.mp own).2 block (inside.mem offered)
      · exact earlier block (List.mem_cons_of_mem _ later)
  · intro closes
    simp at closes
  · have costs := Instruction.effort_blocks ahead (.options choices)
    have fewer := totalEffort_sublist ahead inside
    rw [contents_idle idle, totalEffort_cons] at paid
    rw [waiting, totalEffort_cons, totalEffort_append]
    omega

/-- Executing an instruction costs no more than its effort. -/
theorem exec_falls (budget : Program.Budget p good ahead) (homed : m.Homed p good)
    (node : Node) (atEnd : Bool) (own : Block.Leads good [i]) (idle : m.pending = none)
    (paid : totalEffort ahead m.contents + i.effort ahead ≤ limit) :
    Falls p good ahead limit (m.exec node atEnd i) := by
  have positive := i.effort_blocks ahead
  have kept : Falls p good ahead limit (.running m) :=
    ⟨homed, lt_of_le_of_lt (toil_le m) (by omega)⟩
  cases i with
  | line l => exact emit_falls homed _ _ (fun _ => idle) (by omega)
  | command content =>
      have dispatched : Homed p good { m with toStage := m.dispatch content } :=
        ⟨(Stage.dispatch_program _ _).trans homed.program_eq, homed.leads⟩
      have less : totalEffort ahead m.contents < limit := by omega
      exact emit_falls dispatched _ _ (fun _ => idle) less
  | jump target =>
      have known := (Block.everywhere_singleton.mp own).1 target rfl
      have drops := drops_depart m
      refine transfer_falls budget (drops.homed homed) known ?_
      have fewer := drops.total_le ahead
      rw [contents, totalEffort_cons] at fewer
      rw [Instruction.effort_target rfl] at paid
      show 1 + ahead target + totalEffort ahead (_ ++ _) < limit
      omega
  | detour target =>
      have known := (Block.everywhere_singleton.mp own).1 target rfl
      have saved : m.save.contents = m.rest :: m.contents := by
        rw [contents_idle (m := m.save) idle, contents_idle idle]
        rfl
      refine transfer_falls (m := m.save) budget ⟨homed.program_eq, ?_⟩ known ?_
      · rw [saved]
        intro block listed
        rcases List.mem_cons.mp listed with rfl | later
        · exact homed.leads _ List.mem_cons_self
        · exact homed.leads block later
      · rw [saved, List.tail_cons]
        rw [Instruction.effort_target rfl] at paid
        omega
  | options choices =>
      simp only [exec]
      split
      · exact kept
      · have sub : ((m.offered choices).map (·.1)).Sublist choices := by
          have kept : ((m.offered choices).map (·.1)).Sublist (choices.zipIdx.map (·.1)) :=
            List.filter_sublist.map _
          rwa [List.zipIdx_map_fst] at kept
        exact offer_falls homed node atEnd own idle sub paid
  | branches branches =>
      simp only [exec]
      split
      · rename_i block chosen
        obtain ⟨branch, found, rfl⟩ := Option.map_eq_some_iff.mp chosen
        have owned : branch.1.2 ∈ (Instruction.branches branches).blocks :=
          List.mem_map_of_mem (List.fst_mem_of_mem_zipIdx (List.mem_of_find?_eq_some found))
        exact openBlock_falls homed own idle paid owned
      · exact kept
  | once id block =>
      simp only [exec]
      split
      · exact kept
      · exact openBlock_falls (m := { m with ledger := m.ledger.markBlock id })
          ⟨homed.program_eq, homed.leads⟩ own idle paid List.mem_cons_self

/-- The end of a node is the end of the dialogue, or uses up what the node was left with. -/
theorem endNode_falls (homed : m.Homed p good) (node : Node) (idle : m.pending = none)
    (unfinished : m.finished = false)
    (outside : ∀ rest below, m.stack ≠ .block rest :: below) :
    Falls p good ahead (m.toil ahead) (.suspended (m.endNode node)) := by
  have drops := drops_emit { m with toStage := m.leave m.title m.stack.isEmpty }
    (.closing node) true fun _ => idle
  refine ⟨drops.homed ⟨homed.program_eq, homed.leads⟩, ?_⟩
  cases stack : m.stack with
  | nil =>
      have ended : (m.endNode node).finished = true := by
        simp [endNode, emit, stack, Stage.present]
      have spent : (m.endNode node).toil ahead = 0 := by simp [toil, ended]
      rw [spent]
      exact toil_pos unfinished
  | cons frame below =>
      cases frame with
      | block rest => exact absurd stack (outside rest below)
      | detour title member rest =>
          have resumed : (m.endNode node).contents = m.contents.tail := by
            simp [endNode, emit, stack, contents, idle, RunResult.closing, RunResult.closes,
              RunResult.endsNode, RunResult.isOptions, Continuation.rest]
          refine lt_of_le_of_lt (toil_le _) ?_
          rw [resumed, toil_unfinished ahead unfinished, contents, totalEffort_cons, List.tail_cons]
          omega

theorem stepNode_falls (budget : Program.Budget p good ahead) (homed : m.Homed p good)
    (node : Node) (idle : m.pending = none) (unfinished : m.finished = false)
    (outside : ∀ rest below, m.stack ≠ .block rest :: below) :
    Falls p good ahead (m.toil ahead) (m.stepNode node) := by
  unfold stepNode
  cases rest : m.rest with
  | nil => exact endNode_falls homed node idle unfinished outside
  | cons i later =>
      have before := contents_idle idle
      have fetched : contents { m with toStage := m.renewed, rest := later } =
          later :: m.stack.map Continuation.rest := contents_idle idle
      have leads := before ▸ homed.leads
      rw [rest] at before leads
      obtain ⟨own, others⟩ := List.forall_mem_cons.mp leads
      obtain ⟨first, further⟩ := Block.leads_cons.mp own
      refine exec_falls (m := { m with toStage := m.renewed, rest := later }) budget
        ⟨homed.program_eq, ?_⟩ node _ first idle ?_
      · rw [fetched]
        exact List.forall_mem_cons.mpr ⟨further, others⟩
      · rw [fetched, toil_unfinished ahead unfinished, before, totalEffort_cons, totalEffort_cons,
          blockEffort]
        omega

theorem stepBlock_falls (budget : Program.Budget p good ahead) (homed : m.Homed p good)
    (node : Node) (idle : m.pending = none) (unfinished : m.finished = false) {rest : Block}
    {below : List Continuation} (stack : m.stack = .block rest :: below) :
    Falls p good ahead (m.toil ahead) (m.stepBlock node rest below) := by
  have before := contents_idle idle
  rw [stack] at before
  have leads := before ▸ homed.leads
  obtain ⟨own, others⟩ := List.forall_mem_cons.mp leads
  obtain ⟨inner, outer⟩ := List.forall_mem_cons.mp others
  have total := toil_unfinished ahead unfinished
  rw [before, totalEffort_cons, List.map_cons, totalEffort_cons] at total
  unfold stepBlock
  cases rest with
  | nil =>
      have left : contents { m with stack := below } =
          m.rest :: below.map Continuation.rest := contents_idle idle
      refine ⟨⟨homed.program_eq, ?_⟩, lt_of_le_of_lt (toil_le _) ?_⟩
      · rw [left]
        exact List.forall_mem_cons.mpr ⟨own, outer⟩
      · rw [left, totalEffort_cons, total]
        omega
  | cons i later =>
      have fetched : contents
          { m with toStage := m.renewed, stack := .block later :: below } =
          m.rest :: later :: below.map Continuation.rest := contents_idle idle
      obtain ⟨first, further⟩ := Block.leads_cons.mp inner
      refine exec_falls
        (m := { m with toStage := m.renewed, stack := .block later :: below }) budget
        ⟨homed.program_eq, ?_⟩ node _ first idle ?_
      · rw [fetched]
        exact List.forall_mem_cons.mpr ⟨own, List.forall_mem_cons.mpr ⟨further, outer⟩⟩
      · rw [fetched, total, totalEffort_cons, totalEffort_cons]
        simp only [Continuation.rest, blockEffort]
        omega

/-- Each step uses up some of the toil, unless it fails. -/
theorem step_falls (budget : Program.Budget p good ahead) (homed : m.Homed p good)
    (idle : m.pending = none) (unfinished : m.finished = false) :
    Falls p good ahead (m.toil ahead) m.step := by
  unfold step
  split
  · exact homed
  · rename_i node found
    split
    · rename_i rest below stack
      exact stepBlock_falls budget homed node idle unfinished stack
    · rename_i outside
      exact stepNode_falls budget homed node idle unfinished outside

end Machine

namespace Runner

open Machine (Homed Falls Drops)

variable {p : Program} {s : Setup} {good : String → Prop} {ahead : String → Nat} {r : Runner}

theorem falls_step (budget : Program.Budget p good ahead) (homed : r.machine.Homed p good)
    (idle : r.pending = none) (unfinished : r.finished = false) :
    Falls p good ahead (r.machine.toil ahead) (r.step.map machine) := by
  have waiting : r.machine.pending = none := by simp [machine, idle]
  rw [step_machine r idle]
  exact Machine.step_falls budget homed waiting unfinished

/-- A run ends before it has taken more steps than the machine can. -/
theorem run_ends (budget : Program.Budget p good ahead) (homed : r.machine.Homed p good)
    (idle : r.pending = none) (unfinished : r.finished = false) {fuel : Nat}
    (enough : r.machine.toil ahead ≤ fuel) : (r.run fuel).2 ≠ .exhausted := by
  induction fuel generalizing r with
  | zero =>
      have positive : 0 < r.machine.toil ahead := Machine.toil_pos unfinished
      omega
  | succ fuel ih =>
      have falls := falls_step budget homed idle unfinished
      rw [run_succ]
      cases taken : r.step with
      | running after =>
          rw [taken] at falls
          obtain ⟨stillIdle, stillUnfinished⟩ := running_idle taken
          have less : after.machine.toil ahead < r.machine.toil ahead := falls.2
          exact ih falls.1 (stillIdle.trans idle) (stillUnfinished.trans unfinished) (by omega)
      | suspended after => simp
      | faulted after cause => simp

/-- A choice drops the options that were not chosen. -/
theorem choice_drops {pending : PendingOptions} {index sub : Nat}
    (waiting : r.pending = some pending) (offered : pending.visible[index]? = some sub) :
    Drops r.machine
      ({ r with pending := none }.openBlock pending.path pending.index sub).machine := by
  refine ⟨rfl, rfl, ?_⟩
  have one : [r.root.remaining (pending.path ++ [(pending.index, sub)]) 0].Sublist
      (r.machine.pending.getD []) := by
    rw [List.singleton_sublist]
    simp only [machine, waiting, Option.map_some, Option.getD_some]
    exact List.mem_map_of_mem (List.mem_of_getElem? offered)
  exact (one.append_right _).cons_cons _

/-- A runner that has entered its first node has that node before it and nothing else. -/
theorem entered_machine (budget : Program.Budget p good ahead) (known : good s.start)
    (ok : (initial p s).enter s.start = .ok r) :
    r.machine.Homed p good ∧ r.machine.toil ahead ≤ 1 + ahead s.start := by
  obtain ⟨member, node, ledger, found, rfl⟩ := enter_ok ok
  have listed : (initial p s).program.listing s.start member = node.instructions :=
    Program.listing_of_node found
  have contents : Machine.contents (machine { initial p s with
      ledger := ledger, title := s.start, member := member, ip := 0 }) = [node.instructions] := by
    rw [← listed]
    rfl
  refine ⟨⟨rfl, ?_⟩, (Machine.toil_le _).trans ?_⟩
  · rw [contents, List.forall_mem_singleton]
    exact budget.leads s.start member node known found
  · have pays := budget.pays s.start member node known found
    rw [contents, totalEffort_cons]
    show 1 + blockEffort ahead node.instructions + 0 ≤ 1 + ahead s.start
    omega

/-- Whatever calls have failed, a session keeps to titles that have a budget; and if none has failed
to enter a node, the steps taken and those to come are paid for by the start. -/
theorem session_spends {allowed : Signal → Prop} (budget : Program.Budget p good ahead)
    (known : good s.start) {trail : List Runner} (session : Session allowed p s trail r) :
    r.machine.Homed p good ∧
      ((∀ signal, allowed signal → signal.Clean) →
        trail.length + r.machine.toil ahead ≤ 1 + ahead s.start) := by
  refine Session.invariant (I := fun trail r => r.machine.Homed p good ∧
    ((∀ signal, allowed signal → signal.Clean) →
      trail.length + r.machine.toil ahead ≤ 1 + ahead s.start)) ?_ ?_ ?_ session
  · intro first ok
    obtain ⟨homed, paid⟩ := entered_machine budget known ok
    exact ⟨homed, fun _ => by simpa using paid⟩
  · intro before state valid idle unfinished permitted
    have falls := falls_step budget valid.1 idle unfinished
    cases taken : state.step with
    | running after =>
        rw [taken] at falls
        have less : after.machine.toil ahead < state.machine.toil ahead := falls.2
        refine ⟨falls.1, fun clean => ?_⟩
        have earlier := valid.2 clean
        simp only [Step.state, List.length_append, List.length_singleton]
        omega
    | suspended after =>
        rw [taken] at falls
        have less : after.machine.toil ahead < state.machine.toil ahead := falls.2
        refine ⟨falls.1, fun clean => ?_⟩
        have earlier := valid.2 clean
        simp only [Step.state, List.length_append, List.length_singleton]
        omega
    | faulted after cause =>
        rw [taken] at falls
        refine ⟨falls, fun clean => ?_⟩
        have none := fault_none_of_clean fun cause fault => clean _ (permitted cause fault)
        rw [taken] at none
        cases none
  · intro before state pending index sub valid waiting offered
    have drops := choice_drops waiting offered
    refine ⟨drops.homed valid.1, fun clean => ?_⟩
    have earlier := valid.2 clean
    have less := drops.toil_le ahead
    omega

theorem Session.mono {allowed other : Signal → Prop}
    (weaker : ∀ signal, allowed signal → other signal)
    {trail : List Runner} (session : Session allowed p s trail r) : Session other p s trail r := by
  induction session with
  | start started alive => exact .start started alive
  | call earlier called permitted ih => exact .call ih called (weaker _ permitted)

/-- A run that fails has failed to enter a node. -/
theorem run_faultless {fuel : Nat} (clean : (r.run fuel).2.Clean) (cause : RuntimeError) :
    (r.run fuel).2 ≠ .faulted cause := by
  induction fuel generalizing r with
  | zero => simp [run_zero]
  | succ fuel ih =>
      rw [run_succ] at clean ⊢
      cases taken : r.step with
      | running after =>
          rw [taken] at clean
          exact ih clean
      | suspended after => simp
      | faulted after fault =>
          rw [taken] at clean
          have none := fault_none_of_clean (r := r) fun other same => by
            rw [taken] at same
            cases same
            exact clean
          rw [taken] at none
          cases none

theorem start_faultless {fuel : Nat} (clean : (start fuel p s).2.Clean) (cause : RuntimeError) :
    (start fuel p s).2 ≠ .faulted cause := by
  unfold start at clean ⊢
  cases first : (initial p s).enter s.start with
  | ok begun =>
      rw [first] at clean
      exact run_faultless clean cause
  | error refusal =>
      rw [first] at clean
      rcases Stage.select_error (enter_error first) with ⟨-, rfl⟩ | ⟨group, -, -, -, rfl⟩
      · exact absurd rfl (clean s.start).1
      · exact absurd rfl (clean s.start).2

theorem trail_pos {fuel : Nat} (some : 0 < fuel) (r : Runner) : 0 < (r.trail fuel).length := by
  obtain ⟨fuel, rfl⟩ := Nat.exists_eq_succ_of_ne_zero some.ne'
  rw [trail]
  split <;> simp

/-- What a host reaches that starts a program and calls on it until the dialogue is over, each time
with the next of its choices. -/
def playthrough (fuel : Nat) (p : Program) (s : Setup) (choices : Nat → Option Nat) :
    Nat → Runner × Signal
  | 0 => start fuel p s
  | calls + 1 =>
      let reached := playthrough fuel p s choices calls
      if reached.1.finished then reached else reached.1.advance fuel (choices calls)

/-- No call fails to enter a node, and every choice is as the current result asks. -/
structure Faultless (fuel : Nat) (p : Program) (s : Setup) (choices : Nat → Option Nat) : Prop where
  clean : ∀ calls, (playthrough fuel p s choices calls).2.Clean
  suited : ∀ calls, (playthrough fuel p s choices calls).1.finished = false →
    (playthrough fuel p s choices calls).1.Suits (choices calls)

/-- As long as the dialogue is not over, each call takes a step at least. -/
theorem playthrough_session {fuel : Nat} {choices : Nat → Option Nat} (some : 0 < fuel)
    (faultless : Faultless fuel p s choices) (calls : Nat) :
    (∃ earlier ≤ calls, (playthrough fuel p s choices earlier).1.finished = true) ∨
      ∃ trail, Session Signal.Clean p s trail (playthrough fuel p s choices calls).1 ∧
        calls < trail.length := by
  induction calls with
  | zero =>
      have alive := start_faultless (faultless.clean 0)
      refine .inr ⟨startTrail fuel p s, .start rfl alive, ?_⟩
      unfold startTrail
      cases first : (initial p s).enter s.start with
      | ok begun => exact trail_pos some begun
      | error refusal =>
          refine absurd ?_ (alive refusal)
          rw [start, first]
  | succ calls ih =>
      rcases ih with ⟨earlier, before, finished⟩ | ⟨trail, session, long⟩
      · exact .inl ⟨earlier, before.trans (Nat.le_succ _), finished⟩
      · cases unfinished : (playthrough fuel p s choices calls).1.finished with
        | true => exact .inl ⟨calls, Nat.le_succ _, unfinished⟩
        | false =>
            have called : playthrough fuel p s choices (calls + 1) =
                (playthrough fuel p s choices calls).1.advance fuel (choices calls) := by
              simp [playthrough, unfinished]
            have permitted := faultless.clean (calls + 1)
            rw [called] at permitted ⊢
            have next := Session.call session (Prod.mk.eta).symm permitted
            refine .inr ⟨_, next, ?_⟩
            obtain ⟨located, asked⟩ := session_located (session.mono fun _ _ => trivial)
            obtain ⟨ready, chosen, -⟩ :=
              choose_suits located asked unfinished (faultless.suited calls unfinished)
            have more := trail_pos some ready
            rw [List.length_append, advanceTrail, chosen]
            show calls + 1 < trail.length + (ready.trail fuel).length
            omega

/-- A program that comes to an end, whatever its host chooses. -/
structure Ends (p : Program) (s : Setup) (bound : Nat) : Prop where
  /-- The start ends. -/
  start : ∀ fuel, bound ≤ fuel → (start fuel p s).2 ≠ .exhausted
  /-- Every later call ends, also when calls before it have failed. -/
  advance : ∀ trail r, Session (fun _ => True) p s trail r → ∀ choice, ∃ enough, ∀ fuel,
    enough ≤ fuel → (r.advance fuel choice).2 ≠ .exhausted
  /-- While no call fails to enter a node, all calls together take no more steps than the bound. -/
  steps : ∀ trail r, Session Signal.Clean p s trail r → trail.length ≤ bound
  /-- The bound is enough for the next call as well. -/
  advance_clean : ∀ trail r, Session Signal.Clean p s trail r → ∀ choice fuel, bound ≤ fuel →
    (r.advance fuel choice).2 ≠ .exhausted
  /-- A dialogue in which no call fails is over after no more calls than the bound. -/
  finishes : ∀ fuel choices, bound ≤ fuel → Faultless fuel p s choices →
    ∃ calls ≤ bound, (playthrough fuel p s choices calls).1.finished = true

/-- A call ends before it has taken more steps than the machine can. -/
theorem advance_ends (budget : Program.Budget p good ahead) (homed : r.machine.Homed p good)
    (choice : Option Nat) {fuel : Nat} (enough : r.machine.toil ahead ≤ fuel) :
    (r.advance fuel choice).2 ≠ .exhausted := by
  unfold advance
  cases taken : r.choose choice with
  | error cause => simp
  | ok ready =>
      obtain ⟨idle, unfinished⟩ := choose_idle taken
      obtain ⟨-, ⟨-, rfl⟩ | ⟨pending, index, sub, waiting, -, offered, rfl⟩⟩ := choose_ok taken
      · exact run_ends budget homed idle unfinished enough
      · have drops := choice_drops waiting offered
        exact run_ends budget (drops.homed homed) idle unfinished
          ((drops.toil_le ahead).trans enough)

/-- If no cycle of jumps and detours can be reached from the start, the program comes to an end, and
the bound depends on nothing but the program. -/
theorem acyclic_ends (acyclic : p.Acyclic s.start) : Ends p s p.bound := by
  have budget := acyclic.budget
  have first : ReflTransGen p.Links s.start s.start := .refl
  have within := p.reach_lt_bound s.start
  have spends : ∀ {trail r}, Session Signal.Clean p s trail r →
      trail.length + r.machine.toil p.reach ≤ p.bound := by
    intro trail r session
    have paid := (session_spends budget first session).2 fun _ clean => clean
    omega
  refine ⟨?_, ?_, ?_, ?_, ?_⟩
  · intro fuel enough
    unfold Runner.start
    cases entering : (initial p s).enter s.start with
    | error cause => simp
    | ok begun =>
        obtain ⟨homed, paid⟩ := entered_machine budget first entering
        obtain ⟨member, node, ledger, -, rfl⟩ := enter_ok entering
        exact run_ends budget homed rfl rfl (by omega)
  · intro trail r session choice
    have homed := (session_spends budget first session).1
    exact ⟨r.machine.toil p.reach, fun fuel enough => advance_ends budget homed choice enough⟩
  · intro trail r session
    have paid := spends session
    omega
  · intro trail r session choice fuel enough
    have paid := spends session
    have homed := (session_spends budget first session).1
    exact advance_ends budget homed choice (by omega)
  · intro fuel choices enough faultless
    rcases playthrough_session (by omega) faultless p.bound with ended | ⟨trail, session, long⟩
    · exact ended
    · have paid := spends session
      omega

theorem errand_acyclic (start : String) : errand.Acyclic start := by
  refine Program.acyclic_of_rank (fun title => if title = "Start" then 1 else 0) ?_ start
  have listed : errand.nodeMentions = [.title "Shop", .title "Start", .id .once "first",
      .reference "Shop" .detour "Start"] := by decide +kernel
  rw [listed]
  intro target transfer title referred
  simp only [List.mem_cons, Program.Mention.reference.injEq, reduceCtorEq, List.not_mem_nil,
    false_or, or_false] at referred
  obtain ⟨rfl, -, rfl⟩ := referred
  decide

/-- What is reached after the last of some calls stays as it is when the dialogue is over. -/
theorem playthrough_stays {fuel : Nat} {choices : Nat → Option Nat} {calls : Nat}
    (finished : (playthrough fuel p s choices calls).1.finished = true) (more : Nat) :
    playthrough fuel p s choices (calls + more) = playthrough fuel p s choices calls := by
  induction more with
  | zero => rfl
  | succ more ih =>
      rw [← Nat.add_assoc, playthrough, ih]
      simp [finished]

theorem suits_of_not_options {choice : Option Nat}
    (other : r.current.any RunResult.isOptions = false) : r.Suits choice := by
  intro shown current
  rw [current] at other
  cases other

/-- The errand run to its end; it never asks for a choice. -/
def errandPlay : Nat → Runner × Signal :=
  playthrough 8 errand (.starting "Start") fun _ => none

theorem errand_faultless : Faultless 8 errand (.starting "Start") fun _ => none := by
  have finished : (errandPlay 2).1.finished = true := by decide +kernel
  have early : ∀ calls < 3, (errandPlay calls).2 = .suspended ∧
      (errandPlay calls).1.current.any RunResult.isOptions = false := by
    decide +kernel
  have all : ∀ calls, ∃ earlier < 3, errandPlay calls = errandPlay earlier := by
    intro calls
    by_cases before : calls < 3
    · exact ⟨calls, before, rfl⟩
    · obtain ⟨more, rfl⟩ := Nat.exists_eq_add_of_le (show 2 ≤ calls by omega)
      exact ⟨2, by decide, playthrough_stays finished more⟩
  refine ⟨?_, ?_⟩
  · intro calls
    obtain ⟨earlier, before, same⟩ := all calls
    have suspended : (errandPlay calls).2 = .suspended := same ▸ (early earlier before).1
    exact suspended ▸ by simp [Signal.Clean]
  · intro calls _
    obtain ⟨earlier, before, same⟩ := all calls
    exact suits_of_not_options (r := (errandPlay calls).1) (same ▸ (early earlier before).2)

theorem errand_ends : errand.bound = 8 ∧ Ends errand (.starting "Start") 8 ∧
    ∃ calls ≤ 8, (errandPlay calls).1.finished = true := by
  have bound : errand.bound = 8 := by decide +kernel
  have ends : Ends errand (.starting "Start") errand.bound := acyclic_ends (errand_acyclic "Start")
  rw [bound] at ends
  exact ⟨bound, ends, ends.finishes 8 _ (Nat.le_refl 8) errand_faultless⟩

end Runner

end Dialogue
