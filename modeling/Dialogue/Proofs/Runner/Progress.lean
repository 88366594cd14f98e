import Dialogue.Proofs.Program.Mentions
import Dialogue.Proofs.Runner.Session

set_option autoImplicit false

namespace Dialogue

/-- Every title has a node that can always be selected: its only one, or one whose conditions are
all trivial. -/
def Program.Selectable (p : Program) : Prop :=
  ∀ entry ∈ p.nodes.entries,
    entry.2 ≠ [] ∧
      (2 ≤ entry.2.length →
        ∃ node ∈ entry.2, ∀ condition ∈ node.conditions, Stage.isWord "always" condition = true)

instance (p : Program) : Decidable p.Selectable :=
  inferInstanceAs (Decidable (∀ entry ∈ p.nodes.entries, _ ∧ (_ → _)))

namespace Stage

theorem isOnce_of_always {condition : String} (always : isWord "always" condition = true) :
    isOnce condition = false := by
  unfold isOnce isWord at *
  rw [eq_of_beq always]
  decide

theorem admits_always (g : Stage) (title : String) (index : Nat) {node : Node}
    (trivial : ∀ condition ∈ node.conditions, isWord "always" condition = true) :
    g.admits title index node = true := by
  unfold admits
  rw [List.all_eq_true]
  rintro ⟨condition, place⟩ listed
  have always := trivial condition (List.fst_mem_of_mem_zipIdx listed)
  simp [conditionHolds, isOnce_of_always always, always]

/-- A title of the program is refused only because no node of its group is admitted. -/
theorem select_known {g : Stage} {title : String} {cause : RuntimeError}
    (known : g.program.nodes.contains title = true) (refused : g.select title = .error cause) :
    ∃ group, g.program.group? title = some group ∧ group.length ≠ 1 ∧
      (∀ node index, group[index]? = some node → g.admits title index node = false) ∧
      cause = .noMatchingNode title := by
  rcases select_error refused with ⟨missing, -⟩ | several
  · unfold Program.group? at missing
    rw [Table.contains, missing] at known
    cases known
  · exact several

/-- Where every group has a node that can always be selected, no title of the program is refused. -/
theorem select_selectable {g : Stage} {title : String} {cause : RuntimeError}
    (selectable : g.program.Selectable) (known : g.program.nodes.contains title = true) :
    g.select title ≠ .error cause := by
  intro refused
  obtain ⟨group, found, several, nobody, -⟩ := select_known known refused
  obtain ⟨nonempty, unconditional⟩ := selectable _ (Table.mem_of_get? found)
  have positive : 0 < group.length := List.length_pos_iff.mpr nonempty
  have two : 2 ≤ group.length := by omega
  obtain ⟨node, listed, always⟩ := unconditional two
  obtain ⟨index, placed⟩ := List.mem_iff_getElem?.mp listed
  have refusedHere := nobody node index placed
  rw [g.admits_always title index always] at refusedHere
  cases refusedHere

end Stage

namespace Runner

/-- The next instruction is found from its place. -/
theorem next?_place (r : Runner) :
    r.next? =
      r.node?.bind fun node => Block.instruction? node.instructions r.place.1 r.place.2 := by
  unfold next? place
  cases r.stack with
  | nil => rfl
  | cons frame below => cases frame <;> rfl

/-- The node that is running, and every node that a detour returns to, are nodes of the program. -/
structure Located (p : Program) (r : Runner) : Prop where
  program_eq : r.program = p
  here : ∃ node, p.nodeAt? r.title r.member = some node
  saved : ∀ title member ip, .detour title member ip ∈ r.stack →
    ∃ node, p.nodeAt? title member = some node

/-- While options are on offer, they are the current result. -/
def Asked (r : Runner) : Prop :=
  ∀ pending, r.pending = some pending →
    ∃ shown, r.current = some (.options shown) ∧ shown.options.length = pending.visible.length

/-- The choice is as the current result asks: options need the number of one of them. -/
def Suits (r : Runner) (choice : Option Nat) : Prop :=
  ∀ shown, r.current = some (.options shown) →
    ∃ index, choice = some index ∧ index < shown.options.length

/-- A call has led to a result, has run out of steps, or has failed for one of the given causes. -/
def Answers (causes : RuntimeError → Prop) (outcome : Runner × Signal) : Prop :=
  match outcome.2 with
  | .suspended => outcome.1.current.isSome = true
  | .exhausted => True
  | .faulted cause => causes cause

/-- The start, and every later call that is made as the runner asks while the dialogue is not over,
fail for the given causes only, whatever other calls came before. -/
structure Progress (p : Program) (s : Setup) (causes : RuntimeError → Prop) : Prop where
  start : ∀ fuel, Answers causes (start fuel p s)
  advance : ∀ trail r, Session (fun _ => True) p s trail r → r.finished = false →
    ∀ choice, r.Suits choice → ∀ fuel, Answers causes (r.advance fuel choice)

theorem asked_of_idle {r : Runner} (idle : r.pending = none) : r.Asked := by
  intro pending waiting
  rw [idle] at waiting
  cases waiting

namespace Located

variable {p : Program} {r : Runner}

theorem node (located : Located p r) : ∃ node, r.node? = some node := by
  unfold node?
  rw [located.program_eq]
  exact located.here

/-- A runner in the same node, with no other detours to return from. -/
theorem of_eq {other : Runner} (located : Located p r) (program : other.program = r.program)
    (title : other.title = r.title) (member : other.member = r.member)
    (stack : ∀ title member ip, .detour title member ip ∈ other.stack →
      .detour title member ip ∈ r.stack) : Located p other := by
  refine ⟨program.trans located.program_eq, ?_, ?_⟩
  · rw [title, member]
    exact located.here
  · intro title member ip listed
    exact located.saved title member ip (stack title member ip listed)

theorem fetched (located : Located p r) : Located p r.fetched := by
  refine located.of_eq (by simp) (by simp) (by simp) ?_
  intro title member ip listed
  unfold Runner.fetched at listed
  split at listed
  · rename_i path index below stack
    rw [stack]
    simpa using listed
  · exact listed

theorem openBlock (located : Located p r) (path : BlockPath) (index sub : Nat) :
    Located p (r.openBlock path index sub) := by
  refine located.of_eq rfl rfl rfl ?_
  intro title member ip listed
  simpa [Runner.openBlock] using listed

theorem depart (located : Located p r) : Located p r.depart := by
  refine located.of_eq rfl rfl rfl ?_
  intro title member ip listed
  exact (List.dropWhile_sublist _).mem listed

theorem save (located : Located p r) : Located p r.save := by
  refine ⟨located.program_eq, located.here, ?_⟩
  intro title member ip listed
  rcases List.mem_cons.mp listed with own | below
  · obtain ⟨rfl, rfl, rfl⟩ := Frame.detour.inj own
    exact located.here
  · exact located.saved title member ip below

theorem emit (located : Located p r) (result : RunResult) (visitRecorded : Bool) :
    Located p (r.emit result visitRecorded) := by
  have program_eq := (emit_program r result visitRecorded).trans located.program_eq
  rcases r.emit_cases result visitRecorded with
    ⟨-, title, member, ip, below, stack, same⟩ | ⟨-, same⟩
  · rw [same] at program_eq ⊢
    refine ⟨program_eq, located.saved title member ip (by rw [stack]; exact List.mem_cons_self), ?_⟩
    intro other place position listed
    refine located.saved other place position ?_
    rw [stack]
    exact List.mem_cons_of_mem _ listed
  · rw [same]
    exact ⟨located.program_eq, located.here, located.saved⟩

theorem enter {entered : Runner} {title : String} (program_eq : r.program = p)
    (saved : ∀ title member ip, .detour title member ip ∈ r.stack →
      ∃ node, p.nodeAt? title member = some node)
    (ok : r.enter title = .ok entered) : Located p entered := by
  obtain ⟨member, node, ledger, found, rfl⟩ := enter_ok ok
  rw [program_eq] at found
  exact ⟨program_eq, ⟨node, found⟩, saved⟩

/-- A step leads from nodes of the program to nodes of the program, also when it fails. -/
theorem step (located : Located p r) : Located p r.step.state := by
  have outcome := r.transition
  generalize r.step = taken at outcome
  cases outcome with
  | lost missing => exact located
  | blockDone found inside done =>
      refine located.of_eq rfl rfl rfl ?_
      intro title member ip listed
      rw [inside]
      exact List.mem_cons_of_mem _ listed
  | nodeDone found outside done =>
      have left : Located p { r with toStage := r.leave r.title r.stack.isEmpty } :=
        located.of_eq rfl rfl rfl fun _ _ _ listed => listed
      exact left.emit _ _
  | line found next => exact located.fetched.emit _ _
  | @command node content found next =>
      have dispatched : Located p { r.fetched with toStage := r.fetched.dispatch content } :=
        located.fetched.of_eq (by simp) rfl rfl fun _ _ _ listed => listed
      exact dispatched.emit _ _
  | jump next ok =>
      have left := located.fetched.depart
      exact enter left.program_eq left.saved ok
  | jumpRefused next refused => exact located.fetched.depart
  | detour next ok =>
      have away := located.fetched.save
      exact enter away.program_eq away.saved ok
  | detourRefused next refused => exact located.fetched.save
  | @offer node choices found next visible =>
      have waiting : ∀ pending, Located p { r.fetched with pending := pending } :=
        fun _ => located.fetched.of_eq rfl rfl rfl fun _ _ _ listed => listed
      exact (waiting _).emit _ _
  | pass next skips => exact located.fetched
  | @openBlock i sub ledger next opens =>
      have marked : Located p { r.fetched with ledger := ledger } :=
        located.fetched.of_eq rfl rfl rfl fun _ _ _ listed => listed
      exact marked.openBlock _ _ _

end Located

/-- A step that waits for a choice shows the options that it waits for. -/
theorem asked_step {r : Runner} (idle : r.pending = none) : r.step.state.Asked := by
  have outcome := r.transition
  generalize r.step = taken at outcome
  cases outcome with
  | @offer node choices found next visible =>
      intro pending waiting
      refine ⟨_, emit_current _ _ _, ?_⟩
      obtain rfl : _ = pending := Option.some.inj ((emit_pending _ _ _).symm.trans waiting)
      simp
  | nodeDone found outside done => exact asked_of_idle ((emit_pending _ _ _).trans idle)
  | line found next =>
      exact asked_of_idle ((emit_pending _ _ _).trans (r.fetched_pending.trans idle))
  | command found next =>
      exact asked_of_idle ((emit_pending _ _ _).trans (r.fetched_pending.trans idle))
  | jump next ok =>
      obtain ⟨member, node, ledger, -, rfl⟩ := enter_ok ok
      exact asked_of_idle (r.fetched_pending.trans idle)
  | detour next ok =>
      obtain ⟨member, node, ledger, -, rfl⟩ := enter_ok ok
      exact asked_of_idle (r.fetched_pending.trans idle)
  | lost missing => exact asked_of_idle idle
  | blockDone found inside done => exact asked_of_idle idle
  | _ => exact asked_of_idle (r.fetched_pending.trans idle)

theorem suspended_current {r after : Runner} (suspended : r.step = .suspended after) :
    after.current.isSome = true := by
  have outcome := r.transition
  rw [suspended] at outcome
  cases outcome with
  | nodeDone found outside done => rw [endNode, emit_current]; rfl
  | line found next => rw [emit_current]; rfl
  | command found next => rw [emit_current]; rfl
  | offer found next visible => rw [offer, emit_current]; rfl

/-- The causes cover every way in which the selection of a title of the program can fail. -/
def Covers (p : Program) (causes : RuntimeError → Prop) : Prop :=
  ∀ (g : Stage) (title : String) (cause : RuntimeError), g.program = p →
    p.nodes.contains title = true → g.select title = .error cause → causes cause

section Checked

variable {p : Program} {s : Setup} {causes : RuntimeError → Prop}

/-- In a checked program, a step fails only where the selection of a title of the program does. -/
theorem fault_covered (valid : p.validate = []) (covers : Covers p causes) {r : Runner}
    (located : Located p r) {cause : RuntimeError} (fault : r.step.fault? = some cause) :
    causes cause := by
  rcases fault_cases fault with ⟨missing, -⟩ | ⟨i, target, g, next, hands, program, refused⟩
  · obtain ⟨node, found⟩ := located.node
    rw [missing] at found
    cases found
  · rw [next?_place] at next
    obtain ⟨node, found, placed⟩ := Option.bind_eq_some_iff.mp next
    unfold node? at found
    rw [located.program_eq] at found
    have known := Program.contains_target valid found placed hands
    exact covers g target cause (program.trans located.program_eq) known refused

theorem run_answers (valid : p.validate = []) (covers : Covers p causes) (fuel : Nat) {r : Runner}
    (located : Located p r) : Answers causes (r.run fuel) := by
  induction fuel generalizing r with
  | zero => exact trivial
  | succ fuel ih =>
      have next := located.step
      rw [run_succ]
      cases taken : r.step with
      | running after =>
          rw [taken] at next
          exact ih next
      | suspended after => exact suspended_current taken
      | faulted after cause =>
          have fault : r.step.fault? = some cause := by rw [taken]; rfl
          exact fault_covered valid covers located fault

theorem located_enter {first : Runner} (ok : (initial p s).enter s.start = .ok first) :
    Located p first :=
  Located.enter rfl (fun _ _ _ listed => by cases listed) ok

theorem session_located {trail : List Runner} {r : Runner}
    (session : Session (fun _ => True) p s trail r) : Located p r ∧ r.Asked := by
  refine Session.invariant (I := fun _ r => Located p r ∧ r.Asked) ?_ ?_ ?_ session
  · intro first ok
    refine ⟨located_enter ok, ?_⟩
    obtain ⟨member, node, ledger, -, rfl⟩ := enter_ok ok
    exact asked_of_idle rfl
  · intro before state valid idle _ _
    exact ⟨valid.1.step, asked_step idle⟩
  · intro before state pending index sub valid _ _
    have answered : Located p { state with pending := none } :=
      valid.1.of_eq rfl rfl rfl fun _ _ _ listed => listed
    exact ⟨answered.openBlock _ _ _, asked_of_idle rfl⟩

/-- A choice that suits the current result is taken up. -/
theorem choose_suits {r : Runner} {choice : Option Nat} (located : Located p r) (asked : r.Asked)
    (unfinished : r.finished = false) (suits : r.Suits choice) :
    ∃ ready, r.choose choice = .ok ready ∧ Located p ready := by
  cases waiting : r.pending with
  | none => exact ⟨r, choose_unasked unfinished waiting choice, located⟩
  | some pending =>
      obtain ⟨shown, current, count⟩ := asked pending waiting
      obtain ⟨index, rfl, inside⟩ := suits shown current
      rw [count] at inside
      refine ⟨{ r with pending := none }.openBlock pending.path pending.index
        pending.visible[index], ?_, ?_⟩
      · simp [choose, unfinished, waiting, inside]
      · have answered : Located p { r with pending := none } :=
          located.of_eq rfl rfl rfl fun _ _ _ listed => listed
        exact answered.openBlock _ _ _

/-- A checked program makes progress up to the refusals of its groups. -/
theorem progress_of_covers (valid : p.validate = []) (known : p.nodes.contains s.start = true)
    (covers : Covers p causes) : Progress p s causes := by
  refine ⟨?_, ?_⟩
  · intro fuel
    unfold Runner.start
    cases first : (initial p s).enter s.start with
    | ok begun => exact run_answers valid covers fuel (located_enter first)
    | error cause => exact covers (s.stage p) s.start cause rfl known (enter_error first)
  · intro trail r session unfinished choice suits fuel
    obtain ⟨located, asked⟩ := session_located session
    obtain ⟨ready, chosen, readyLocated⟩ := choose_suits located asked unfinished suits
    unfold Runner.advance
    rw [chosen]
    exact run_answers valid covers fuel readyLocated

/-- A program that passes the check, started at one of its titles, can fail only because no node of
a group matches, and not at all if every group has a node that can always be selected. -/
theorem checked_progress (valid : p.validate = []) (known : p.nodes.contains s.start = true) :
    Progress p s (fun cause => ∃ title, cause = .noMatchingNode title) ∧
      (p.Selectable → Progress p s fun _ => False) := by
  refine ⟨progress_of_covers valid known ?_, ?_⟩
  · rintro g title cause rfl present refused
    obtain ⟨group, -, -, -, rfl⟩ := Stage.select_known present refused
    exact ⟨title, rfl⟩
  · intro selectable
    refine progress_of_covers valid known ?_
    rintro g title cause rfl present refused
    exact Stage.select_selectable selectable present refused

theorem errand_progress : Progress errand (.starting "Start") fun _ => False := by
  have valid : errand.validate = [] := by decide +kernel
  have known : errand.nodes.contains "Start" = true := by decide +kernel
  have selectable : errand.Selectable := by decide +kernel
  exact (checked_progress valid known).2 selectable

end Checked

end Runner

end Dialogue
