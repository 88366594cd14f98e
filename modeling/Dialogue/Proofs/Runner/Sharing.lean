import Dialogue.Proofs.Ledger.History
import Dialogue.Proofs.Runner.Session

set_option autoImplicit false

namespace Dialogue

open Ledger (Entry Replays nodeKey)

namespace Stage

/-- Whether a node has a condition `once` that does not hold. -/
def onceFails (g : Stage) (title : String) (index : Nat) (node : Node) : Bool :=
  node.conditions.any fun condition => isOnce condition && !g.conditionHolds title index condition

/-- The node of a group that is selected, if `once` is one of its conditions. -/
def takenEntries (g : Stage) (title : String) : List Entry :=
  match g.select title with
  | .ok (index, node, _) =>
      if node.conditions.any isOnce then [.shown (.node title index)] else []
  | .error _ => []

/-- What a selection shows and withholds. The nodes before the selected one are turned down; a node
that is alone under its title is taken without conditions. -/
def selectionEntries (g : Stage) (title : String) : List Entry :=
  match g.program.group? title with
  | none => []
  | some [_] => []
  | some group =>
      let turnedDown := group.zipIdx.takeWhile fun m => !g.admits title m.2 m.1
      let failing := turnedDown.filter fun m => g.onceFails title m.2 m.1
      (failing.map fun m => Item.node title m.2).map .withheld ++ g.takenEntries title

/-- A condition `once` fails only for a node that the ledger has seen. -/
theorem seen_of_onceFails {g : Stage} {title : String} {index : Nat} {node : Node}
    (fails : g.onceFails title index node = true) : g.ledger.seen (.node title index) = true := by
  obtain ⟨condition, -, failing⟩ := List.any_eq_true.mp fails
  rw [Bool.and_eq_true, Bool.not_eq_true'] at failing
  obtain ⟨once, refused⟩ := failing
  simpa [Ledger.seen, conditionHolds, once] using refused

theorem unseen_of_admits {g : Stage} {title : String} {index : Nat} {node : Node}
    (admitted : g.admits title index node = true) (once : node.conditions.any isOnce = true) :
    g.ledger.seen (.node title index) = false := by
  obtain ⟨condition, member, isOnce⟩ := List.any_eq_true.mp once
  obtain ⟨place, placed⟩ := List.mem_iff_getElem?.mp member
  have listed : (condition, place) ∈ node.conditions.zipIdx :=
    List.mem_zipIdx_iff_getElem?.mpr placed
  have holds := List.all_eq_true.mp admitted _ listed
  simpa [Ledger.seen, conditionHolds, isOnce, drawing] using holds

/-- A selection goes through its entries. -/
theorem select_replays (g : Stage) (title : String) :
    Replays g.ledger (g.selectionEntries title)
      (match g.select title with
        | .ok (_, _, stage) => stage.ledger
        | .error _ => g.ledger) := by
  unfold selectionEntries
  split
  · rename_i missing
    simp only [select, missing]
    exact .nil _
  · rename_i only found
    simp only [select, found]
    exact .nil _
  · rename_i group several found
    refine Replays.append (Replays.of_withheld ?_) ?_
    · intro item listed
      obtain ⟨m, member, rfl⟩ := List.mem_map.mp listed
      exact seen_of_onceFails (List.mem_filter.mp member).2
    · unfold takenEntries select
      simp only [found]
      cases first : group.zipIdx.find? fun m => g.admits title m.2 m.1 with
      | none => exact .nil _
      | some m =>
          have admitted : g.admits title m.2 m.1 = true := by simpa using List.find?_some first
          simp only [ledgerAfter]
          split
          · rename_i once
            exact .shown (unseen_of_admits admitted once) (.nil _)
          · exact .nil _

@[simp] theorem dispatch_ledger (g : Stage) (content : String) :
    (g.dispatch content).ledger = g.ledger := by
  unfold dispatch
  split <;> rfl

end Stage

namespace Runner

@[simp] theorem emit_ledger (r : Runner) (result : RunResult) (visitRecorded : Bool) :
    (r.emit result visitRecorded).ledger = r.ledger := by
  unfold emit
  split
  · cases visitRecorded <;> rfl
  · rfl

theorem enter_replays {r entered : Runner} {title : String} (ok : r.enter title = .ok entered) :
    Replays r.ledger (r.selectionEntries title) entered.ledger := by
  have replays := r.select_replays title
  unfold enter at ok
  cases selected : r.select title with
  | error cause => simp [selected] at ok
  | ok taken =>
      obtain ⟨member, node, stage⟩ := taken
      simp only [selected, Except.ok.injEq] at ok replays
      rw [← ok]
      exact replays

theorem refused_replays {r : Runner} {title : String} {cause : RuntimeError}
    (refused : r.enter title = .error cause) :
    Replays r.ledger (r.selectionEntries title) r.ledger := by
  have replays := r.select_replays title
  rw [enter_error refused] at replays
  exact replays

/-- What the next step shows and withholds. A once block is shown if the step goes into it. -/
def stepEntries (r : Runner) : List Entry :=
  match r.next? with
  | some (.once id _) =>
      if r.step.state.stack = r.fetched.stack then [.withheld (.block id)]
      else [.shown (.block id)]
  | some (.jump target) => r.fetched.depart.selectionEntries target
  | some (.detour target) => r.fetched.save.selectionEntries target
  | _ => []

/-- A step goes through its entries. -/
theorem step_replays (r : Runner) : Replays r.ledger r.stepEntries r.step.state.ledger := by
  have outcome := r.transition
  unfold stepEntries
  generalize r.step = taken at outcome ⊢
  cases outcome with
  | lost missing =>
      have idle : r.next? = none := by simp [next?, missing]
      rw [idle]
      exact .nil _
  | blockDone found inside done =>
      rw [done]
      exact .nil _
  | nodeDone found outside done =>
      rw [done]
      simp only [Step.state, endNode, emit_ledger]
      exact .nil _
  | line found next =>
      rw [next]
      simp only [Step.state, emit_ledger, fetched_toStage]
      exact .nil _
  | command found next =>
      rw [next]
      simp only [Step.state, emit_ledger, Stage.dispatch_ledger, fetched_toStage]
      exact .nil _
  | jump next ok =>
      rw [next]
      simpa [Step.state, depart, Stage.recordVisit] using enter_replays ok
  | jumpRefused next refused =>
      rw [next]
      simpa [Step.state, depart, Stage.recordVisit] using refused_replays refused
  | detour next ok =>
      rw [next]
      simpa [Step.state, save] using enter_replays ok
  | detourRefused next refused =>
      rw [next]
      simpa [Step.state, save] using refused_replays refused
  | offer found next visible =>
      rw [next]
      simp only [Step.state, offer, emit_ledger, fetched_toStage]
      exact .nil _
  | @pass i next skips =>
      rw [next]
      cases i with
      | once id block =>
          simp only [Step.state, if_true, fetched_toStage]
          exact .withheld skips (.nil _)
      | options choices =>
          simp only [Step.state, fetched_toStage]
          exact .nil _
      | branches branches =>
          simp only [Step.state, fetched_toStage]
          exact .nil _
      | _ => exact skips.elim
  | @openBlock i sub ledger next opens =>
      rw [next]
      cases i with
      | once id block =>
          obtain ⟨fresh, rfl, rfl⟩ := opens
          have inside : ¬(.block (r.place.1 ++ [(r.place.2, 0)]) 0 :: r.fetched.stack =
              r.fetched.stack) := by simp
          simp only [Step.state, openBlock, inside, if_false]
          exact .shown fresh (.nil _)
      | branches branches =>
          obtain ⟨-, rfl⟩ := opens
          exact .nil _
      | _ => exact opens.elim

/-- What the steps of a run show and withhold. -/
def trailEntries (trail : List Runner) : List Entry :=
  trail.flatMap stepEntries

theorem run_replays (fuel : Nat) (r : Runner) :
    Replays r.ledger (trailEntries (r.trail fuel)) (r.run fuel).1.ledger := by
  induction fuel generalizing r with
  | zero => exact .nil _
  | succ fuel ih =>
      have once := r.step_replays
      rw [run_succ, trail]
      cases taken : r.step with
      | running after =>
          rw [taken] at once
          exact once.append (ih after)
      | suspended after =>
          rw [taken] at once
          simpa [Step.state, trailEntries] using once
      | faulted after cause =>
          rw [taken] at once
          simpa [Step.state, trailEntries] using once

def startEntries (fuel : Nat) (p : Program) (s : Setup) : List Entry :=
  (initial p s).selectionEntries s.start ++ trailEntries (startTrail fuel p s)

theorem start_replays (fuel : Nat) (p : Program) (s : Setup) :
    Replays s.ledger (startEntries fuel p s) (start fuel p s).1.ledger := by
  unfold startEntries start startTrail
  cases first : (initial p s).enter s.start with
  | error cause => exact (refused_replays first).append (.nil _)
  | ok begun => exact (enter_replays first).append (run_replays fuel begun)

theorem advance_replays (fuel : Nat) (r : Runner) (choice : Option Nat) :
    Replays r.ledger (trailEntries (r.advanceTrail fuel choice))
      (r.advance fuel choice).1.ledger := by
  unfold advance advanceTrail
  cases taken : r.choose choice with
  | error cause => exact .nil _
  | ok ready =>
      have kept : ready.ledger = r.ledger := by
        obtain ⟨-, ⟨-, rfl⟩ | ⟨pending, index, sub, -, -, -, rfl⟩⟩ := choose_ok taken
        · rfl
        · rfl
      rw [← kept]
      exact run_replays fuel ready

end Runner

open Runner (startEntries trailEntries)

/-- A call of a host that has one ledger for all its runners. -/
inductive Call where
  | start (fuel : Nat) (p : Program) (s : Setup)
  | advance (fuel : Nat) (runner : Nat) (choice : Option Nat)

structure Ensemble where
  ledger : Ledger
  runners : List Runner
  history : List Entry

namespace Ensemble

/-- A ledger on which no runner has been started. -/
def on (l : Ledger) : Ensemble :=
  ⟨l, [], []⟩

/-- Carries out a call on the shared ledger. A start that fails gives no runner, and a call of a
runner that does not exist does nothing. -/
def perform (e : Ensemble) : Call → Ensemble
  | .start fuel p s =>
      let s := { s with ledger := e.ledger }
      let (r, signal) := Runner.start fuel p s
      let runners := match signal with
        | .faulted _ => e.runners
        | _ => e.runners ++ [r]
      ⟨r.ledger, runners, e.history ++ startEntries fuel p s⟩
  | .advance fuel runner choice =>
      match e.runners[runner]? with
      | none => e
      | some r =>
          let r := { r with ledger := e.ledger }
          let after := (r.advance fuel choice).1
          ⟨after.ledger, e.runners.set runner after,
            e.history ++ trailEntries (r.advanceTrail fuel choice)⟩

def performAll (e : Ensemble) (calls : List Call) : Ensemble :=
  calls.foldl perform e

/-- The later ensemble has gone on from the earlier one: its history is longer by entries that the
ledger went through. -/
def Extends (e later : Ensemble) : Prop :=
  ∃ entries, later.history = e.history ++ entries ∧ Replays e.ledger entries later.ledger

theorem Extends.refl (e : Ensemble) : e.Extends e :=
  ⟨[], by simp, .nil _⟩

theorem Extends.trans {a b c : Ensemble} (first : a.Extends b) (second : b.Extends c) :
    a.Extends c := by
  obtain ⟨entries, longer, replays⟩ := first
  obtain ⟨more, longest, continues⟩ := second
  exact ⟨entries ++ more, by rw [longest, longer, List.append_assoc], replays.append continues⟩

theorem perform_extends (e : Ensemble) (call : Call) : e.Extends (e.perform call) := by
  cases call with
  | start fuel p s => exact ⟨_, rfl, Runner.start_replays fuel p { s with ledger := e.ledger }⟩
  | advance fuel runner choice =>
      simp only [perform]
      split
      · exact .refl e
      · rename_i r found
        exact ⟨_, rfl, Runner.advance_replays fuel { r with ledger := e.ledger } choice⟩

theorem performAll_extends (e : Ensemble) (calls : List Call) :
    e.Extends (e.performAll calls) := by
  induction calls generalizing e with
  | nil => exact .refl e
  | cons call calls ih => exact (perform_extends e call).trans (ih (e.perform call))

/-- From an initial ledger on, a history shows each item at most once and withholds none without
cause. -/
structure ShownOnce (initial : Ledger) (history : List Entry) : Prop where
  /-- A once block is entered at most once, and never if its identifier was seen from the start. -/
  block_once : ∀ id, history.count (.shown (.block id)) ≤ 1 ∧
    (initial.blockSeen id = true → .shown (.block id) ∉ history)
  /-- A node with the condition `once` is selected from its group at most once. -/
  node_once : ∀ title index, history.count (.shown (.node title index)) ≤ 1 ∧
    (initial.nodeSeen title index = true → .shown (.node title index) ∉ history)
  /-- A once block is passed by only if its identifier was seen from the start or its body was
  entered before. -/
  block_cause : ∀ id before after, history = before ++ .withheld (.block id) :: after →
    initial.blockSeen id = true ∨ .shown (.block id) ∈ before
  /-- The condition `once` of a node fails only if its key was seen from the start or the same node
  was selected before. -/
  node_cause : ∀ title index before after,
    history = before ++ .withheld (.node title index) :: after →
      initial.nodeSeen title index = true ∨ .shown (.node title index) ∈ before

theorem shownOnce_of_replays {initial later : Ledger} {history : List Entry}
    (replays : Replays initial history later) : ShownOnce initial history where
  block_once id := ⟨replays.count_shown (.block id), fun known => replays.not_shown_of_seen known⟩
  node_once title index :=
    ⟨replays.count_shown (.node title index), fun known => replays.not_shown_of_seen known⟩
  block_cause _ _ _ split := replays.withheld_cause split
  node_cause _ _ _ _ split := replays.withheld_cause split

/-- However the calls of runners on one ledger interleave, each once block and each node under the
condition `once` is shown at most once, and none is withheld that was not seen from the start or
shown before; keys of different nodes differ, and the ledger only grows from call to call. -/
theorem shown_once_under_sharing (initial : Ledger) (earlier later : List Call) :
    ShownOnce initial ((on initial).performAll (earlier ++ later)).history ∧
      ((on initial).performAll earlier).ledger.Within
        ((on initial).performAll (earlier ++ later)).ledger ∧
      ∀ title other index place,
        nodeKey title index = nodeKey other place → title = other ∧ index = place := by
  obtain ⟨history, longer, replays⟩ := performAll_extends (on initial) (earlier ++ later)
  have resumed : (on initial).performAll (earlier ++ later) =
      ((on initial).performAll earlier).performAll later := List.foldl_append
  obtain ⟨more, -, continues⟩ := performAll_extends ((on initial).performAll earlier) later
  refine ⟨?_, ?_, fun _ _ _ _ same => Ledger.nodeKey_inj same⟩
  · rw [longer]
    exact shownOnce_of_replays replays
  · rw [resumed]
    exact continues.within

/-- Two runners of one errand: what the first one has seen, the second one passes by. -/
example :
    ((on .empty).performAll [.start 8 Runner.errand (.starting "Start"),
      .start 8 Runner.errand (.starting "Start"),
      .start 8 Runner.errand (.starting "Shop")]).history =
      [.shown (.block "first"), .shown (.node "Shop" 0), .withheld (.block "first"),
        .withheld (.node "Shop" 0)] := by
  decide +kernel

end Ensemble

end Dialogue
