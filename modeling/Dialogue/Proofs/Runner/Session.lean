import Dialogue.Proofs.Runner.Transition

set_option autoImplicit false

namespace Dialogue.Runner

/-- The states in which a run takes its steps. -/
def trail : Nat → Runner → List Runner
  | 0, _ => []
  | fuel + 1, r =>
      match r.step with
      | .running after => r :: trail fuel after
      | _ => [r]

def startTrail (fuel : Nat) (p : Program) (s : Setup) : List Runner :=
  match (initial p s).enter s.start with
  | .ok r => r.trail fuel
  | .error _ => []

def advanceTrail (fuel : Nat) (r : Runner) (choice : Option Nat) : List Runner :=
  match r.choose choice with
  | .ok ready => ready.trail fuel
  | .error _ => []

/-- A program was started, and every later call has ended in an allowed way. A start that fails
gives no runner. A call that runs out of steps stops in the middle, where the next one goes on, so
the states between two results are reached as well. -/
inductive Session (allowed : Signal → Prop) (p : Program) (s : Setup) :
    List Runner → Runner → Prop
  | start {fuel : Nat} {r : Runner} {signal : Signal} (started : start fuel p s = (r, signal))
      (alive : ∀ cause, signal ≠ .faulted cause) :
      Session allowed p s (startTrail fuel p s) r
  | call {trail : List Runner} {r after : Runner} {fuel : Nat} {choice : Option Nat}
      {signal : Signal} (earlier : Session allowed p s trail r)
      (called : r.advance fuel choice = (after, signal)) (permitted : allowed signal) :
      Session allowed p s (trail ++ r.advanceTrail fuel choice) after

/-- A start that leads to a result begins a session. -/
theorem session_of_start {allowed : Signal → Prop} {p : Program} {s : Setup} {fuel : Nat}
    (suspended : (start fuel p s).2 = .suspended) :
    Session allowed p s (startTrail fuel p s) (start fuel p s).1 := by
  have started : start fuel p s = ((start fuel p s).1, .suspended) := Prod.ext rfl suspended
  exact .start started (by simp)

/-- The call did not fail to enter a node. -/
def Signal.Clean (signal : Signal) : Prop :=
  ∀ title, signal ≠ .faulted (.unknownNode title) ∧ signal ≠ .faulted (.noMatchingNode title)

/-- A step faults only by failing to enter a node. -/
theorem fault_none_of_clean {r : Runner}
    (clean : ∀ cause, r.step.fault? = some cause → Signal.Clean (.faulted cause)) :
    r.step.fault? = none := by
  cases fault : r.step.fault? with
  | none => rfl
  | some cause =>
      have untouched := clean cause fault
      rcases fault_cases fault with ⟨-, rfl⟩ | ⟨i, target, g, -, -, -, refused⟩
      · exact absurd rfl (untouched r.title).1
      · rcases Stage.select_error refused with ⟨-, rfl⟩ | ⟨group, -, -, -, rfl⟩
        · exact absurd rfl (untouched target).1
        · exact absurd rfl (untouched target).2

theorem run_zero (r : Runner) : r.run 0 = (r, .exhausted) := rfl

theorem run_succ (fuel : Nat) (r : Runner) :
    r.run (fuel + 1) =
      match r.step with
      | .running after => after.run fuel
      | .suspended after => (after, .suspended)
      | .faulted after cause => (after, .faulted cause) := by
  unfold run
  rw [runBy]
  cases r.step <;> rfl

/-- A choice that is taken up leads to a runner that is ready to run: either nothing was on offer,
or the block of an option that was on offer has been opened. -/
theorem choose_ok {r ready : Runner} {choice : Option Nat} (chosen : r.choose choice = .ok ready) :
    r.finished = false ∧
      (r.pending = none ∧ ready = r ∨
        ∃ pending index sub, r.pending = some pending ∧ choice = some index ∧
          pending.visible[index]? = some sub ∧
          ready = { r with pending := none }.openBlock pending.path pending.index sub) := by
  unfold choose at chosen
  split at chosen
  · cases chosen
  · rename_i unfinished
    refine ⟨by simpa using unfinished, ?_⟩
    split at chosen
    · rename_i idle
      exact .inl ⟨idle, (Except.ok.inj chosen).symm⟩
    · rename_i pending waiting
      split at chosen
      · cases chosen
      · rename_i index
        split at chosen
        · cases chosen
        · rename_i sub offered
          exact .inr ⟨pending, index, sub, waiting, rfl, offered, (Except.ok.inj chosen).symm⟩

theorem choose_idle {r ready : Runner} {choice : Option Nat}
    (chosen : r.choose choice = .ok ready) : ready.pending = none ∧ ready.finished = false := by
  obtain ⟨unfinished, ⟨idle, rfl⟩ | ⟨pending, index, sub, -, -, -, rfl⟩⟩ := choose_ok chosen
  · exact ⟨idle, unfinished⟩
  · exact ⟨rfl, unfinished⟩

/-- Where nothing is on offer, a runner goes on without a choice. -/
theorem choose_unasked {r : Runner} (unfinished : r.finished = false) (idle : r.pending = none)
    (choice : Option Nat) : r.choose choice = .ok r := by
  simp [choose, unfinished, idle]

section Invariant

variable {allowed : Signal → Prop} {p : Program} {s : Setup} {I : List Runner → Runner → Prop}

/-- What every step keeps, a run keeps. The trail grows by the states in which it took its steps. -/
theorem run_invariant
    (stepped : ∀ trail r, I trail r → r.pending = none → r.finished = false →
      (∀ cause, r.step.fault? = some cause → allowed (.faulted cause)) →
      I (trail ++ [r]) r.step.state)
    (fuel : Nat) {before : List Runner} {r : Runner} (valid : I before r)
    (idle : r.pending = none) (unfinished : r.finished = false)
    (permitted : ∀ cause, (r.run fuel).2 = .faulted cause → allowed (.faulted cause)) :
    I (before ++ r.trail fuel) (r.run fuel).1 := by
  induction fuel generalizing before r with
  | zero => simpa only [trail, List.append_nil, run_zero] using valid
  | succ fuel ih =>
      have once := stepped before r valid idle unfinished
      rw [run_succ] at permitted ⊢
      unfold trail
      cases taken : r.step with
      | running after =>
          rw [taken] at once permitted
          obtain ⟨stillIdle, stillUnfinished⟩ := running_idle taken
          have next := ih (once (by simp [Step.fault?])) (stillIdle.trans idle)
            (stillUnfinished.trans unfinished) permitted
          simpa only [List.append_assoc, List.singleton_append, Step.state] using next
      | suspended after =>
          rw [taken] at once
          exact once (by simp [Step.fault?])
      | faulted after cause =>
          rw [taken] at once permitted
          refine once ?_
          intro other same
          exact permitted other (by simpa [Step.fault?] using same)

/-- What every step and every choice keep, a call keeps. -/
theorem advance_invariant
    (stepped : ∀ trail r, I trail r → r.pending = none → r.finished = false →
      (∀ cause, r.step.fault? = some cause → allowed (.faulted cause)) →
      I (trail ++ [r]) r.step.state)
    (chosen : ∀ (trail : List Runner) (r : Runner) (pending : PendingOptions) (index sub : Nat),
      I trail r → r.pending = some pending → pending.visible[index]? = some sub →
      I trail ({ r with pending := none }.openBlock pending.path pending.index sub))
    {before : List Runner} {r after : Runner} {fuel : Nat} {choice : Option Nat} {signal : Signal}
    (valid : I before r) (called : r.advance fuel choice = (after, signal))
    (permitted : allowed signal) : I (before ++ r.advanceTrail fuel choice) after := by
  unfold advance at called
  unfold advanceTrail
  cases taken : r.choose choice with
  | error cause =>
      simp only [taken, Prod.mk.injEq] at called
      rw [← called.1, List.append_nil]
      exact valid
  | ok ready =>
      simp only [taken] at called
      obtain ⟨idle, unfinished⟩ := choose_idle taken
      have ready_valid : I before ready := by
        obtain ⟨-, ⟨-, rfl⟩ | ⟨pending, index, sub, waiting, -, offered, rfl⟩⟩ := choose_ok taken
        · exact valid
        · exact chosen before r pending index sub valid waiting offered
      have whole := run_invariant stepped fuel ready_valid idle unfinished
      rw [called] at whole
      refine whole ?_
      intro cause faulted
      rw [← faulted]
      exact permitted

/-- The principle by which invariants of sessions are proved. -/
theorem Session.invariant
    (entered : ∀ r, (initial p s).enter s.start = .ok r → I [] r)
    (stepped : ∀ trail r, I trail r → r.pending = none → r.finished = false →
      (∀ cause, r.step.fault? = some cause → allowed (.faulted cause)) →
      I (trail ++ [r]) r.step.state)
    (chosen : ∀ (trail : List Runner) (r : Runner) (pending : PendingOptions) (index sub : Nat),
      I trail r → r.pending = some pending → pending.visible[index]? = some sub →
      I trail ({ r with pending := none }.openBlock pending.path pending.index sub))
    {trail : List Runner} {r : Runner} (session : Session allowed p s trail r) : I trail r := by
  induction session with
  | @start fuel r signal started alive =>
      unfold Runner.start at started
      unfold startTrail
      cases first : (initial p s).enter s.start with
      | error cause =>
          simp only [first, Prod.mk.injEq] at started
          exact absurd started.2.symm (alive cause)
      | ok begun =>
          simp only [first] at started
          obtain ⟨member, node, ledger, -, rfl⟩ := enter_ok first
          have valid := run_invariant stepped fuel (entered _ first) rfl rfl
          rw [started] at valid
          exact valid fun cause faulted => absurd faulted (alive cause)
  | @call before r after fuel choice signal earlier called permitted ih =>
      exact advance_invariant stepped chosen ih called permitted

end Invariant

/-- A small program with a detour inside of a block, which leads to one of two nodes. -/
def errand : Program :=
  let caller : Node :=
    ⟨"Start", [.once "first" [.detour "Shop"], .command "leave"], [], none, none⟩
  let greeting : Node := ⟨"Shop", [.command "greet"], ["once"], none, none⟩
  let silence : Node := ⟨"Shop", [], ["always"], none, none⟩
  ⟨.empty, .ofList [("Start", [caller]), ("Shop", [greeting, silence])]⟩

/-- The program after its first result, which is that of the shop. -/
def errandRun : Runner :=
  (start 8 errand (.starting "Start")).1

theorem errand_session {allowed : Signal → Prop} :
    Session allowed errand (.starting "Start") (startTrail 8 errand (.starting "Start"))
      errandRun :=
  session_of_start (by decide +kernel)

end Dialogue.Runner
