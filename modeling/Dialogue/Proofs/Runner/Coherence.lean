import Dialogue.Proofs.Runner.Session
import Mathlib.Data.List.Pairwise

set_option autoImplicit false

namespace Dialogue

/-- The call was turned away: a choice was missing or out of range, or the dialogue was over. -/
def RuntimeError.Refuses : RuntimeError → Prop
  | .optionRequired => True
  | .invalidOption _ _ => True
  | .dialogueFinished => True
  | _ => False

/-- There was no node to enter. -/
def RuntimeError.Misses : RuntimeError → Prop
  | .unknownNode _ => True
  | .noMatchingNode _ => True
  | _ => False

/-- The numbers of the visible options stand for the options that are shown, in their order. -/
structure PendingOptions.Lists (pending : PendingOptions) (shown : OptionsResult) : Prop where
  count : pending.visible.length = shown.options.length
  ascending : pending.visible.Pairwise (· < ·)
  nonempty : pending.visible ≠ []

namespace Runner

/-- A program was started, and every call since then has led to a result or was turned away. The
number counts the calls that led to a result. Between calls the host may change the store, and
other runners may mark a ledger that they share with this one. -/
inductive Exchange (p : Program) (s : Setup) : Nat → Runner → Prop
  | start {fuel : Nat} {r : Runner} (started : start fuel p s = (r, .suspended)) :
      Exchange p s 0 r
  | advance {advances fuel : Nat} {r after : Runner} {choice : Option Nat}
      (earlier : Exchange p s advances r) (called : r.advance fuel choice = (after, .suspended)) :
      Exchange p s (advances + 1) after
  | refuse {advances fuel : Nat} {r after : Runner} {choice : Option Nat} {cause : RuntimeError}
      (earlier : Exchange p s advances r)
      (called : r.advance fuel choice = (after, .faulted cause)) (refuses : cause.Refuses) :
      Exchange p s advances after
  | outside {advances : Nat} {r : Runner} (earlier : Exchange p s advances r) (store : Store)
      (ledger : Ledger) : Exchange p s advances { r with store := store, ledger := ledger }

/-- The parts of a runner agree after the given number of calls. -/
structure Coherent (advances : Nat) (r : Runner) : Prop where
  latest : r.current = r.history.getLast?
  counted : r.history.length = advances + 1
  asking : r.pending.isSome = true ↔ ∃ shown, r.current = some (.options shown)
  listed : ∀ pending shown, r.pending = some pending → r.current = some (.options shown) →
    pending.Lists shown
  /-- The dialogue is over only with nothing to return to, and behind an empty text. -/
  ended : r.finished = true → r.stack = [] ∧
    ∃ shown, r.current = some (.text shown) ∧ shown.text = "" ∧ shown.endsNode = true

/-- The result has just been shown, behind the given ones. -/
structure Presents (before : List RunResult) (result : RunResult) (r : Runner) : Prop where
  history_eq : r.history = before ++ [result]
  current_eq : r.current = some result
  offers : ∀ shown, result = .options shown → ∃ pending, r.pending = some pending ∧
    pending.Lists shown
  idle : result.isOptions = false → r.pending = none
  ended : r.finished = true → r.stack = [] ∧ ∃ node, result = .closing node

theorem Presents.coherent {before : List RunResult} {result : RunResult} {r : Runner}
    (presents : Presents before result r) : Coherent before.length r := by
  refine ⟨?_, ?_, ?_, ?_, ?_⟩
  · rw [presents.current_eq, presents.history_eq, List.getLast?_concat]
  · rw [presents.history_eq, List.length_append, List.length_singleton]
  · rw [presents.current_eq]
    cases result with
    | options shown =>
        obtain ⟨pending, waiting, -⟩ := presents.offers shown rfl
        simp [waiting]
    | text shown => simp [presents.idle rfl]
    | command shown => simp [presents.idle rfl]
  · intro pending shown waiting current
    rw [presents.current_eq, Option.some.injEq] at current
    obtain ⟨other, offered, lists⟩ := presents.offers shown current
    rw [waiting, Option.some.injEq] at offered
    rw [offered]
    exact lists
  · intro finished
    obtain ⟨stack, node, rfl⟩ := presents.ended finished
    exact ⟨stack, _, presents.current_eq, rfl, rfl⟩

/-- The visible options keep the order of their instruction. -/
theorem offered_ascending (r : Runner) (choices : List (Choice × Block)) :
    ((r.offered choices).map (·.2)).Pairwise (· < ·) := by
  have kept : ((r.offered choices).map (·.2)).Sublist ((choices.map (·.1)).zipIdx.map (·.2)) :=
    List.filter_sublist.map _
  have numbers : (choices.map (·.1)).zipIdx.map (·.2) = List.range' 0 (choices.map (·.1)).length :=
    List.zipIdx_map_snd 0 _
  rw [numbers] at kept
  exact List.Pairwise.sublist kept List.pairwise_lt_range'

/-- A result that is no choice leaves nothing on offer. -/
theorem presents_emit {r shown : Runner} {result : RunResult} {visitRecorded : Bool}
    (history : shown.history = r.history) (plain : result.isOptions = false)
    (idle : shown.pending = none) (unfinished : shown.finished = false) :
    Presents r.history result (shown.emit result visitRecorded) where
  history_eq := by rw [emit_history, history]
  current_eq := emit_current _ _ _
  offers options same := by
    rw [same] at plain
    cases plain
  idle _ := (emit_pending _ _ _).trans idle
  ended finished := by
    rw [emit_finished, unfinished] at finished
    cases finished

/-- A step that shows a result leaves the runner as the result says. -/
theorem presents_step {r after : Runner} (idle : r.pending = none) (unfinished : r.finished = false)
    (suspended : r.step = .suspended after) : ∃ result, Presents r.history result after := by
  have outcome := r.transition
  rw [suspended] at outcome
  cases outcome with
  | @nodeDone node found outside done =>
      refine ⟨.closing node, ?_⟩
      rcases endNode_cases outside node with ⟨stack, same⟩ | ⟨title, member, ip, below, -, same⟩
      · rw [same]
        refine ⟨rfl, rfl, ?_, fun _ => idle, fun _ => ⟨stack, node, rfl⟩⟩
        intro shown other
        cases other
      · rw [same]
        refine ⟨rfl, rfl, ?_, fun _ => idle, ?_⟩
        · intro shown other
          cases other
        · intro finished
          simp [Stage.present, unfinished] at finished
  | line found next =>
      exact ⟨_, presents_emit (by simp) rfl (r.fetched_pending.trans idle)
        (by simpa using unfinished)⟩
  | @command node content found next =>
      refine ⟨_, presents_emit ?_ rfl (r.fetched_pending.trans idle) ?_⟩
      · exact (r.fetched.dispatch_history content).trans (by simp)
      · exact (r.fetched.dispatch_finished content).trans (by simpa using unfinished)
  | @offer node choices found next visible =>
      refine ⟨_, ?_, emit_current _ _ _, ?_, ?_, ?_⟩
      · rw [offer, emit_history]
        exact congrArg (· ++ _) (show r.fetched.history = r.history by simp)
      · rintro shown same
        obtain rfl := RunResult.options.inj same
        refine ⟨_, emit_pending _ _ _, ?_, r.fetched.offered_ascending choices, ?_⟩
        · simp
        · simpa using visible
      · intro plain
        cases plain
      · intro finished
        rw [offer, emit_finished] at finished
        simp [unfinished] at finished

theorem presents_run {fuel : Nat} {r after : Runner} (idle : r.pending = none)
    (unfinished : r.finished = false) (ran : r.run fuel = (after, .suspended)) :
    ∃ result, Presents r.history result after := by
  induction fuel generalizing r with
  | zero => cases ran
  | succ fuel ih =>
      rw [run_succ] at ran
      cases taken : r.step with
      | running next =>
          rw [taken] at ran
          obtain ⟨stillIdle, stillUnfinished⟩ := running_idle taken
          rw [← running_history taken]
          exact ih (stillIdle.trans idle) (stillUnfinished.trans unfinished) ran
      | suspended shown =>
          rw [taken, Prod.mk.injEq] at ran
          rw [← ran.1]
          exact presents_step idle unfinished taken
      | faulted left cause =>
          rw [taken] at ran
          cases ran

/-- A run faults only by failing to enter a node. -/
theorem run_misses {fuel : Nat} {r after : Runner} {cause : RuntimeError}
    (ran : r.run fuel = (after, .faulted cause)) : cause.Misses := by
  induction fuel generalizing r with
  | zero => cases ran
  | succ fuel ih =>
      rw [run_succ] at ran
      cases taken : r.step with
      | running next =>
          rw [taken] at ran
          exact ih ran
      | suspended shown =>
          rw [taken] at ran
          cases ran
      | faulted left other =>
          rw [taken, Prod.mk.injEq, Signal.faulted.injEq] at ran
          have fault : r.step.fault? = some cause := by
            rw [taken, ← ran.2]
            rfl
          rcases fault_cases fault with ⟨-, rfl⟩ | ⟨i, target, g, -, -, -, refused⟩
          · trivial
          · rcases Stage.select_error refused with ⟨-, rfl⟩ | ⟨group, -, -, -, rfl⟩
            · trivial
            · trivial

/-- No run is turned away. -/
theorem run_not_refused {fuel : Nat} {r after : Runner} {cause : RuntimeError}
    (ran : r.run fuel = (after, .faulted cause)) : ¬ cause.Refuses := by
  have misses := run_misses ran
  cases cause with
  | unknownNode title => exact id
  | noMatchingNode title => exact id
  | _ => exact misses.elim

/-- A call is turned away by its choice, before a step is taken. -/
theorem choose_of_refused {fuel : Nat} {r after : Runner} {choice : Option Nat}
    {cause : RuntimeError} (called : r.advance fuel choice = (after, .faulted cause))
    (refuses : cause.Refuses) : after = r ∧ r.choose choice = .error cause := by
  unfold advance at called
  cases chosen : r.choose choice with
  | ok ready =>
      rw [chosen] at called
      exact absurd refuses (run_not_refused called)
  | error other =>
      rw [chosen, Prod.mk.injEq, Signal.faulted.injEq] at called
      exact ⟨called.1.symm, by rw [called.2]⟩

/-- A call that is turned away leaves the runner as it was. -/
theorem advance_refused {fuel : Nat} {r after : Runner} {choice : Option Nat}
    {cause : RuntimeError} (called : r.advance fuel choice = (after, .faulted cause))
    (refuses : cause.Refuses) : after = r :=
  (choose_of_refused called refuses).1

theorem advance_finished {r : Runner} (finished : r.finished = true) (fuel : Nat)
    (choice : Option Nat) : r.advance fuel choice = (r, .faulted .dialogueFinished) := by
  simp [advance, choose, finished]

/-- A choice that is taken up adds nothing to the results. -/
theorem choose_history {r ready : Runner} {choice : Option Nat}
    (chosen : r.choose choice = .ok ready) : ready.history = r.history := by
  obtain ⟨-, ⟨-, rfl⟩ | ⟨pending, index, sub, -, -, -, rfl⟩⟩ := choose_ok chosen
  · rfl
  · rfl

theorem presents_advance {fuel : Nat} {r after : Runner} {choice : Option Nat}
    (called : r.advance fuel choice = (after, .suspended)) :
    ∃ result, Presents r.history result after := by
  unfold advance at called
  cases chosen : r.choose choice with
  | error cause =>
      rw [chosen] at called
      cases called
  | ok ready =>
      rw [chosen] at called
      obtain ⟨idle, unfinished⟩ := choose_idle chosen
      rw [← choose_history chosen]
      exact presents_run idle unfinished called

/-- Behind options the number of one of them is taken up, and behind other results anything. -/
theorem Presents.choose {before : List RunResult} {result : RunResult} {r : Runner}
    (presents : Presents before result r) (unfinished : r.finished = false) {choice : Option Nat}
    (fits : ∀ shown, result = .options shown →
      ∃ index, choice = some index ∧ index < shown.options.length) :
    ∃ ready, r.choose choice = .ok ready := by
  cases plain : result.isOptions with
  | false => exact ⟨r, choose_unasked unfinished (presents.idle plain) choice⟩
  | true =>
      cases result with
      | text shown => cases plain
      | command shown => cases plain
      | options shown =>
          obtain ⟨pending, waiting, lists⟩ := presents.offers shown rfl
          obtain ⟨index, rfl, below⟩ := fits shown rfl
          rw [← lists.count] at below
          refine ⟨{ r with pending := none }.openBlock pending.path pending.index
            pending.visible[index], ?_⟩
          simp [Runner.choose, unfinished, waiting, below]

/-- A call whose choice is taken up leads to a result, or fails to enter a node. -/
theorem Presents.advance {before : List RunResult} {result : RunResult} {r after : Runner}
    (presents : Presents before result r) (unfinished : r.finished = false) {choice : Option Nat}
    (fits : ∀ shown, result = .options shown →
      ∃ index, choice = some index ∧ index < shown.options.length)
    {fuel : Nat} {signal : Signal} (called : r.advance fuel choice = (after, signal)) :
    (signal = .suspended ∧ ∃ next, Presents r.history next after) ∨
      (∃ cause, signal = .faulted cause ∧ cause.Misses) ∨ signal = .exhausted := by
  cases signal with
  | suspended => exact .inl ⟨rfl, presents_advance called⟩
  | exhausted => exact .inr (.inr rfl)
  | faulted cause =>
      obtain ⟨ready, taken⟩ := presents.choose unfinished fits
      unfold Runner.advance at called
      rw [taken] at called
      exact .inr (.inl ⟨cause, rfl, run_misses called⟩)

theorem presents_start {fuel : Nat} {p : Program} {s : Setup} {r : Runner}
    (started : start fuel p s = (r, .suspended)) : ∃ result, Presents [] result r := by
  unfold Runner.start at started
  cases first : (initial p s).enter s.start with
  | error cause =>
      rw [first] at started
      cases started
  | ok begun =>
      rw [first] at started
      obtain ⟨member, node, ledger, -, rfl⟩ := enter_ok first
      exact presents_run rfl rfl started

/-- In each state between two calls the parts of a runner agree; once the dialogue is over, every
further call is turned away and changes nothing. -/
theorem exchange_coherent {p : Program} {s : Setup} {advances : Nat} {r : Runner}
    (exchange : Exchange p s advances r) :
    Coherent advances r ∧ (r.finished = true →
      ∀ fuel choice, r.advance fuel choice = (r, .faulted .dialogueFinished)) := by
  refine ⟨?_, fun finished => advance_finished finished⟩
  induction exchange with
  | start started =>
      obtain ⟨result, presents⟩ := presents_start started
      exact presents.coherent
  | advance earlier called ih =>
      obtain ⟨result, presents⟩ := presents_advance called
      rw [← ih.counted]
      exact presents.coherent
  | refuse earlier called refuses ih =>
      rw [advance_refused called refuses]
      exact ih
  | outside earlier store ledger ih => exact ⟨ih.latest, ih.counted, ih.asking, ih.listed, ih.ended⟩

theorem errand_coherent : ∃ ended,
    Exchange errand (.starting "Start") 2 ended ∧ ended.finished = true ∧ Coherent 2 ended ∧
      ∀ fuel choice, ended.advance fuel choice = (ended, .faulted .dialogueFinished) := by
  let left := (errandRun.advance 8 none).1
  have begun : (start 8 errand (.starting "Start")).2 = .suspended := by decide +kernel
  have first : (errandRun.advance 8 none).2 = .suspended := by decide +kernel
  have second : (left.advance 8 none).2 = .suspended := by decide +kernel
  have finished : (left.advance 8 none).1.finished = true := by decide +kernel
  have started : Exchange errand (.starting "Start") 0 errandRun := .start (Prod.ext rfl begun)
  have exchange := (started.advance (Prod.ext rfl first)).advance (Prod.ext rfl second)
  obtain ⟨coherent, closed⟩ := exchange_coherent exchange
  exact ⟨_, exchange, finished, coherent, closed finished⟩

end Runner

end Dialogue
