import Dialogue.Proofs.Runner.Blocks
import Dialogue.Proofs.Runner.Coherence

set_option autoImplicit false

namespace Dialogue.Runner

/-- Calls on a runner, each of which has ended in an allowed way, and the states in which they took
their steps. Between calls the host may change the store, and other runners may mark a ledger that
they share with this one. -/
inductive Calls (allowed : Signal → Prop) (origin : Runner) : List Runner → Runner → Prop
  | begun : Calls allowed origin [] origin
  | call {trail : List Runner} {r after : Runner} {fuel : Nat} {choice : Option Nat}
      {signal : Signal} (earlier : Calls allowed origin trail r)
      (called : r.advance fuel choice = (after, signal)) (permitted : allowed signal) :
      Calls allowed origin (trail ++ r.advanceTrail fuel choice) after
  | outside {trail : List Runner} {r : Runner} (earlier : Calls allowed origin trail r)
      (store : Store) (ledger : Ledger) :
      Calls allowed origin trail { r with store := store, ledger := ledger }

/-- What every step, every choice and every change from outside keep, the calls keep. -/
theorem Calls.invariant {allowed : Signal → Prop} {origin r : Runner}
    {I : List Runner → Runner → Prop} {before trail : List Runner}
    (stepped : ∀ trail r, I trail r → r.pending = none → r.finished = false →
      (∀ cause, r.step.fault? = some cause → allowed (.faulted cause)) →
      I (trail ++ [r]) r.step.state)
    (chosen : ∀ (trail : List Runner) (r : Runner) (pending : PendingOptions) (index sub : Nat),
      I trail r → r.pending = some pending → pending.visible[index]? = some sub →
      I trail ({ r with pending := none }.openBlock pending.path pending.index sub))
    (outside : ∀ trail r store ledger, I trail r →
      I trail { r with store := store, ledger := ledger })
    (calls : Calls allowed origin trail r) (valid : I before origin) : I (before ++ trail) r := by
  induction calls with
  | begun => simpa using valid
  | call earlier called permitted ih =>
      rw [← List.append_assoc]
      exact advance_invariant stepped chosen ih called permitted
  | outside earlier store ledger ih => exact outside _ _ store ledger ih

/-- The call led to a result or was turned away. -/
def Signal.Answered : Signal → Prop
  | .suspended => True
  | .faulted cause => cause.Refuses
  | .exhausted => False

/-- The last step of a run is the one that shows its result. -/
theorem trail_last {fuel : Nat} {r after : Runner} (unfinished : r.finished = false)
    (ran : r.run fuel = (after, .suspended)) :
    ∃ last, (r.trail fuel).getLast? = some last ∧ last.step = .suspended after ∧
      last.finished = false := by
  induction fuel generalizing r with
  | zero => cases ran
  | succ fuel ih =>
      rw [run_succ] at ran
      unfold trail
      cases taken : r.step with
      | running next =>
          rw [taken] at ran
          obtain ⟨last, ends, suspended, still⟩ := ih ((running_idle taken).2.trans unfinished) ran
          exact ⟨last, by rw [List.getLast?_cons, ends]; rfl, suspended, still⟩
      | suspended shown =>
          rw [taken, Prod.mk.injEq] at ran
          exact ⟨r, rfl, by rw [taken, ran.1], unfinished⟩
      | faulted left cause =>
          rw [taken] at ran
          cases ran

/-- The options of an instruction whose conditions hold, with their blocks and their numbers. -/
def displayed (r : Runner) (choices : List (Choice × Block)) : List ((Choice × Block) × Nat) :=
  choices.zipIdx.filter fun c => r.meets c.2 c.1.1.condition

/-- The runner shows the options that `asker` has come to, and waits behind them. -/
structure Asks (asker : Runner) (choices : List (Choice × Block)) (shown : OptionsResult)
    (r : Runner) : Prop where
  next : asker.next? = some (.options choices)
  options_eq : shown.options =
    (asker.fetched.displayed choices).map fun c => asker.fetched.optionView c.2 c.1.1
  program_eq : r.program = asker.program
  spot_eq : r.spot = asker.fetched.spot
  stack_eq : r.stack = asker.fetched.stack
  pending_eq : r.pending =
    some ⟨asker.place.1, asker.place.2, (asker.fetched.offered choices).map (·.2)⟩
  unfinished : r.finished = false

section Offered

variable {r : Runner} {choices : List (Choice × Block)}

/-- The options on offer are the displayed ones without their blocks. -/
theorem offered_eq (r : Runner) (choices : List (Choice × Block)) :
    r.offered choices = (r.displayed choices).map fun c => (c.1.1, c.2) := by
  unfold offered displayed
  rw [List.zipIdx_map, List.filter_map]
  rfl

theorem views_eq (r : Runner) (choices : List (Choice × Block)) :
    ((r.offered choices).map fun c => r.optionView c.2 c.1) =
      (r.displayed choices).map fun c => r.optionView c.2 c.1.1 := by
  rw [offered_eq, List.map_map]
  rfl

theorem length_offered (r : Runner) (choices : List (Choice × Block)) :
    ((r.offered choices).map (·.2)).length = (r.displayed choices).length := by
  rw [offered_eq, List.length_map, List.length_map]

/-- The number of a displayed option finds the option and its block in the instruction. -/
theorem offered_of_displayed {i : Nat} {choice : Choice} {block : Block} {sub : Nat}
    (shown : (r.displayed choices)[i]? = some ((choice, block), sub)) :
    ((r.offered choices).map (·.2))[i]? = some sub ∧
      (Instruction.options choices).subBlock? sub = some block := by
  have member := (List.mem_filter.mp (List.mem_of_getElem? shown)).1
  rw [List.mem_zipIdx_iff_getElem?] at member
  constructor
  · rw [offered_eq, List.map_map, List.getElem?_map, shown]
    rfl
  · rw [Instruction.subBlock?, Instruction.blocks, List.getElem?_map, member]
    rfl

end Offered

/-- Options close no node. -/
theorem emit_options (r : Runner) (shown : OptionsResult) (visitRecorded : Bool) :
    r.emit (.options shown) visitRecorded = { r with toStage := r.present (.options shown) } := by
  rw [emit, RunResult.closes_options]

/-- A step that shows options has come to an instruction that offers them. -/
theorem asks_of_step {asker r : Runner} {shown : OptionsResult}
    (suspended : asker.step = .suspended r) (unfinished : asker.finished = false)
    (current : r.current = some (.options shown)) : ∃ choices, Asks asker choices shown r := by
  have outcome := asker.transition
  rw [suspended] at outcome
  cases outcome with
  | @nodeDone node found outside done =>
      rw [endNode, emit_current] at current
      cases current
  | line found next =>
      rw [emit_current] at current
      cases current
  | command found next =>
      rw [emit_current] at current
      cases current
  | @offer node choices found next visible =>
      rw [offer, emit_current] at current
      obtain rfl := RunResult.options.inj (Option.some.inj current)
      refine ⟨choices, ?_⟩
      rw [offer, emit_options]
      exact
        { next := next
          options_eq := views_eq asker.fetched choices
          program_eq := by simp [Stage.present]
          spot_eq := rfl
          stack_eq := rfl
          pending_eq := rfl
          unfinished := by simpa [Stage.present] using unfinished }

theorem asks_of_run {fuel : Nat} {r after : Runner} {shown : OptionsResult}
    (unfinished : r.finished = false) (ran : r.run fuel = (after, .suspended))
    (current : after.current = some (.options shown)) :
    ∃ asker choices, (r.trail fuel).getLast? = some asker ∧ Asks asker choices shown after := by
  obtain ⟨asker, last, suspended, still⟩ := trail_last unfinished ran
  obtain ⟨choices, asks⟩ := asks_of_step suspended still current
  exact ⟨asker, choices, last, asks⟩

/-- A call that is turned away takes no step. -/
theorem advanceTrail_refused {fuel : Nat} {r after : Runner} {choice : Option Nat}
    {cause : RuntimeError} (called : r.advance fuel choice = (after, .faulted cause))
    (refuses : cause.Refuses) : r.advanceTrail fuel choice = [] := by
  rw [advanceTrail, (choose_of_refused called refuses).2]

/-- As long as options are shown, the step that showed them is the last one. -/
theorem asks_of_calls {fuel : Nat} {p : Program} {s : Setup} {first r : Runner}
    {trail : List Runner} (started : start fuel p s = (first, .suspended))
    (calls : Calls Signal.Answered first trail r) {shown : OptionsResult}
    (current : r.current = some (.options shown)) :
    ∃ asker choices, (startTrail fuel p s ++ trail).getLast? = some asker ∧
      Asks asker choices shown r := by
  induction calls with
  | begun =>
      unfold Runner.start at started
      unfold startTrail
      cases entry : (initial p s).enter s.start with
      | error cause =>
          rw [entry] at started
          cases started
      | ok begun =>
          simp only [entry] at started
          obtain ⟨member, node, ledger, -, rfl⟩ := enter_ok entry
          rw [List.append_nil]
          exact asks_of_run rfl started current
  | @call trail r after fuel choice signal earlier called permitted ih =>
      cases signal with
      | exhausted => cases permitted
      | faulted cause =>
          obtain rfl := advance_refused called permitted
          rw [advanceTrail_refused called permitted, List.append_nil]
          exact ih current
      | suspended =>
          unfold advance at called
          unfold advanceTrail
          cases taken : r.choose choice with
          | error cause =>
              rw [taken] at called
              cases called
          | ok ready =>
              simp only [taken] at called
              obtain ⟨asker, choices, last, asks⟩ :=
                asks_of_run (choose_idle taken).2 called current
              refine ⟨asker, choices, ?_, asks⟩
              rw [List.getLast?_append, List.getLast?_append, last]
              rfl
  | outside earlier store ledger ih =>
      obtain ⟨asker, choices, last, asks⟩ := ih current
      exact ⟨asker, choices, last, asks.next, asks.options_eq, asks.program_eq, asks.spot_eq,
        asks.stack_eq, asks.pending_eq, asks.unfinished⟩

/-- With the choice `i`, the runner turns to `block`, which is nested in the instruction that
`asker` has come to. However it goes on from there, the block takes its course. -/
structure Takes (asker r : Runner) (i : Nat) (block : Block) (ready : Runner) : Prop where
  chosen : r.choose (some i) = .ok ready
  next_eq : ready.next? = block.head?
  placed : ∃ path, ready.stack = .block path 0 :: asker.fetched.stack ∧
    ready.spot = asker.fetched.spot ∧ Leads asker path block ∧
    ∀ fuel after signal since later, r.advance fuel (some i) = (after, signal) → signal.Clean →
      Calls Signal.Clean after since later →
      Course asker path block (r.advanceTrail fuel (some i) ++ since) later

theorem Asks.takes {asker r : Runner} {choices : List (Choice × Block)} {shown : OptionsResult}
    (asks : Asks asker choices shown r) {i : Nat} {choice : Choice} {block : Block} {sub : Nat}
    (displayed : (asker.fetched.displayed choices)[i]? = some ((choice, block), sub)) :
    ∃ ready, Takes asker r i block ready := by
  obtain ⟨offered, nested⟩ := offered_of_displayed displayed
  let path := asker.place.1 ++ [(asker.place.2, sub)]
  let ready := { r with pending := none }.openBlock asker.place.1 asker.place.2 sub
  have chosen : r.choose (some i) = .ok ready := by
    simp only [choose, asks.unfinished, asks.pending_eq, offered]
    rfl
  have stack_eq : ready.stack = .block path 0 :: asker.fetched.stack := by
    rw [← asks.stack_eq]
    rfl
  have leads : Leads asker path block := by
    have next := asks.next
    rw [next?_place, Option.bind_eq_some_iff] at next
    obtain ⟨node, found, placed⟩ := next
    refine ⟨node, found, ?_⟩
    rw [Block.resolve?_snoc, placed]
    exact nested
  have stacked : Stacked path 0 asker.fetched.stack asker.fetched.spot [] ready :=
    ⟨stack_eq, asks.spot_eq⟩
  have begun : Within asker path block [] ready :=
    ⟨asks.program_eq, List.nil_prefix, [], stacked⟩
  refine ⟨ready, chosen, ?_, path, stack_eq, asks.spot_eq, leads, ?_⟩
  · rw [begun.next? leads (stacked.atop_iff.mpr rfl)]
    exact List.head?_eq_getElem?.symm
  · intro fuel after signal since later called clean calls
    have stepped : ∀ trail r, Course asker path block trail r → r.pending = none →
        r.finished = false →
        (∀ cause, r.step.fault? = some cause → Signal.Clean (.faulted cause)) →
        Course asker path block (trail ++ [r]) r.step.state :=
      fun trail r course idle _ clean => course.step leads (fault_none_of_clean clean) idle
    unfold advance at called
    unfold advanceTrail
    simp only [chosen] at called ⊢
    have first := run_invariant stepped fuel (.within begun) rfl asks.unfinished
    rw [called] at first
    refine calls.invariant stepped ?_ ?_ (first fun cause faulted => faulted ▸ clean)
    · intro trail r pending index sub course waiting offered
      exact course.chosen waiting pending.path pending.index sub
    · intro trail r store ledger course
      exact course.outside store ledger

/-- The options shown are those that `asker` has come to and whose conditions hold there, and the
next call takes up just the choices among them. -/
structure Honours (asker r : Runner) (choices : List (Choice × Block)) (shown : OptionsResult) :
    Prop where
  next : asker.next? = some (.options choices)
  options_eq : shown.options =
    (asker.fetched.displayed choices).map fun c => asker.fetched.optionView c.2 c.1.1
  taken : ∀ i < shown.options.length, ∃ choice block number ready,
    (asker.fetched.displayed choices)[i]? = some ((choice, block), number) ∧
      Takes asker r i block ready
  beyond : ∀ i fuel, shown.options.length ≤ i →
    r.advance fuel (some i) = (r, .faulted (.invalidOption i shown.options.length))
  required : ∀ fuel, r.advance fuel none = (r, .faulted .optionRequired)

theorem Asks.honours {asker r : Runner} {choices : List (Choice × Block)} {shown : OptionsResult}
    (asks : Asks asker choices shown r) : Honours asker r choices shown := by
  have count : shown.options.length = (asker.fetched.displayed choices).length := by
    rw [asks.options_eq, List.length_map]
  refine ⟨asks.next, asks.options_eq, ?_, ?_, ?_⟩
  · intro i below
    rw [count] at below
    obtain ⟨ready, takes⟩ := asks.takes (List.getElem?_eq_getElem below)
    exact ⟨_, _, _, ready, List.getElem?_eq_getElem below, takes⟩
  · intro i fuel beyond
    rw [count, ← length_offered] at beyond ⊢
    simp only [advance, choose, asks.unfinished, asks.pending_eq, List.getElem?_eq_none beyond,
      Bool.false_eq_true, if_false]
  · intro fuel
    simp [advance, choose, asks.unfinished, asks.pending_eq]

/-- Whenever options are shown between two calls, they are those of the instruction that was
executed last, and the next call honours them. -/
theorem choice_fidelity {fuel : Nat} {p : Program} {s : Setup} {first r : Runner}
    {trail : List Runner} {shown : OptionsResult} (started : start fuel p s = (first, .suspended))
    (calls : Calls Signal.Answered first trail r) (current : r.current = some (.options shown)) :
    ∃ asker choices, (startTrail fuel p s ++ trail).getLast? = some asker ∧
      Honours asker r choices shown := by
  obtain ⟨asker, choices, last, asks⟩ := asks_of_calls started calls current
  exact ⟨asker, choices, last, asks.honours⟩

/-- A program that hides the first of two options, inside of a block. -/
def menu : Program :=
  let soup : Choice := ⟨"Soup", [], none, some "false", none⟩
  let bread : Choice := ⟨"Bread", [], none, none, none⟩
  let offers : Instruction := .options [(soup, [.command "cook"]), (bread, [.command "bake"])]
  ⟨.empty, .ofList [("Start", [⟨"Start", [.once "first" [offers], .command "leave"], [], none,
    none⟩])]⟩

/-- The program after its first result, which shows one option. -/
def menuRun : Runner :=
  (start 8 menu (.starting "Start")).1

/-- The texts that are shown for options. -/
def optionTexts : RunResult → List String
  | .options shown => shown.options.map (·.text)
  | _ => []

theorem menu_fidelity :
    let trail := startTrail 8 menu (.starting "Start") ++ ([] ++ menuRun.advanceTrail 8 (some 1))
    let turned := (menuRun.advance 8 (some 1)).1
    ∃ shown asker choices, turned.current = some (.options shown) ∧
      shown.options.map (·.text) = ["Bread"] ∧ trail.getLast? = some asker ∧
      Honours asker turned choices shown := by
  intro trail turned
  have begun : (start 8 menu (.starting "Start")).2 = .suspended := by decide +kernel
  have refused : (menuRun.advance 8 (some 1)).2 = .faulted (.invalidOption 1 1) := by
    decide +kernel
  have labels : turned.current.map optionTexts = some ["Bread"] := by decide +kernel
  have calls : Calls Signal.Answered menuRun ([] ++ menuRun.advanceTrail 8 (some 1)) turned :=
    .call .begun (Prod.ext rfl refused) trivial
  obtain ⟨result, current, labels⟩ := Option.map_eq_some_iff.mp labels
  cases result with
  | options shown =>
      have fidelity := choice_fidelity (Prod.ext rfl begun) calls current
      obtain ⟨asker, choices, last, honours⟩ := fidelity
      exact ⟨shown, asker, choices, current, labels, last, honours⟩
  | text shown => cases labels
  | command shown => cases labels

end Dialogue.Runner
