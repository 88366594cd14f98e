import Dialogue.Proofs.Runner.Detour
import Dialogue.Proofs.Runner.Visits
import Mathlib.Data.List.Forall2

set_option autoImplicit false

namespace Dialogue

/-- The position that a detour returns to. -/
def Frame.ip? : Frame → Option Nat
  | detour _ _ ip => some ip
  | block _ _ => none

namespace Runner

/-- The detour frames on the stack. -/
def detours (r : Runner) : List Frame :=
  r.stack.filter fun frame => !frame.isBlock

/-- Whether the next step executes an instruction of the node's own list. -/
def atNode (r : Runner) : Bool :=
  match r.stack with
  | .block _ _ :: _ => false
  | _ => r.next?.isSome

/-- Whether the next step is a detour that leads nowhere. -/
def refusesDetour (r : Runner) : Bool :=
  match r.next?, r.step with
  | some (.detour _), .faulted _ _ => true
  | _, _ => false

/-- The activations of a run, numbered in the order in which they begin, and what was done in
them. -/
structure Chronicle where
  /-- The activation that is running. -/
  running : Nat
  /-- The activations that made the detours on the stack, innermost first. -/
  callers : List Nat
  begun : Nat
  /-- Every instruction executed outside of blocks: its activation and its place in the node. -/
  executed : List (Nat × Nat)
  /-- The activations of which a detour was refused. -/
  stranded : List Nat

namespace Chronicle

def initial : Chronicle :=
  ⟨0, [], 1, [], []⟩

/-- Notes what the step of a runner does in the running activation. -/
def note (c : Chronicle) (r : Runner) : Chronicle :=
  { c with
    executed := c.executed ++ if r.atNode then [(c.running, r.ip)] else []
    stranded := c.stranded ++ if r.refusesDetour then [c.running] else [] }

/-- Goes on to the activation that runs after the step of a runner. A node that is entered begins
one. A detour frame that is added belongs to the activation that was running, and with a frame that
is taken away its activation goes on. -/
def move (c : Chronicle) (r : Runner) : Chronicle :=
  match r.entered?, compare (Frame.depth r.step.state.stack) (Frame.depth r.stack) with
  | some _, .gt =>
      { c with running := c.begun, callers := c.running :: c.callers, begun := c.begun + 1 }
  | some _, _ => { c with running := c.begun, begun := c.begun + 1 }
  | none, .gt => { c with callers := c.running :: c.callers }
  | none, .lt => { c with running := c.callers.headD c.running, callers := c.callers.tail }
  | none, .eq => c

def add (c : Chronicle) (r : Runner) : Chronicle :=
  (c.note r).move r

end Chronicle

/-- The chronicle of the steps that were taken. -/
def chronicle (trail : List Runner) : Chronicle :=
  trail.foldl Chronicle.add .initial

theorem chronicle_snoc (trail : List Runner) (r : Runner) :
    chronicle (trail ++ [r]) = (chronicle trail).add r := by
  unfold chronicle
  rw [List.foldl_append]
  rfl

/-- The next instruction of the running node, then of each node that a detour returns to. -/
def positions (r : Runner) : List Nat :=
  r.ip :: r.stack.filterMap Frame.ip?

/-- The positions once the next instruction has been fetched. -/
def behind (r : Runner) : List Nat :=
  (if r.atNode then r.ip + 1 else r.ip) :: r.stack.filterMap Frame.ip?

theorem length_positions (r : Runner) : r.positions.length = Frame.depth r.stack + 1 := by
  unfold positions
  rw [List.length_cons, Nat.add_right_cancel_iff]
  induction r.stack with
  | nil => rfl
  | cons frame below ih =>
      cases frame with
      | detour title member ip =>
          rw [Frame.depth_detour, ← ih]
          rfl
      | block path index =>
          rw [Frame.depth_block, ← ih]
          rfl

theorem length_behind (r : Runner) : r.behind.length = Frame.depth r.stack + 1 := by
  rw [← r.length_positions]
  rfl

theorem ip?_dropWhile (frames : List Frame) :
    (frames.dropWhile Frame.isBlock).filterMap Frame.ip? = frames.filterMap Frame.ip? :=
  Frame.filterMap_dropWhile (fun _ _ => rfl) frames

theorem behind_of_none {r : Runner} (done : r.next? = none) : r.behind = r.positions := by
  have idle : r.atNode = false := by
    unfold atNode
    split
    · rfl
    · rw [done]
      rfl
  rw [behind, idle]
  rfl

theorem positions_fetched {r : Runner} {i : Instruction} (next : r.next? = some i) :
    r.fetched.positions = r.behind := by
  unfold fetched behind atNode positions
  rw [next]
  cases stack : r.stack with
  | nil => rfl
  | cons frame below =>
      cases frame with
      | detour title member ip => rfl
      | block path index => rfl

/-- A result stays at the level of its node, or returns from the innermost detour. -/
theorem positions_emit (r : Runner) (result : RunResult) (visitRecorded : Bool) :
    (r.emit result visitRecorded).positions = r.positions ∨
      (r.emit result visitRecorded).positions = r.positions.tail := by
  rcases r.emit_cases result visitRecorded with
    ⟨-, title, member, ip, below, stack, same⟩ | ⟨-, same⟩
  · refine .inr ?_
    rw [same]
    unfold positions
    rw [stack]
    rfl
  · exact .inl (by rw [same]; rfl)

/-- What a step does to the positions. -/
inductive Shift (r : Runner) : Prop
  | stays (entered : r.entered? = none) (same : r.step.state.positions = r.behind)
  | returns (entered : r.entered? = none) (same : r.step.state.positions = r.behind.tail)
  | jumps (title : String) (entered : r.entered? = some title)
      (same : r.step.state.positions = 0 :: r.behind.tail)
  | calls (title : String) (entered : r.entered? = some title)
      (same : r.step.state.positions = 0 :: r.behind)
  | strands (ip : Nat) (entered : r.entered? = none) (refused : r.refusesDetour = true)
      (same : r.step.state.positions = ip :: r.behind)

theorem entered?_of_running {r after : Runner} (taken : r.step = .running after) :
    r.entered? = r.next?.bind Instruction.target? := by
  unfold entered?
  rw [taken]

theorem shift_of_running {r after : Runner} (taken : r.step = .running after)
    (idle : r.next?.bind Instruction.target? = none) (same : after.positions = r.behind) :
    Shift r := by
  refine .stays ((entered?_of_running taken).trans idle) ?_
  rw [taken]
  exact same

theorem shift_of_shown {r shown : Runner} {result : RunResult} {visitRecorded : Bool}
    (taken : r.step = .suspended (shown.emit result visitRecorded))
    (same : shown.positions = r.behind) : Shift r := by
  have entered : r.entered? = none := by
    unfold entered?
    rw [taken]
  rcases shown.positions_emit result visitRecorded with kept | returned
  · refine .stays entered ?_
    rw [taken, ← same]
    exact kept
  · refine .returns entered ?_
    rw [taken, ← same]
    exact returned

/-- Every step moves the positions in one of the listed ways. -/
theorem shift (r : Runner) : Shift r := by
  have outcome := r.transition
  generalize taken : r.step = step at outcome
  cases outcome with
  | lost missing =>
      have done : r.next? = none := by simp [next?, missing]
      refine .stays ?_ ?_
      · unfold entered?
        rw [taken]
      · rw [taken, behind_of_none done]
        rfl
  | @blockDone node path index below found inside done =>
      refine shift_of_running taken (by rw [done]; rfl) ?_
      rw [behind_of_none done]
      unfold positions
      rw [inside]
      rfl
  | nodeDone found outside done =>
      refine shift_of_shown taken ?_
      rw [behind_of_none done]
      rfl
  | line found next => exact shift_of_shown taken (positions_fetched next)
  | command found next => exact shift_of_shown taken (positions_fetched next)
  | offer found next visible => exact shift_of_shown taken (positions_fetched next)
  | pass next skips =>
      refine shift_of_running taken ?_ (positions_fetched next)
      rw [next, Option.bind_some, skips.target?]
  | openBlock next opens =>
      refine shift_of_running taken ?_ (positions_fetched next)
      rw [next, Option.bind_some, opens.target?]
  | @jump target entered next ok =>
      refine .jumps target ?_ ?_
      · rw [entered?_of_running taken, next]
        rfl
      · obtain ⟨member, node, ledger, -, rfl⟩ := enter_ok ok
        rw [taken, ← positions_fetched next]
        exact congrArg (0 :: ·) (ip?_dropWhile r.fetched.stack)
  | @detour target entered next ok =>
      refine .calls target ?_ ?_
      · rw [entered?_of_running taken, next]
        rfl
      · obtain ⟨member, node, ledger, -, rfl⟩ := enter_ok ok
        rw [taken, ← positions_fetched next]
        rfl
  | jumpRefused next refused =>
      refine .stays ?_ ?_
      · unfold entered?
        rw [taken]
      · rw [taken, ← positions_fetched next]
        exact congrArg (r.fetched.ip :: ·) (ip?_dropWhile r.fetched.stack)
  | detourRefused next refused =>
      refine .strands r.fetched.ip ?_ ?_ ?_
      · unfold entered?
        rw [taken]
      · unfold refusesDetour
        rw [next, taken]
      · rw [taken, ← positions_fetched next]
        rfl

namespace Chronicle

variable {c : Chronicle} {r : Runner} {places : List Nat}

/-- An activation has executed nothing from the given place on, unless a detour of it was
refused. -/
def Ahead (c : Chronicle) (activation place : Nat) : Prop :=
  activation ∉ c.stranded → ∀ earlier, (activation, earlier) ∈ c.executed → earlier < place

/-- The chronicle fits a runner with the given positions. -/
structure Fits (c : Chronicle) (places : List Nat) : Prop where
  numbered : ∀ activation ∈ c.running :: c.callers, activation < c.begun
  past : ∀ entry ∈ c.executed, entry.1 < c.begun
  single : ∀ activation ∉ c.stranded, (c.running :: c.callers).count activation ≤ 1
  ahead : List.Forall₂ c.Ahead (c.running :: c.callers) places
  once : ∀ activation ∉ c.stranded, ∀ place, c.executed.count (activation, place) ≤ 1

theorem fits_initial : initial.Fits [0] where
  numbered := by simp [initial]
  past := by simp [initial]
  single activation _ := by
    simp only [initial, List.count_cons, List.count_nil]
    split <;> omega
  ahead := .cons (by simp [Ahead, initial]) .nil
  once := by simp [initial]

/-- No caller is the running activation, unless a detour of it was refused. -/
theorem Fits.apart (fits : c.Fits places) {activation : Nat} (sound : activation ∉ c.stranded)
    (waiting : activation ∈ c.callers) : activation ≠ c.running := by
  rintro rfl
  have twice := fits.single c.running sound
  rw [List.count_cons_self] at twice
  have once : 0 < c.callers.count c.running := List.count_pos_iff.mpr waiting
  omega

/-- Once its step is noted, the running activation is behind the instruction. -/
theorem Fits.note (fits : c.Fits r.positions) : (c.note r).Fits r.behind where
  numbered := fits.numbered
  past entry member := by
    rcases List.mem_append.mp member with old | new
    · exact fits.past entry old
    · split at new
      · rw [List.mem_singleton.mp new]
        exact fits.numbered _ List.mem_cons_self
      · cases new
  single activation sound :=
    fits.single activation fun listed => sound (List.mem_append_left _ listed)
  ahead := by
    obtain ⟨first, rest⟩ := List.forall₂_cons.mp fits.ahead
    refine .cons ?_ ?_
    · intro sound earlier member
      have before := first fun listed => sound (List.mem_append_left _ listed)
      rcases List.mem_append.mp member with old | new
      · have := before earlier old
        split <;> omega
      · split at new
        · rename_i node
          obtain ⟨-, rfl⟩ := Prod.mk.inj (List.mem_singleton.mp new)
          rw [if_pos node]
          exact Nat.lt_succ_self _
        · cases new
    · have others : ∀ activation ∈ c.callers, activation ∉ c.stranded → activation ≠ c.running :=
        fun activation waiting sound => fits.apart sound waiting
      refine ((List.forall₂_and_left _ _).mpr ⟨others, rest⟩).imp ?_
      rintro activation place ⟨other, before⟩ sound earlier member
      have still : activation ∉ c.stranded := fun listed => sound (List.mem_append_left _ listed)
      rcases List.mem_append.mp member with old | new
      · exact before still earlier old
      · split at new
        · exact absurd (Prod.mk.inj (List.mem_singleton.mp new)).1 (other still)
        · cases new
  once activation sound place := by
    have still : activation ∉ c.stranded := fun listed => sound (List.mem_append_left _ listed)
    have before := fits.once activation still place
    change (c.executed ++ _).count (activation, place) ≤ 1
    rw [List.count_append]
    by_cases fresh : r.atNode = true ∧ (c.running, r.ip) = (activation, place)
    · -- Everything the activation has executed so far stands before this instruction.
      obtain ⟨node, same⟩ := fresh
      obtain ⟨rfl, rfl⟩ := Prod.mk.inj same
      have ahead := (List.forall₂_cons.mp fits.ahead).1 still
      have absent : (c.running, r.ip) ∉ c.executed := fun member =>
        Nat.lt_irrefl _ (ahead r.ip member)
      rw [List.count_eq_zero.mpr absent, if_pos node, List.count_singleton_self]
    · have unchanged :
          (if r.atNode then [(c.running, r.ip)] else []).count (activation, place) = 0 := by
        split
        · rename_i node
          exact List.count_eq_zero.mpr fun member =>
            fresh ⟨node, (List.mem_singleton.mp member).symm⟩
        · rfl
      rw [unchanged]
      exact before

/-- A new activation is in front, above some of those that were live. -/
theorem Fits.enter (fits : c.Fits places) {callers rest : List Nat}
    (kept : callers.Sublist (c.running :: c.callers)) (ahead : List.Forall₂ c.Ahead callers rest) :
    ({ c with running := c.begun, callers := callers, begun := c.begun + 1 } : Chronicle).Fits
      (0 :: rest) where
  numbered activation member := by
    rcases List.mem_cons.mp member with rfl | older
    · exact Nat.lt_succ_self _
    · exact Nat.lt_succ_of_lt (fits.numbered activation (kept.mem older))
  past entry member := Nat.lt_succ_of_lt (fits.past entry member)
  single activation sound := by
    rw [List.count_cons]
    have before := (kept.count_le activation).trans (fits.single activation sound)
    split
    · rename_i same
      have absent : activation ∉ callers := by
        intro older
        have := fits.numbered activation (kept.mem older)
        rw [← beq_iff_eq.mp same] at this
        exact Nat.lt_irrefl _ this
      rw [List.count_eq_zero.mpr absent]
    · exact before
  ahead := by
    refine .cons ?_ ahead
    intro _ earlier member
    exact absurd (fits.past _ member) (Nat.lt_irrefl _)
  once := fits.once

/-- The activation that made the innermost detour goes on. -/
theorem Fits.back (fits : c.Fits places) (further : places.tail ≠ []) :
    ({ c with running := c.callers.headD c.running, callers := c.callers.tail } : Chronicle).Fits
      places.tail := by
  obtain ⟨running, callers, begun, executed, stranded⟩ := c
  have ahead := fits.ahead
  cases ahead with
  | cons first rest =>
      cases rest with
      | nil => exact absurd rfl further
      | @cons caller place callers places second rest =>
          refine ⟨?_, fits.past, ?_, .cons second rest, fits.once⟩
          · intro activation member
            exact fits.numbered activation (List.mem_cons_of_mem _ member)
          · intro activation sound
            have fewer : (caller :: callers).Sublist (running :: caller :: callers) :=
              List.sublist_cons_self _ _
            exact (fewer.count_le activation).trans (fits.single activation sound)

/-- A refused detour leaves a frame behind that belongs to the running activation itself. -/
theorem Fits.strand (fits : c.Fits places) (refused : c.running ∈ c.stranded) (place : Nat) :
    ({ c with callers := c.running :: c.callers } : Chronicle).Fits (place :: places) where
  numbered activation member := fits.numbered activation (by simpa using member)
  past := fits.past
  single activation sound := by
    have other : c.running ≠ activation := by
      rintro rfl
      exact sound refused
    rw [List.count_cons_of_ne other]
    exact fits.single activation sound
  ahead := .cons (fun sound => absurd refused sound) fits.ahead
  once := fits.once

theorem note_of_refused (c : Chronicle) (refused : r.refusesDetour = true) :
    (c.note r).running ∈ (c.note r).stranded := by
  unfold note
  rw [refused, if_pos rfl]
  exact List.mem_append_right _ (List.mem_singleton_self _)

/-- The chronicle of a step fits the runner after it. -/
theorem Fits.add (fits : c.Fits r.positions) : (c.add r).Fits r.step.state.positions := by
  have noted := fits.note
  have before := r.length_behind
  have after := r.step.state.length_positions
  obtain ⟨-, rest⟩ := List.forall₂_cons.mp noted.ahead
  unfold Chronicle.add move
  -- The stack tells by its depth which way the step has gone.
  cases r.shift with
  | stays entered same =>
      have level : compare (Frame.depth r.step.state.stack) (Frame.depth r.stack) = .eq := by
        rw [Nat.compare_eq_eq]
        rw [same] at after
        omega
      rw [entered, level, same]
      exact noted
  | returns entered same =>
      have shallower : compare (Frame.depth r.step.state.stack) (Frame.depth r.stack) = .lt := by
        rw [Nat.compare_eq_lt]
        rw [same, List.length_tail] at after
        omega
      have further : r.behind.tail ≠ [] := by
        rw [← same]
        exact List.cons_ne_nil _ _
      rw [entered, shallower, same]
      exact noted.back further
  | jumps title entered same =>
      have level : compare (Frame.depth r.step.state.stack) (Frame.depth r.stack) = .eq := by
        rw [Nat.compare_eq_eq]
        rw [same, List.length_cons, List.length_tail] at after
        omega
      rw [entered, level, same]
      exact noted.enter (List.sublist_cons_self _ _) rest
  | calls title entered same =>
      have deeper : compare (Frame.depth r.step.state.stack) (Frame.depth r.stack) = .gt := by
        rw [Nat.compare_eq_gt]
        rw [same, List.length_cons] at after
        omega
      rw [entered, deeper, same]
      exact noted.enter (List.Sublist.refl _) noted.ahead
  | strands ip entered refused same =>
      have deeper : compare (Frame.depth r.step.state.stack) (Frame.depth r.stack) = .gt := by
        rw [Nat.compare_eq_gt]
        rw [same, List.length_cons] at after
        omega
      rw [entered, deeper, same]
      exact noted.strand (note_of_refused c refused) _

end Chronicle

/-- A fault takes no detour frame away and adds none, unless it is that of a detour. -/
theorem detours_of_fault {r : Runner} {cause : RuntimeError} (fault : r.step.fault? = some cause)
    (plain : r.refusesDetour = false) : r.step.state.detours = r.detours := by
  have fetching : r.fetched.detours = r.detours := by
    unfold detours fetched
    split
    · rename_i path index below stack
      rw [stack]
      rfl
    · rfl
  have outcome := r.transition
  unfold refusesDetour at plain
  generalize r.step = taken at outcome fault plain
  cases outcome with
  | lost missing => rfl
  | jumpRefused next refused =>
      rw [← fetching]
      unfold detours
      rw [← List.filterMap_eq_filter]
      exact Frame.filterMap_dropWhile (fun _ _ => rfl) r.fetched.stack
  | detourRefused next refused =>
      rw [next] at plain
      cases plain
  | _ => cases fault

theorem session_fits {p : Program} {s : Setup} {trail : List Runner} {r : Runner}
    (session : Session (fun _ => True) p s trail r) : (chronicle trail).Fits r.positions := by
  refine Session.invariant (I := fun trail r => (chronicle trail).Fits r.positions) ?_ ?_ ?_ session
  · intro first ok
    obtain ⟨member, node, ledger, -, rfl⟩ := enter_ok ok
    exact Chronicle.fits_initial
  · intro trail state fits _ _ _
    rw [chronicle_snoc]
    exact fits.add
  · intro trail state pending index sub fits _ _
    exact fits

/-- Whatever has failed before, an activation of which no detour was refused executes each
instruction of its node at most once; and a fault that is not that of a detour leaves the detours in
progress as they were. -/
theorem executed_once {p : Program} {s : Setup} {trail : List Runner} {r : Runner}
    (session : Session (fun _ => True) p s trail r) :
    (∀ activation ∉ (chronicle trail).stranded, ∀ place,
      (chronicle trail).executed.count (activation, place) ≤ 1) ∧
    ∀ x ∈ trail, ∀ cause, x.step.fault? = some cause → x.refusesDetour = false →
      x.step.state.detours = x.detours :=
  ⟨(session_fits session).once, fun _ _ _ fault plain => detours_of_fault fault plain⟩

/-- A program whose second instruction leads nowhere. -/
def misled (transfer : String → Instruction) : Program :=
  let node : Node :=
    ⟨"Start", [.command "first", transfer "Nowhere", .command "second"], [], none, none⟩
  ⟨.empty, .ofList [("Start", [node])]⟩

/-- The trail of a host that calls three times, whatever the calls come to. -/
def persistent (p : Program) : List Runner × Runner :=
  let begun := (start 8 p (.starting "Start")).1
  let first := (begun.advance 8 none).1
  let second := (first.advance 8 none).1
  (startTrail 8 p (.starting "Start") ++ begun.advanceTrail 8 none ++ first.advanceTrail 8 none ++
      second.advanceTrail 8 none, (second.advance 8 none).1)

theorem persistent_session {p : Program}
    (begun : (start 8 p (.starting "Start")).2 = .suspended) :
    Session (fun _ => True) p (.starting "Start") (persistent p).1 (persistent p).2 :=
  have started := session_of_start begun
  ((started.call rfl trivial).call rfl trivial).call rfl trivial

/-- After a jump that leads nowhere, the rest of the node is executed once. -/
theorem misled_jump_once :
    (persistent (misled .jump)).1.any (fun x => x.step.fault?.isSome) = true ∧
      (chronicle (persistent (misled .jump)).1).executed.count (0, 2) ≤ 1 := by
  have begun : (start 8 (misled .jump) (.starting "Start")).2 = .suspended := by decide +kernel
  have sound : 0 ∉ (chronicle (persistent (misled .jump)).1).stranded := by decide +kernel
  exact ⟨by decide +kernel, (executed_once (persistent_session begun)).1 0 sound 2⟩

/-- After a detour that leads nowhere, its frame is left on the stack, and with it the end of the
node returns to the middle: the rest of the node is executed again. -/
theorem misled_detour_replays : ∃ trail r,
    Session (fun _ => True) (misled .detour) (.starting "Start") trail r ∧
      (∃ d ∈ trail, d.next? = some (.detour "Nowhere") ∧
        d.step.fault? = some (.unknownNode "Nowhere") ∧ d.step.state.detours ≠ d.detours) ∧
      (chronicle trail).executed.count (0, 2) = 2 := by
  have begun : (start 8 (misled .detour) (.starting "Start")).2 = .suspended := by decide +kernel
  let d := (start 8 (misled .detour) (.starting "Start")).1
  have taken : d.advanceTrail 8 none = [d] := rfl
  have call : d.next? = some (.detour "Nowhere") := rfl
  have fault : d.step.fault? = some (.unknownNode "Nowhere") := by decide +kernel
  have changed : d.step.state.detours ≠ d.detours := by decide +kernel
  refine ⟨_, _, persistent_session begun, ⟨d, ?_, call, fault, changed⟩, by decide +kernel⟩
  have second : d ∈ d.advanceTrail 8 none := by
    rw [taken]
    exact List.mem_singleton_self d
  exact List.mem_append_left _ (List.mem_append_left _ (List.mem_append_right _ second))

end Runner

end Dialogue
