import Dialogue.Proofs.Runner.Session
import Mathlib.Data.List.Infix

set_option autoImplicit false

namespace Dialogue

namespace Frame

/-- How many detours are in progress. -/
def depth (frames : List Frame) : Nat :=
  frames.countP fun frame => !frame.isBlock

@[simp] theorem depth_block (path : BlockPath) (index : Nat) (frames : List Frame) :
    depth (.block path index :: frames) = depth frames := by
  simp [depth, isBlock]

@[simp] theorem depth_detour (title : String) (member ip : Nat) (frames : List Frame) :
    depth (.detour title member ip :: frames) = depth frames + 1 := by
  simp [depth, isBlock]

theorem depth_le {upper lower : List Frame} (kept : lower <:+ upper) : depth lower ≤ depth upper :=
  kept.sublist.countP_le

section Kept

variable {title : String} {member ip : Nat} {base frames : List Frame}

/-- A detour frame lies below every block frame that is above it. -/
theorem kept_below_block {path : BlockPath} {index : Nat}
    (kept : .detour title member ip :: base <:+ .block path index :: frames) :
    .detour title member ip :: base <:+ frames := by
  rcases List.suffix_cons_iff.mp kept with same | below
  · cases same
  · exact below

theorem kept_dropWhile (kept : .detour title member ip :: base <:+ frames) :
    .detour title member ip :: base <:+ frames.dropWhile isBlock := by
  induction frames with
  | nil => exact kept
  | cons frame below ih =>
      cases frame with
      | detour saved place position => exact kept
      | block path index => exact ih (kept_below_block kept)

end Kept

end Frame

namespace Runner

section Kept

variable {title : String} {member ip : Nat} {base : List Frame}

theorem kept_fetched {r : Runner} (kept : .detour title member ip :: base <:+ r.stack) :
    .detour title member ip :: base <:+ r.fetched.stack := by
  unfold fetched
  split
  · rename_i path index below stack
    rw [stack] at kept
    exact (Frame.kept_below_block kept).trans (List.suffix_cons _ _)
  · exact kept

theorem depth_fetched (r : Runner) : Frame.depth r.fetched.stack = Frame.depth r.stack := by
  unfold fetched
  split
  · rename_i path index below stack
    rw [stack, Frame.depth_block, Frame.depth_block]
  · rfl

/-- A result that closes a node returns from the innermost detour. If that is the given one, the
runner is back where it was; if not, the given one was further down. -/
theorem emit_kept {r : Runner} (result : RunResult) (visitRecorded : Bool)
    (kept : .detour title member ip :: base <:+ r.stack)
    (outside : result.closes = true → r.stack.dropWhile Frame.isBlock = r.stack) :
    let after := r.emit result visitRecorded
    (result.closes = true ∧ r.stack = .detour title member ip :: base ∧
      after.title = title ∧ after.member = member ∧ after.ip = ip ∧ after.stack = base) ∨
    (.detour title member ip :: base <:+ after.stack ∧
      (result.closes = true → Frame.depth r.stack ≠ Frame.depth base + 1)) := by
  rcases r.emit_cases result visitRecorded with
    ⟨closes, saved, place, position, below, stack, same⟩ | ⟨other, same⟩
  · rw [same]
    rw [stack] at kept ⊢
    rcases List.suffix_cons_iff.mp kept with top | deeper
    · obtain ⟨⟨rfl, rfl, rfl⟩, rfl⟩ : (title = saved ∧ member = place ∧ ip = position) ∧
          base = below := by simpa using top
      exact .inl ⟨closes, rfl, rfl, rfl, rfl, rfl⟩
    · refine .inr ⟨deeper, fun _ level => ?_⟩
      have enough := Frame.depth_le deeper
      rw [Frame.depth_detour] at level enough
      omega
  · rw [same]
    refine .inr ⟨kept, ?_⟩
    intro closes level
    -- Outside every block and not at a detour frame, the stack would have to be empty.
    rcases Frame.outside_blocks (outside closes) with stack | ⟨saved, place, position, below, stack⟩
    · rw [stack] at kept
      exact absurd (List.suffix_nil.mp kept) (List.cons_ne_nil _ _)
    · exact other closes saved place position below stack

/-- The next step of the runner shows a result that closes a node. -/
def Closes (r : Runner) : Prop :=
  ∃ after result, r.step = .suspended after ∧ after.current = some result ∧ result.closes = true

/-- The next step keeps the given detour frame and all below it, does not end the dialogue, and
closes no node at the level of the detour. -/
structure Keeps (title : String) (member ip : Nat) (base : List Frame) (r : Runner) : Prop where
  kept : .detour title member ip :: base <:+ r.step.state.stack
  finished_eq : r.step.state.finished = r.finished
  unclosed : Frame.depth r.stack = Frame.depth base + 1 → ¬ r.Closes

/-- The next step returns from a detour to the given place. -/
structure Returns (title : String) (member ip : Nat) (base : List Frame) (r after : Runner) :
    Prop where
  suspended : r.step = .suspended after
  closing : ∃ result, after.current = some result ∧ result.closes = true
  depth : Frame.depth r.stack = Frame.depth base + 1
  title_eq : after.title = title
  member_eq : after.member = member
  ip_eq : after.ip = ip
  stack_eq : after.stack = base
  pending_eq : after.pending = r.pending
  finished_eq : after.finished = r.finished

theorem not_closes_of_running {r after : Runner} (running : r.step = .running after) :
    ¬ r.Closes := by
  rintro ⟨shown, result, suspended, -⟩
  rw [running] at suspended
  cases suspended

/-- A step that shows a result keeps a detour frame and all below it, or returns to it. -/
theorem shown_kept {r shown : Runner} {result : RunResult} {visitRecorded : Bool}
    (suspended : r.step = .suspended (shown.emit result visitRecorded))
    (depth : Frame.depth shown.stack = Frame.depth r.stack)
    (pending : result.closes = true → shown.pending = r.pending)
    (finished : shown.finished = r.finished)
    (kept : .detour title member ip :: base <:+ shown.stack)
    (outside : result.closes = true → shown.stack.dropWhile Frame.isBlock = shown.stack) :
    Keeps title member ip base r ∨ ∃ after, Returns title member ip base r after := by
  have finished_eq : (shown.emit result visitRecorded).finished = r.finished :=
    (emit_finished _ _ _).trans finished
  rcases emit_kept result visitRecorded kept outside with
    ⟨closes, top, title_eq, member_eq, ip_eq, stack_eq⟩ | ⟨still, deeper⟩
  · refine .inr ⟨_, suspended, ⟨result, emit_current _ _ _, closes⟩, ?_, title_eq, member_eq, ip_eq,
      stack_eq, (emit_pending _ _ _).trans (pending closes), finished_eq⟩
    rw [← depth, top, Frame.depth_detour]
  · refine .inl ⟨?_, ?_, ?_⟩
    · rw [suspended]
      exact still
    · rw [suspended]
      exact finished_eq
    · rintro level ⟨after, other, sameStep, current, closes⟩
      rw [suspended, Step.suspended.injEq] at sameStep
      rw [← sameStep, emit_current, Option.some.injEq] at current
      rw [← depth] at level
      exact deeper (current ▸ closes) level

theorem running_kept {r after : Runner} (running : r.step = .running after)
    (still : .detour title member ip :: base <:+ after.stack) : Keeps title member ip base r := by
  refine ⟨?_, ?_, fun _ => not_closes_of_running running⟩
  · rw [running]
    exact still
  · rw [running]
    exact (running_idle running).2

/-- A step keeps a detour frame and all below it, and closes no node at its level, unless it is the
step that returns from the detour. -/
theorem step_kept {r : Runner} (faultless : r.step.fault? = none)
    (kept : .detour title member ip :: base <:+ r.stack) :
    Keeps title member ip base r ∨ ∃ after, Returns title member ip base r after := by
  have outcome := r.transition
  generalize taken : r.step = step at outcome
  cases outcome with
  | lost missing =>
      rw [taken] at faultless
      cases faultless
  | jumpRefused next refused =>
      rw [taken] at faultless
      cases faultless
  | detourRefused next refused =>
      rw [taken] at faultless
      cases faultless
  | blockDone found inside done =>
      rw [inside] at kept
      exact .inl (running_kept taken (Frame.kept_below_block kept))
  | nodeDone found outside done =>
      -- The frame of the detour is on the stack, so this is not the end of the dialogue.
      have nonempty : r.stack.isEmpty = false := by
        cases stack : r.stack with
        | nil =>
            rw [stack] at kept
            exact absurd (List.suffix_nil.mp kept) (List.cons_ne_nil _ _)
        | cons frame below => rfl
      refine shown_kept taken rfl (fun _ => rfl) ?_ kept fun _ => outside
      simp [nonempty]
  | line found next =>
      refine shown_kept taken r.depth_fetched (fun _ => r.fetched_pending) (by simp)
        (kept_fetched kept) ?_
      intro closes
      exact isLast_outside (by simpa using closes)
  | command found next =>
      refine shown_kept taken r.depth_fetched (fun _ => r.fetched_pending) (by simp)
        (kept_fetched kept) ?_
      intro closes
      exact isLast_outside (by simpa using closes)
  | jump next ok =>
      obtain ⟨place, node, ledger, -, rfl⟩ := enter_ok ok
      exact .inl (running_kept taken (Frame.kept_dropWhile (kept_fetched kept)))
  | detour next ok =>
      obtain ⟨place, node, ledger, -, rfl⟩ := enter_ok ok
      exact .inl (running_kept taken ((kept_fetched kept).trans (List.suffix_cons _ _)))
  | offer found next visible =>
      -- Options never close a node, so neither condition is put to the test.
      have unclosing : ∀ o : OptionsResult, (RunResult.options o).closes ≠ true := by simp
      exact shown_kept taken r.depth_fetched (fun closes => absurd closes (unclosing _)) (by simp)
        (kept_fetched kept) fun closes => absurd closes (unclosing _)
  | pass next skips => exact .inl (running_kept taken (kept_fetched kept))
  | openBlock next opens =>
      exact .inl (running_kept taken ((kept_fetched kept).trans (List.suffix_cons _ _)))

end Kept

/-- The nodes that the detour at `d` leads to are still running. In no state since then has a frame
below them changed, and no result at their level has closed a node. -/
structure Away (d : Runner) (since : List Runner) (r : Runner) : Prop where
  program_eq : r.program = d.program
  unfinished : r.finished = false
  kept : ∀ x ∈ since ++ [r], d.fetched.save.stack <:+ x.stack
  unclosed : ∀ x ∈ since, Frame.depth x.stack = Frame.depth d.stack + 1 → ¬ x.Closes

/-- The step at `last` shows a result that closes a node at the level of the detour at `d`, and with
it the runner is where it was when it had fetched the detour. It needs no choice to go on. -/
structure Resumes (d last back : Runner) : Prop where
  suspended : last.step = .suspended back
  closing : ∃ result, back.current = some result ∧ result.closes = true
  depth : Frame.depth last.stack = Frame.depth d.stack + 1
  title_eq : back.title = d.fetched.title
  member_eq : back.member = d.fetched.member
  ip_eq : back.ip = d.fetched.ip
  stack_eq : back.stack = d.fetched.stack
  next_eq : back.next? = d.fetched.next?
  ready : ∀ choice, back.choose choice = .ok back

/-- The nodes that the detour at `d` led to have ended, and the runner went on from there. -/
def Returned (d : Runner) (since : List Runner) (r : Runner) : Prop :=
  ∃ callee last rest back, since = callee ++ last :: rest ∧ Away d callee last ∧
    Resumes d last back ∧ (rest ++ [r]).head? = some back

/-- A runner that is on the same place of the same program has the same instruction before it. -/
theorem next?_congr {r other : Runner} (program : r.program = other.program)
    (title : r.title = other.title) (member : r.member = other.member) (ip : r.ip = other.ip)
    (stack : r.stack = other.stack) : r.next? = other.next? := by
  unfold next? node?
  rw [program, title, member, ip, stack]

namespace Away

variable {d r : Runner} {since : List Runner}

/-- A step from a state that is away stays away or returns. -/
theorem step (away : Away d since r) (faultless : r.step.fault? = none)
    (idle : r.pending = none) :
    Away d (since ++ [r]) r.step.state ∨ Returned d (since ++ [r]) r.step.state := by
  have program_eq := r.step_fixed.1.trans away.program_eq
  have kept := away.kept r (by simp)
  rcases step_kept faultless kept with still | ⟨back, returns⟩
  · refine .inl ⟨program_eq, still.finished_eq.trans away.unfinished, ?_, ?_⟩
    · rw [List.forall_mem_append, List.forall_mem_singleton]
      exact ⟨away.kept, still.kept⟩
    · rw [List.forall_mem_append, List.forall_mem_singleton]
      refine ⟨away.unclosed, fun level => still.unclosed ?_⟩
      rw [level, depth_fetched]
  · rw [returns.suspended] at program_eq ⊢
    have unfinished := returns.finished_eq.trans away.unfinished
    have waiting := returns.pending_eq.trans idle
    have same : back.program = d.fetched.program := by
      rw [fetched_toStage]
      exact program_eq
    have next_eq := next?_congr same returns.title_eq returns.member_eq returns.ip_eq
      returns.stack_eq
    have resumes : Resumes d r back :=
      { suspended := returns.suspended
        closing := returns.closing
        depth := by rw [returns.depth, depth_fetched]
        title_eq := returns.title_eq
        member_eq := returns.member_eq
        ip_eq := returns.ip_eq
        stack_eq := returns.stack_eq
        next_eq := next_eq
        ready := choose_unasked unfinished waiting }
    exact .inr ⟨since, r, [], back, rfl, away, resumes, rfl⟩

/-- A choice opens a block above the frame of the detour. -/
theorem chosen (away : Away d since r) (path : BlockPath) (index sub : Nat) :
    Away d since ({ r with pending := none }.openBlock path index sub) := by
  obtain ⟨earlier, now⟩ := List.forall_mem_append.mp away.kept
  rw [List.forall_mem_singleton] at now
  refine ⟨away.program_eq, away.unfinished, ?_, away.unclosed⟩
  rw [List.forall_mem_append, List.forall_mem_singleton]
  exact ⟨earlier, now.trans (List.suffix_cons _ _)⟩

end Away

namespace Returned

variable {d r : Runner} {since : List Runner}

theorem step (returned : Returned d since r) (after : Runner) :
    Returned d (since ++ [r]) after := by
  obtain ⟨callee, last, rest, back, rfl, away, resumes, first⟩ := returned
  refine ⟨callee, last, rest ++ [r], back, by simp, away, resumes, ?_⟩
  rw [List.head?_append, first]
  rfl

/-- Right after the return nothing is on offer, so a choice comes later. -/
theorem chosen (returned : Returned d since r) {pending : PendingOptions}
    (waiting : r.pending = some pending) (after : Runner) : Returned d since after := by
  obtain ⟨callee, last, rest, back, rfl, away, resumes, first⟩ := returned
  cases rest with
  | nil =>
      obtain rfl : r = back := Option.some.inj first
      have idle := (choose_idle (resumes.ready none)).1
      rw [waiting] at idle
      cases idle
  | cons x rest => exact ⟨callee, last, x :: rest, back, rfl, away, resumes, first⟩

end Returned

end Runner

end Dialogue
