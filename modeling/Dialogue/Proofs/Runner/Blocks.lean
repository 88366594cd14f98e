import Dialogue.Proofs.Runner.Detour
import Dialogue.Proofs.Runner.Progress

set_option autoImplicit false

namespace Dialogue

/-- A place in a node's own list: the title, the number in its group, and the next instruction. -/
abbrev Spot := String × Nat × Nat

namespace Frame

/-- The place of the node to which what lies below the given frames belongs. -/
def home (spot : Spot) : List Frame → Spot
  | [] => spot
  | .block _ _ :: above => home spot above
  | .detour title member ip :: above => home (title, member, ip) above

/-- Below a detour it does not matter where the runner stands. -/
theorem home_dropWhile (spot other : Spot) {above : List Frame}
    (detoured : above.all isBlock = false) :
    home other (above.dropWhile isBlock) = home spot above := by
  induction above with
  | nil => cases detoured
  | cons frame above ih =>
      cases frame with
      | detour title member ip => rfl
      | block path index => exact ih detoured

theorem dropWhile_append {above below : List Frame} (detoured : above.all isBlock = false) :
    (above ++ below).dropWhile isBlock = above.dropWhile isBlock ++ below := by
  induction above with
  | nil => cases detoured
  | cons frame above ih =>
      cases frame with
      | detour title member ip => rfl
      | block path index => exact ih detoured

end Frame

namespace Runner

def spot (r : Runner) : Spot :=
  (r.title, r.member, r.ip)

/-- The frame of a block lies on the stack, below the frames `above`, which lead back to the node
that the block belongs to. -/
structure Stacked (path : BlockPath) (count : Nat) (floor : List Frame) (home : Spot)
    (above : List Frame) (r : Runner) : Prop where
  stack_eq : r.stack = above ++ .block path count :: floor
  home_eq : Frame.home r.spot above = home

/-- Only one more frame than the given ones is on the stack. -/
def atop (floor : List Frame) (r : Runner) : Bool :=
  r.stack.length == floor.length + 1

section Stacked

variable {path : BlockPath} {count : Nat} {floor above : List Frame} {home : Spot} {r : Runner}

theorem Stacked.congr (stacked : Stacked path count floor home above r) (other : Runner)
    (stack : other.stack = r.stack) (spot : other.spot = r.spot) :
    Stacked path count floor home above other :=
  ⟨stack.trans stacked.stack_eq, by rw [spot, stacked.home_eq]⟩

theorem Stacked.atop_iff (stacked : Stacked path count floor home above r) :
    r.atop floor = true ↔ above = [] := by
  rw [atop, beq_iff_eq, stacked.stack_eq, List.length_append, List.length_cons,
    ← List.length_eq_zero_iff]
  omega

/-- Moving on behind an instruction. At the level of the block, its number grows. -/
theorem Stacked.fetched (stacked : Stacked path count floor home above r) :
    ∃ higher, Stacked path (if r.atop floor then count + 1 else count) floor home higher r.fetched ∧
      higher.all Frame.isBlock = above.all Frame.isBlock := by
  have level := stacked.atop_iff
  obtain ⟨stack_eq, home_eq⟩ := stacked
  cases above with
  | nil =>
      rw [if_pos (level.mpr rfl)]
      refine ⟨[], ⟨?_, ?_⟩, rfl⟩
      · unfold Runner.fetched
        rw [stack_eq]
        rfl
      · unfold Runner.fetched
        rw [stack_eq]
        exact home_eq
  | cons frame above =>
      rw [if_neg fun here => List.cons_ne_nil _ _ (level.mp here)]
      cases frame with
      | block inner index =>
          refine ⟨.block inner (index + 1) :: above, ⟨?_, ?_⟩, rfl⟩
          · unfold Runner.fetched
            rw [stack_eq]
            rfl
          · unfold Runner.fetched
            rw [stack_eq]
            exact home_eq
      | detour title member ip =>
          refine ⟨.detour title member ip :: above, ⟨?_, ?_⟩, rfl⟩
          · unfold Runner.fetched
            rw [stack_eq]
            rfl
          · unfold Runner.fetched
            rw [stack_eq]
            exact home_eq

/-- A result that closes a node returns from a detour above the block. -/
theorem Stacked.emit (stacked : Stacked path count floor home above r) (result : RunResult)
    (visitRecorded : Bool) :
    ∃ higher, Stacked path count floor home higher (r.emit result visitRecorded) := by
  obtain ⟨stack_eq, home_eq⟩ := stacked
  rcases r.emit_cases result visitRecorded with
    ⟨-, title, member, ip, below, stack, same⟩ | ⟨-, same⟩
  · rw [same]
    cases above with
    | nil =>
        rw [stack_eq] at stack
        cases stack
    | cons frame above =>
        rw [stack_eq, List.cons_append] at stack
        obtain ⟨rfl, rfl⟩ := List.cons.inj stack
        exact ⟨above, rfl, home_eq⟩
  · rw [same]
    exact ⟨above, stack_eq, home_eq⟩

/-- An instruction keeps the frame of a block, or is a jump out of it. -/
theorem Stacked.step {i : Instruction} (stacked : Stacked path count floor home above r)
    (next : r.next? = some i) (faultless : r.step.fault? = none) :
    (∃ higher, Stacked path (if r.atop floor then count + 1 else count) floor home higher
      r.step.state) ∨
    ∃ target, i = .jump target ∧ above.all Frame.isBlock = true := by
  obtain ⟨above', moved, blocks⟩ := stacked.fetched
  have outcome := r.transition
  generalize r.step = step at outcome faultless
  cases outcome with
  | lost missing => cases faultless
  | jumpRefused other refused => cases faultless
  | detourRefused other refused => cases faultless
  | blockDone found inside done =>
      rw [next] at done
      cases done
  | nodeDone found outside done =>
      rw [next] at done
      cases done
  | line found other => exact .inl (moved.emit _ _)
  | @command node content found other =>
      exact .inl ((moved.congr { r.fetched with toStage := r.fetched.dispatch content } rfl
        rfl).emit _ _)
  | @offer node choices found other visible =>
      let pending : PendingOptions :=
        ⟨r.place.1, r.place.2, (r.fetched.offered choices).map (·.2)⟩
      exact .inl ((moved.congr { r.fetched with pending := some pending } rfl rfl).emit _ _)
  | pass other skips => exact .inl ⟨above', moved⟩
  | openBlock other opens => exact .inl ⟨.block _ 0 :: above', ⟨by
      rw [List.cons_append, ← moved.stack_eq]
      rfl, moved.home_eq⟩⟩
  | detour other ok =>
      obtain ⟨member, node, ledger, -, rfl⟩ := enter_ok ok
      refine .inl ⟨.detour r.fetched.title r.fetched.member r.fetched.ip :: above', ?_, ?_⟩
      · rw [List.cons_append, ← moved.stack_eq]
        rfl
      · exact moved.home_eq
  | @jump target entered other ok =>
      obtain ⟨member, node, ledger, -, rfl⟩ := enter_ok ok
      cases detoured : above'.all Frame.isBlock with
      | true =>
          rw [next] at other
          exact .inr ⟨target, Option.some.inj other, blocks.symm.trans detoured⟩
      | false =>
          refine .inl ⟨above'.dropWhile Frame.isBlock, ?_, ?_⟩
          · rw [← Frame.dropWhile_append detoured, ← moved.stack_eq]
            rfl
          · rw [← moved.home_eq]
            exact Frame.home_dropWhile _ _ detoured

/-- A step without an instruction drops the topmost block or returns from a detour; at the level of
the block, it drops the block. -/
theorem Stacked.step_none (stacked : Stacked path count floor home above r)
    (done : r.next? = none) (faultless : r.step.fault? = none) :
    (above ≠ [] ∧ ∃ higher, Stacked path count floor home higher r.step.state) ∨
    (above = [] ∧ r.step.state = { r with stack := floor }) := by
  have stack_eq := stacked.stack_eq
  have home_eq := stacked.home_eq
  cases found : r.node? with
  | none =>
      have fault : r.step = .faulted r (.unknownNode r.title) := by simp only [Runner.step, found]
      rw [fault] at faultless
      cases faultless
  | some node =>
      rcases step_of_none found done with ⟨inner, index, below, inside, same⟩ | ⟨outside, same⟩
      · rw [same]
        rw [stack_eq] at inside
        cases above with
        | nil =>
            obtain ⟨-, rfl⟩ := List.cons.inj inside
            exact .inr ⟨rfl, rfl⟩
        | cons frame above =>
            obtain ⟨rfl, rfl⟩ := List.cons.inj inside
            exact .inl ⟨List.cons_ne_nil _ _, above, rfl, home_eq⟩
      · rw [same]
        cases above with
        | nil =>
            rw [stack_eq] at outside
            rcases Frame.outside_blocks outside with none | ⟨_, _, _, _, top⟩
            · cases none
            · cases top
        | cons frame above =>
            refine .inl ⟨List.cons_ne_nil _ _, ?_⟩
            exact (stacked.congr { r with toStage := r.leave r.title r.stack.isEmpty } rfl
              rfl).emit _ _

end Stacked

/-- A block that is nested in the node of `d`. -/
def Leads (d : Runner) (path : BlockPath) (block : Block) : Prop :=
  ∃ node, d.node? = some node ∧ Block.resolve? node.instructions path = some block

/-- The instructions that were executed right above the given frames. -/
def executed (floor : List Frame) (since : List Runner) : List Instruction :=
  (since.filter (atop floor)).filterMap next?

/-- The block that the instruction of `d` has opened is running. At its level, its instructions
have been executed one after another. -/
structure Within (d : Runner) (path : BlockPath) (block : Block) (since : List Runner)
    (r : Runner) : Prop where
  program_eq : r.program = d.program
  begun : executed d.fetched.stack since <+: block
  stacked : ∃ above, Stacked path (executed d.fetched.stack since).length d.fetched.stack
    d.fetched.spot above r

/-- The runner is at the place behind the instruction of `d`, and waits for no choice. -/
structure Behind (d back : Runner) : Prop where
  program_eq : back.program = d.program
  spot_eq : back.spot = d.fetched.spot
  stack_eq : back.stack = d.fetched.stack
  next_eq : back.next? = d.fetched.next?
  idle : back.pending = none

/-- All instructions of the block have been executed, and the runner went on behind the instruction
of `d`. -/
def Resumed (d : Runner) (path : BlockPath) (block : Block) (since : List Runner) (r : Runner) :
    Prop :=
  ∃ inside last rest back, since = inside ++ last :: rest ∧ Within d path block inside last ∧
    executed d.fetched.stack inside = block ∧ (rest ++ [r]).head? = some back ∧ Behind d back

/-- A jump in the block, or in a block within it, has left the node. -/
def Left (d : Runner) (path : BlockPath) (block : Block) (since : List Runner) : Prop :=
  ∃ inside last rest target above, since = inside ++ last :: rest ∧
    Within d path block inside last ∧ last.next? = some (.jump target) ∧
    Stacked path (executed d.fetched.stack inside).length d.fetched.stack d.fetched.spot above
      last ∧
    above.all Frame.isBlock = true

/-- What has become of a block since it was opened. -/
inductive Course (d : Runner) (path : BlockPath) (block : Block) (since : List Runner)
    (r : Runner) : Prop
  | within (within : Within d path block since r)
  | resumed (resumed : Resumed d path block since r)
  | left (left : Left d path block since)

section Course

variable {d r : Runner} {path : BlockPath} {block : Block} {since : List Runner}

theorem executed_snoc (floor : List Frame) (since : List Runner) (r : Runner) :
    executed floor (since ++ [r]) =
      executed floor since ++ if r.atop floor then r.next?.toList else [] := by
  unfold executed
  rw [List.filter_append, List.filterMap_append]
  cases level : r.atop floor with
  | false => simp [level]
  | true => cases next : r.next? <;> simp [level, next]

/-- At the level of the block, the next instruction is the next one of the block. -/
theorem Within.next? (within : Within d path block since r) (leads : Leads d path block)
    (level : r.atop d.fetched.stack = true) :
    r.next? = block[(executed d.fetched.stack since).length]? := by
  obtain ⟨node, found, resolved⟩ := leads
  obtain ⟨above, stacked⟩ := within.stacked
  obtain rfl := stacked.atop_iff.mp level
  obtain ⟨stack_eq, home_eq⟩ := stacked
  have place : r.title = d.title ∧ r.member = d.member := by
    have same : r.spot = d.fetched.spot := home_eq
    rw [spot, spot, Prod.mk.injEq, Prod.mk.injEq, fetched_title, fetched_member] at same
    exact ⟨same.1, same.2.1⟩
  have here : r.node? = some node := by
    rw [node?, within.program_eq, place.1, place.2]
    exact found
  rw [Runner.next?, here, stack_eq]
  simp only [List.nil_append, Option.bind_some, Block.instruction?, resolved]

theorem Within.step (within : Within d path block since r) (leads : Leads d path block)
    (faultless : r.step.fault? = none) (idle : r.pending = none) :
    Course d path block (since ++ [r]) r.step.state := by
  have program_eq := r.step_fixed.1.trans within.program_eq
  obtain ⟨above, stacked⟩ := within.stacked
  cases next : r.next? with
  | none =>
      have kept : executed d.fetched.stack (since ++ [r]) = executed d.fetched.stack since := by
        rw [executed_snoc, next]
        simp
      rcases stacked.step_none next faultless with ⟨-, higher, still⟩ | ⟨bottom, same⟩
      · exact .within ⟨program_eq, kept ▸ within.begun, higher, kept ▸ still⟩
      · subst bottom
        have done := within.next? leads (stacked.atop_iff.mpr rfl)
        rw [next, eq_comm, List.getElem?_eq_none_iff] at done
        have spot_eq : r.spot = d.fetched.spot := stacked.home_eq
        rw [same] at program_eq ⊢
        obtain ⟨title_eq, member_eq, ip_eq⟩ : r.title = d.fetched.title ∧
            r.member = d.fetched.member ∧ r.ip = d.fetched.ip := by
          simpa [spot] using spot_eq
        have program : r.program = d.fetched.program := by
          rw [fetched_toStage]
          exact program_eq
        have behind : Behind d { r with stack := d.fetched.stack } :=
          { program_eq := program_eq
            spot_eq := spot_eq
            stack_eq := rfl
            next_eq := next?_congr program title_eq member_eq ip_eq rfl
            idle := idle }
        exact .resumed ⟨since, r, [], _, rfl, within, within.begun.eq_of_length_le done, rfl,
          behind⟩
  | some i =>
      rcases stacked.step next faultless with ⟨higher, still⟩ | ⟨target, rfl, blocks⟩
      · refine .within ⟨program_eq, ?_, higher, ?_⟩
        · rw [executed_snoc, next]
          split
          · rename_i level
            have upcoming := within.next? leads level
            obtain ⟨more, rfl⟩ := within.begun
            rw [next, List.getElem?_append_right (Nat.le_refl _), Nat.sub_self] at upcoming
            cases more with
            | nil => cases upcoming
            | cons first more =>
                obtain rfl : i = first := by simpa using upcoming
                exact ⟨more, by simp⟩
          · simpa using within.begun
        · rw [executed_snoc, next]
          split
          · rename_i level
            simpa [level] using still
          · rename_i elsewhere
            simpa [elsewhere] using still
      · exact .left ⟨since, r, [], target, above, rfl, within, next, stacked, blocks⟩

theorem Course.step (course : Course d path block since r) (leads : Leads d path block)
    (faultless : r.step.fault? = none) (idle : r.pending = none) :
    Course d path block (since ++ [r]) r.step.state := by
  cases course with
  | within within => exact within.step leads faultless idle
  | resumed resumed =>
      obtain ⟨inside, last, rest, back, rfl, within, all, first, behind⟩ := resumed
      refine .resumed ⟨inside, last, rest ++ [r], back, by simp, within, all, ?_, behind⟩
      rw [List.head?_append, first]
      rfl
  | left left =>
      obtain ⟨inside, last, rest, target, above, rfl, others⟩ := left
      exact .left ⟨inside, last, rest ++ [r], target, above, by simp, others⟩

/-- A choice opens a block on top of the stack. -/
theorem Course.chosen (course : Course d path block since r) {pending : PendingOptions}
    (waiting : r.pending = some pending) (inner : BlockPath) (index sub : Nat) :
    Course d path block since ({ r with pending := none }.openBlock inner index sub) := by
  cases course with
  | within within =>
      obtain ⟨above, stack_eq, home_eq⟩ := within.stacked
      refine .within ⟨within.program_eq, within.begun, .block (inner ++ [(index, sub)]) 0 :: above,
        ?_, home_eq⟩
      rw [List.cons_append, ← stack_eq]
      rfl
  | resumed resumed =>
      obtain ⟨inside, last, rest, back, rfl, within, all, first, behind⟩ := resumed
      cases rest with
      | nil =>
          -- Right behind the block nothing is on offer, so the choice comes later.
          obtain rfl : r = back := Option.some.inj first
          rw [behind.idle] at waiting
          cases waiting
      | cons next rest =>
          exact .resumed ⟨inside, last, next :: rest, back, rfl, within, all, first, behind⟩
  | left left => exact .left left

/-- The store and the ledger have no part in where a runner stands. -/
theorem Course.outside (course : Course d path block since r) (store : Store) (ledger : Ledger) :
    Course d path block since { r with store := store, ledger := ledger } := by
  cases course with
  | within within =>
      obtain ⟨above, stack_eq, home_eq⟩ := within.stacked
      exact .within ⟨within.program_eq, within.begun, above, stack_eq, home_eq⟩
  | resumed resumed =>
      obtain ⟨inside, last, rest, back, rfl, within, all, first, behind⟩ := resumed
      cases rest with
      | nil =>
          obtain rfl : r = back := Option.some.inj first
          exact .resumed ⟨inside, last, [], _, rfl, within, all, rfl, behind.program_eq,
            behind.spot_eq, behind.stack_eq, behind.next_eq, behind.idle⟩
      | cons next rest =>
          exact .resumed ⟨inside, last, next :: rest, back, rfl, within, all, first, behind⟩
  | left left => exact .left left

end Course

end Runner

end Dialogue
