import Dialogue.Proofs.Runner.Choice
import Mathlib.Data.List.DropRight

set_option autoImplicit false

namespace Dialogue

namespace Frame

/-- The block in which the level above the given frames goes on, and the number of the next
instruction there. Without a block, it is the node's own list. -/
def place (ip : Nat) : List Frame → BlockPath × Nat
  | .block path index :: _ => (path, index)
  | _ => ([], ip)

/-- The path leads to a block of the node at `home`, one step down from where the frames below
stand: through the instruction that was fetched there last. -/
def Opened (p : Program) (home : Spot) (below : List Frame) (path : BlockPath) : Prop :=
  ∃ node outer last sub block, p.nodeAt? home.1 home.2.1 = some node ∧
    place home.2.2 below = (outer, last + 1) ∧ path = outer ++ [(last, sub)] ∧
    node.instructions.resolve? path = some block

/-- The frames stand on one another, where the topmost level belongs to the node at the given
place. -/
inductive Stands (p : Program) : Spot → List Frame → Prop
  | floor {spot : Spot} (here : ∃ node, p.nodeAt? spot.1 spot.2.1 = some node) : Stands p spot []
  | detour {spot : Spot} {title : String} {member ip : Nat} {below : List Frame}
      (here : ∃ node, p.nodeAt? spot.1 spot.2.1 = some node)
      (rest : Stands p (title, member, ip) below) : Stands p spot (.detour title member ip :: below)
  | block {spot : Spot} {path : BlockPath} {index : Nat} {below : List Frame}
      (opened : Opened p spot below path) (rest : Stands p spot below) :
      Stands p spot (.block path index :: below)

namespace Stands

variable {p : Program} {spot : Spot} {frames : List Frame}

theorem here (stands : Stands p spot frames) : ∃ node, p.nodeAt? spot.1 spot.2.1 = some node := by
  induction stands with
  | floor here => exact here
  | detour here rest ih => exact here
  | block opened rest ih => exact ih

theorem saved (stands : Stands p spot frames) {title : String} {member ip : Nat}
    (listed : .detour title member ip ∈ frames) :
    ∃ node, p.nodeAt? title member = some node := by
  induction stands with
  | floor here => cases listed
  | detour here rest ih =>
      rcases List.mem_cons.mp listed with same | below
      · obtain ⟨rfl, rfl, rfl⟩ := Frame.detour.inj same
        exact rest.here
      · exact ih below
  | block opened rest ih =>
      rcases List.mem_cons.mp listed with same | below
      · cases same
      · exact ih below

/-- Every block frame belongs to the node that the detours above it lead back to. -/
theorem opened {above : List Frame} {path : BlockPath} {index : Nat} {below : List Frame}
    (stands : Stands p spot (above ++ .block path index :: below)) :
    Opened p (home spot above) below path := by
  induction above generalizing spot with
  | nil =>
      cases stands with
      | block opened rest => exact opened
  | cons frame above ih =>
      cases stands with
      | detour here rest => exact ih rest
      | block opened rest => exact ih rest

/-- Where the topmost frame is no block, the place in the node does not matter, nor which node it
is. -/
theorem settle (stands : Stands p spot frames) {other : Spot}
    (outside : frames.dropWhile isBlock = frames)
    (here : ∃ node, p.nodeAt? other.1 other.2.1 = some node) : Stands p other frames := by
  rcases outside_blocks outside with rfl | ⟨title, member, ip, below, rfl⟩
  · exact .floor here
  · cases stands with
    | detour _ rest => exact .detour here rest

theorem dropWhile (stands : Stands p spot frames) : Stands p spot (frames.dropWhile isBlock) := by
  induction stands with
  | floor here => exact .floor here
  | detour here rest ih => exact .detour here rest
  | block opened rest ih => exact ih

end Stands

end Frame

namespace Runner

theorem place_eq (r : Runner) : r.place = Frame.place r.ip r.stack := by
  unfold place Frame.place
  cases r.stack with
  | nil => rfl
  | cons frame below => cases frame <;> rfl

theorem place_fetched (r : Runner) : r.fetched.place = (r.place.1, r.place.2 + 1) := by
  unfold place fetched
  cases r.stack with
  | nil => rfl
  | cons frame below => cases frame <;> rfl

theorem node?_fetched (r : Runner) : r.fetched.node? = r.node? := by
  simp [node?]

/-- The options on offer are those of the instruction that was fetched last. -/
def Awaits (r : Runner) (pending : PendingOptions) : Prop :=
  ∃ node block choices, r.node? = some node ∧
    node.instructions.resolve? pending.path = some block ∧
    block[pending.index]? = some (.options choices) ∧
    r.place = (pending.path, pending.index + 1) ∧ ∀ sub ∈ pending.visible, sub < choices.length

theorem awaits_of_idle {r : Runner} (idle : r.pending = none) :
    ∀ pending, r.pending = some pending → r.Awaits pending := by
  intro pending waiting
  rw [idle] at waiting
  cases waiting

/-- The invariant of the stack and of what the host is asked. -/
structure Upright (p : Program) (r : Runner) : Prop where
  program_eq : r.program = p
  stands : Frame.Stands p r.spot r.stack
  awaits : ∀ pending, r.pending = some pending → r.Awaits pending

theorem Opens.subBlock? {r : Runner} {sub : Nat} {ledger : Ledger} {i : Instruction}
    (opens : r.Opens sub ledger i) : ∃ block, i.subBlock? sub = some block := by
  cases i with
  | branches branches =>
      exact subBlock?_of_taken? opens.1
  | once id block =>
      obtain ⟨-, rfl, -⟩ := opens
      exact ⟨block, rfl⟩
  | _ => exact opens.elim

theorem offered_lt {r : Runner} {choices : List (Choice × Block)} {sub : Nat}
    (listed : sub ∈ (r.offered choices).map (·.2)) : sub < choices.length := by
  obtain ⟨⟨choice, number⟩, offered, rfl⟩ := List.mem_map.mp listed
  have inside := (List.mem_filter.mp offered).1
  simpa using List.snd_lt_of_mem_zipIdx inside

namespace Upright

variable {p : Program} {r : Runner}

theorem node (upright : Upright p r) : ∃ node, r.node? = some node := by
  unfold node?
  rw [upright.program_eq]
  exact upright.stands.here

/-- A runner in the same place, that asks for nothing. -/
theorem congr (upright : Upright p r) (other : Runner) (program : other.program = r.program)
    (spot : other.spot = r.spot) (stack : other.stack = r.stack) (idle : other.pending = none) :
    Upright p other where
  program_eq := program.trans upright.program_eq
  stands := by
    rw [spot, stack]
    exact upright.stands
  awaits := awaits_of_idle idle

theorem fetched (upright : Upright p r) (idle : r.pending = none) : Upright p r.fetched where
  program_eq := by simpa using upright.program_eq
  stands := by
    have stands := upright.stands
    have here := stands.here
    unfold Runner.fetched
    cases stack : r.stack with
    | nil => exact .floor here
    | cons frame below =>
        rw [stack] at stands
        cases stands with
        | detour _ rest => exact .detour here rest
        | block opened rest => exact .block opened rest
  awaits := awaits_of_idle (r.fetched_pending.trans idle)

/-- A block may be opened that the instruction fetched last owns. -/
theorem openBlock (upright : Upright p r) (idle : r.pending = none) {node : Node}
    {path : BlockPath} {index sub : Nat} {i : Instruction} {block : Block}
    (found : r.node? = some node) (place : r.place = (path, index + 1))
    (fetched : node.instructions.instruction? path index = some i)
    (owned : i.subBlock? sub = some block) : Upright p (r.openBlock path index sub) where
  program_eq := upright.program_eq
  stands := by
    refine .block ⟨node, path, index, sub, block, ?_, ?_, rfl, ?_⟩ upright.stands
    · rw [← upright.program_eq]
      exact found
    · rw [← place, place_eq]
      rfl
    · rw [Block.resolve?_snoc, fetched, Option.bind_some, owned]
  awaits := awaits_of_idle idle

theorem emit (upright : Upright p r) (idle : r.pending = none) (result : RunResult)
    (visitRecorded : Bool) : Upright p (r.emit result visitRecorded) where
  program_eq := (emit_program r result visitRecorded).trans upright.program_eq
  stands := by
    have stands := upright.stands
    rcases r.emit_cases result visitRecorded with
      ⟨-, title, member, ip, below, stack, same⟩ | ⟨-, same⟩
    · rw [stack] at stands
      rw [same]
      cases stands with
      | detour here rest => exact rest
    · rw [same]
      exact stands
  awaits := awaits_of_idle ((emit_pending r result visitRecorded).trans idle)

theorem depart (upright : Upright p r) (idle : r.pending = none) : Upright p r.depart where
  program_eq := upright.program_eq
  stands := upright.stands.dropWhile
  awaits := awaits_of_idle idle

theorem save (upright : Upright p r) (idle : r.pending = none) : Upright p r.save where
  program_eq := upright.program_eq
  stands := .detour upright.stands.here upright.stands
  awaits := awaits_of_idle idle

theorem enter (upright : Upright p r) (idle : r.pending = none)
    (outside : r.stack.dropWhile Frame.isBlock = r.stack) {title : String} {entered : Runner}
    (ok : r.enter title = .ok entered) : Upright p entered := by
  obtain ⟨member, node, ledger, found, rfl⟩ := enter_ok ok
  rw [upright.program_eq] at found
  exact ⟨upright.program_eq, upright.stands.settle outside ⟨node, found⟩, awaits_of_idle idle⟩

/-- A step keeps the invariant, also when it fails. -/
theorem step (upright : Upright p r) (idle : r.pending = none) : Upright p r.step.state := by
  have moved := upright.fetched idle
  have still : r.fetched.pending = none := by rw [fetched_pending, idle]
  have outcome := r.transition
  generalize r.step = taken at outcome
  cases outcome with
  | lost missing => exact upright
  | @blockDone node path index below found inside done =>
      have stands := upright.stands
      rw [inside] at stands
      cases stands with
      | block opened rest => exact ⟨upright.program_eq, rest, awaits_of_idle idle⟩
  | nodeDone found outside done =>
      exact (upright.congr { r with toStage := r.leave r.title r.stack.isEmpty } rfl rfl rfl
        idle).emit idle _ _
  | line found next => exact moved.emit still _ _
  | @command node content found next =>
      exact (moved.congr { r.fetched with toStage := r.fetched.dispatch content } (by simp) rfl rfl
        still).emit still _ _
  | jump next ok =>
      exact (moved.depart still).enter still (List.dropWhile_idempotent Frame.isBlock _) ok
  | jumpRefused next refused => exact moved.depart still
  | detour next ok => exact (moved.save still).enter still rfl ok
  | detourRefused next refused => exact moved.save still
  | pass next skips => exact moved
  | @offer node choices found next visible =>
      rw [next?_place, found, Option.bind_some, Block.instruction?, Option.bind_eq_some_iff] at next
      obtain ⟨block, resolved, listed⟩ := next
      have here : r.fetched.node? = some node := r.node?_fetched.trans found
      -- Options close no node, so the runner stays behind the instruction.
      rw [Step.state, Runner.offer, emit_options]
      refine ⟨moved.program_eq, moved.stands, ?_⟩
      rintro pending waiting
      obtain rfl := Option.some.inj waiting
      exact ⟨node, block, choices, here, resolved, listed, r.place_fetched,
        fun sub listed => offered_lt listed⟩
  | @openBlock i sub ledger next opens =>
      obtain ⟨block, owned⟩ := opens.subBlock?
      rw [next?_place, Option.bind_eq_some_iff] at next
      obtain ⟨node, found, fetched⟩ := next
      have here : r.fetched.node? = some node := r.node?_fetched.trans found
      exact (moved.congr { r.fetched with ledger := ledger } rfl rfl rfl still).openBlock still here
        r.place_fetched fetched owned

/-- A choice among the options on offer opens the block of one of them. -/
theorem choose (upright : Upright p r) {pending : PendingOptions} {index sub : Nat}
    (waiting : r.pending = some pending) (offered : pending.visible[index]? = some sub) :
    Upright p ({ r with pending := none }.openBlock pending.path pending.index sub) := by
  obtain ⟨node, block, choices, found, resolved, listed, place, inside⟩ :=
    upright.awaits pending waiting
  have within := inside sub (List.mem_of_getElem? offered)
  have fetched : node.instructions.instruction? pending.path pending.index =
      some (.options choices) := by
    rw [Block.instruction?, resolved, Option.bind_some, listed]
  have owned : (Instruction.options choices).subBlock? sub = some choices[sub].2 := by
    simp [Instruction.subBlock?, Instruction.blocks, within]
  exact (upright.congr { r with pending := none } rfl rfl rfl rfl).openBlock rfl found place fetched
    owned

end Upright

/-- The frames of a stack fit the program, and so does what the host is asked. -/
structure WellStacked (p : Program) (r : Runner) : Prop where
  program_eq : r.program = p
  here : ∃ node, p.nodeAt? r.title r.member = some node
  saved : ∀ title member ip, .detour title member ip ∈ r.stack →
    ∃ node, p.nodeAt? title member = some node
  blocks : ∀ above path index below, r.stack = above ++ .block path index :: below →
    Frame.Opened p (Frame.home r.spot above) below path
  awaits : ∀ pending, r.pending = some pending → r.Awaits pending

/-- What the next step executes is looked up in a list that exists. There is an instruction unless
the list is at its end. -/
def Fetches (r : Runner) : Prop :=
  ∃ node list, r.node? = some node ∧ node.instructions.resolve? r.place.1 = some list ∧
    (∀ i, list[r.place.2]? = some i → r.next? = some i) ∧
    (r.place.2 < list.length → ∃ i, r.next? = some i) ∧
    (list.length ≤ r.place.2 → r.next? = none)

theorem Upright.wellStacked {p : Program} {r : Runner} (upright : Upright p r) :
    WellStacked p r where
  program_eq := upright.program_eq
  here := upright.stands.here
  saved _ _ _ listed := upright.stands.saved listed
  blocks above path index below stack := by
    have stands := upright.stands
    rw [stack] at stands
    exact stands.opened
  awaits := upright.awaits

theorem Upright.fetches {p : Program} {r : Runner} (upright : Upright p r) : r.Fetches := by
  obtain ⟨node, found⟩ := upright.node
  have resolved : ∃ list, node.instructions.resolve? r.place.1 = some list := by
    rw [place_eq]
    have stands := upright.stands
    cases stack : r.stack with
    | nil => exact ⟨node.instructions, rfl⟩
    | cons frame below =>
        rw [stack] at stands
        cases stands with
        | detour here rest => exact ⟨node.instructions, rfl⟩
        | block opened rest =>
            obtain ⟨other, outer, last, sub, block, there, -, -, resolved⟩ := opened
            unfold node? at found
            rw [upright.program_eq] at found
            obtain rfl : node = other := Option.some.inj (found.symm.trans there)
            exact ⟨block, resolved⟩
  obtain ⟨list, resolved⟩ := resolved
  have next : r.next? = list[r.place.2]? := by
    rw [next?_place, found, Option.bind_some, Block.instruction?, resolved, Option.bind_some]
  refine ⟨node, list, found, resolved, ?_, ?_, ?_⟩
  · intro i listed
    rw [next, listed]
  · intro inside
    exact ⟨list[r.place.2], by rw [next, List.getElem?_eq_getElem inside]⟩
  · intro beyond
    rw [next, List.getElem?_eq_none beyond]

/-- Where a program can be entered, the stack is well-formed in every state that a start and any
calls lead to, whatever became of them, and in every state in which they took a step; and every such
step finds its instruction or the end of an existing list. -/
theorem reached_wellStacked {p : Program} {s : Setup} {fuel : Nat} {first r : Runner}
    {trail : List Runner} (entered : (initial p s).enter s.start = .ok first)
    (calls : Calls (fun _ => True) (start fuel p s).1 trail r) :
    r.WellStacked p ∧ ∀ x ∈ startTrail fuel p s ++ trail, x.WellStacked p ∧ x.Fetches := by
  let I : List Runner → Runner → Prop := fun trail r =>
    Upright p r ∧ ∀ x ∈ trail, Upright p x
  have stepped : ∀ trail r, I trail r → r.pending = none → r.finished = false →
      (∀ cause, r.step.fault? = some cause → True) → I (trail ++ [r]) r.step.state := by
    rintro trail r ⟨upright, earlier⟩ idle - -
    refine ⟨upright.step idle, ?_⟩
    rw [List.forall_mem_append, List.forall_mem_singleton]
    exact ⟨earlier, upright⟩
  have begun : Upright p first ∧ first.pending = none ∧ first.finished = false := by
    obtain ⟨member, node, ledger, found, rfl⟩ := enter_ok entered
    exact ⟨⟨rfl, .floor ⟨node, found⟩, awaits_of_idle rfl⟩, rfl, rfl⟩
  have started : I (startTrail fuel p s) (start fuel p s).1 := by
    unfold start startTrail
    rw [entered]
    exact @run_invariant (fun _ => True) I stepped fuel [] first ⟨begun.1, by simp⟩ begun.2.1
      begun.2.2 fun _ _ => trivial
  obtain ⟨upright, passed⟩ : I (startTrail fuel p s ++ trail) r := by
    refine calls.invariant stepped ?_ ?_ started
    · rintro trail r pending index sub ⟨upright, earlier⟩ waiting offered
      exact ⟨upright.choose waiting offered, earlier⟩
    · rintro trail r store ledger ⟨upright, earlier⟩
      exact ⟨⟨upright.program_eq, upright.stands, upright.awaits⟩, earlier⟩
  exact ⟨upright.wellStacked, fun x listed => ⟨(passed x listed).wellStacked,
    (passed x listed).fetches⟩⟩

/-- A program that offers a way to a node that does not exist, inside of a block. -/
def lure : Program :=
  let away : Choice := ⟨"Away", [], none, none, none⟩
  let offers : Instruction := .options [(away, [.detour "Nowhere", .command "rest"])]
  ⟨.empty, .ofList [("Start", [⟨"Start", [.once "first" [offers], .command "leave"], [], none,
    none⟩])]⟩

/-- The program once the offer was taken, which has failed. -/
def lured : Runner :=
  ((start 8 lure (.starting "Start")).1.advance 8 (some 0)).1

/-- The frame of the detour that was not made stands on those of the two blocks. -/
theorem lured_wellStacked :
    lured.stack = [.detour "Start" 0 1, .block [(0, 0), (0, 0)] 1, .block [(0, 0)] 1] ∧
      lured.WellStacked lure ∧
      ∀ x ∈ startTrail 8 lure (.starting "Start") ++
          ([] ++ (start 8 lure (.starting "Start")).1.advanceTrail 8 (some 0)),
        x.WellStacked lure ∧ x.Fetches := by
  have known : ((initial lure (.starting "Start")).enter "Start").isOk = true := by decide +kernel
  have called : (start 8 lure (.starting "Start")).1.advance 8 (some 0) =
      (lured, ((start 8 lure (.starting "Start")).1.advance 8 (some 0)).2) := rfl
  refine ⟨by decide +kernel, ?_⟩
  cases entered : (initial lure (.starting "Start")).enter "Start" with
  | error cause =>
      rw [entered] at known
      cases known
  | ok first => exact reached_wellStacked entered (.call .begun called trivial)

end Runner

end Dialogue
