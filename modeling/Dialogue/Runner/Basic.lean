import Dialogue.Runner.Stage

set_option autoImplicit false

namespace Dialogue

/-- Where a nested block lies: at each level, the number of the instruction that owns it and which
of that instruction's blocks it is. -/
abbrev BlockPath := List (Nat × Nat)

namespace Instruction

def subBlock? (i : Instruction) (sub : Nat) : Option Block :=
  i.blocks[sub]?

end Instruction

namespace Block

/-- The block that a path leads to. -/
def resolve? (root : Block) : BlockPath → Option Block
  | [] => some root
  | (index, sub) :: path =>
      match (root[index]?).bind fun i => i.subBlock? sub with
      | some block => resolve? block path
      | none => none

/-- The instruction at `index` of the block that a path leads to. -/
def instruction? (root : Block) (path : BlockPath) (index : Nat) : Option Instruction :=
  (resolve? root path).bind fun block => block[index]?

theorem instruction?_nil (root : Block) (index : Nat) : instruction? root [] index = root[index]? :=
  rfl

theorem resolve?_snoc (root : Block) (path : BlockPath) (index sub : Nat) :
    resolve? root (path ++ [(index, sub)]) =
      (instruction? root path index).bind fun i => i.subBlock? sub := by
  induction path generalizing root with
  | nil =>
      simp only [List.nil_append, resolve?, instruction?_nil]
      split
      · rename_i block found
        rw [found]
      · rename_i missing
        rw [missing]
  | cons head path ih =>
      simp only [List.cons_append, resolve?, instruction?]
      split
      · exact ih _
      · rfl

end Block

inductive Frame where
  /-- The place that a detour returns to. -/
  | detour (title : String) (member ip : Nat)
  /-- A nested block of the current node and the next instruction in it. -/
  | block (path : BlockPath) (index : Nat)
  deriving DecidableEq, Repr

namespace Frame

def isBlock : Frame → Bool
  | block _ _ => true
  | detour _ _ _ => false

end Frame

/-- Where the options that are on offer stand. -/
structure PendingOptions where
  path : BlockPath
  index : Nat
  /-- For each option on offer, its number in the instruction. -/
  visible : List Nat
  deriving DecidableEq, Repr

/-- A machine that executes a program and stops whenever there is something to show. The block
frames below a detour frame belong to the node that the frame saves. -/
structure Runner extends Stage where
  title : String
  /-- Which node of the title's group is running. -/
  member : Nat
  /-- The next instruction of the node's own list. -/
  ip : Nat
  /-- Innermost frame first. -/
  stack : List Frame
  pending : Option PendingOptions

namespace Runner

def initial (p : Program) (s : Setup) : Runner where
  toStage := s.stage p
  title := ""
  member := 0
  ip := 0
  stack := []
  pending := none

/-- The node that is running. -/
def node? (r : Runner) : Option Node :=
  r.program.nodeAt? r.title r.member

/-- Makes a node of a title the current one. -/
def enter (r : Runner) (title : String) : Except RuntimeError Runner :=
  match r.select title with
  | .error e => .error e
  | .ok (member, _, stage) =>
      .ok { r with toStage := stage, title := title, member := member, ip := 0 }

/-- Shows a result. One that closes a node returns from the detour that led there. -/
def emit (r : Runner) (result : RunResult) (visitRecorded : Bool) : Runner :=
  match result.closes, r.stack with
  | true, .detour title member ip :: below =>
      let stage := if visitRecorded then r.toStage else r.recordVisit r.title
      { r with
        toStage := stage.present result
        title := title
        member := member
        ip := ip
        stack := below }
  | _, _ => { r with toStage := r.present result }

end Runner

end Dialogue
