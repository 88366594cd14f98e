import Dialogue.Proofs.Program.Labels
import Dialogue.Proofs.Program.Mentions
import Mathlib.Algebra.Order.BigOperators.Group.List
import Mathlib.Data.Finset.Card
import Mathlib.Logic.Relation

set_option autoImplicit false

namespace Dialogue

open Relation

namespace Block

/-- Every instruction of the block, at whatever depth, hands over to titles with the property. -/
def Leads (good : String → Prop) (block : Block) : Prop :=
  Everywhere (fun i => ∀ target ∈ i.target?, good target) block

theorem leads_cons {good : String → Prop} {i : Instruction} {rest : Block} :
    Leads good (i :: rest) ↔ Leads good [i] ∧ Leads good rest := by
  rw [← List.singleton_append]
  exact everywhere_append

end Block

section Effort

variable (ahead : String → Nat)

mutual

/-- How many steps an instruction can lead to, where `ahead` says it of titles. Every block costs a
step to leave it. -/
def Instruction.effort : Instruction → Nat
  | .line _ | .command _ => 1
  | .jump target | .detour target => 2 + ahead target
  | .options choices => 1 + choicesEffort choices
  | .branches branches => 1 + branchesEffort branches
  | .once _ block => 2 + blockEffort block

def blockEffort : List Instruction → Nat
  | [] => 0
  | i :: rest => i.effort + blockEffort rest

def choicesEffort : List (Choice × List Instruction) → Nat
  | [] => 0
  | (_, block) :: rest => 1 + blockEffort block + choicesEffort rest

def branchesEffort : List (Option String × List Instruction) → Nat
  | [] => 0
  | (_, block) :: rest => 1 + blockEffort block + branchesEffort rest

end

/-- The effort of blocks of which each is left in the end. -/
def totalEffort (blocks : List Block) : Nat :=
  (blocks.map fun block => 1 + blockEffort ahead block).sum

variable {ahead}

theorem choicesEffort_eq (choices : List (Choice × List Instruction)) :
    choicesEffort ahead choices = totalEffort ahead (choices.map (·.2)) := by
  induction choices with
  | nil => rfl
  | cons choice rest ih =>
      rw [choicesEffort, ih]
      rfl

theorem branchesEffort_eq (branches : List (Option String × List Instruction)) :
    branchesEffort ahead branches = totalEffort ahead (branches.map (·.2)) := by
  induction branches with
  | nil => rfl
  | cons branch rest ih =>
      rw [branchesEffort, ih]
      rfl

theorem totalEffort_cons (block : Block) (blocks : List Block) :
    totalEffort ahead (block :: blocks) =
      1 + blockEffort ahead block + totalEffort ahead blocks := by
  rfl

theorem totalEffort_append (blocks more : List Block) :
    totalEffort ahead (blocks ++ more) = totalEffort ahead blocks + totalEffort ahead more := by
  simp [totalEffort]

theorem totalEffort_sublist (ahead : String → Nat) {fewer blocks : List Block}
    (sub : fewer.Sublist blocks) : totalEffort ahead fewer ≤ totalEffort ahead blocks :=
  (sub.map _).sum_le_sum (fun _ _ => Nat.zero_le _)

/-- An instruction is a step of its own, besides what its blocks lead to. -/
theorem Instruction.effort_blocks (ahead : String → Nat) (i : Instruction) :
    1 + totalEffort ahead i.blocks ≤ i.effort ahead := by
  cases i with
  | line l => exact Nat.le_refl 1
  | command content => exact Nat.le_refl 1
  | jump target =>
      show 1 + 0 ≤ 2 + ahead target
      omega
  | detour target =>
      show 1 + 0 ≤ 2 + ahead target
      omega
  | options choices =>
      rw [effort, choicesEffort_eq]
      exact Nat.le_refl _
  | branches branches =>
      rw [effort, branchesEffort_eq]
      exact Nat.le_refl _
  | once id block =>
      show 1 + (1 + blockEffort ahead block + 0) ≤ 2 + blockEffort ahead block
      omega

theorem Instruction.effort_target {i : Instruction} {target : String}
    (hands : i.target? = some target) : i.effort ahead = 2 + ahead target := by
  cases i with
  | jump other => cases hands; rfl
  | detour other => cases hands; rfl
  | _ => cases hands

mutual

theorem Instruction.effort_congr {other : String → Nat} : ∀ i : Instruction,
    Block.Leads (fun target => ahead target = other target) [i] →
      i.effort ahead = i.effort other
  | .line _, _ => rfl
  | .command _, _ => rfl
  | .jump target, agree => by
      have same := (Block.everywhere_singleton.mp agree).1 target rfl
      rw [Instruction.effort, Instruction.effort, same]
  | .detour target, agree => by
      have same := (Block.everywhere_singleton.mp agree).1 target rfl
      rw [Instruction.effort, Instruction.effort, same]
  | .options choices, agree => by
      have inside := List.forall_mem_map.mp (Block.everywhere_singleton.mp agree).2
      rw [Instruction.effort, Instruction.effort, choicesEffort_congr choices inside]
  | .branches branches, agree => by
      have inside := List.forall_mem_map.mp (Block.everywhere_singleton.mp agree).2
      rw [Instruction.effort, Instruction.effort, branchesEffort_congr branches inside]
  | .once id block, agree => by
      have inside := List.forall_mem_singleton.mp (Block.everywhere_singleton.mp agree).2
      rw [Instruction.effort, Instruction.effort, blockEffort_congr block inside]

/-- Only the titles count that the block hands over to. -/
theorem blockEffort_congr {other : String → Nat} : ∀ block : List Instruction,
    Block.Leads (fun target => ahead target = other target) block →
      blockEffort ahead block = blockEffort other block
  | [], _ => rfl
  | i :: rest, agree => by
      obtain ⟨first, later⟩ := Block.leads_cons.mp agree
      rw [blockEffort, blockEffort, Instruction.effort_congr i first,
        blockEffort_congr rest later]

theorem choicesEffort_congr {other : String → Nat} :
    ∀ choices : List (Choice × List Instruction),
      (∀ choice ∈ choices, Block.Leads (fun target => ahead target = other target) choice.2) →
        choicesEffort ahead choices = choicesEffort other choices
  | [], _ => rfl
  | (_, block) :: rest, agree => by
      obtain ⟨first, later⟩ := List.forall_mem_cons.mp agree
      rw [choicesEffort, choicesEffort, blockEffort_congr block first,
        choicesEffort_congr rest later]

theorem branchesEffort_congr {other : String → Nat} :
    ∀ branches : List (Option String × List Instruction),
      (∀ branch ∈ branches, Block.Leads (fun target => ahead target = other target) branch.2) →
        branchesEffort ahead branches = branchesEffort other branches
  | [], _ => rfl
  | (_, block) :: rest, agree => by
      obtain ⟨first, later⟩ := List.forall_mem_cons.mp agree
      rw [branchesEffort, branchesEffort, blockEffort_congr block first,
        branchesEffort_congr rest later]

end

end Effort

namespace Program

/-- Some node of the first title jumps or detours to the second, at whatever depth. -/
def Links (p : Program) (title target : String) : Prop :=
  ∃ member node path index i, p.nodeAt? title member = some node ∧
    Block.instruction? node.instructions path index = some i ∧ i.target? = some target

/-- From this title on, no title leads back to itself. -/
def Acyclic (p : Program) (start : String) : Prop :=
  ∀ title, ReflTransGen p.Links start title → ¬ TransGen p.Links title title

/-- How many steps the nodes of a title can lead to, where hand-overs are followed to a depth. -/
def effort (p : Program) : Nat → String → Nat
  | 0, _ => 0
  | depth + 1, title =>
      (((p.group? title).getD []).map fun node =>
        blockEffort (p.effort depth) node.instructions).sum

/-- How many steps the nodes of a title can lead to. Without cycles, no path of links is longer than
the program has titles. -/
def reach (p : Program) (title : String) : Nat :=
  p.effort (p.nodes.size + 1) title

/-- A number of steps in which every dialogue without cycles is over. -/
def bound (p : Program) : Nat :=
  1 + (p.nodes.names.map p.reach).sum

variable {p : Program} {start title target : String}

theorem Links.known (link : p.Links title target) : title ∈ p.nodes.names := by
  obtain ⟨member, node, path, index, i, found, -, -⟩ := link
  obtain ⟨group, known, -⟩ := Option.bind_eq_some_iff.mp found
  exact List.mem_map_of_mem (Table.mem_of_get? known)

theorem effort_unknown (unknown : title ∉ p.nodes.names) (depth : Nat) :
    p.effort depth title = 0 := by
  cases depth with
  | zero => rfl
  | succ depth =>
      have missing : p.group? title = none := by
        cases found : p.group? title with
        | none => rfl
        | some group => exact absurd (List.mem_map_of_mem (Table.mem_of_get? found)) unknown
      rw [effort, missing]
      rfl

open Classical in
/-- The titles of the program that a title leads to. -/
noncomputable def descendants (p : Program) (title : String) : Finset String :=
  p.nodes.names.toFinset.filter fun other => TransGen p.Links title other

theorem mem_descendants {other : String} :
    other ∈ p.descendants title ↔ other ∈ p.nodes.names ∧ TransGen p.Links title other := by
  simp [descendants]

theorem card_descendants (p : Program) (title : String) :
    (p.descendants title).card ≤ p.nodes.size := by
  have listed : p.descendants title ⊆ p.nodes.names.toFinset := by
    intro other leads
    exact List.mem_toFinset.mpr (mem_descendants.mp leads).1
  calc (p.descendants title).card
      ≤ p.nodes.names.toFinset.card := Finset.card_le_card listed
    _ ≤ p.nodes.names.length := List.toFinset_card_le _
    _ = p.nodes.size := List.length_map _

/-- What follows on a link leads to fewer titles, since it does not lead to itself. -/
theorem descendants_lt (link : p.Links title target) (known : target ∈ p.nodes.names)
    (noReturn : ¬ TransGen p.Links target target) :
    (p.descendants target).card < (p.descendants title).card := by
  apply Finset.card_lt_card
  refine ⟨?_, ?_⟩
  · intro other listed
    obtain ⟨present, leads⟩ := mem_descendants.mp listed
    exact mem_descendants.mpr ⟨present, .head link leads⟩
  · intro contained
    have own : target ∈ p.descendants title := mem_descendants.mpr ⟨known, .single link⟩
    exact noReturn (mem_descendants.mp (contained own)).2

theorem nodeAt?_eq (p : Program) (title : String) (member : Nat) :
    p.nodeAt? title member = ((p.group? title).getD [])[member]? := by
  unfold nodeAt?
  cases p.group? title <;> rfl

/-- Beyond the number of titles that a title leads to, a greater depth changes nothing. -/
theorem effort_settled (acyclic : p.Acyclic start) (depth : Nat) {title : String}
    (reached : ReflTransGen p.Links start title) (deep : (p.descendants title).card < depth) :
    p.effort (depth + 1) title = p.effort depth title := by
  induction depth generalizing title with
  | zero => omega
  | succ depth ih =>
      rw [effort, effort]
      refine congrArg List.sum (List.map_congr_left ?_)
      intro node listed
      apply blockEffort_congr
      intro path index i placed target hands
      obtain ⟨member, position⟩ := List.mem_iff_getElem?.mp listed
      rw [← nodeAt?_eq] at position
      have link : p.Links title target := ⟨member, node, path, index, i, position, placed, hands⟩
      have further : ReflTransGen p.Links start target := reached.tail link
      by_cases known : target ∈ p.nodes.names
      · have fewer := descendants_lt link known (acyclic target further)
        exact ih further (by omega)
      · rw [effort_unknown known, effort_unknown known]

/-- A budget for titles: a title with the property hands over to such titles only, and has paid for
everything that any of its nodes can lead to. -/
structure Budget (p : Program) (good : String → Prop) (ahead : String → Nat) : Prop where
  leads : ∀ title member node, good title → p.nodeAt? title member = some node →
    Block.Leads good node.instructions
  pays : ∀ title member node, good title → p.nodeAt? title member = some node →
    blockEffort ahead node.instructions ≤ ahead title

/-- Where no cycle can be reached, what can be reached has a budget. -/
theorem Acyclic.budget (acyclic : p.Acyclic start) :
    Budget p (ReflTransGen p.Links start) p.reach := by
  refine ⟨?_, ?_⟩
  · intro title member node reached found path index i placed target hands
    exact reached.tail ⟨member, node, path, index, i, found, placed, hands⟩
  · intro title member node reached found
    have few := p.card_descendants title
    have settled := effort_settled acyclic (p.nodes.size + 1) reached (by omega)
    rw [nodeAt?_eq] at found
    unfold reach
    rw [← settled, effort]
    exact List.single_le_sum (fun _ _ => Nat.zero_le _) _
      (List.mem_map_of_mem (List.mem_of_getElem? found))

theorem reach_lt_bound (p : Program) (title : String) : p.reach title < p.bound := by
  unfold bound
  by_cases known : title ∈ p.nodes.names
  · have part : p.reach title ≤ (p.nodes.names.map p.reach).sum :=
      List.single_le_sum (fun _ _ => Nat.zero_le _) _ (List.mem_map_of_mem known)
    omega
  · have nothing : p.reach title = 0 := effort_unknown known _
    omega

/-- A link is a reference that the check sees. -/
theorem Links.mention (link : p.Links title target) :
    ∃ transfer, .reference target transfer title ∈ p.nodeMentions := by
  obtain ⟨member, node, path, index, i, found, placed, hands⟩ := link
  obtain ⟨block, resolved, listed⟩ := Option.bind_eq_some_iff.mp placed
  obtain ⟨transfer, own⟩ := mentions_target title hands
  have inBlock := mem_blockMentions.mpr ⟨i, List.mem_of_getElem? listed, own⟩
  exact ⟨transfer, nodeMentions_nodeAt found (blockMentions_resolve resolved inBlock)⟩

/-- A program has no cycles if its references go down by some rank. -/
theorem acyclic_of_rank (rank : String → Nat)
    (down : ∀ target transfer title, .reference target transfer title ∈ p.nodeMentions →
      rank target < rank title) (start : String) : p.Acyclic start := by
  have lower : ∀ {title target}, TransGen p.Links title target → rank target < rank title := by
    intro title target leads
    induction leads with
    | single link =>
        obtain ⟨transfer, listed⟩ := link.mention
        exact down _ transfer _ listed
    | tail _ link ih =>
        obtain ⟨transfer, listed⟩ := link.mention
        exact (down _ transfer _ listed).trans ih
  intro title _ cycle
  exact Nat.lt_irrefl _ (lower cycle)

end Program

end Dialogue
