import Dialogue.Program.Validate
import Dialogue.Runner.Basic

set_option autoImplicit false

namespace Dialogue

namespace Program

variable {p : Program} {title : String} {m : Mention}

theorem mem_blockMentions {block : Block} :
    m ∈ blockMentions title block ↔ ∃ i ∈ block, m ∈ mentions title i := by
  induction block with
  | nil => simp [blockMentions]
  | cons i rest ih => simp [blockMentions, ih]

theorem mem_choiceMentions {choices : List (Choice × List Instruction)} :
    m ∈ choiceMentions title choices ↔ ∃ c ∈ choices, m ∈ blockMentions title c.2 := by
  induction choices with
  | nil => simp [choiceMentions]
  | cons c rest ih =>
      obtain ⟨choice, block⟩ := c
      simp [choiceMentions, ih]

theorem mem_branchMentions {branches : List (Option String × List Instruction)} :
    m ∈ branchMentions title branches ↔ ∃ b ∈ branches, m ∈ blockMentions title b.2 := by
  induction branches with
  | nil => simp [branchMentions]
  | cons b rest ih =>
      obtain ⟨condition, block⟩ := b
      simp [branchMentions, ih]

/-- An instruction mentions what its blocks mention. -/
theorem mentions_block {i : Instruction} {block : Block} (owned : block ∈ i.blocks)
    (inside : m ∈ blockMentions title block) : m ∈ mentions title i := by
  cases i with
  | options choices =>
      obtain ⟨c, listed, rfl⟩ := List.mem_map.mp owned
      exact List.mem_append_right _ (mem_choiceMentions.mpr ⟨c, listed, inside⟩)
  | branches branches =>
      obtain ⟨b, listed, rfl⟩ := List.mem_map.mp owned
      exact mem_branchMentions.mpr ⟨b, listed, inside⟩
  | once id body =>
      obtain rfl := List.mem_singleton.mp owned
      exact List.mem_cons_of_mem _ inside
  | _ => cases owned

/-- A block mentions what the blocks mention that paths lead to. -/
theorem blockMentions_resolve {root block : Block} {path : BlockPath}
    (found : Block.resolve? root path = some block) (inside : m ∈ blockMentions title block) :
    m ∈ blockMentions title root := by
  induction path generalizing root with
  | nil =>
      obtain rfl := Option.some.inj found
      exact inside
  | cons head path ih =>
      obtain ⟨index, sub⟩ := head
      unfold Block.resolve? at found
      split at found
      · rename_i nested step
        obtain ⟨i, placed, owned⟩ := Option.bind_eq_some_iff.mp step
        have below := mentions_block (List.mem_of_getElem? owned) (ih found)
        exact mem_blockMentions.mpr ⟨i, List.mem_of_getElem? placed, below⟩
      · cases found

theorem mentions_target (title : String) {i : Instruction} {target : String}
    (hands : i.target? = some target) :
    ∃ transfer, .reference target transfer title ∈ mentions title i := by
  cases i with
  | jump other =>
      obtain rfl := Option.some.inj hands
      exact ⟨.jump, List.mem_singleton_self _⟩
  | detour other =>
      obtain rfl := Option.some.inj hands
      exact ⟨.detour, List.mem_singleton_self _⟩
  | _ => cases hands

/-- The mentions of a program include those of each of its nodes, under the title of its group. -/
theorem nodeMentions_nodeAt {member : Nat} {node : Node}
    (found : p.nodeAt? title member = some node)
    (inside : m ∈ blockMentions title node.instructions) : m ∈ p.nodeMentions := by
  obtain ⟨group, known, placed⟩ := Option.bind_eq_some_iff.mp found
  refine List.mem_flatMap.mpr ⟨(title, group), Table.mem_of_get? known, ?_⟩
  refine List.mem_cons_of_mem _ (List.mem_flatMap.mpr ⟨node, ?_, inside⟩)
  exact List.mem_of_getElem? placed

/-- Mentions without a finding refer to titles of the program only. -/
theorem contains_of_checked {seen : List (IdKind × String)} {listed : List Mention}
    (clean : checkMentions p seen listed = []) {target : String} {transfer : Transfer}
    (referred : .reference target transfer title ∈ listed) : p.nodes.contains target = true := by
  induction listed generalizing seen with
  | nil => cases referred
  | cons head rest ih =>
      cases head with
      | title own =>
          have later := (List.append_eq_nil_iff.mp clean).2
          exact ih later (by simpa using referred)
      | id kind id =>
          unfold checkMentions at clean
          split at clean
          · cases clean
          · exact ih clean (by simpa using referred)
      | reference other how own =>
          obtain ⟨now, later⟩ := List.append_eq_nil_iff.mp clean
          rcases List.mem_cons.mp referred with same | elsewhere
          · obtain ⟨rfl, rfl, rfl⟩ := Mention.reference.inj same
            split at now
            · assumption
            · cases now
          · exact ih later elsewhere

/-- What a node of a checked program hands over to exists. -/
theorem contains_target {member : Nat} {node : Node} {path : BlockPath} {index : Nat}
    {i : Instruction} {target : String} (valid : p.validate = [])
    (found : p.nodeAt? title member = some node)
    (placed : Block.instruction? node.instructions path index = some i)
    (hands : i.target? = some target) : p.nodes.contains target = true := by
  obtain ⟨block, resolved, listed⟩ := Option.bind_eq_some_iff.mp placed
  obtain ⟨transfer, own⟩ := mentions_target title hands
  have inBlock := mem_blockMentions.mpr ⟨i, List.mem_of_getElem? listed, own⟩
  have inNode := blockMentions_resolve resolved inBlock
  have clean := (List.append_eq_nil_iff.mp valid).2
  exact contains_of_checked clean (nodeMentions_nodeAt found inNode)

end Program

end Dialogue
