import Dialogue.Proofs.Program.Image
import Dialogue.Proofs.Program.Uniqueness

set_option autoImplicit false

namespace Dialogue

namespace Script

/-- What a script numbers: a line or an option with its tags, or a once block. -/
inductive Mark where
  | label (tags : List String)
  | once
  deriving DecidableEq, Repr

mutual

/-- What is numbered in a statement, an option before what it leads to. -/
def Statement.marks : Statement → List Mark
  | .line l => [.label l.tags]
  | .options choices => choicesMarks choices
  | .conditional branches => branchesMarks branches
  | .once body => .once :: bodyMarks body
  | .command _ | .jump _ | .detour _ | .enumeration _ => []

def bodyMarks : List Statement → List Mark
  | [] => []
  | statement :: rest => statement.marks ++ bodyMarks rest

def choicesMarks : List (Choice × List Statement) → List Mark
  | [] => []
  | (choice, body) :: rest => .label choice.tags :: (bodyMarks body ++ choicesMarks rest)

def branchesMarks : List (Option String × List Statement) → List Mark
  | [] => []
  | (_, body) :: rest => bodyMarks body ++ branchesMarks rest

end

namespace Mark

/-- The identifiers among the tags of a line or an option. -/
def lineIds : Mark → List String
  | label tags => tags.filter isLineId
  | once => []

/-- Whether a line or an option has no identifier. -/
def isUnnamed : Mark → Bool
  | label tags => !tags.any isLineId
  | once => false

end Mark

/-- What is numbered in the nodes of a script. -/
def nodesMarks (nodes : List Node) : List Mark :=
  nodes.flatMap fun node => bodyMarks node.body

namespace Document

def marks (d : Document) : List Mark :=
  nodesMarks d.nodes

/-- The identifiers that the script itself gives to lines and options. -/
def lineIds (d : Document) : List String :=
  d.marks.flatMap Mark.lineIds

/-- How many lines and options have no identifier in the script. -/
def unnamed (d : Document) : Nat :=
  d.marks.countP Mark.isUnnamed

/-- How many once blocks the nodes of a title have. -/
def onceCount (d : Document) (title : String) : Nat :=
  (nodesMarks (d.nodes.filter (·.title = title))).count .once

end Document

end Script

namespace Program

open Script (Mark)

namespace Entry

/-- What the script has at the place of the entry. -/
def mark : Entry → Mark
  | label given _ => .label given
  | once _ _ => .once

def onceId? : Entry → Option String
  | label _ _ => none
  | once _ id => some id

/-- The identifier of a once block under the title. -/
def onceOf? (title : String) (entry : Entry) : Option String :=
  if entry.isOnceOf title then entry.onceId? else none

/-- The identifier of a line or an option, if it is one. -/
def label? : Entry → Option (Option String)
  | label _ tags => some (lineId? tags)
  | once _ _ => none

end Entry

/-- The entries of a part of a node with the given title, and what is listed of its text, of its
once blocks, and of its lines and options. -/
structure Listed (title : String) (entries : List Entry) (marks : List Mark)
    (onceIds : List String) (lineIds : List (Option String)) : Prop where
  marks : entries.map Entry.mark = marks
  onces : entries.filterMap Entry.onceId? = onceIds
  /-- The options of a choice are listed before what they lead to. -/
  lines : (entries.filterMap Entry.label?).Perm lineIds
  titled : ∀ other id, .once other id ∈ entries → other = title

section Listing

variable {title : String} {own later : List Entry} {marks moreMarks : List Mark}
  {onceIds moreOnceIds : List String} {lineIds moreLineIds : List (Option String)}

theorem Listed.nil : Listed title [] [] [] [] :=
  ⟨rfl, rfl, .refl _, by simp⟩

theorem Listed.label (given tags : List String) :
    Listed title [.label given tags] [.label given] [] [lineId? tags] :=
  ⟨rfl, rfl, .refl _, by simp⟩

theorem Listed.once (id : String) : Listed title [.once title id] [.once] [id] [] :=
  ⟨rfl, rfl, .refl _, by simp⟩

theorem Listed.append (first : Listed title own marks onceIds lineIds)
    (second : Listed title later moreMarks moreOnceIds moreLineIds) :
    Listed title (own ++ later) (marks ++ moreMarks) (onceIds ++ moreOnceIds)
      (lineIds ++ moreLineIds) := by
  refine ⟨?_, ?_, ?_, ?_⟩
  · rw [List.map_append, first.marks, second.marks]
  · rw [List.filterMap_append, first.onces, second.onces]
  · rw [List.filterMap_append]
    exact first.lines.append second.lines
  · intro other id member
    rcases List.mem_append.mp member with inOwn | inLater
    · exact first.titled other id inOwn
    · exact second.titled other id inLater

theorem Listed.perm (listed : Listed title own marks onceIds lineIds)
    (same : lineIds.Perm moreLineIds) : Listed title own marks onceIds moreLineIds :=
  ⟨listed.marks, listed.onces, listed.lines.trans same, listed.titled⟩

mutual

theorem BodyImage.listed {entries : List Entry} {body : Script.Body} {block : Block}
    (image : BodyImage title entries body block) :
    Listed title entries (Script.bodyMarks body) (ids .once (blockMentions title block))
      (blockLineIds block) := by
  match image with
  | .nil => exact .nil
  | .cons first rest =>
      rw [Script.bodyMarks, blockMentions, ids_append, blockLineIds]
      exact first.listed.append rest.listed
  | .enumeration rest => exact rest.listed

theorem Image.listed {entries : List Entry} {statement : Script.Statement} {i : Instruction}
    (image : Image title entries statement i) :
    Listed title entries statement.marks (ids .once (mentions title i)) i.lineIds := by
  match image with
  | .line =>
      rw [mentions, ids_once_lineMention]
      exact .label _ _
  | .command => exact .nil
  | .jump => exact .nil
  | .detour => exact .nil
  | .options each =>
      rw [mentions, ids_append, ids_once_ownMentions]
      exact each.listed
  | .conditional each => exact each.listed
  | .once inside => exact (Listed.once _).append inside.listed

/-- The identifiers of all choices stand before those of their blocks. -/
theorem ChoicesImage.listed {entries : List Entry}
    {choices : List (Script.Choice × Script.Body)} {lowered : List (Choice × Block)}
    (image : ChoicesImage title entries choices lowered) :
    Listed title entries (Script.choicesMarks choices) (ids .once (choiceMentions title lowered))
      (lowered.map (fun c => lineId? c.1.tags) ++ choicesLineIds lowered) := by
  match image with
  | .nil => exact .nil
  | .cons inside rest =>
      rw [Script.choicesMarks, choiceMentions, ids_append, choicesLineIds]
      refine ((Listed.label _ _).append (inside.listed.append rest.listed)).perm ?_
      -- The program lists the later choices before the block of this one.
      simp only [List.map_cons, List.cons_append, List.nil_append]
      exact (List.perm_append_comm_assoc _ _ _).cons _

theorem BranchesImage.listed {entries : List Entry}
    {branches : List (Option String × Script.Body)} {lowered : List (Option String × Block)}
    (image : BranchesImage title entries branches lowered) :
    Listed title entries (Script.branchesMarks branches)
      (ids .once (branchMentions title lowered)) (branchesLineIds lowered) := by
  match image with
  | .nil => exact .nil
  | .cons inside rest =>
      rw [Script.branchesMarks, branchMentions, ids_append, branchesLineIds]
      exact inside.listed.append rest.listed

end

/-- Only the title of the node has once blocks in it. -/
theorem Listed.onceOf (listed : Listed title own marks onceIds lineIds) (other : String) :
    own.filterMap (Entry.onceOf? other) = if title = other then onceIds else [] := by
  split
  · rename_i same
    subst same
    rw [← listed.onces]
    refine List.filterMap_congr ?_
    rintro (⟨given, tags⟩ | ⟨titled, id⟩) member
    · rfl
    · simp [Entry.onceOf?, Entry.isOnceOf, listed.titled _ _ member]
  · rename_i differ
    rw [List.filterMap_eq_nil_iff]
    rintro (⟨given, tags⟩ | ⟨titled, id⟩) member
    · rfl
    · simp [Entry.onceOf?, Entry.isOnceOf, listed.titled _ _ member, differ]

theorem Listed.countOf (listed : Listed title own marks onceIds lineIds) (other : String) :
    own.countP (Entry.isOnceOf other) = if title = other then marks.count .once else 0 := by
  split
  · rename_i same
    subst same
    rw [← listed.marks, List.count_eq_countP, List.countP_map]
    refine List.countP_congr ?_
    rintro (⟨given, tags⟩ | ⟨titled, id⟩) member
    · simp [Entry.mark, Entry.isOnceOf]
    · simp [Entry.mark, Entry.isOnceOf, listed.titled _ _ member]
  · rename_i differ
    rw [List.countP_eq_zero]
    rintro (⟨given, tags⟩ | ⟨titled, id⟩) member
    · simp [Entry.isOnceOf]
    · simp [Entry.isOnceOf, listed.titled _ _ member, differ]

end Listing

section Nodes

variable {entries : List Entry} {sources : List Script.Node} {nodes : List Node}

theorem NodesImage.marks (images : NodesImage entries sources nodes) :
    entries.map Entry.mark = Script.nodesMarks sources := by
  induction images with
  | nil => rfl
  | @cons own later source node sources nodes first rest ih =>
      rw [List.map_append, first.body.listed.marks, ih]
      rfl

theorem NodesImage.lines (images : NodesImage entries sources nodes) :
    (entries.filterMap Entry.label?).Perm
      (nodes.flatMap fun node => blockLineIds node.instructions) := by
  induction images with
  | nil => exact .refl _
  | @cons own later source node sources nodes first rest ih =>
      rw [List.filterMap_append, List.flatMap_cons]
      exact first.body.listed.lines.append ih

theorem NodesImage.onces (images : NodesImage entries sources nodes) (title : String) :
    entries.filterMap (Entry.onceOf? title) = (nodes.filter (·.title = title)).flatMap
      fun node => ids .once (blockMentions title node.instructions) := by
  induction images with
  | nil => rfl
  | @cons own later source node sources nodes first rest ih =>
      rw [List.filterMap_append, first.body.listed.onceOf title, ih]
      by_cases same : source.title = title
      · subst same
        simp [first.title]
      · simp [first.title, same]

theorem NodesImage.onceCount (images : NodesImage entries sources nodes) (title : String) :
    entries.countP (Entry.isOnceOf title) =
      (Script.nodesMarks (sources.filter (·.title = title))).count .once := by
  induction images with
  | nil => rfl
  | @cons own later source node sources nodes first rest ih =>
      rw [List.countP_append, first.body.listed.countOf title, ih]
      by_cases same : source.title = title
      · simp [same, Script.nodesMarks]
      · simp [same]

end Nodes

end Program

namespace Table

variable {α : Type} {name : String}

/-- Adding to what stands under a name adds to all that stands in the table. -/
theorem flatMap_place {entries : List (String × List α)} (ascending : Ascending entries)
    (more : List α) :
    ((place name ((lookup name entries).getD [] ++ more) entries).flatMap (·.2)).Perm
      (entries.flatMap (·.2) ++ more) := by
  induction entries with
  | nil => simp [place, lookup]
  | cons head rest ih =>
      obtain ⟨other, kept⟩ := head
      obtain ⟨above, ascendingRest⟩ := List.pairwise_cons.mp ascending
      rw [place]
      split
      · rename_i below
        have absent : lookup name ((other, kept) :: rest) = none := by
          refine lookup_of_lt (List.forall_mem_cons.mpr ⟨below, ?_⟩)
          exact fun e member => String.lt_trans below (above e member)
        rw [absent]
        exact List.perm_append_comm
      · split
        · rename_i same
          rw [lookup, if_pos same]
          simp only [Option.getD_some, List.flatMap_cons, List.append_assoc]
          exact List.perm_append_comm.append_left _
        · rename_i differ
          rw [lookup, if_neg differ, List.flatMap_cons, List.flatMap_cons, List.append_assoc]
          exact (ih ascendingRest).append_left _

end Table

namespace Program

/-- Every node is in one group. -/
theorem groupNodes_perm (nodes : List Node) :
    ((groupNodes nodes).entries.flatMap (·.2)).Perm nodes := by
  induction nodes using List.reverseRecOn with
  | nil => exact .refl _
  | append_singleton nodes last ih =>
      rw [groupNodes_snoc]
      exact (Table.flatMap_place (groupNodes nodes).ascending [last]).trans (ih.append_right _)

end Program

end Dialogue
