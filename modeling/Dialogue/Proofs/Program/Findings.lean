import Dialogue.Proofs.Program.Labels
import Dialogue.Proofs.Program.Uniqueness

set_option autoImplicit false

namespace Dialogue

mutual

/-- An instruction, then those of its blocks at every depth. -/
def Instruction.listing : Instruction → List Instruction
  | .line l => [.line l]
  | .command content => [.command content]
  | .jump target => [.jump target]
  | .detour target => [.detour target]
  | .options choices => .options choices :: choicesListing choices
  | .branches bs => .branches bs :: branchesListing bs
  | .once id block => .once id block :: blockListing block

/-- The instructions of a block at every depth, in the order of the text. -/
def blockListing : List Instruction → List Instruction
  | [] => []
  | i :: rest => i.listing ++ blockListing rest

def choicesListing : List (Choice × List Instruction) → List Instruction
  | [] => []
  | (_, block) :: rest => blockListing block ++ choicesListing rest

def branchesListing : List (Option String × List Instruction) → List Instruction
  | [] => []
  | (_, block) :: rest => blockListing block ++ branchesListing rest

end

theorem blockListing_eq (block : List Instruction) :
    blockListing block = block.flatMap Instruction.listing := by
  induction block with
  | nil => rfl
  | cons i rest ih => rw [blockListing, ih, List.flatMap_cons]

theorem choicesListing_eq (choices : List (Choice × List Instruction)) :
    choicesListing choices = (choices.map (·.2)).flatMap blockListing := by
  induction choices with
  | nil => rfl
  | cons c rest ih =>
      rw [choicesListing, ih]
      rfl

theorem branchesListing_eq (bs : List (Option String × List Instruction)) :
    branchesListing bs = (bs.map (·.2)).flatMap blockListing := by
  induction bs with
  | nil => rfl
  | cons b rest ih =>
      rw [branchesListing, ih]
      rfl

/-- Whatever the instruction is, its blocks follow it in order. -/
theorem Instruction.listing_eq (i : Instruction) :
    i.listing = i :: i.blocks.flatMap blockListing := by
  cases i with
  | options choices => rw [listing, choicesListing_eq, blocks]
  | branches bs => rw [listing, branchesListing_eq, blocks]
  | once id block => simp [listing, blocks]
  | _ => rfl

/-- What a path leads to is listed. -/
theorem mem_blockListing_of_instruction? {root : Block} {path : BlockPath} {index : Nat}
    {i : Instruction} (placed : Block.instruction? root path index = some i) :
    i ∈ blockListing root := by
  rw [blockListing_eq]
  induction path generalizing root with
  | nil =>
      refine List.mem_flatMap.mpr ⟨i, List.mem_of_getElem? placed, ?_⟩
      rw [Instruction.listing_eq]
      exact List.mem_cons_self
  | cons step path ih =>
      obtain ⟨place, sub⟩ := step
      rw [Block.instruction?_cons] at placed
      obtain ⟨block, nested, inside⟩ := Option.bind_eq_some_iff.mp placed
      obtain ⟨owner, found, owned⟩ := Option.bind_eq_some_iff.mp nested
      refine List.mem_flatMap.mpr ⟨owner, List.mem_of_getElem? found, ?_⟩
      rw [Instruction.listing_eq]
      refine List.mem_cons_of_mem _ (List.mem_flatMap.mpr ⟨block, ?_, ?_⟩)
      · exact List.mem_of_getElem? owned
      · rw [blockListing_eq]
        exact ih inside

mutual

theorem listing_everywhere {P : Instruction → Prop} :
    ∀ i : Instruction, Block.Everywhere P [i] → ∀ j ∈ i.listing, P j
  | .line _, holds => List.forall_mem_singleton.mpr (Block.everywhere_singleton.mp holds).1
  | .command _, holds => List.forall_mem_singleton.mpr (Block.everywhere_singleton.mp holds).1
  | .jump _, holds => List.forall_mem_singleton.mpr (Block.everywhere_singleton.mp holds).1
  | .detour _, holds => List.forall_mem_singleton.mpr (Block.everywhere_singleton.mp holds).1
  | .options choices, holds => by
      obtain ⟨own, inside⟩ := Block.everywhere_singleton.mp holds
      exact List.forall_mem_cons.mpr
        ⟨own, choicesListing_everywhere choices (List.forall_mem_map.mp inside)⟩
  | .branches bs, holds => by
      obtain ⟨own, inside⟩ := Block.everywhere_singleton.mp holds
      exact List.forall_mem_cons.mpr
        ⟨own, branchesListing_everywhere bs (List.forall_mem_map.mp inside)⟩
  | .once _ block, holds => by
      obtain ⟨own, inside⟩ := Block.everywhere_singleton.mp holds
      exact List.forall_mem_cons.mpr
        ⟨own, blockListing_everywhere block (List.forall_mem_singleton.mp inside)⟩

/-- Only what some path leads to is listed. -/
theorem blockListing_everywhere {P : Instruction → Prop} :
    ∀ block : List Instruction, Block.Everywhere P block → ∀ j ∈ blockListing block, P j
  | [], _ => List.forall_mem_nil _
  | i :: rest, holds => by
      rw [← List.singleton_append] at holds
      obtain ⟨first, later⟩ := Block.everywhere_append.mp holds
      exact List.forall_mem_append.mpr
        ⟨listing_everywhere i first, blockListing_everywhere rest later⟩

theorem choicesListing_everywhere {P : Instruction → Prop} :
    ∀ choices : List (Choice × List Instruction),
      (∀ c ∈ choices, Block.Everywhere P c.2) → ∀ j ∈ choicesListing choices, P j
  | [], _ => List.forall_mem_nil _
  | (_, block) :: rest, holds => by
      obtain ⟨first, later⟩ := List.forall_mem_cons.mp holds
      exact List.forall_mem_append.mpr
        ⟨blockListing_everywhere block first, choicesListing_everywhere rest later⟩

theorem branchesListing_everywhere {P : Instruction → Prop} :
    ∀ bs : List (Option String × List Instruction),
      (∀ b ∈ bs, Block.Everywhere P b.2) → ∀ j ∈ branchesListing bs, P j
  | [], _ => List.forall_mem_nil _
  | (_, block) :: rest, holds => by
      obtain ⟨first, later⟩ := List.forall_mem_cons.mp holds
      exact List.forall_mem_append.mpr
        ⟨blockListing_everywhere block first, branchesListing_everywhere rest later⟩

end

/-- An instruction is listed exactly if it stands somewhere in the block, at whatever depth. -/
theorem mem_blockListing {root : Block} {i : Instruction} :
    i ∈ blockListing root ↔ ∃ path index, Block.instruction? root path index = some i := by
  constructor
  · have reached : Block.Everywhere (fun i => ∃ path index,
        Block.instruction? root path index = some i) root :=
      fun path index i placed => ⟨path, index, placed⟩
    exact blockListing_everywhere root reached i
  · rintro ⟨path, index, placed⟩
    exact mem_blockListing_of_instruction? placed

namespace Program

/-- A jump or a detour: the title it hands over to, how it does so, and the title it stands
under. -/
structure Handover where
  target : String
  transfer : Transfer
  title : String
  deriving DecidableEq

end Program

namespace Instruction

def handover? (title : String) : Instruction → Option Program.Handover
  | jump target => some ⟨target, .jump, title⟩
  | detour target => some ⟨target, .detour, title⟩
  | _ => none

def onceId? : Instruction → Option String
  | once id _ => some id
  | _ => none

end Instruction

namespace Program

/-- All instructions of a program with the titles they stand under: the titles in their order, the
nodes of a title in theirs, and each node at every depth. -/
def traversal (p : Program) : List (String × Instruction) :=
  p.nodes.entries.flatMap fun entry =>
    entry.2.flatMap fun node => (blockListing node.instructions).map fun i => (entry.1, i)

def handovers (p : Program) : List Handover :=
  p.traversal.filterMap fun e => e.2.handover? e.1

/-- The identifiers of the lines and options that have one. -/
def lineNames (p : Program) : List String :=
  p.traversal.flatMap fun e => e.2.ownIds.reduceOption

def onceNames (p : Program) : List String :=
  p.traversal.filterMap fun e => e.2.onceId?

/-- What a program has to satisfy to pass the check. -/
structure Valid (p : Program) : Prop where
  enums : ∀ enum ∈ p.enums.entries, enum.2 ≠ [] ∧ enum.2.Nodup
  titles : ∀ title ∈ p.nodes.names, Text.isBlankText title = false
  /-- Every jump and detour, at whatever depth it stands, names a title of the program. -/
  targets : ∀ title member node path index i target, p.nodeAt? title member = some node →
    Block.instruction? node.instructions path index = some i → i.target? = some target →
    target ∈ p.nodes.names
  lines : p.lineNames.Nodup
  onces : p.onceNames.Nodup

theorem mem_traversal {p : Program} {title : String} {i : Instruction} :
    (title, i) ∈ p.traversal ↔ ∃ member node path index, p.nodeAt? title member = some node ∧
      Block.instruction? node.instructions path index = some i := by
  have grouped : ∀ group, (title, group) ∈ p.nodes.entries ↔ p.group? title = some group :=
    fun group => ⟨Table.get?_of_mem, Table.mem_of_get?⟩
  simp only [traversal, List.mem_flatMap, List.mem_map, Prod.mk.injEq, Prod.exists]
  constructor
  · rintro ⟨title, group, known, node, listed, i, inside, rfl, rfl⟩
    obtain ⟨member, placed⟩ := List.mem_iff_getElem?.mp listed
    obtain ⟨path, index, found⟩ := mem_blockListing.mp inside
    exact ⟨member, node, path, index,
      Option.bind_eq_some_iff.mpr ⟨group, (grouped group).mp known, placed⟩, found⟩
  · rintro ⟨member, node, path, index, found, placed⟩
    obtain ⟨group, known, member⟩ := Option.bind_eq_some_iff.mp found
    exact ⟨title, group, (grouped group).mpr known, node, List.mem_of_getElem? member, i,
      mem_blockListing.mpr ⟨path, index, placed⟩, rfl, rfl⟩

/-- What an instruction itself mentions, its blocks aside. -/
def ownMentions (title : String) : Instruction → List Mention
  | .line l => lineMention l.tags
  | .command _ => []
  | .jump target => [.reference target .jump title]
  | .detour target => [.reference target .detour title]
  | .options choices => choices.flatMap fun c => lineMention c.1.tags
  | .branches _ => []
  | .once id _ => [.id .once id]

mutual

theorem mentions_eq (title : String) :
    ∀ i : Instruction, mentions title i = i.listing.flatMap (ownMentions title)
  | .line _ | .command _ | .jump _ | .detour _ => (List.flatMap_singleton _ _).symm
  | .options choices => by
      rw [mentions, Instruction.listing, List.flatMap_cons, choiceMentions_eq title choices,
        ownMentions]
  | .branches bs => by
      rw [mentions, Instruction.listing, List.flatMap_cons, branchMentions_eq title bs,
        ownMentions, List.nil_append]
  | .once _ block => by
      rw [mentions, Instruction.listing, List.flatMap_cons, blockMentions_eq title block,
        ownMentions, List.singleton_append]

/-- A block mentions what the instructions of its listing mention. -/
theorem blockMentions_eq (title : String) :
    ∀ block : List Instruction,
      blockMentions title block = (blockListing block).flatMap (ownMentions title)
  | [] => rfl
  | i :: rest => by
      rw [blockMentions, blockListing, List.flatMap_append, mentions_eq title i,
        blockMentions_eq title rest]

theorem choiceMentions_eq (title : String) :
    ∀ choices : List (Choice × List Instruction),
      choiceMentions title choices = (choicesListing choices).flatMap (ownMentions title)
  | [] => rfl
  | (_, block) :: rest => by
      rw [choiceMentions, choicesListing, List.flatMap_append, blockMentions_eq title block,
        choiceMentions_eq title rest]

theorem branchMentions_eq (title : String) :
    ∀ bs : List (Option String × List Instruction),
      branchMentions title bs = (branchesListing bs).flatMap (ownMentions title)
  | [] => rfl
  | (_, block) :: rest => by
      rw [branchMentions, branchesListing, List.flatMap_append, blockMentions_eq title block,
        branchMentions_eq title rest]

end

/-- Whatever is picked from the mentions, titles aside, is picked along the listing. -/
theorem filterMap_nodeMentions {α : Type} (p : Program) {pick : Mention → Option α}
    (untitled : ∀ title, pick (.title title) = none) :
    p.nodeMentions.filterMap pick =
      p.traversal.flatMap fun e => (ownMentions e.1 e.2).filterMap pick := by
  simp only [nodeMentions, traversal, List.filterMap_flatMap, List.filterMap_cons, untitled,
    List.flatMap_assoc, List.flatMap_map, blockMentions_eq]

@[simp] def Mention.handover? : Mention → Option Handover
  | .title _ | .id _ _ => none
  | .reference target transfer place => some ⟨target, transfer, place⟩

theorem handover?_lineMention (tags : List String) :
    (lineMention tags).filterMap Mention.handover? = [] := by
  unfold lineMention
  cases lineId? tags <;> simp

theorem handover?_ownMentions (title : String) (i : Instruction) :
    (ownMentions title i).filterMap Mention.handover? = (i.handover? title).toList := by
  cases i with
  | line l => exact handover?_lineMention l.tags
  | options choices =>
      simp [ownMentions, List.filterMap_flatMap, handover?_lineMention, Instruction.handover?]
  | _ => simp [ownMentions, Instruction.handover?]

theorem handovers_eq (p : Program) :
    p.nodeMentions.filterMap Mention.handover? = p.handovers := by
  rw [filterMap_nodeMentions p fun _ => rfl, handovers, List.filterMap_eq_flatMap_toList]
  simp only [handover?_ownMentions]

theorem ids_line_ownMentions_eq (title : String) (i : Instruction) :
    ids .line (ownMentions title i) = i.ownIds.reduceOption := by
  cases i with
  | line l =>
      rw [ownMentions, ids_line_lineMention, Instruction.ownIds]
      cases lineId? l.tags <;> rfl
  | options choices => exact ids_line_ownMentions choices
  | _ => rfl

theorem lineNames_eq (p : Program) : ids .line p.nodeMentions = p.lineNames := by
  rw [ids, filterMap_nodeMentions p fun _ => rfl, lineNames]
  exact List.flatMap_congr fun e _ => ids_line_ownMentions_eq e.1 e.2

theorem ids_once_ownMentions_eq (title : String) (i : Instruction) :
    ids .once (ownMentions title i) = i.onceId?.toList := by
  cases i with
  | line l => exact ids_once_lineMention l.tags
  | options choices => exact ids_once_ownMentions choices
  | _ => rfl

theorem onceNames_eq (p : Program) : ids .once p.nodeMentions = p.onceNames := by
  rw [ids, filterMap_nodeMentions p fun _ => rfl, onceNames, List.filterMap_eq_flatMap_toList]
  exact List.flatMap_congr fun e _ => ids_once_ownMentions_eq e.1 e.2

/-- The jump or detour that a finding reports. -/
@[simp] def Finding.handover? : Finding → Option Handover
  | .emptyEnum _ | .emptyTitle | .duplicateId _ _ => none
  | .missingNode target transfer place => some ⟨target, transfer, place⟩

section Checking

variable (p : Program) (seen : List (IdKind × String)) (mentioned : List Mention)

/-- Each reference to a missing title is reported, one after the other. -/
theorem checkMentions_handovers :
    (checkMentions p seen mentioned).filterMap Finding.handover? =
      (mentioned.filterMap Mention.handover?).filter fun h => !p.nodes.contains h.target := by
  induction mentioned generalizing seen with
  | nil => rfl
  | cons m rest ih =>
      cases m with
      | title title =>
          rw [checkMentions, List.filterMap_append, ih, List.filterMap_cons_none rfl]
          split <;> rfl
      | reference target transfer title =>
          have named : Mention.handover? (.reference target transfer title) =
              some ⟨target, transfer, title⟩ := rfl
          rw [checkMentions, List.filterMap_append, ih, List.filterMap_cons_some named,
            List.filter_cons]
          cases p.nodes.contains target <;> rfl
      | id kind name =>
          rw [checkMentions, List.filterMap_cons_none (l := rest) rfl]
          split
          · rw [List.filterMap_cons_none rfl, ih]
          · exact ih _

/-- An identifier is reported whenever it is mentioned, but for the first time. -/
theorem checkMentions_count (kind : IdKind) (name : String) :
    (checkMentions p seen mentioned).count (.duplicateId kind name) =
      (ids kind mentioned).count name - if (kind, name) ∈ seen then 0 else 1 := by
  induction mentioned generalizing seen with
  | nil => simp [checkMentions]
  | cons m rest ih =>
      cases m with
      | title title =>
          rw [checkMentions, List.count_append, ih]
          split <;> simp [Mention.id?]
      | reference target transfer title =>
          rw [checkMentions, List.count_append, ih]
          split <;> simp [Mention.id?]
      | id other again =>
          rw [ids_cons, List.count_append]
          by_cases same : other = kind ∧ again = name
          · obtain ⟨rfl, rfl⟩ := same
            have once : (Mention.id? other (.id other again)).toList.count again = 1 := by
              simp [Mention.id?]
            rw [checkMentions, once]
            by_cases known : (other, again) ∈ seen
            · rw [if_pos (by simpa using known), List.count_cons_self, ih, if_pos known]
              omega
            · rw [if_neg (by simpa using known), ih, if_pos List.mem_cons_self, if_neg known]
              omega
          · have apart : (kind, name) ≠ (other, again) := by
              rintro ⟨⟩
              exact same ⟨rfl, rfl⟩
            have elsewhere : (Mention.id? kind (.id other again)).toList.count name = 0 := by
              by_cases kinds : other = kind
              · have names : again ≠ name := fun names => same ⟨kinds, names⟩
                simp [Mention.id?, kinds, names]
              · simp [Mention.id?, kinds]
            rw [checkMentions, elsewhere, Nat.zero_add]
            split
            · rw [List.count_cons_of_ne, ih]
              rintro ⟨⟩
              exact apart rfl
            · rw [ih]
              simp only [List.mem_cons, apart, false_or]

theorem emptyTitle_mem_checkMentions :
    .emptyTitle ∈ checkMentions p seen mentioned ↔
      ∃ title, .title title ∈ mentioned ∧ Text.isBlankText title = true := by
  induction mentioned generalizing seen with
  | nil => simp [checkMentions]
  | cons m rest ih =>
      cases m with
      | title title =>
          rw [checkMentions, List.mem_append, ih]
          simp [or_and_right, exists_or]
      | reference target transfer title =>
          rw [checkMentions, List.mem_append, ih]
          split <;> simp
      | id kind name =>
          rw [checkMentions]
          split <;> simp [ih]

theorem emptyEnum_notMem_checkMentions (name : String) :
    .emptyEnum name ∉ checkMentions p seen mentioned := by
  induction mentioned generalizing seen with
  | nil => simp [checkMentions]
  | cons m rest ih =>
      cases m <;>
      · rw [checkMentions]
        split <;> simp [ih]

/-- Mentions are clean exactly if no title is blank, every reference is to a known title, and the
identifiers of each kind are distinct. -/
theorem checkMentions_eq_nil_iff :
    checkMentions p [] mentioned = [] ↔
      (∀ title, .title title ∈ mentioned → Text.isBlankText title = false) ∧
      (∀ h ∈ mentioned.filterMap Mention.handover?, p.nodes.contains h.target = true) ∧
      ∀ kind, (ids kind mentioned).Nodup := by
  have titles := emptyTitle_mem_checkMentions p [] mentioned
  have dangling := checkMentions_handovers p [] mentioned
  have repeated := fun kind => checkMentions_unique_iff p kind [] mentioned
  simp only [List.not_mem_nil, not_false_iff, implies_true, and_true] at repeated
  constructor
  · intro clean
    rw [clean] at titles dangling
    refine ⟨?_, ?_, fun kind => (repeated kind).mp (by simp [clean])⟩
    · intro title listed
      rw [Bool.eq_false_iff]
      exact fun blank => List.not_mem_nil (titles.mpr ⟨title, listed, blank⟩)
    · simpa [List.filter_eq_nil_iff] using dangling.symm
  · rintro ⟨filled, known, distinct⟩
    rw [List.eq_nil_iff_forall_not_mem]
    intro finding member
    cases finding with
    | emptyEnum name => exact emptyEnum_notMem_checkMentions p [] mentioned name member
    | emptyTitle =>
        obtain ⟨title, listed, blank⟩ := titles.mp member
        exact absurd (filled title listed) (by simp [blank])
    | duplicateId kind name => exact (repeated kind).mpr (distinct kind) name member
    | missingNode target transfer title =>
        have reported : ⟨target, transfer, title⟩ ∈
            (checkMentions p [] mentioned).filterMap Finding.handover? :=
          List.mem_filterMap.mpr ⟨_, member, rfl⟩
        rw [dangling] at reported
        obtain ⟨listed, missing⟩ := List.mem_filter.mp reported
        simp [known _ listed] at missing

end Checking

theorem repeatedCases_eq_nil_iff (name : String) (seen cases : List String) :
    repeatedCases name seen cases = [] ↔ cases.Nodup ∧ ∀ case ∈ cases, case ∉ seen := by
  induction cases generalizing seen with
  | nil => simp [repeatedCases]
  | cons case rest ih =>
      by_cases known : case ∈ seen
      · simp [repeatedCases, known]
      · rw [repeatedCases, if_neg (by simpa using known), ih, List.nodup_cons,
          List.forall_mem_cons]
        simp only [List.mem_cons, not_or]
        constructor
        · rintro ⟨distinct, new⟩
          exact ⟨⟨fun again => (new case again).1 rfl, distinct⟩, known,
            fun other listed => (new other listed).2⟩
        · rintro ⟨⟨once, distinct⟩, -, new⟩
          refine ⟨distinct, fun other listed => ⟨?_, new other listed⟩⟩
          rintro rfl
          exact once listed

theorem checkEnum_eq_nil_iff (name : String) (cases : List String) :
    checkEnum name cases = [] ↔ cases ≠ [] ∧ cases.Nodup := by
  rw [checkEnum, List.append_eq_nil_iff, repeatedCases_eq_nil_iff]
  simp

theorem handover?_checkEnum (name : String) (cases : List String) :
    (checkEnum name cases).filterMap Finding.handover? = [] := by
  have repeats : ∀ seen, (repeatedCases name seen cases).filterMap Finding.handover? = [] := by
    induction cases with
    | nil => exact fun _ => rfl
    | cons case rest ih =>
        intro seen
        rw [repeatedCases]
        split
        · rw [List.filterMap_cons_none rfl, ih]
        · exact ih _
  rw [checkEnum, List.filterMap_append, repeats]
  split <;> rfl

theorem title_mem_nodeMentions {p : Program} {title : String} :
    .title title ∈ p.nodeMentions ↔ title ∈ p.nodes.names := by
  have inner : ∀ (place : String) (i : Instruction), .title title ∉ ownMentions place i := by
    intro place i
    cases i <;> simp [ownMentions, lineMention]
  simp [nodeMentions, blockMentions_eq, inner, Table.names]

theorem ids_enumCase_nodeMentions (p : Program) : ids .enumCase p.nodeMentions = [] := by
  have tagged : ∀ tags, ids .enumCase (lineMention tags) = [] := by
    intro tags
    unfold lineMention
    cases lineId? tags <;> rfl
  have inner : ∀ (place : String) (i : Instruction), ids .enumCase (ownMentions place i) = [] := by
    intro place i
    cases i with
    | options choices =>
        rw [ownMentions, ids_flatMap]
        exact List.flatMap_eq_nil_iff.mpr fun c _ => tagged c.1.tags
    | line l => exact tagged l.tags
    | _ => rfl
  rw [ids, filterMap_nodeMentions p fun _ => rfl]
  exact List.flatMap_eq_nil_iff.mpr fun e _ => inner e.1 e.2

theorem targets_iff (p : Program) :
    (∀ h ∈ p.handovers, p.nodes.contains h.target = true) ↔
      ∀ title member node path index i target, p.nodeAt? title member = some node →
        Block.instruction? node.instructions path index = some i → i.target? = some target →
        target ∈ p.nodes.names := by
  have same : ∀ (i : Instruction) (title target : String), i.target? = some target ↔
      ∃ transfer, i.handover? title = some ⟨target, transfer, title⟩ := by
    intro i title target
    cases i <;> simp [Instruction.target?, Instruction.handover?]
  have own : ∀ (i : Instruction) (title : String) (h : Handover),
      i.handover? title = some h → h.title = title := by
    intro i title h
    cases i <;> simp only [Instruction.handover?] <;> rintro ⟨⟩ <;> rfl
  constructor
  · intro known title member node path index i target found placed hands
    obtain ⟨transfer, handed⟩ := (same i title target).mp hands
    have listed : (title, i) ∈ p.traversal :=
      mem_traversal.mpr ⟨member, node, path, index, found, placed⟩
    exact Table.contains_iff.mp (known _ (List.mem_filterMap.mpr ⟨(title, i), listed, handed⟩))
  · intro known h listed
    obtain ⟨⟨title, i⟩, member, handed⟩ := List.mem_filterMap.mp listed
    obtain ⟨place, node, path, index, found, placed⟩ := mem_traversal.mp member
    obtain rfl := own i title h handed
    exact Table.contains_iff.mpr (known h.title place node path index i h.target found placed
      ((same i h.title h.target).mpr ⟨h.transfer, handed⟩))

theorem validate_eq_nil_iff (p : Program) : p.validate = [] ↔ p.Valid := by
  rw [validate, List.append_eq_nil_iff, List.flatMap_eq_nil_iff, checkMentions_eq_nil_iff,
    handovers_eq, targets_iff]
  simp only [checkEnum_eq_nil_iff, title_mem_nodeMentions]
  constructor
  · rintro ⟨enums, titles, targets, distinct⟩
    have lines := distinct .line
    have onces := distinct .once
    rw [lineNames_eq] at lines
    rw [onceNames_eq] at onces
    exact ⟨enums, titles, targets, lines, onces⟩
  · intro valid
    refine ⟨valid.enums, valid.titles, valid.targets, ?_⟩
    rintro (_ | _ | _)
    · rw [ids_enumCase_nodeMentions]
      exact List.nodup_nil
    · rw [lineNames_eq]
      exact valid.lines
    · rw [onceNames_eq]
      exact valid.onces

theorem validate_handovers (p : Program) :
    p.validate.filterMap Finding.handover? = p.handovers.filter (·.target ∉ p.nodes.names) := by
  rw [validate, List.filterMap_append, List.filterMap_flatMap, checkMentions_handovers,
    handovers_eq]
  simp only [handover?_checkEnum, List.flatMap_eq_nil_iff.mpr, implies_true, List.nil_append]
  refine List.filter_congr fun h _ => ?_
  rw [Bool.eq_iff_iff]
  simp [← Table.contains_iff]

theorem validate_count (p : Program) {kind : IdKind} (notCase : kind ≠ .enumCase)
    (name : String) :
    p.validate.count (.duplicateId kind name) = (ids kind p.nodeMentions).count name - 1 := by
  rw [validate, List.count_append, checkMentions_count, if_neg List.not_mem_nil,
    List.count_eq_zero.mpr, Nat.zero_add]
  simp [notMem_checkEnum _ _ _ notCase]

/-- The check reports nothing exactly if the program is valid; it reports the jumps and detours to
missing titles as they are listed, and each identifier of a line or an option, and each of a once
block, once less than it is listed. -/
theorem validate_exact (p : Program) :
    (p.validate = [] ↔ p.Valid) ∧
    p.validate.filterMap Finding.handover? = p.handovers.filter (·.target ∉ p.nodes.names) ∧
    (∀ name, p.validate.count (.duplicateId .line name) = p.lineNames.count name - 1) ∧
    (∀ name, p.validate.count (.duplicateId .once name) = p.onceNames.count name - 1) := by
  refine ⟨validate_eq_nil_iff p, validate_handovers p, ?_, ?_⟩
  · intro name
    rw [validate_count p (by decide), lineNames_eq]
  · intro name
    rw [validate_count p (by decide), onceNames_eq]

end Program

end Dialogue
