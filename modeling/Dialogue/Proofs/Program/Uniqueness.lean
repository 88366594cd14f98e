import Dialogue.Program.Validate
import Mathlib.Data.List.ReduceOption

set_option autoImplicit false

namespace Dialogue.Program

/-- The identifier of the given kind that is mentioned. -/
def Mention.id? (kind : IdKind) : Mention → Option String
  | .id other name => if other = kind then some name else none
  | _ => none

/-- The identifiers of a kind among mentions, in order. -/
def ids (kind : IdKind) (mentioned : List Mention) : List String :=
  mentioned.filterMap (Mention.id? kind)

variable {kind : IdKind}

@[simp]
theorem ids_nil : ids kind [] = [] :=
  rfl

@[simp]
theorem ids_cons (m : Mention) (mentioned : List Mention) :
    ids kind (m :: mentioned) = (m.id? kind).toList ++ ids kind mentioned := by
  unfold ids
  cases found : m.id? kind <;> simp [found]

@[simp]
theorem ids_append (mentioned more : List Mention) :
    ids kind (mentioned ++ more) = ids kind mentioned ++ ids kind more :=
  List.filterMap_append

theorem ids_flatMap {α : Type} (list : α → List Mention) (parts : List α) :
    ids kind (parts.flatMap list) = parts.flatMap fun part => ids kind (list part) :=
  List.filterMap_flatMap

theorem ids_line_lineMention (tags : List String) :
    ids .line (lineMention tags) = (lineId? tags).toList := by
  unfold lineMention
  cases lineId? tags <;> rfl

theorem ids_once_lineMention (tags : List String) : ids .once (lineMention tags) = [] := by
  unfold lineMention
  cases lineId? tags <;> rfl

theorem ids_once_ownMentions (choices : List (Choice × Block)) :
    ids .once (choices.flatMap fun c => lineMention c.1.tags) = [] := by
  simp [ids_flatMap, ids_once_lineMention]

/-- A new identifier and those behind it are distinct and new exactly if those behind it are, after
it has been seen. -/
theorem nodup_cons_iff_new {seen : List (IdKind × String)} {name : String}
    (new : (kind, name) ∉ seen) (rest : List String) :
    ((name :: rest).Nodup ∧ ∀ later ∈ name :: rest, (kind, later) ∉ seen) ↔
      rest.Nodup ∧ ∀ later ∈ rest, (kind, later) ∉ (kind, name) :: seen := by
  simp only [List.nodup_cons, List.mem_cons, Prod.mk.injEq, true_and, not_or, forall_eq_or_imp]
  constructor
  · rintro ⟨⟨once, distinct⟩, -, fresh⟩
    refine ⟨distinct, fun later listed => ⟨?_, fresh later listed⟩⟩
    rintro rfl
    exact once listed
  · rintro ⟨distinct, fresh⟩
    exact ⟨⟨fun again => (fresh name again).1 rfl, distinct⟩, new,
      fun later listed => (fresh later listed).2⟩

/-- The check reports no repetition of a kind exactly if the identifiers of the kind are distinct
and new. -/
theorem checkMentions_unique_iff (p : Program) (kind : IdKind) (seen : List (IdKind × String))
    (mentioned : List Mention) :
    (∀ name, .duplicateId kind name ∉ checkMentions p seen mentioned) ↔
      (ids kind mentioned).Nodup ∧ ∀ name ∈ ids kind mentioned, (kind, name) ∉ seen := by
  induction mentioned generalizing seen with
  | nil => simp [checkMentions]
  | cons m rest ih =>
      cases m with
      | title title =>
          have blank : ∀ name, .duplicateId kind name ∉
              (if Text.isBlankText title then [Finding.emptyTitle] else []) := by
            intro name
            split <;> simp
          simp [checkMentions, Mention.id?, blank, ih]
      | reference target transfer title =>
          have missing : ∀ name, .duplicateId kind name ∉
              (if p.nodes.contains target then [] else
                [Finding.missingNode target transfer title]) := by
            intro name
            split <;> simp
          simp [checkMentions, Mention.id?, missing, ih]
      | id other name =>
          by_cases same : other = kind
          · subst same
            by_cases known : (other, name) ∈ seen
            · refine iff_of_false (fun unique => unique name ?_) (fun new => new.2 name ?_ known)
              · simp [checkMentions, known]
              · simp [Mention.id?]
            · rw [checkMentions, if_neg (by simpa using known), ih, ids_cons, Mention.id?,
                if_pos rfl]
              exact (nodup_cons_iff_new known _).symm
          · by_cases known : (other, name) ∈ seen <;>
              simp [checkMentions, Mention.id?, known, same, Ne.symm same, ih]

theorem notMem_checkEnum (enum name : String) (cases : List String) (notCase : kind ≠ .enumCase) :
    .duplicateId kind name ∉ checkEnum enum cases := by
  have others : ∀ seen, .duplicateId kind name ∉ repeatedCases enum seen cases := by
    induction cases with
    | nil => simp [repeatedCases]
    | cons case rest ih =>
        intro seen
        unfold repeatedCases
        split <;> simp [notCase, ih]
  unfold checkEnum
  split <;> simp [others]

/-- The check of a program reports no repetition of a kind exactly if the identifiers of the kind
are distinct. -/
theorem validate_unique_iff (p : Program) (notCase : kind ≠ .enumCase) :
    (∀ name, .duplicateId kind name ∉ p.validate) ↔ (ids kind p.nodeMentions).Nodup := by
  have mentions := checkMentions_unique_iff p kind [] p.nodeMentions
  simp only [List.not_mem_nil, not_false_iff, implies_true, and_true] at mentions
  rw [← mentions, validate]
  simp [notMem_checkEnum _ _ _ notCase]

theorem ids_line_ownMentions (choices : List (Choice × Block)) :
    ids .line (choices.flatMap fun c => lineMention c.1.tags) =
      (choices.map fun c => lineId? c.1.tags).reduceOption := by
  induction choices with
  | nil => rfl
  | cons c rest ih =>
      rw [List.flatMap_cons, ids_append, ids_line_lineMention, ih]
      cases found : lineId? c.1.tags <;> simp [found]

mutual

theorem ids_line_mentions (title : String) :
    ∀ i : Instruction, ids .line (mentions title i) = i.lineIds.reduceOption
  | .line l => by
      rw [mentions, ids_line_lineMention, Instruction.lineIds]
      cases lineId? l.tags <;> rfl
  | .command _ => rfl
  | .jump _ => rfl
  | .detour _ => rfl
  | .options choices => by
      rw [mentions, ids_append, ids_line_ownMentions, ids_line_choiceMentions title choices,
        Instruction.lineIds, List.reduceOption_append]
  | .branches branches => ids_line_branchMentions title branches
  | .once id block => ids_line_blockMentions title block

theorem ids_line_blockMentions (title : String) :
    ∀ block : List Instruction,
      ids .line (blockMentions title block) = (blockLineIds block).reduceOption
  | [] => rfl
  | i :: rest => by
      rw [blockMentions, ids_append, ids_line_mentions title i, ids_line_blockMentions title rest,
        blockLineIds, List.reduceOption_append]

theorem ids_line_choiceMentions (title : String) :
    ∀ choices : List (Choice × List Instruction),
      ids .line (choiceMentions title choices) = (choicesLineIds choices).reduceOption
  | [] => rfl
  | (_, block) :: rest => by
      rw [choiceMentions, ids_append, ids_line_blockMentions title block,
        ids_line_choiceMentions title rest, choicesLineIds, List.reduceOption_append]

theorem ids_line_branchMentions (title : String) :
    ∀ branches : List (Option String × List Instruction),
      ids .line (branchMentions title branches) = (branchesLineIds branches).reduceOption
  | [] => rfl
  | (_, block) :: rest => by
      rw [branchMentions, ids_append, ids_line_blockMentions title block,
        ids_line_branchMentions title rest, branchesLineIds, List.reduceOption_append]

end

theorem ids_nodeMentions (p : Program) (kind : IdKind) :
    ids kind p.nodeMentions = p.nodes.entries.flatMap fun entry =>
      entry.2.flatMap fun node => ids kind (blockMentions entry.1 node.instructions) := by
  unfold nodeMentions
  simp only [ids_flatMap, ids_cons, Mention.id?, Option.toList_none, List.nil_append]

theorem ids_line_nodeMentions (p : Program) :
    ids .line p.nodeMentions = p.lineIds.reduceOption := by
  rw [ids_nodeMentions, lineIds, allNodes, List.flatMap_assoc, List.reduceOption,
    List.filterMap_flatMap]
  simp only [List.filterMap_flatMap, ids_line_blockMentions, List.reduceOption]

end Dialogue.Program
