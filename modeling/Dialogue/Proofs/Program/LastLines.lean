import Dialogue.Proofs.Program.Identifiers

set_option autoImplicit false

namespace Dialogue

namespace Script

namespace Statement

/-- The bodies that a statement owns, in order. -/
def bodies : Statement → List Body
  | options choices => choices.map (·.2)
  | conditional branches => branches.map (·.2)
  | once body => [body]
  | _ => []

def isDefinition : Statement → Bool
  | enumeration _ => true
  | _ => false

end Statement

namespace Body

/-- The statements of a body that have an instruction. -/
def steps (body : Body) : List Statement :=
  body.filter fun statement => !statement.isDefinition

/-- The body that a path leads to, which counts steps. -/
def resolve? (body : Body) : BlockPath → Option Body
  | [] => some body
  | (index, sub) :: path =>
      (body.steps[index]?).bind fun statement =>
        (statement.bodies[sub]?).bind fun inner => resolve? inner path

end Body

end Script

namespace Instruction

def isCommand : Instruction → Bool
  | command _ => true
  | _ => false

end Instruction

namespace Block

/-- The first instruction that is not a command offers options. -/
def Offers (rest : Block) : Prop :=
  ∃ choices, rest.find? (fun i => !i.isCommand) = some (.options choices)

end Block

namespace Program

open Script (Statement Body)

/-- The tags of a line or an option with an identifier among them. -/
def Identified (given tags : List String) : Prop :=
  ∃ number, tags = if given.any isLineId then given else given ++ [numberTag number]

/-- The tags of a line that the given instructions follow, where the script has the given tags. -/
structure LineTags (given tags : List String) (rest : Block) : Prop where
  marked : lastLineTag ∈ tags ↔ lastLineTag ∈ given ∨ rest.Offers
  /-- The mark is added once, behind all others, or not at all. -/
  others : ∃ named, Identified given named ∧
    (tags = named ∨ lastLineTag ∉ named ∧ tags = named ++ [lastLineTag])

/-- The tags in a block, its own blocks aside, are those of a body with identifiers and marks. -/
structure TagsOf (body : Body) (block : Block) : Prop where
  length : block.length = body.steps.length
  lines : ∀ (index : Nat) l, block[index]? = some (Instruction.line l) →
    ∃ given, body.steps[index]? = some (Statement.line given) ∧
      LineTags given.tags l.tags (block.drop (index + 1))
  options : ∀ (index : Nat) lowered, block[index]? = some (Instruction.options lowered) →
    ∃ choices, body.steps[index]? = some (Statement.options choices) ∧
      List.Forall₂ (fun choice l => Identified choice.1.tags l.1.tags) choices lowered

/-- The same paths lead through a body and a block, and where they lead the tags correspond. -/
def Aligned (body : Body) (block : Block) : Prop :=
  ∀ path, Option.Rel TagsOf (body.resolve? path) (block.resolve? path)

theorem rel_getElem? {α β : Type} {R : α → β → Prop} {xs : List α} {ys : List β}
    (each : List.Forall₂ R xs ys) (index : Nat) : Option.Rel R xs[index]? ys[index]? := by
  induction each generalizing index with
  | nil => exact .none
  | cons first _ ih =>
      cases index with
      | zero => exact .some first
      | succ index => exact ih index

theorem rel_bind {α β γ δ : Type} {R : α → β → Prop} {S : γ → δ → Prop} {x : Option α}
    {y : Option β} {f : α → Option γ} {g : β → Option δ} (related : Option.Rel R x y)
    (continues : ∀ a b, R a b → Option.Rel S (f a) (g b)) :
    Option.Rel S (x.bind f) (y.bind g) := by
  cases related with
  | none => exact .none
  | some both => exact continues _ _ both

theorem resolve?_cons (block : Block) (index sub : Nat) (path : BlockPath) :
    block.resolve? ((index, sub) :: path) =
      (block[index]?).bind fun i => (i.blocks[sub]?).bind fun inner => inner.resolve? path := by
  rw [Block.resolve?, ← Option.bind_assoc]
  change _ = Option.bind ((block[index]?).bind fun i => i.subBlock? sub) _
  cases (block[index]?).bind fun i => i.subBlock? sub <;> rfl

/-- A body and a block are aligned if they are at their own level, and their parts are. -/
theorem aligned_of_parts {body : Body} {block : Block} (own : TagsOf body block)
    (parts : List.Forall₂ (fun statement i => List.Forall₂ Aligned statement.bodies i.blocks)
      body.steps block) : Aligned body block := by
  intro path
  cases path with
  | nil => exact .some own
  | cons step path =>
      obtain ⟨index, sub⟩ := step
      rw [Body.resolve?, resolve?_cons]
      refine rel_bind (rel_getElem? parts index) fun statement i each => ?_
      exact rel_bind (rel_getElem? each sub) fun body block aligned => aligned path

/-- What an instruction becomes that the given instructions follow. -/
def markBefore (rest : Block) : Instruction → Instruction
  | .line l => .line (if offersNext rest then addLastLineTag l else l)
  | i => i

theorem markLastLines_cons (i : Instruction) (rest : Block) :
    markLastLines (i :: rest) = markBefore rest i :: markLastLines rest := by
  cases i <;> rfl

theorem length_markLastLines (block : Block) : (markLastLines block).length = block.length := by
  induction block with
  | nil => rfl
  | cons i rest ih => rw [markLastLines_cons, List.length_cons, ih, List.length_cons]

theorem getElem?_markLastLines (block : Block) (index : Nat) :
    (markLastLines block)[index]? =
      (block[index]?).map (markBefore (block.drop (index + 1))) := by
  induction block generalizing index with
  | nil => rfl
  | cons i rest ih =>
      rw [markLastLines_cons]
      cases index with
      | zero => rfl
      | succ index => exact ih index

theorem drop_markLastLines (block : Block) (count : Nat) :
    (markLastLines block).drop count = markLastLines (block.drop count) := by
  induction block generalizing count with
  | nil => simp [markLastLines]
  | cons i rest ih =>
      cases count with
      | zero => rfl
      | succ count =>
          rw [markLastLines_cons]
          exact ih count

/-- Marks do not change what comes next. -/
theorem offers_markLastLines (block : Block) :
    Block.Offers (markLastLines block) ↔ offersNext block = true := by
  induction block with
  | nil => simp [markLastLines, Block.Offers, offersNext]
  | cons i rest ih =>
      rw [markLastLines_cons]
      cases i with
      | command content =>
          rw [offersNext, ← ih, Block.Offers, Block.Offers]
          exact Iff.rfl
      | options choices => exact iff_of_true ⟨choices, rfl⟩ rfl
      | _ => exact iff_of_false (by rintro ⟨_, ⟨⟩⟩) (by rintro ⟨⟩)

theorem lastLineTag_ne_numberTag (number : Nat) : lastLineTag ≠ numberTag number := by
  intro same
  have identifier := isLineId_numberTag number
  rw [← same] at identifier
  exact absurd identifier (by decide)

/-- An identifier is not the mark of a last line. -/
theorem Identified.mem_iff {given named : List String} (identified : Identified given named) :
    lastLineTag ∈ named ↔ lastLineTag ∈ given := by
  obtain ⟨number, rfl⟩ := identified
  split
  · exact Iff.rfl
  · simp [lastLineTag_ne_numberTag]

theorem Identified.lineTags {given : List String} {l : Line} (identified : Identified given l.tags)
    (rest : Block) :
    LineTags given (if offersNext rest then addLastLineTag l else l).tags
      (markLastLines rest) := by
  have present := identified.mem_iff
  by_cases offered : offersNext rest = true
  · have next := (offers_markLastLines rest).mpr offered
    rw [if_pos offered, addLastLineTag]
    split
    · rename_i known
      exact ⟨iff_of_true (by simpa using known) (.inr next), l.tags, identified, .inl rfl⟩
    · rename_i unknown
      exact ⟨iff_of_true (by simp) (.inr next), l.tags, identified,
        .inr ⟨by simpa using unknown, rfl⟩⟩
  · have silent : ¬ Block.Offers (markLastLines rest) := fun next =>
      offered ((offers_markLastLines rest).mp next)
    rw [if_neg offered]
    refine ⟨?_, l.tags, identified, .inl rfl⟩
    rw [present]
    exact (or_iff_left silent).symm

/-- The tags of an instruction are those of a statement with identifiers. -/
def TagsNamed : Statement → Instruction → Prop
  | .line given, .line l => Identified given.tags l.tags
  | .options choices, .options lowered =>
      List.Forall₂ (fun choice l => Identified choice.1.tags l.1.tags) choices lowered
  | _, .line _ | _, .options _ => False
  | _, _ => True

/-- An instruction of a statement before last lines are marked around it. -/
structure Lowered (statement : Statement) (i : Instruction) : Prop where
  tags : TagsNamed statement i
  parts : List.Forall₂ Aligned statement.bodies i.blocks

theorem blocks_markBefore (rest : Block) (i : Instruction) :
    (markBefore rest i).blocks = i.blocks := by
  cases i <;> rfl

/-- An instruction of a marked block was lowered from the step in its place. -/
theorem lowered_of_getElem? {steps : List Statement} {block : Block} {index : Nat}
    {marked : Instruction} (lowered : List.Forall₂ Lowered steps block)
    (placed : (markLastLines block)[index]? = some marked) :
    ∃ statement i, steps[index]? = some statement ∧ Lowered statement i ∧
      markBefore (block.drop (index + 1)) i = marked := by
  rw [getElem?_markLastLines] at placed
  obtain ⟨i, found, same⟩ := Option.map_eq_some_iff.mp placed
  have related := rel_getElem? lowered index
  rw [found] at related
  revert related
  cases steps[index]? with
  | none => rintro ⟨⟩
  | some statement =>
      rintro ⟨both⟩
      exact ⟨statement, i, rfl, both, same⟩

/-- Marking the last lines of a block of which the parts are aligned aligns the whole. -/
theorem aligned_markLastLines {body : Body} {block : Block}
    (lowered : List.Forall₂ Lowered body.steps block) : Aligned body (markLastLines block) := by
  refine aligned_of_parts ⟨?_, ?_, ?_⟩ ?_
  · rw [length_markLastLines, lowered.length_eq]
  · intro index l placed
    obtain ⟨statement, i, source, both, marked⟩ := lowered_of_getElem? lowered placed
    have tags := both.tags
    cases i with
    | line before =>
        obtain rfl := Instruction.line.inj marked
        cases statement with
        | line given =>
            rw [drop_markLastLines]
            exact ⟨given, source, Identified.lineTags tags _⟩
        | _ => exact tags.elim
    | _ => cases marked
  · intro index choices placed
    obtain ⟨statement, i, source, both, marked⟩ := lowered_of_getElem? lowered placed
    have tags := both.tags
    cases i with
    | options before =>
        obtain rfl := Instruction.options.inj marked
        cases statement with
        | options given => exact ⟨given, source, tags⟩
        | _ => exact tags.elim
    | _ => cases marked
  · generalize body.steps = steps at lowered
    induction lowered with
    | nil => exact .nil
    | cons first _ ih =>
        rw [markLastLines_cons]
        refine .cons ?_ ih
        rw [blocks_markBefore]
        exact first.parts

theorem identified_identify (n : Numbering) (given : List String) :
    Identified given (n.identify given).1 := by
  refine ⟨n.line, ?_⟩
  rw [Numbering.identify]
  split <;> rfl

theorem steps_cons (statement : Statement) (rest : Body) :
    Body.steps (statement :: rest) = Body.steps [statement] ++ Body.steps rest := by
  rw [Body.steps, ← List.singleton_append, List.filter_append]
  rfl

mutual

theorem lowerStatement_lowered (naming : OnceNaming) (title : String) :
    ∀ (n : Numbering) (statement : Statement),
      List.Forall₂ Lowered (Body.steps [statement])
        (lowerStatement naming title n statement).1.toList
  | n, .line l => .cons ⟨identified_identify n l.tags, .nil⟩ .nil
  | _, .command _ => .cons ⟨trivial, .nil⟩ .nil
  | _, .jump _ => .cons ⟨trivial, .nil⟩ .nil
  | _, .detour _ => .cons ⟨trivial, .nil⟩ .nil
  | n, .options choices => by
      obtain ⟨tags, parts⟩ := lowerChoices_aligned naming title n choices
      rw [lowerStatement]
      exact .cons ⟨tags, parts⟩ .nil
  | n, .conditional branches => by
      have parts := lowerBranches_aligned naming title n branches
      rw [lowerStatement]
      exact .cons ⟨trivial, parts⟩ .nil
  | n, .once body => by
      have inside := lowerStatements_lowered naming title (n.nextOnce title).2 body
      rw [lowerStatement]
      exact .cons ⟨trivial, .cons (aligned_markLastLines inside) .nil⟩ .nil
  | _, .enumeration _ => .nil

theorem lowerStatements_lowered (naming : OnceNaming) (title : String) :
    ∀ (n : Numbering) (body : List Statement),
      List.Forall₂ Lowered (Body.steps body) (lowerStatements naming title n body).1
  | _, [] => .nil
  | n, statement :: rest => by
      rw [lowerStatements, steps_cons]
      exact List.rel_append (lowerStatement_lowered naming title n statement)
        (lowerStatements_lowered naming title _ rest)

theorem lowerChoices_aligned (naming : OnceNaming) (title : String) :
    ∀ (n : Numbering) (choices : List (Script.Choice × List Statement)),
      List.Forall₂ (fun choice l => Identified choice.1.tags l.1.tags) choices
          (lowerChoices naming title n choices).1 ∧
        List.Forall₂ Aligned (choices.map (·.2))
          ((lowerChoices naming title n choices).1.map (·.2))
  | _, [] => ⟨.nil, .nil⟩
  | n, (choice, body) :: rest => by
      have inside := lowerStatements_lowered naming title (lowerChoice n choice).2 body
      obtain ⟨tags, parts⟩ := lowerChoices_aligned naming title
        (lowerStatements naming title (lowerChoice n choice).2 body).2 rest
      rw [lowerChoices]
      exact ⟨.cons (identified_identify n choice.tags) tags,
        .cons (aligned_markLastLines inside) parts⟩

theorem lowerBranches_aligned (naming : OnceNaming) (title : String) :
    ∀ (n : Numbering) (branches : List (Option String × List Statement)),
      List.Forall₂ Aligned (branches.map (·.2))
        ((lowerBranches naming title n branches).1.map (·.2))
  | _, [] => .nil
  | n, (condition, body) :: rest => by
      have inside := lowerStatements_lowered naming title n body
      have parts := lowerBranches_aligned naming title (lowerStatements naming title n body).2 rest
      rw [lowerBranches]
      exact .cons (aligned_markLastLines inside) parts

end

theorem lowerNodes_aligned (naming : OnceNaming) (n : Numbering) (sources : List Script.Node) :
    List.Forall₂ (fun source node => source.title = node.title ∧
      Aligned source.body node.instructions) sources (lowerNodes naming n sources) := by
  induction sources generalizing n with
  | nil => exact .nil
  | cons source rest ih =>
      have inside := lowerStatements_lowered naming source.title n source.body
      exact .cons ⟨rfl, aligned_markLastLines inside⟩ (ih _)

/-- Whatever a script says, the nodes of each title are those of the script, and in each of their
blocks, at every depth, the lines are marked exactly where options come next or the script says so,
and no other tag is added but identifiers. -/
theorem lastLines_exact (naming : OnceNaming) (d : Script.Document) (title : String) :
    List.Forall₂ (fun source node => Aligned source.body node.instructions)
      (d.nodes.filter (·.title = title)) (((ofDocument naming d).group? title).getD []) := by
  have nodes := lowerNodes_aligned naming .initial d.nodes
  have titled := List.rel_filter (p := (·.title = title)) (q := (·.title = title))
    (fun source node both => by simp [both.1]) nodes
  rw [group?, ofDocument, groupNodes_get?, titled_getD]
  exact titled.imp fun source node both => both.2

end Program

end Dialogue
