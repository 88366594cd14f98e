import Dialogue.Program.Lower
import Dialogue.Proofs.Markup.Representation
import Dialogue.Runner.Basic

set_option autoImplicit false

namespace Dialogue

/-- A text with its markup. -/
abbrev Label := String × Option Markup

/-- The markup is markup of the text, in the form that all markup has, and formats something. -/
structure Markup.Describes (m : Markup) (text : String) : Prop where
  text_eq : m.text = text
  wellFormed : m.WellFormed
  formatted : m.hasFormatting = true

/-- The label has no markup, or markup of its text. -/
def Label.Sound (label : Label) : Prop :=
  ∀ m, label.2 = some m → m.Describes label.1

theorem Markup.hasFormatting_of_normalized {m n : Markup} (same : m.normalized = some n) :
    m.hasFormatting = true := by
  unfold normalized at same
  split at same
  · assumption
  · cases same

theorem Label.sound_normalized {m : Markup} (tiled : m.Tiled) :
    Label.Sound (m.text, m.normalized) := by
  intro n same
  rw [Markup.eq_of_normalized same]
  exact ⟨rfl, tiled.wellFormed, Markup.hasFormatting_of_normalized same⟩

/-- Filling in placeholders keeps text and markup together. -/
theorem Label.Sound.interpolate {text : String} {markup : Option Markup}
    (sound : Label.Sound (text, markup)) (s : Store) :
    Label.Sound (Interpolation.interpolate s text markup) := by
  by_cases brace : text.toList.contains '\x7b' = true
  · cases markup with
    | none =>
        rw [Interpolation.interpolate_none_of_brace s brace]
        intro m same
        cases same
    | some m =>
        rw [Interpolation.interpolate_of_brace s m brace]
        exact sound_normalized (Markup.ofItems_tiled _)
  · rw [Interpolation.interpolate_of_no_brace s markup (by simpa using brace)]
    exact sound

namespace Instruction

/-- The texts that an instruction itself shows. -/
def labels : Instruction → List Label
  | line l => [(l.text, l.markup)]
  | options choices => choices.map fun c => (c.1.text, c.1.markup)
  | _ => []

/-- Every text that the instruction itself shows has its own markup. -/
def Sound (i : Instruction) : Prop :=
  ∀ label ∈ i.labels, label.Sound

end Instruction

namespace Block

/-- The property holds of every instruction of the block, at whatever depth it stands. -/
def Everywhere (P : Instruction → Prop) (root : Block) : Prop :=
  ∀ path index i, instruction? root path index = some i → P i

theorem instruction?_cons (root : Block) (index sub : Nat) (path : BlockPath) (place : Nat) :
    instruction? root ((index, sub) :: path) place =
      ((root[index]?).bind fun i => i.subBlock? sub).bind fun block =>
        instruction? block path place := by
  unfold instruction?
  rw [resolve?]
  cases (root[index]?).bind fun i => i.subBlock? sub with
  | none => rfl
  | some block => rfl

variable {P : Instruction → Prop} {root : Block}

theorem everywhere_iff :
    Everywhere P root ↔ ∀ i ∈ root, P i ∧ ∀ block ∈ i.blocks, Everywhere P block := by
  constructor
  · intro holds i member
    obtain ⟨index, placed⟩ := List.mem_iff_getElem?.mp member
    refine ⟨holds [] index i placed, ?_⟩
    intro block owned path place j found
    obtain ⟨sub, nested⟩ := List.mem_iff_getElem?.mp owned
    refine holds ((index, sub) :: path) place j ?_
    rw [instruction?_cons, placed, Option.bind_some, Instruction.subBlock?, nested]
    exact found
  · intro holds path place j found
    cases path with
    | nil => exact (holds j (List.mem_of_getElem? found)).1
    | cons step path =>
        obtain ⟨index, sub⟩ := step
        rw [instruction?_cons] at found
        obtain ⟨block, nested, inside⟩ := Option.bind_eq_some_iff.mp found
        obtain ⟨i, placed, owned⟩ := Option.bind_eq_some_iff.mp nested
        have below := (holds i (List.mem_of_getElem? placed)).2 block (List.mem_of_getElem? owned)
        exact below path place j inside

theorem everywhere_nil : Everywhere P [] := by
  rw [everywhere_iff]
  exact List.forall_mem_nil _

theorem everywhere_singleton {i : Instruction} :
    Everywhere P [i] ↔ P i ∧ ∀ block ∈ i.blocks, Everywhere P block := by
  rw [everywhere_iff]
  exact List.forall_mem_singleton

theorem everywhere_append {more : Block} :
    Everywhere P (root ++ more) ↔ Everywhere P root ∧ Everywhere P more := by
  rw [everywhere_iff, everywhere_iff, everywhere_iff]
  exact List.forall_mem_append

end Block

namespace Program

open Block

theorem addLastLineTag_labels (l : Line) :
    (Instruction.line (addLastLineTag l)).labels = (Instruction.line l).labels := by
  unfold addLastLineTag
  split <;> rfl

/-- Marking last lines changes tags only. -/
theorem sound_markLastLines {block : Block} (sound : Everywhere Instruction.Sound block) :
    Everywhere Instruction.Sound (markLastLines block) := by
  induction block with
  | nil => exact sound
  | cons i rest ih =>
      obtain ⟨first, later⟩ := List.forall_mem_cons.mp (everywhere_iff.mp sound)
      have others := everywhere_iff.mp (ih (everywhere_iff.mpr later))
      rw [everywhere_iff]
      cases i with
      | line l =>
          refine List.forall_mem_cons.mpr ⟨⟨?_, first.2⟩, others⟩
          split
          · intro label member
            rw [addLastLineTag_labels] at member
            exact first.1 label member
          · exact first.1
      | _ => exact List.forall_mem_cons.mpr ⟨first, others⟩

theorem sound_parse (source : String) :
    Label.Sound ((Markup.parse source).text, (Markup.parse source).normalized) := by
  refine Label.sound_normalized ?_
  rw [Markup.parse_eq_ofItems]
  exact Markup.ofItems_tiled _

theorem sound_lowerLine (n : Numbering) (l : Script.Line) :
    (Instruction.line (lowerLine n l).1).Sound := by
  intro label member
  rw [List.mem_singleton.mp member]
  exact sound_parse l.text

theorem sound_lowerChoice (n : Numbering) (c : Script.Choice) :
    Label.Sound ((lowerChoice n c).1.text, (lowerChoice n c).1.markup) :=
  sound_parse c.text

/-- The label of a choice is sound, and so is everything it leads to. -/
def SoundChoice (choice : Choice × Block) : Prop :=
  Label.Sound (choice.1.text, choice.1.markup) ∧ Everywhere Instruction.Sound choice.2

mutual

theorem sound_lowerStatement (naming : OnceNaming) (title : String) :
    ∀ (n : Numbering) (statement : Script.Statement),
      Everywhere Instruction.Sound (lowerStatement naming title n statement).1.toList
  | n, .line l => everywhere_singleton.mpr ⟨sound_lowerLine n l, List.forall_mem_nil _⟩
  | _, .command _ => everywhere_singleton.mpr ⟨List.forall_mem_nil _, List.forall_mem_nil _⟩
  | _, .jump _ => everywhere_singleton.mpr ⟨List.forall_mem_nil _, List.forall_mem_nil _⟩
  | _, .detour _ => everywhere_singleton.mpr ⟨List.forall_mem_nil _, List.forall_mem_nil _⟩
  | n, .options choices => by
      have sound := sound_lowerChoices naming title n choices
      rw [lowerStatement]
      refine everywhere_singleton.mpr ⟨?_, ?_⟩
      · intro label member
        obtain ⟨choice, listed, rfl⟩ := List.mem_map.mp member
        exact (sound choice listed).1
      · intro block owned
        obtain ⟨choice, listed, rfl⟩ := List.mem_map.mp owned
        exact (sound choice listed).2
  | n, .conditional branches => by
      have sound := sound_lowerBranches naming title n branches
      rw [lowerStatement]
      refine everywhere_singleton.mpr ⟨List.forall_mem_nil _, ?_⟩
      intro block owned
      obtain ⟨branch, listed, rfl⟩ := List.mem_map.mp owned
      exact sound branch listed
  | n, .once body => by
      rw [lowerStatement]
      refine everywhere_singleton.mpr ⟨List.forall_mem_nil _, List.forall_mem_singleton.mpr ?_⟩
      exact sound_markLastLines (sound_lowerStatements naming title _ body)
  | _, .enumeration _ => everywhere_nil

theorem sound_lowerStatements (naming : OnceNaming) (title : String) :
    ∀ (n : Numbering) (body : List Script.Statement),
      Everywhere Instruction.Sound (lowerStatements naming title n body).1
  | n, [] => everywhere_nil
  | n, statement :: rest => by
      rw [lowerStatements]
      exact everywhere_append.mpr ⟨sound_lowerStatement naming title n statement,
        sound_lowerStatements naming title _ rest⟩

theorem sound_lowerChoices (naming : OnceNaming) (title : String) :
    ∀ (n : Numbering) (choices : List (Script.Choice × List Script.Statement)),
      ∀ choice ∈ (lowerChoices naming title n choices).1, SoundChoice choice
  | n, [] => List.forall_mem_nil _
  | n, (choice, body) :: rest => by
      rw [lowerChoices]
      refine List.forall_mem_cons.mpr ⟨⟨sound_lowerChoice n choice, ?_⟩, ?_⟩
      · exact sound_markLastLines (sound_lowerStatements naming title _ body)
      · exact sound_lowerChoices naming title _ rest

theorem sound_lowerBranches (naming : OnceNaming) (title : String) :
    ∀ (n : Numbering) (branches : List (Option String × List Script.Statement)),
      ∀ branch ∈ (lowerBranches naming title n branches).1,
        Everywhere Instruction.Sound branch.2
  | n, [] => List.forall_mem_nil _
  | n, (condition, body) :: rest => by
      rw [lowerBranches]
      refine List.forall_mem_cons.mpr ⟨?_, ?_⟩
      · exact sound_markLastLines (sound_lowerStatements naming title _ body)
      · exact sound_lowerBranches naming title _ rest

end

theorem mem_lowerNodes {naming : OnceNaming} {n : Numbering} {nodes : List Script.Node}
    {node : Node} (member : node ∈ lowerNodes naming n nodes) :
    ∃ (source : Script.Node) (n : Numbering), source ∈ nodes ∧
      node = (lowerNode naming n source).1 := by
  induction nodes generalizing n with
  | nil => cases member
  | cons source rest ih =>
      rw [lowerNodes] at member
      rcases List.mem_cons.mp member with rfl | later
      · exact ⟨source, n, List.mem_cons_self, rfl⟩
      · obtain ⟨other, n, listed, same⟩ := ih later
        exact ⟨other, n, List.mem_cons_of_mem _ listed, same⟩

theorem groupNodes_snoc (nodes : List Node) (last : Node) :
    groupNodes (nodes ++ [last]) =
      (groupNodes nodes).insert last.title
        (((groupNodes nodes).get? last.title).getD [] ++ [last]) := by
  unfold groupNodes
  rw [List.foldl_append]
  rfl

/-- A group holds nodes that were given. -/
theorem mem_of_groupNodes {nodes : List Node} {title : String} {group : List Node}
    (found : (groupNodes nodes).get? title = some group) {node : Node} (member : node ∈ group) :
    node ∈ nodes := by
  induction nodes using List.reverseRecOn generalizing group with
  | nil => cases found
  | append_singleton nodes last ih =>
      rw [groupNodes_snoc] at found
      by_cases same : title = last.title
      · subst same
        rw [Table.get?_insert_self, Option.some.injEq] at found
        rw [← found] at member
        rcases List.mem_append.mp member with older | newest
        · cases known : (groupNodes nodes).get? last.title with
          | none =>
              rw [known] at older
              cases older
          | some before =>
              rw [known] at older
              exact List.mem_append_left _ (ih known older)
        · exact List.mem_append_right _ newest
      · rw [Table.get?_insert_of_ne _ _ same] at found
        exact List.mem_append_left _ (ih found member)

/-- Whatever a script says, the texts of its program have their own markup. -/
theorem sound_ofDocument (naming : OnceNaming) (d : Script.Document) {title : String}
    {member : Nat} {node : Node} (found : (ofDocument naming d).nodeAt? title member = some node) :
    Everywhere Instruction.Sound node.instructions := by
  obtain ⟨group, known, placed⟩ := Option.bind_eq_some_iff.mp found
  have listed := mem_of_groupNodes known (List.mem_of_getElem? placed)
  obtain ⟨source, n, -, rfl⟩ := mem_lowerNodes listed
  exact sound_markLastLines (sound_lowerStatements naming source.title n source.body)

end Program

end Dialogue
