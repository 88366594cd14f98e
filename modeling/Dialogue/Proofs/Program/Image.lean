import Dialogue.Program.Lower
import Dialogue.Proofs.Program.Labels

set_option autoImplicit false

namespace Dialogue.Program

/-- The identifier that is made from a number, in hexadecimal. -/
def numberTag (number : Nat) : String :=
  lineIdMark ++ String.ofList (Nat.toDigits 16 number)

/-- What is numbered: a line or an option with its tags in the script and in the program, or a once
block with its identifier. -/
inductive Entry where
  | label (given tags : List String)
  | once (title id : String)

namespace Entry

/-- Whether a line or an option has no identifier in the script. -/
def isUnnamed : Entry → Bool
  | label given _ => !given.any isLineId
  | once _ _ => false

def isOnceOf (title : String) : Entry → Bool
  | label _ _ => false
  | once other _ => other == title

end Entry

mutual

/-- The block of a body, which is the body of a node with the given title or lies in one. -/
inductive BodyImage (title : String) : List Entry → Script.Body → Block → Prop
  | nil : BodyImage title [] [] []
  | cons {own later : List Entry} {statement : Script.Statement} {i : Instruction}
      {body : Script.Body} {block : Block} (first : Image title own statement i)
      (rest : BodyImage title later body block) :
      BodyImage title (own ++ later) (statement :: body) (i :: block)
  /-- Definitions of enumerations have no image. -/
  | enumeration {entries : List Entry} {enum : Script.Enumeration} {body : Script.Body}
      {block : Block} (rest : BodyImage title entries body block) :
      BodyImage title entries (.enumeration enum :: body) block

inductive Image (title : String) : List Entry → Script.Statement → Instruction → Prop
  | line {l : Script.Line} {tags : List String} :
      Image title [.label l.tags tags] (.line l)
        (.line ⟨l.speaker, (Markup.parse l.text).text, tags, l.css,
          (Markup.parse l.text).normalized⟩)
  | command {content : String} : Image title [] (.command content) (.command content)
  | jump {target : String} : Image title [] (.jump target) (.jump target)
  | detour {target : String} : Image title [] (.detour target) (.detour target)
  | options {entries : List Entry} {choices : List (Script.Choice × Script.Body)}
      {lowered : List (Choice × Block)} (each : ChoicesImage title entries choices lowered) :
      Image title entries (.options choices) (.options lowered)
  | conditional {entries : List Entry} {branches : List (Option String × Script.Body)}
      {lowered : List (Option String × Block)}
      (each : BranchesImage title entries branches lowered) :
      Image title entries (.conditional branches) (.branches lowered)
  | once {entries : List Entry} {id : String} {body : Script.Body} {block : Block}
      (inside : BodyImage title entries body block) :
      Image title (.once title id :: entries) (.once body) (.once id block)

inductive ChoicesImage (title : String) :
    List Entry → List (Script.Choice × Script.Body) → List (Choice × Block) → Prop
  | nil : ChoicesImage title [] [] []
  | cons {own later : List Entry} {c : Script.Choice} {tags : List String} {body : Script.Body}
      {block : Block} {choices : List (Script.Choice × Script.Body)}
      {lowered : List (Choice × Block)} (inside : BodyImage title own body block)
      (rest : ChoicesImage title later choices lowered) :
      ChoicesImage title (.label c.tags tags :: (own ++ later)) ((c, body) :: choices)
        ((⟨(Markup.parse c.text).text, tags, c.css, c.condition,
          (Markup.parse c.text).normalized⟩, block) :: lowered)

inductive BranchesImage (title : String) :
    List Entry → List (Option String × Script.Body) → List (Option String × Block) → Prop
  | nil : BranchesImage title [] [] []
  | cons {own later : List Entry} {condition : Option String} {body : Script.Body} {block : Block}
      {branches : List (Option String × Script.Body)} {lowered : List (Option String × Block)}
      (inside : BodyImage title own body block)
      (rest : BranchesImage title later branches lowered) :
      BranchesImage title (own ++ later) ((condition, body) :: branches)
        ((condition, block) :: lowered)

end

structure NodeImage (entries : List Entry) (source : Script.Node) (node : Node) : Prop where
  title : node.title = source.title
  conditions : node.conditions = source.conditions
  style : node.style = source.css
  /-- The scene that the header names, unless it is blank. -/
  scene : node.scene =
    ((source.headers.get? "scene").map Text.trimmed).filter fun scene => !scene.isEmpty
  body : BodyImage source.title entries source.body node.instructions

inductive NodesImage : List Entry → List Script.Node → List Node → Prop
  | nil : NodesImage [] [] []
  | cons {own later : List Entry} {source : Script.Node} {node : Node}
      {sources : List Script.Node} {nodes : List Node} (first : NodeImage own source node)
      (rest : NodesImage later sources nodes) :
      NodesImage (own ++ later) (source :: sources) (node :: nodes)

/-- Every label without an identifier has got the number of those before it, and every once block
the number of those before it under its title. -/
structure Numbered (naming : OnceNaming) (entries : List Entry) : Prop where
  /-- The mark of a last line may stand behind the other tags. -/
  labels : ∀ before given tags later, entries = before ++ .label given tags :: later →
    ∃ mark, (mark = [] ∨ mark = [lastLineTag]) ∧
      tags = (if given.any isLineId then given
        else given ++ [numberTag (before.countP Entry.isUnnamed)]) ++ mark
  onces : ∀ before title id later, entries = before ++ .once title id :: later →
    id = naming title (before.countP (Entry.isOnceOf title))

/-- The program of a script, by its nodes in the order of the script. -/
structure Compiled (naming : OnceNaming) (d : Script.Document) (p : Program) : Prop where
  nodes : ∃ entries lowered, NodesImage entries d.nodes lowered ∧ Numbered naming entries ∧
    ∀ title, p.group? title =
      if lowered.any (·.title = title) then some (lowered.filter (·.title = title)) else none
  /-- The last definition counts. -/
  enums : ∀ name, p.enums.get? name =
    (d.enums.reverse.find? fun enum => enum.name = name).map (·.cases)

namespace Numbering

/-- The numbers that are next when an entry has got its own. -/
def after (n : Numbering) : Entry → Numbering
  | .label given _ => (n.identify given).2
  | .once title _ => (n.nextOnce title).2

/-- The entry has got the number that is next. -/
def Gives (naming : OnceNaming) (n : Numbering) : Entry → Prop
  | .label given tags =>
      ∃ mark, (mark = [] ∨ mark = [lastLineTag]) ∧ tags = (n.identify given).1 ++ mark
  | .once title id => id = naming title (n.nextOnce title).1

/-- How many once blocks under a title have got a number. -/
def onceCount (n : Numbering) (title : String) : Nat :=
  (n.once.get? title).getD 0

end Numbering

/-- The entries have got their numbers one after the other, from the first numbering to the last. -/
inductive Counts (naming : OnceNaming) : Numbering → List Entry → Numbering → Prop
  | nil (n : Numbering) : Counts naming n [] n
  | cons {n last : Numbering} {entry : Entry} {rest : List Entry} (gives : n.Gives naming entry)
      (tail : Counts naming (n.after entry) rest last) : Counts naming n (entry :: rest) last

section Counting

variable {naming : OnceNaming} {n middle last : Numbering} {entries before later : List Entry}
  {entry : Entry}

theorem Counts.append (first : Counts naming n before middle)
    (second : Counts naming middle later last) : Counts naming n (before ++ later) last := by
  induction first with
  | nil n => exact second
  | cons gives _ ih => exact .cons gives (ih second)

theorem Counts.split (counts : Counts naming n (before ++ later) last) :
    ∃ middle, Counts naming n before middle ∧ Counts naming middle later last := by
  induction before generalizing n with
  | nil => exact ⟨n, .nil n, counts⟩
  | cons entry before ih =>
      cases counts with
      | cons gives tail =>
          obtain ⟨middle, first, second⟩ := ih tail
          exact ⟨middle, .cons gives first, second⟩

theorem Counts.single (gives : n.Gives naming entry) : Counts naming n [entry] (n.after entry) :=
  .cons gives (.nil _)

theorem Numbering.after_line (n : Numbering) (entry : Entry) :
    (n.after entry).line = n.line + [entry].countP Entry.isUnnamed := by
  cases entry with
  | label given tags =>
      simp only [after, identify]
      split <;> simp_all [Entry.isUnnamed]
  | once title id => rfl

theorem Numbering.after_onceCount (n : Numbering) (entry : Entry) (title : String) :
    (n.after entry).onceCount title =
      n.onceCount title + [entry].countP (Entry.isOnceOf title) := by
  cases entry with
  | label given tags =>
      simp only [after, identify]
      split <;> rfl
  | once other id =>
      simp only [after, nextOnce, onceCount]
      by_cases same : title = other
      · subst same
        simp [Entry.isOnceOf]
      · rw [Table.get?_insert_of_ne _ _ same]
        simp [Entry.isOnceOf, Ne.symm same]

theorem Counts.line (counts : Counts naming n entries last) :
    last.line = n.line + entries.countP Entry.isUnnamed := by
  induction counts with
  | nil n => rfl
  | @cons n last entry rest gives tail ih =>
      show _ = n.line + ([entry] ++ rest).countP Entry.isUnnamed
      rw [ih, n.after_line, List.countP_append]
      omega

theorem Counts.onceCount (counts : Counts naming n entries last) (title : String) :
    last.onceCount title = n.onceCount title + entries.countP (Entry.isOnceOf title) := by
  induction counts with
  | nil n => rfl
  | @cons n last entry rest gives tail ih =>
      show _ = n.onceCount title + ([entry] ++ rest).countP (Entry.isOnceOf title)
      rw [ih, n.after_onceCount, List.countP_append]
      omega

/-- What is counted one after the other from the beginning has the number of what came before. -/
theorem Counts.numbered (counts : Counts naming .initial entries last) :
    Numbered naming entries := by
  refine ⟨?_, ?_⟩
  · intro before given tags later split
    subst split
    obtain ⟨middle, first, second⟩ := counts.split
    have reached : middle.line = before.countP Entry.isUnnamed := by
      rw [first.line]
      exact Nat.zero_add _
    cases second with
    | cons gives tail =>
        obtain ⟨mark, marks, same⟩ := gives
        refine ⟨mark, marks, ?_⟩
        rw [same, ← reached, Numbering.identify]
        split <;> rfl
  · intro before title id later split
    subst split
    obtain ⟨middle, first, second⟩ := counts.split
    have reached : middle.onceCount title = before.countP (Entry.isOnceOf title) := by
      rw [first.onceCount]
      exact Nat.zero_add _
    cases second with
    | cons gives tail =>
        rw [← reached]
        exact gives

end Counting

section Lowering

variable {naming : OnceNaming} {title : String}

theorem BodyImage.append {own later : List Entry} {body rest : Script.Body} {block more : Block}
    (first : BodyImage title own body block) (second : BodyImage title later rest more) :
    BodyImage title (own ++ later) (body ++ rest) (block ++ more) := by
  match first with
  | .nil => exact second
  | .cons one tail =>
      rw [List.append_assoc]
      exact .cons one (tail.append second)
  | .enumeration tail => exact .enumeration (tail.append second)

theorem BodyImage.single {entries : List Entry} {statement : Script.Statement} {i : Instruction}
    (image : Image title entries statement i) : BodyImage title entries [statement] [i] := by
  have alone : BodyImage title (entries ++ []) [statement] [i] := .cons image .nil
  rwa [List.append_nil] at alone

theorem addLastLineTag_eq (l : Line) :
    addLastLineTag l = { l with tags := (addLastLineTag l).tags } := by
  unfold addLastLineTag
  split <;> rfl

/-- A line that has the mark does not get it again. -/
theorem Numbering.Gives.addLastLineTag {n : Numbering} {given : List String} {l : Line}
    (gives : n.Gives naming (.label given l.tags)) :
    n.Gives naming (.label given (addLastLineTag l).tags) := by
  unfold Program.addLastLineTag
  split
  · exact gives
  · rename_i unmarked
    obtain ⟨mark, rfl | rfl, same⟩ := gives
    · exact ⟨[lastLineTag], .inr rfl, by simp [same]⟩
    · simp [same] at unmarked

/-- Marking last lines leaves the image and takes no number. -/
theorem BodyImage.marked {entries : List Entry} {body : Script.Body} {block : Block}
    (image : BodyImage title entries body block) {n last : Numbering}
    (counts : Counts naming n entries last) :
    ∃ marked, BodyImage title marked body (markLastLines block) ∧
      Counts naming n marked last := by
  match image with
  | .nil => exact ⟨[], .nil, counts⟩
  | .enumeration rest =>
      obtain ⟨marked, later, counted⟩ := rest.marked counts
      exact ⟨marked, .enumeration later, counted⟩
  | .cons first rest =>
      obtain ⟨middle, before, behind⟩ := counts.split
      obtain ⟨marked, later, counted⟩ := rest.marked behind
      cases first with
      | @line l tags =>
          cases before with
          | cons gives tail =>
              cases tail
              rw [markLastLines]
              split
              · rw [addLastLineTag_eq]
                exact ⟨_, .cons .line later, .append (.single gives.addLastLineTag) counted⟩
              · exact ⟨_, .cons .line later, .append (.single gives) counted⟩
      | command => exact ⟨_, .cons .command later, before.append counted⟩
      | jump => exact ⟨_, .cons .jump later, before.append counted⟩
      | detour => exact ⟨_, .cons .detour later, before.append counted⟩
      | options each => exact ⟨_, .cons (.options each) later, before.append counted⟩
      | conditional each => exact ⟨_, .cons (.conditional each) later, before.append counted⟩
      | once inside => exact ⟨_, .cons (.once inside) later, before.append counted⟩

mutual

theorem lowerStatement_image (naming : OnceNaming) (title : String) :
    ∀ (n : Numbering) (statement : Script.Statement), ∃ entries,
      BodyImage title entries [statement] (lowerStatement naming title n statement).1.toList ∧
        Counts naming n entries (lowerStatement naming title n statement).2
  | n, .line l => by
      have given : n.Gives naming (.label l.tags (n.identify l.tags).1) :=
        ⟨[], .inl rfl, (List.append_nil _).symm⟩
      exact ⟨_, .single .line, .single given⟩
  | n, .command _ => ⟨_, .single .command, .nil n⟩
  | n, .jump _ => ⟨_, .single .jump, .nil n⟩
  | n, .detour _ => ⟨_, .single .detour, .nil n⟩
  | n, .options choices => by
      obtain ⟨entries, each, counts⟩ := lowerChoices_image naming title n choices
      rw [lowerStatement]
      exact ⟨entries, .single (.options each), counts⟩
  | n, .conditional branches => by
      obtain ⟨entries, each, counts⟩ := lowerBranches_image naming title n branches
      rw [lowerStatement]
      exact ⟨entries, .single (.conditional each), counts⟩
  | n, .once body => by
      obtain ⟨_, image, numbers⟩ := lowerStatements_image naming title (n.nextOnce title).2 body
      obtain ⟨entries, inside, counts⟩ := image.marked numbers
      rw [lowerStatement]
      exact ⟨_, .single (.once inside), .cons rfl counts⟩
  | n, .enumeration _ => ⟨_, .enumeration .nil, .nil n⟩

theorem lowerStatements_image (naming : OnceNaming) (title : String) :
    ∀ (n : Numbering) (body : List Script.Statement), ∃ entries,
      BodyImage title entries body (lowerStatements naming title n body).1 ∧
        Counts naming n entries (lowerStatements naming title n body).2
  | n, [] => ⟨[], .nil, .nil n⟩
  | n, statement :: rest => by
      obtain ⟨own, first, counts⟩ := lowerStatement_image naming title n statement
      obtain ⟨later, second, counted⟩ := lowerStatements_image naming title _ rest
      rw [lowerStatements]
      exact ⟨_, first.append second, counts.append counted⟩

theorem lowerChoices_image (naming : OnceNaming) (title : String) :
    ∀ (n : Numbering) (choices : List (Script.Choice × List Script.Statement)), ∃ entries,
      ChoicesImage title entries choices (lowerChoices naming title n choices).1 ∧
        Counts naming n entries (lowerChoices naming title n choices).2
  | n, [] => ⟨[], .nil, .nil n⟩
  | n, (choice, body) :: rest => by
      have given : n.Gives naming (.label choice.tags (n.identify choice.tags).1) :=
        ⟨[], .inl rfl, (List.append_nil _).symm⟩
      obtain ⟨_, image, numbers⟩ :=
        lowerStatements_image naming title (lowerChoice n choice).2 body
      obtain ⟨own, inside, counts⟩ := image.marked numbers
      obtain ⟨later, each, counted⟩ := lowerChoices_image naming title _ rest
      rw [lowerChoices]
      exact ⟨_, .cons inside each, .cons given (counts.append counted)⟩

theorem lowerBranches_image (naming : OnceNaming) (title : String) :
    ∀ (n : Numbering) (branches : List (Option String × List Script.Statement)), ∃ entries,
      BranchesImage title entries branches (lowerBranches naming title n branches).1 ∧
        Counts naming n entries (lowerBranches naming title n branches).2
  | n, [] => ⟨[], .nil, .nil n⟩
  | n, (condition, body) :: rest => by
      obtain ⟨_, image, numbers⟩ := lowerStatements_image naming title n body
      obtain ⟨own, inside, counts⟩ := image.marked numbers
      obtain ⟨later, each, counted⟩ := lowerBranches_image naming title _ rest
      rw [lowerBranches]
      exact ⟨_, .cons inside each, counts.append counted⟩

end

theorem lowerBlock_image (naming : OnceNaming) (title : String) (n : Numbering)
    (body : List Script.Statement) : ∃ entries,
      BodyImage title entries body (markLastLines (lowerStatements naming title n body).1) ∧
        Counts naming n entries (lowerStatements naming title n body).2 := by
  obtain ⟨entries, image, counts⟩ := lowerStatements_image naming title n body
  exact image.marked counts

theorem sceneOf_eq (source : Script.Node) : sceneOf source =
    ((source.headers.get? "scene").map Text.trimmed).filter fun scene => !scene.isEmpty := by
  unfold sceneOf
  cases source.headers.get? "scene" with
  | none => rfl
  | some value =>
      simp only [Option.map_some, Option.filter_some]
      cases (Text.trimmed value).isEmpty <;> rfl

theorem lowerNodes_image (naming : OnceNaming) (n : Numbering) (sources : List Script.Node) :
    ∃ entries last, NodesImage entries sources (lowerNodes naming n sources) ∧
      Counts naming n entries last := by
  induction sources generalizing n with
  | nil => exact ⟨[], n, .nil, .nil n⟩
  | cons source rest ih =>
      obtain ⟨own, body, counts⟩ := lowerBlock_image naming source.title n source.body
      obtain ⟨later, last, images, counted⟩ := ih (lowerNode naming n source).2
      have image : NodeImage own source (lowerNode naming n source).1 :=
        ⟨rfl, rfl, rfl, sceneOf_eq source, body⟩
      exact ⟨_, last, .cons image images, counts.append counted⟩

/-- The nodes of a script take their numbers one after the other, so the first of them are lowered
as if there were no others. -/
theorem lowerNodes_prefix (naming : OnceNaming) (n : Numbering) (sources more : List Script.Node) :
    lowerNodes naming n sources <+: lowerNodes naming n (sources ++ more) := by
  induction sources generalizing n with
  | nil => exact List.nil_prefix
  | cons source rest ih => exact List.cons_prefix_cons.mpr ⟨rfl, ih _⟩

theorem titled_getD (nodes : List Node) (title : String) :
    (if nodes.any (·.title = title) then some (nodes.filter (·.title = title)) else none).getD [] =
      nodes.filter (·.title = title) := by
  split
  · rfl
  · rename_i nobody
    rw [Option.getD_none, eq_comm, List.filter_eq_nil_iff]
    simpa using nobody

/-- A group holds the nodes of its title in their order. -/
theorem groupNodes_get? (nodes : List Node) (title : String) :
    (groupNodes nodes).get? title =
      if nodes.any (·.title = title) then some (nodes.filter (·.title = title)) else none := by
  induction nodes using List.reverseRecOn with
  | nil => rfl
  | append_singleton nodes last ih =>
      rw [groupNodes_snoc]
      by_cases same : title = last.title
      · subst same
        rw [Table.get?_insert_self, ih, titled_getD]
        simp
      · rw [Table.get?_insert_of_ne _ _ same, ih]
        simp [Ne.symm same]

theorem ofList_get? {α : Type} (entries : List (String × α)) (name : String) :
    (Table.ofList entries).get? name =
      (entries.reverse.find? fun entry => entry.1 = name).map (·.2) := by
  induction entries using List.reverseRecOn with
  | nil => rfl
  | append_singleton entries last ih =>
      have added : Table.ofList (entries ++ [last]) =
          (Table.ofList entries).insert last.1 last.2 := by
        unfold Table.ofList
        rw [List.foldl_append]
        rfl
      rw [added]
      by_cases same : name = last.1
      · subst same
        rw [Table.get?_insert_self]
        simp
      · rw [Table.get?_insert_of_ne _ _ same, ih]
        simp [Ne.symm same]

/-- The program of a script has the image of each node under its title, in order, and numbers what
has no identifier by what comes before it; nodes that are added behind leave it as it is. -/
theorem ofDocument_compiled (naming : OnceNaming) (d : Script.Document) :
    Compiled naming d (ofDocument naming d) ∧
      ∀ enums more title, ((ofDocument naming d).group? title).getD [] <+:
        ((ofDocument naming ⟨enums, d.nodes ++ more⟩).group? title).getD [] := by
  refine ⟨⟨?_, ?_⟩, ?_⟩
  · obtain ⟨entries, last, images, counts⟩ := lowerNodes_image naming .initial d.nodes
    exact ⟨entries, _, images, counts.numbered, groupNodes_get? _⟩
  · intro name
    refine (ofList_get? _ name).trans ?_
    rw [← List.map_reverse, List.find?_map, Option.map_map]
    rfl
  · intro enums more title
    have earlier := lowerNodes_prefix naming .initial d.nodes more
    rw [group?, group?, ofDocument, ofDocument, groupNodes_get?, groupNodes_get?, titled_getD,
      titled_getD]
    exact earlier.filter _

end Lowering

end Dialogue.Program
