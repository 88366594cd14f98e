import Dialogue.Proofs.Program.Decode

set_option autoImplicit false

namespace Dialogue

/-- A number is read back from its text. -/
def Program.IsReadBack (x : Float) : Prop :=
  ∀ r, property? r (ronFloat x) = some (.number x)

/-- The numbers among the properties are read back. -/
def Wrapper.Storable (w : Wrapper) : Prop :=
  ∀ e ∈ w.properties.entries, ∀ x, e.2 = .number x → Program.IsReadBack x

/-- The positions fit in 64 bits. -/
structure Segment.Storable (s : Segment) : Prop where
  start : s.start < Nat.pow 2 64
  stop : s.stop < Nat.pow 2 64
  wrappers : ∀ w ∈ s.wrappers, w.Storable

def Markup.Storable (m : Markup) : Prop :=
  ∀ s ∈ m.segments, s.Storable

mutual

/-- The formatted texts in an instruction: its own, then those of its blocks. -/
def Instruction.markups : Instruction → List Markup
  | .line l => l.markup.toList
  | .options choices => choicesMarkups choices
  | .branches bs => branchesMarkups bs
  | .once _ block => blockMarkups block
  | .command _ | .jump _ | .detour _ => []

def blockMarkups : List Instruction → List Markup
  | [] => []
  | i :: rest => i.markups ++ blockMarkups rest

def choicesMarkups : List (Choice × List Instruction) → List Markup
  | [] => []
  | (c, block) :: rest => c.markup.toList ++ (blockMarkups block ++ choicesMarkups rest)

def branchesMarkups : List (Option String × List Instruction) → List Markup
  | [] => []
  | (_, block) :: rest => blockMarkups block ++ branchesMarkups rest

end

namespace Program

/-- All formatted texts can be stored. -/
def Storable (p : Program) : Prop :=
  ∀ node ∈ p.allNodes, ∀ m ∈ blockMarkups node.instructions, m.Storable

open Ron (Reads)

variable {bound : Nat}

theorem reads_ronFloat {x : Float} (back : IsReadBack x) : Reads (ronFloat x) := by
  have known := back ⟨0, .initial⟩
  unfold ronFloat at known ⊢
  dsimp only at known ⊢
  generalize (x.isFinite && !(Decimal.render x).toList.contains '.') = whole at known ⊢
  have spelled : (Ron.number? (if whole then (Decimal.render x).toList ++ ['.', '0']
      else (Decimal.render x).toList)).isSome = true := by
    obtain ⟨n, number, -⟩ := Option.map_eq_some_iff.mp known
    rw [number]
    rfl
  rcases Ron.render_cases x with infinity | noNumber | shape
  · rw [infinity] at spelled ⊢
    cases whole with
    | true => exact absurd spelled (by decide +kernel)
    | false => exact Ron.reads_number .infinity
  · rw [noNumber] at spelled ⊢
    cases whole with
    | true => exact absurd spelled (by decide +kernel)
    | false => exact Ron.reads_number .noNumber
  · apply Ron.reads_digits _ spelled
    cases whole with
    | true => exact shape.append (List.all_eq_true.mp (by decide))
    | false => exact shape

theorem stores_property {v : PropertyValue} (numbers : ∀ x, v = .number x → IsReadBack x) :
    Stores bound property? (ronProperty v) v := by
  cases v with
  | flag b => exact ⟨Ron.reads_bool b, .pure (PropertyValue.flag b)⟩
  | number x =>
      have back := numbers x rfl
      refine ⟨reads_ronFloat back, ?_⟩
      intro room below
      exact (back _).trans (Takes.pure _ room below)
  | text s =>
      have text : Stores bound text? (ronText s) s := stores_text s
      exact ⟨text.reads, text.takes.map PropertyValue.text⟩

theorem stores_kind (k : WrapperKind) : Stores bound kind? (.word (ronKind k)) k where
  reads := by
    cases k with
    | standard => exact Ron.reads_word (by decide +kernel)
    | custom => exact Ron.reads_word (by decide +kernel)
  takes := by
    have found : kindOf? (ronKind k) = some k := by cases k <;> rfl
    have takes : Takes bound 0 (fun _ => kindOf? (ronKind k)) k := by
      rw [found]
      exact .pure k
    exact takes.nested.nested

theorem stores_wrapper {w : Wrapper} (storable : w.Storable) :
    Stores bound wrapper? (ronWrapper w) w := by
  have name : Stores bound text? (ronText w.name) w.name := stores_text w.name
  have kind : Stores bound kind? (.word (ronKind w.kind)) w.kind := stores_kind w.kind
  have properties : Stores bound (table? property?) (ronTable ronProperty w.properties)
      w.properties := stores_table fun e listed => stores_property (storable e listed)
  apply stores_struct ["name", "kind", "properties"] rfl (by decide +kernel) (by simp)
  · simpa using ⟨name.reads, kind.reads, properties.reads⟩
  · exact (takes_required (by simp) name).bind ((takes_required (by simp) kind).bind
      ((takes_defaulted _ (by simp) properties).bind (.pure w)))

theorem stores_segment {s : Segment} (storable : s.Storable) :
    Stores bound segment? (ronSegment s) s := by
  have start : Stores bound natural? (ronNat s.start) s.start := stores_nat storable.start
  have stop : Stores bound natural? (ronNat s.stop) s.stop := stores_nat storable.stop
  have wrappers : Stores bound (list? wrapper?) (.list (s.wrappers.map ronWrapper)) s.wrappers :=
    stores_map fun w listed => stores_wrapper (storable.wrappers w listed)
  obtain ⟨first, last, ws, marker⟩ := s
  cases marker with
  | false =>
      apply stores_struct ["start", "end", "wrappers"] rfl (by decide +kernel) (by simp)
      · simpa using ⟨start.reads, stop.reads, wrappers.reads⟩
      · exact (takes_required (by simp) start).bind ((takes_required (by simp) stop).bind
          ((takes_defaulted _ (by simp) wrappers).bind
            ((takes_missing false (by simp)).bind (.pure (Segment.mk first last ws false)))))
  | true =>
      have marked : Stores bound bool? (.bool true) true := stores_bool true
      apply stores_struct ["start", "end", "wrappers", "self_closing"] rfl
        (by decide +kernel) (by simp)
      · simpa using ⟨start.reads, stop.reads, wrappers.reads, marked.reads⟩
      · exact (takes_required (by simp) start).bind ((takes_required (by simp) stop).bind
          ((takes_defaulted _ (by simp) wrappers).bind
            ((takes_defaulted _ (by simp) marked).bind (.pure (Segment.mk first last ws true)))))

theorem stores_markup {m : Markup} (storable : m.Storable) :
    Stores bound markup? (ronMarkup m) m := by
  have text : Stores bound text? (ronText m.text) m.text := stores_text m.text
  have segments : Stores bound (list? segment?) (.list (m.segments.map ronSegment)) m.segments :=
    stores_map fun s listed => stores_segment (storable s listed)
  apply stores_struct ["text", "segments"] rfl (by decide +kernel) (by simp)
  · simpa using ⟨text.reads, segments.reads⟩
  · exact (takes_required (by simp) text).bind
      ((takes_defaulted _ (by simp) segments).bind (.pure m))

theorem stores_optionText (o : Option String) :
    Stores bound (option? text?) (ronOption (o.map ronText)) o :=
  stores_option o fun s _ => stores_text s

theorem stores_optionMarkup {o : Option Markup} (storable : ∀ m ∈ o, m.Storable) :
    Stores bound (option? markup?) (ronOption (o.map ronMarkup)) o :=
  stores_option o fun m held => stores_markup (storable m held)

theorem stores_line {l : Line} (storable : ∀ m ∈ l.markup, m.Storable) :
    Stores bound line? (ronLine l) l := by
  have speaker : Stores bound (option? text?) (ronOption (l.speaker.map ronText)) l.speaker :=
    stores_optionText l.speaker
  have text : Stores bound text? (ronText l.text) l.text := stores_text l.text
  have tags : Stores bound (list? text?) (ronTexts l.tags) l.tags := stores_texts l.tags
  have style : Stores bound (option? text?) (ronOption (l.style.map ronText)) l.style :=
    stores_optionText l.style
  have markup : Stores bound (option? markup?) (ronOption (l.markup.map ronMarkup)) l.markup :=
    stores_optionMarkup storable
  apply stores_struct lineFields rfl (by decide +kernel) (by simp)
  · simpa using ⟨speaker.reads, text.reads, tags.reads, style.reads, markup.reads⟩
  · exact (takes_defaulted _ (by simp) speaker).bind ((takes_required (by simp) text).bind
      ((takes_defaulted _ (by simp) tags).bind ((takes_defaulted _ (by simp) style).bind
        ((takes_defaulted _ (by simp) markup).bind (.pure l)))))

theorem stores_choice {instruction : Decoder Instruction} {c : Choice} {block : Block}
    {items : List Ron} (storable : ∀ m ∈ c.markup, m.Storable)
    (each : List.Forall₂ (Stores bound instruction) items block) :
    Stores bound (choice? instruction)
      (ronStruct
        [("text", ronText c.text), ("tags", ronTexts c.tags),
         ("style", ronOption (c.style.map ronText)),
         ("condition", ronOption (c.condition.map ronText)),
         ("markup", ronOption (c.markup.map ronMarkup)), ("block", .list items)]) (c, block) := by
  have text : Stores bound text? (ronText c.text) c.text := stores_text c.text
  have tags : Stores bound (list? text?) (ronTexts c.tags) c.tags := stores_texts c.tags
  have style : Stores bound (option? text?) (ronOption (c.style.map ronText)) c.style :=
    stores_optionText c.style
  have condition : Stores bound (option? text?) (ronOption (c.condition.map ronText))
      c.condition := stores_optionText c.condition
  have markup : Stores bound (option? markup?) (ronOption (c.markup.map ronMarkup)) c.markup :=
    stores_optionMarkup storable
  have block := stores_list each
  apply stores_struct ["text", "tags", "style", "condition", "markup", "block"] rfl
    (by decide +kernel) (by simp)
  · simpa using
      ⟨text.reads, tags.reads, style.reads, condition.reads, markup.reads, block.reads⟩
  · exact (takes_required (by simp) text).bind ((takes_defaulted _ (by simp) tags).bind
      ((takes_defaulted _ (by simp) style).bind ((takes_defaulted _ (by simp) condition).bind
        ((takes_defaulted _ (by simp) markup).bind ((takes_defaulted _ (by simp) block).bind
          (.pure (c, _)))))))

theorem stores_branch {instruction : Decoder Instruction} {condition : Option String}
    {block : Block} {items : List Ron}
    (each : List.Forall₂ (Stores bound instruction) items block) :
    Stores bound (branch? instruction)
      (ronStruct [("condition", ronOption (condition.map ronText)), ("block", .list items)])
      (condition, block) := by
  have choice : Stores bound (option? text?) (ronOption (condition.map ronText)) condition :=
    stores_optionText condition
  have block := stores_list each
  apply stores_struct ["condition", "block"] rfl (by decide +kernel) (by simp)
  · simpa using ⟨choice.reads, block.reads⟩
  · exact (takes_defaulted _ (by simp) choice).bind ((takes_defaulted _ (by simp) block).bind
      (.pure (condition, _)))

theorem variant?_toList (instruction : Decoder Instruction) (name : String) (found : RonFields) :
    variant? instruction name.toList found =
      match name with
      | "command" => fields? ["content"]
          (fun r fields => (required? r fields "content" text?).map .command) found
      | "jump" => fields? ["target"]
          (fun r fields => (required? r fields "target" text?).map .jump) found
      | "detour" => fields? ["target"]
          (fun r fields => (required? r fields "target" text?).map .detour) found
      | "options" => fields? ["options"]
          (fun r fields =>
            (required? r fields "options" (list? (choice? instruction))).map .options) found
      | "if" => fields? ["branches"]
          (fun r fields =>
            (required? r fields "branches" (list? (branch? instruction))).map .branches) found
      | "once" => fields? ["id", "block"]
          (fun r fields => do
            let id ← required? r fields "id" text?
            let block ← required? r fields "block" (list? instruction)
            return .once id block) found
      | _ => fun _ => none := by
  unfold variant?
  generalize spelled : String.ofList name.toList = letters
  obtain rfl : name = letters := by rw [← spelled, String.ofList_toList]
  rfl

/-- An instruction with fields of its own. Below it, blocks nest one level less. -/
theorem stores_variant {fuel : Nat} {name : String} {fields : List (String × Ron)}
    {i : Instruction} (names : List String) (listing : fields.map (·.1) = names)
    (nonempty : fields ≠ []) (word : Ron.isVariant name.toList = true)
    (other : name.toList ≠ "line".toList)
    (fine : (names.all fun name => Ron.isName name.toList && names.contains name) = true)
    (reads : ∀ f ∈ fields, Reads f.2) {decodeFields : Reading → RonFields → Option Instruction}
    (chosen : variant? (instruction? (fuel - 1)) name.toList (named fields) =
      fields? names decodeFields (named fields))
    (takes : Takes (fuel - 1) (Ron.readDepthFields (named fields))
      (fun r => decodeFields r (named fields)) i) :
    Stores fuel (instruction? fuel) (ronVariant name fields) i where
  reads := Ron.reads_variant word (readsFields_named names listing fine nonempty reads)
  takes := by
    cases fuel with
    | zero => exact fun room below => absurd below (Nat.not_lt_zero room)
    | succ fuel =>
        have shape : ∀ r, instruction? (fuel + 1) r (ronVariant name fields) =
            nested? (fields? names decodeFields (named fields)) r := by
          intro r
          show (if name.toList = "line".toList then _ else
            nested? (variant? (instruction? fuel) name.toList (named fields)) r) = _
          rw [if_neg other]
          exact congrArg (nested? · r) chosen
        have marked : name.toList.isEmpty = false := by
          cases letters : name.toList with
          | nil =>
              rw [letters] at word
              exact absurd word (by decide +kernel)
          | cons c cs => rfl
        have depth : (ronVariant name fields).readDepth =
            Ron.readDepthFields (named fields) + 1 + 1 := by
          show Ron.readDepthFields (named fields) + (if name.toList.isEmpty then 1 else 2) = _
          rw [marked]
          rfl
        rw [depth]
        simp only [shape]
        exact ((takes_fields names listing fine takes).mono (Nat.le_succ fuel)).descend

/-- An instruction that holds a structure. -/
theorem stores_lineInstruction {fuel : Nat} {l : Line} (storable : ∀ m ∈ l.markup, m.Storable) :
    Stores fuel (instruction? fuel) (ronInstruction (.line l)) (.line l) := by
  have held : Stores (fuel - 1) line? (ronLine l) l := stores_line storable
  refine ⟨Ron.reads_holding (by decide +kernel) held.reads, ?_⟩
  cases fuel with
  | zero => exact fun room below => absurd below (Nat.not_lt_zero room)
  | succ fuel =>
      have shape : ∀ room, instruction? (fuel + 1) ⟨room, .initial⟩ (ronInstruction (.line l)) =
          (nested? (nested? fun r => line? r (ronLine l)) ⟨room, .initial⟩).map .line :=
        fun room => rfl
      have depth : (ronInstruction (.line l)).readDepth = (ronLine l).readDepth + 1 + 1 := by
        show max ((ronLine l).readDepth + 1) 0 + 1 = _
        rw [Nat.max_zero]
      intro room below
      dsimp only
      rw [depth, shape]
      exact (held.takes.nested.descend.map Instruction.line) room below

mutual

/-- By induction on the instruction; below it, blocks nest one level less. -/
theorem stores_instruction : ∀ (i : Instruction) (fuel : Nat), (∀ m ∈ i.markups, m.Storable) →
    Stores fuel (instruction? fuel) (ronInstruction i) i
  | .line l, fuel, storable =>
      stores_lineInstruction fun m held => storable m (Option.mem_toList.mpr held)
  | .command content, fuel, _ => by
      have text : Stores (fuel - 1) text? (ronText content) content := stores_text content
      apply stores_variant ["content"] rfl (by simp) (by decide +kernel) (by decide)
        (by decide +kernel) (by simpa using text.reads) (variant?_toList _ "command" _)
      exact (takes_required (by simp) text).map Instruction.command
  | .jump target, fuel, _ => by
      have text : Stores (fuel - 1) text? (ronText target) target := stores_text target
      apply stores_variant ["target"] rfl (by simp) (by decide +kernel) (by decide)
        (by decide +kernel) (by simpa using text.reads) (variant?_toList _ "jump" _)
      exact (takes_required (by simp) text).map Instruction.jump
  | .detour target, fuel, _ => by
      have text : Stores (fuel - 1) text? (ronText target) target := stores_text target
      apply stores_variant ["target"] rfl (by simp) (by decide +kernel) (by decide)
        (by decide +kernel) (by simpa using text.reads) (variant?_toList _ "detour" _)
      exact (takes_required (by simp) text).map Instruction.detour
  | .options choices, fuel, storable => by
      have all := stores_list (stores_choices choices (fuel - 1) storable)
      apply stores_variant ["options"] rfl (by simp) (by decide +kernel) (by decide)
        (by decide +kernel) (by simpa using all.reads) (variant?_toList _ "options" _)
      exact (takes_required (by simp) all).map Instruction.options
  | .branches branches, fuel, storable => by
      have all := stores_list (stores_branches branches (fuel - 1) storable)
      apply stores_variant ["branches"] rfl (by simp) (by decide +kernel) (by decide)
        (by decide +kernel) (by simpa using all.reads) (variant?_toList _ "if" _)
      exact (takes_required (by simp) all).map Instruction.branches
  | .once id block, fuel, storable => by
      have text : Stores (fuel - 1) text? (ronText id) id := stores_text id
      have all := stores_list (stores_block block (fuel - 1) storable)
      apply stores_variant ["id", "block"] rfl (by simp) (by decide +kernel) (by decide)
        (by decide +kernel) (by simpa using ⟨text.reads, all.reads⟩) (variant?_toList _ "once" _)
      exact (takes_required (by simp) text).bind ((takes_required (by simp) all).bind
        (.pure (Instruction.once id block)))

theorem stores_block : ∀ (block : List Instruction) (fuel : Nat),
    (∀ m ∈ blockMarkups block, m.Storable) →
    List.Forall₂ (Stores fuel (instruction? fuel)) (ronBlock block) block
  | [], _, _ => .nil
  | i :: rest, fuel, storable => by
      obtain ⟨first, others⟩ := List.forall_mem_append.mp storable
      exact .cons (stores_instruction i fuel first) (stores_block rest fuel others)

theorem stores_choices : ∀ (choices : List (Choice × List Instruction)) (fuel : Nat),
    (∀ m ∈ choicesMarkups choices, m.Storable) →
    List.Forall₂ (Stores fuel (choice? (instruction? fuel))) (ronChoices choices) choices
  | [], _, _ => .nil
  | (c, block) :: rest, fuel, storable => by
      obtain ⟨own, storable⟩ := List.forall_mem_append.mp storable
      obtain ⟨inner, others⟩ := List.forall_mem_append.mp storable
      have first := stores_choice (fun m held => own m (Option.mem_toList.mpr held))
        (stores_block block fuel inner)
      exact .cons first (stores_choices rest fuel others)

theorem stores_branches : ∀ (branches : List (Option String × List Instruction)) (fuel : Nat),
    (∀ m ∈ branchesMarkups branches, m.Storable) →
    List.Forall₂ (Stores fuel (branch? (instruction? fuel))) (ronBranches branches) branches
  | [], _, _ => .nil
  | (condition, block) :: rest, fuel, storable => by
      obtain ⟨inner, others⟩ := List.forall_mem_append.mp storable
      exact .cons (stores_branch (stores_block block fuel inner))
        (stores_branches rest fuel others)

end

theorem stores_node {node : Node} (storable : ∀ m ∈ blockMarkups node.instructions, m.Storable) :
    Stores Ron.nestingLimit node? (ronNode node) node := by
  have title : Stores Ron.nestingLimit text? (ronText node.title) node.title :=
    stores_text node.title
  have instructions := stores_list (stores_block node.instructions Ron.nestingLimit storable)
  have conditions : Stores Ron.nestingLimit (list? text?) (ronTexts node.conditions)
      node.conditions := stores_texts node.conditions
  have style : Stores Ron.nestingLimit (option? text?) (ronOption (node.style.map ronText))
      node.style := stores_optionText node.style
  have scene : Stores Ron.nestingLimit (option? text?) (ronOption (node.scene.map ronText))
      node.scene := stores_optionText node.scene
  apply stores_struct ["title", "instructions", "when", "style", "scene"] rfl
    (by decide +kernel) (by simp)
  · simpa using
      ⟨title.reads, instructions.reads, conditions.reads, style.reads, scene.reads⟩
  · exact (takes_required (by simp) title).bind ((takes_defaulted _ (by simp) instructions).bind
      ((takes_defaulted _ (by simp) conditions).bind ((takes_defaulted _ (by simp) style).bind
        ((takes_defaulted _ (by simp) scene).bind (.pure node)))))

theorem stores_program {p : Program} (storable : p.Storable) :
    Stores (Ron.nestingLimit + 1) program? p.toRon p := by
  have enums : Stores Ron.nestingLimit (table? (list? text?)) (ronTable ronTexts p.enums)
      p.enums := stores_table fun e _ => stores_texts e.2
  have nodes : Stores Ron.nestingLimit (table? (list? node?))
      (ronTable (fun group => .list (group.map ronNode)) p.nodes) p.nodes := by
    apply stores_table
    intro e listed
    apply stores_map
    intro node inside
    exact stores_node (storable node (List.mem_flatMap.mpr ⟨e, listed, inside⟩))
  apply stores_struct_succ ["enums", "nodes"] rfl (by decide +kernel) (by simp)
  · simpa using ⟨enums.reads, nodes.reads⟩
  · exact (takes_defaulted _ (by simp) enums).bind
      ((takes_defaulted _ (by simp) nodes).bind (.pure p))

/-- The text of a program is read back exactly if reading it takes no more levels than may nest. -/
theorem ofText?_write {p : Program} (storable : p.Storable) (layout : Ron.Layout) :
    ofText? (String.ofList (p.toRon.write layout)) =
      if p.toRon.readDepth ≤ Ron.nestingLimit then some p else none := by
  have stores := stores_program storable
  have plain : (p.toRon.write layout).head? ≠ some '#' := by
    obtain ⟨inner, starts⟩ := Ron.write_struct layout (named [("enums", ronTable ronTexts p.enums),
      ("nodes", ronTable (fun group => .list (group.map ronNode)) p.nodes)])
    have parenthesis : p.toRon.write layout = '(' :: inner := starts
    rw [parenthesis]
    simp
  unfold ofText?
  rw [String.toList_ofList, Ron.read?_write stores.reads layout plain]
  exact stores.takes Ron.nestingLimit (Nat.lt_succ_self _)

theorem textIn?_of_writeDepth_le {p : Program} (shallow : p.toRon.writeDepth ≤ Ron.nestingLimit)
    (layout : Ron.Layout) : p.textIn? layout = some (String.ofList (p.toRon.write layout)) :=
  if_pos shallow

/-- A program that does not nest too deep is written and read back. -/
theorem textIn?_of_readDepth_le {p : Program} (storable : p.Storable)
    (shallow : p.toRon.readDepth ≤ Ron.nestingLimit) (layout : Ron.Layout) :
    ∃ text, p.textIn? layout = some text ∧ ofText? text = some p := by
  have written : p.toRon.writeDepth ≤ Ron.nestingLimit :=
    le_trans (Ron.writeDepth_le_readDepth p.toRon) shallow
  refine ⟨_, textIn?_of_writeDepth_le written layout, ?_⟩
  rw [ofText?_write storable, if_pos shallow]

/-- What is written of a program that nests deeper cannot be read. -/
theorem ofText?_of_lt_readDepth {p : Program} (storable : p.Storable)
    (deep : Ron.nestingLimit < p.toRon.readDepth) {layout : Ron.Layout} {text : String}
    (written : p.textIn? layout = some text) : ofText? text = none := by
  unfold textIn? at written
  split at written
  · rw [← Option.some.inj written, ofText?_write storable, if_neg (by omega)]
  · cases written

/-- A program is read back from both of its texts, unless reading it takes more levels than may
nest; then neither of its texts can be read. -/
theorem stored_readBack {p : Program} (storable : p.Storable) :
    (p.toRon.readDepth ≤ Ron.nestingLimit →
      (∃ compact, p.compactText? = some compact ∧ ofText? compact = some p) ∧
        ∃ pretty, p.prettyText? = some pretty ∧ ofText? pretty = some p) ∧
    (Ron.nestingLimit < p.toRon.readDepth → ∀ text,
      p.compactText? = some text ∨ p.prettyText? = some text → ofText? text = none) := by
  constructor
  · intro shallow
    exact ⟨textIn?_of_readDepth_le storable shallow .compact,
      textIn?_of_readDepth_le storable shallow (.lines 0)⟩
  · intro deep text written
    rcases written with compact | pretty
    · exact ofText?_of_lt_readDepth storable deep compact
    · exact ofText?_of_lt_readDepth storable deep pretty

/-- A line whose texts need marks in quotes, and whose formatting has properties. -/
def greeting : Line :=
  { speaker := some "Ann\"a", text := "Hi\t\\ there", tags := ["line:1"], style := none
    markup := some ⟨"Hi", [⟨0, 2, [⟨"wave", .custom,
      .ofList [("loud", .flag true), ("tone", .text "\x7b~\x7d\n")]⟩], false⟩]⟩ }

/-- One node with a greeting, an option and a block that is run once. -/
def smallProgram : Program :=
  ⟨.ofList [("Mood", ["Calm", "Angry"])], .ofList [("Start", [
    { title := "Start"
      instructions := [.line greeting,
        .options [(⟨"Go", [], none, some "$x > 1", none⟩, [.once "a" [.jump "End"]])]]
      conditions := ["visited(\"End\")"], style := some "s", scene := none }])]⟩

theorem greeting_storable : ∀ m ∈ greeting.markup, m.Storable := by
  rintro m ⟨⟩ s listed
  obtain rfl := List.mem_singleton.mp listed
  refine ⟨by decide, by decide, ?_⟩
  intro w listed e inside x number
  obtain rfl := List.mem_singleton.mp listed
  rcases List.mem_pair.mp (Table.mem_of_mem_ofList inside) with rfl | rfl
  · cases number
  · cases number

theorem stored_readBack_small : smallProgram.Storable ∧
    smallProgram.toRon.readDepth ≤ Ron.nestingLimit ∧
    ∃ compact, smallProgram.compactText? = some compact ∧ ofText? compact = some smallProgram := by
  have storable : smallProgram.Storable := by
    intro node listed m held
    obtain ⟨group, inside, listed⟩ := List.mem_flatMap.mp listed
    obtain rfl := List.mem_singleton.mp (Table.mem_of_mem_ofList inside)
    obtain rfl := List.mem_singleton.mp listed
    exact greeting_storable m (Option.mem_toList.mp held)
  have shallow : smallProgram.toRon.readDepth ≤ Ron.nestingLimit := by decide +kernel
  exact ⟨storable, shallow, ((stored_readBack storable).1 shallow).1⟩

/-- Blocks that are run once, one in the other. -/
def nestedOnce : Nat → Block
  | 0 => []
  | n + 1 => [.once "" (nestedOnce n)]

theorem blockMarkups_nestedOnce (n : Nat) : blockMarkups (nestedOnce n) = [] := by
  induction n with
  | zero => rfl
  | succ n ih => exact (List.append_nil _).trans ih

/-- Thirty blocks, one in the other. -/
def deepProgram : Program :=
  ⟨.empty, .ofList [("A", [⟨"A", nestedOnce 30, [], none, none⟩])]⟩

/-- Thirty blocks nest too deep to be read, but not too deep to be written. -/
theorem deepProgram_not_readBack : deepProgram.Storable ∧
    ∃ text, deepProgram.compactText? = some text ∧ ofText? text = none := by
  have storable : deepProgram.Storable := by
    intro node listed m held
    obtain ⟨group, inside, listed⟩ := List.mem_flatMap.mp listed
    obtain rfl := List.mem_singleton.mp (Table.mem_of_mem_ofList inside)
    obtain rfl := List.mem_singleton.mp listed
    rw [blockMarkups_nestedOnce] at held
    cases held
  have written : deepProgram.toRon.writeDepth ≤ Ron.nestingLimit := by decide +kernel
  have deep : Ron.nestingLimit < deepProgram.toRon.readDepth := by decide +kernel
  have text := textIn?_of_writeDepth_le written .compact
  exact ⟨storable, _, text, ofText?_of_lt_readDepth storable deep text⟩

end Program

end Dialogue
