import Dialogue.Decimal.Shortest
import Dialogue.Program.Basic
import Dialogue.Program.Validate
import Dialogue.Ron.Read

set_option autoImplicit false

namespace Dialogue.Program

def ronText (s : String) : Ron :=
  .text s.toList

def ronOption (v : Option Ron) : Ron :=
  match v with
  | some v => .present v
  | none => .absent

def ronTexts (texts : List String) : Ron :=
  .list (texts.map ronText)

def ronStruct (fields : List (String × Ron)) : Ron :=
  .record [] (fields.map fun f => (f.1.toList, f.2))

def ronVariant (name : String) (fields : List (String × Ron)) : Ron :=
  .record name.toList (fields.map fun f => (f.1.toList, f.2))

def ronTable {α : Type} (f : α → Ron) (t : Table α) : Ron :=
  .map (t.entries.map fun e => (ronText e.1, f e.2))

def ronNat (n : Nat) : Ron :=
  .number (Nat.toDigits 10 n)

/-- A number that is written with a fraction even if it is whole. -/
def ronFloat (x : Float) : Ron :=
  let shown := (Decimal.render x).toList
  .number (if x.isFinite && !shown.contains '.' then shown ++ ['.', '0'] else shown)

def ronProperty : PropertyValue → Ron
  | .flag b => .bool b
  | .number x => ronFloat x
  | .text s => ronText s

def ronKind : WrapperKind → List Char
  | .standard => "default".toList
  | .custom => "custom".toList

def ronWrapper (w : Wrapper) : Ron :=
  ronStruct
    [("name", ronText w.name),
     ("kind", .word (ronKind w.kind)),
     ("properties", ronTable ronProperty w.properties)]

def ronSegment (s : Segment) : Ron :=
  ronStruct
    ([("start", ronNat s.start), ("end", ronNat s.stop),
      ("wrappers", .list (s.wrappers.map ronWrapper))] ++
      if s.marker then [("self_closing", .bool true)] else [])

def ronMarkup (m : Markup) : Ron :=
  ronStruct [("text", ronText m.text), ("segments", .list (m.segments.map ronSegment))]

def ronLine (l : Line) : Ron :=
  ronStruct
    [("speaker", ronOption (l.speaker.map ronText)), ("text", ronText l.text),
     ("tags", ronTexts l.tags), ("style", ronOption (l.style.map ronText)),
     ("markup", ronOption (l.markup.map ronMarkup))]

mutual

def ronInstruction : Instruction → Ron
  | .line l => .tuple "line".toList [ronLine l]
  | .command content => ronVariant "command" [("content", ronText content)]
  | .jump target => ronVariant "jump" [("target", ronText target)]
  | .detour target => ronVariant "detour" [("target", ronText target)]
  | .options choices => ronVariant "options" [("options", .list (ronChoices choices))]
  | .branches branches => ronVariant "if" [("branches", .list (ronBranches branches))]
  | .once id block => ronVariant "once" [("id", ronText id), ("block", .list (ronBlock block))]

def ronBlock : List Instruction → List Ron
  | [] => []
  | i :: rest => ronInstruction i :: ronBlock rest

def ronChoices : List (Choice × List Instruction) → List Ron
  | [] => []
  | (c, block) :: rest =>
      ronStruct
        [("text", ronText c.text), ("tags", ronTexts c.tags),
         ("style", ronOption (c.style.map ronText)),
         ("condition", ronOption (c.condition.map ronText)),
         ("markup", ronOption (c.markup.map ronMarkup)), ("block", .list (ronBlock block))] ::
        ronChoices rest

def ronBranches : List (Option String × List Instruction) → List Ron
  | [] => []
  | (condition, block) :: rest =>
      ronStruct
        [("condition", ronOption (condition.map ronText)), ("block", .list (ronBlock block))] ::
        ronBranches rest

end

def ronNode (n : Node) : Ron :=
  ronStruct
    [("title", ronText n.title), ("instructions", .list (ronBlock n.instructions)),
     ("when", ronTexts n.conditions), ("style", ronOption (n.style.map ronText)),
     ("scene", ronOption (n.scene.map ronText))]

def toRon (p : Program) : Ron :=
  ronStruct
    [("enums", ronTable ronTexts p.enums),
     ("nodes", ronTable (fun group => .list (group.map ronNode)) p.nodes)]

/-- A program in the given layout, unless it nests too deep. -/
def textIn? (layout : Ron.Layout) (p : Program) : Option String :=
  if p.toRon.writeDepth ≤ Ron.nestingLimit then some (String.ofList (p.toRon.write layout))
  else none

/-- A program on one line. -/
def compactText? (p : Program) : Option String :=
  p.textIn? .compact

/-- A program over several lines. -/
def prettyText? (p : Program) : Option String :=
  p.textIn? (.lines 0)

/-- How a value is read: how many levels may still nest, and what its text enables. -/
structure Reading where
  room : Nat
  enabled : Ron.Extensions

abbrev Decoder (α : Type) := Reading → Ron → Option α

abbrev RonFields := List (List Char × Ron)

/-- Goes one level down. -/
def nested? {α : Type} (decode : Reading → Option α) (r : Reading) : Option α :=
  match r.room with
  | 0 => none
  | room + 1 => decode { r with room := room }

/-- Whether a structure may be written behind what was found: its name, or none. -/
def allowsName (r : Reading) (name : String) (found : List Char) : Bool :=
  found = name.toList || (found.isEmpty && !r.enabled.explicitNames)

/-- The fields of a structure with the given name. -/
def fieldsOf? (r : Reading) (name : String) : Ron → Option RonFields
  | .unit => if allowsName r name [] then some [] else none
  | .tuple found [] => if allowsName r name found then some [] else none
  | .record found fields => if allowsName r name found then some fields else none
  | _ => none

/-- What stands in parentheses: fields, of which those that are not known are passed over. -/
def fields? {α : Type} (known : List String) (decode : Reading → RonFields → Option α)
    (fields : RonFields) : Reading → Option α :=
  nested? fun r =>
    if fields.all fun f => known.contains (String.ofList f.1) || f.2.skipDepth < r.room then
      decode r fields
    else none

/-- A structure with the given name. -/
def struct? {α : Type} (name : String) (known : List String)
    (decode : Reading → RonFields → Option α) : Decoder α := fun r v =>
  (fieldsOf? r name v).bind fun found => fields? known decode found r

/-- A field that must be there. -/
def required? {α : Type} (r : Reading) (fields : RonFields) (name : String)
    (decode : Decoder α) : Option α :=
  match fields.filter fun f => f.1 = name.toList with
  | [(_, v)] => nested? (fun r => decode r v) r
  | _ => none

/-- A field that may be missing. -/
def defaulted? {α : Type} (r : Reading) (fields : RonFields) (name : String) (default : α)
    (decode : Decoder α) : Option α :=
  match fields.filter fun f => f.1 = name.toList with
  | [] => some default
  | [(_, v)] => nested? (fun r => decode r v) r
  | _ => none

def text? : Decoder String
  | _, .text cs => some (String.ofList cs)
  | _, _ => none

def bool? : Decoder Bool
  | _, .bool b => some b
  | _, _ => none

def list? {α : Type} (decode : Decoder α) : Decoder (List α)
  | r, .list items => nested? (fun r => items.mapM fun v => nested? (fun r => decode r v) r) r
  | _, _ => none

def option? {α : Type} (decode : Decoder α) : Decoder (Option α)
  | _, .absent => some none
  | r, .present v => (nested? (fun r => decode r v) r).map some
  | r, v =>
      if r.enabled.implicitSome then (nested? (fun r => decode r v) r).map some else none

/-- A map with texts for keys; of entries with one key the last counts. -/
def table? {α : Type} (decode : Decoder α) : Decoder (Table α)
  | r, .map entries => (nested? (fun r => entries.mapM fun (key, value) =>
      nested? (fun r => do
        let name ← text? r key
        let v ← decode r value
        return (name, v)) r) r).map .ofList
  | _, _ => none

def natural? : Decoder Nat
  | _, .number literal => (Ron.number? literal).bind Ron.Number.toNat?
  | _, _ => none

def property? : Decoder PropertyValue
  | _, .bool b => some (.flag b)
  | _, .number literal => (Ron.number? literal).map fun n => .number n.toFloat
  | _, .text cs => some (.text (String.ofList cs))
  | _, .bytes bs => (String.fromUTF8? ⟨bs.toArray⟩).map .text
  | _, _ => none

def kindOf? (name : List Char) : Option WrapperKind :=
  if name = "default".toList then some .standard
  else if name = "custom".toList then some .custom
  else none

def kind? : Decoder WrapperKind
  | r, .word name => nested? (nested? fun _ => kindOf? name) r
  | _, _ => none

def wrapper? : Decoder Wrapper :=
  struct? "Wrapper" ["name", "kind", "properties"] fun r fields => do
    let name ← required? r fields "name" text?
    let kind ← required? r fields "kind" kind?
    let properties ← defaulted? r fields "properties" .empty (table? property?)
    return ⟨name, kind, properties⟩

def segment? : Decoder Segment :=
  struct? "Segment" ["start", "end", "wrappers", "self_closing"] fun r fields => do
    let start ← required? r fields "start" natural?
    let stop ← required? r fields "end" natural?
    let wrappers ← defaulted? r fields "wrappers" [] (list? wrapper?)
    let marker ← defaulted? r fields "self_closing" false bool?
    return ⟨start, stop, wrappers, marker⟩

def markup? : Decoder Markup :=
  struct? "MarkupResult" ["text", "segments"] fun r fields => do
    let text ← required? r fields "text" text?
    let segments ← defaulted? r fields "segments" [] (list? segment?)
    return ⟨text, segments⟩

def lineFields : List String :=
  ["speaker", "text", "tags", "style", "markup"]

/-- A line, given the fields that it is made of. -/
def lineOf? (r : Reading) (fields : RonFields) : Option Line := do
  let speaker ← defaulted? r fields "speaker" none (option? text?)
  let text ← required? r fields "text" text?
  let tags ← defaulted? r fields "tags" [] (list? text?)
  let style ← defaulted? r fields "style" none (option? text?)
  let markup ← defaulted? r fields "markup" none (option? markup?)
  return ⟨speaker, text, tags, style, markup⟩

def line? : Decoder Line :=
  struct? "LineDef" lineFields lineOf?

/-- An option with its block, given a decoder of instructions. -/
def choice? (instruction : Decoder Instruction) : Decoder (Choice × Block) :=
  struct? "OptionDef" ["text", "tags", "style", "condition", "markup", "block"] fun r fields => do
    let text ← required? r fields "text" text?
    let tags ← defaulted? r fields "tags" [] (list? text?)
    let style ← defaulted? r fields "style" none (option? text?)
    let condition ← defaulted? r fields "condition" none (option? text?)
    let markup ← defaulted? r fields "markup" none (option? markup?)
    let block ← defaulted? r fields "block" [] (list? instruction)
    return (⟨text, tags, style, condition, markup⟩, block)

def branch? (instruction : Decoder Instruction) : Decoder (Option String × Block) :=
  struct? "BranchDef" ["condition", "block"] fun r fields => do
    let condition ← defaulted? r fields "condition" none (option? text?)
    let block ← defaulted? r fields "block" [] (list? instruction)
    return (condition, block)

/-- An instruction that is written with fields of its own. -/
def variant? (instruction : Decoder Instruction) (name : List Char) (found : RonFields) :
    Reading → Option Instruction :=
  match String.ofList name with
  | "command" => fields? ["content"]
      (fun r fields => (required? r fields "content" text?).map .command) found
  | "jump" => fields? ["target"]
      (fun r fields => (required? r fields "target" text?).map .jump) found
  | "detour" => fields? ["target"]
      (fun r fields => (required? r fields "target" text?).map .detour) found
  | "options" => fields? ["options"]
      (fun r fields =>
        (required? r fields "options" (list? (choice? instruction))).map .options) found
  | "if" => fields? ["branches"]
      (fun r fields =>
        (required? r fields "branches" (list? (branch? instruction))).map .branches) found
  | "once" => fields? ["id", "block"]
      (fun r fields => do
        let id ← required? r fields "id" text?
        let block ← required? r fields "block" (list? instruction)
        return .once id block) found
  | _ => fun _ => none

/-- An instruction, in which blocks nest at most as deep as the first number says. A variant takes
one level, and so does a structure that it holds. -/
def instruction? : Nat → Decoder Instruction
  | 0, _, _ => none
  | _ + 1, r, .tuple name [v] =>
      if name = "line".toList && !r.enabled.bareVariants then
        (nested? (nested? fun r => line? r v) r).map .line
      else none
  | fuel + 1, r, .record name found =>
      if name = "line".toList then
        if r.enabled.bareVariants then
          (nested? (nested? (fields? lineFields lineOf? found)) r).map .line
        else none
      else nested? (variant? (instruction? fuel) name found) r
  | _ + 1, _, _ => none

def node? : Decoder Node :=
  struct? "NodeDef" ["title", "instructions", "when", "style", "scene"] fun r fields => do
    let title ← required? r fields "title" text?
    let instructions ←
      defaulted? r fields "instructions" [] (list? (instruction? Ron.nestingLimit))
    let conditions ← defaulted? r fields "when" [] (list? text?)
    let style ← defaulted? r fields "style" none (option? text?)
    let scene ← defaulted? r fields "scene" none (option? text?)
    return ⟨title, instructions, conditions, style, scene⟩

def program? : Decoder Program :=
  struct? "Program" ["enums", "nodes"] fun r fields => do
    let enums ← defaulted? r fields "enums" .empty (table? (list? text?))
    let nodes ← defaulted? r fields "nodes" .empty (table? (list? node?))
    return ⟨enums, nodes⟩

/-- The program that a text spells. -/
def ofText? (text : String) : Option Program := do
  let (enabled, v) ← Ron.read? text.toList
  program? ⟨Ron.nestingLimit, enabled⟩ v

/-- Why a stored program is not used. -/
inductive LoadError where
  | unreadable
  | malformed
  | invalid (findings : List Finding)

namespace LoadError

def message : LoadError → String
  | unreadable => "unreadable program"
  | malformed => "malformed program"
  | invalid findings =>
      "program validation failed:\n" ++
        Text.join "\n" (findings.map fun f => "- " ++ f.message)

end LoadError

/-- Reads a program from the text of a file, if the file could be read. -/
def load (file : Option String) : Except LoadError Program :=
  match file with
  | none => .error .unreadable
  | some text =>
      match ofText? text with
      | some p => .ok p
      | none => .error .malformed

/-- Like `load`, but refuses a program in which anything is wrong. -/
def loadStrict (file : Option String) : Except LoadError Program := do
  let p ← load file
  let findings := p.validate
  if findings.isEmpty then return p else throw (.invalid findings)

end Dialogue.Program
