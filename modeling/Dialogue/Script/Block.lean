import Dialogue.Script.Error
import Dialogue.Script.Phrase

set_option autoImplicit false

namespace Dialogue.Script

open Dialogue.Text

/-- An enumeration whose `<<endenum>>` has not been read. -/
structure OpenEnum where
  start : Token
  name : String
  cases : List String
  /-- Levels of indentation opened since the start. -/
  depth : Nat

namespace OpenEnum

def begin (start : Token) (name : List Char) : Except ParseError OpenEnum :=
  if name.isEmpty then .error ⟨start.position, .malformedBlock .unnamedEnum⟩
  else .ok ⟨start, String.ofList name, [], 0⟩

def definition (e : OpenEnum) : Enumeration :=
  ⟨e.name, e.cases⟩

inductive Progress where
  | more (e : OpenEnum)
  | closed (e : OpenEnum)

/-- Takes one token of an enumeration. -/
def take (e : OpenEnum) (t : Token) : Except ParseError Progress :=
  let foreign : ParseError := ⟨t.position, .malformedBlock (.foreignToken t)⟩
  match t.kind with
  | .empty => .ok (.more e)
  | .indent => .ok (.more { e with depth := e.depth + 1 })
  | .dedent => if e.depth = 0 then .error foreign else .ok (.more { e with depth := e.depth - 1 })
  | .command =>
      if t.text = "endenum" then .ok (.closed e)
      else match argument? "case" t.text.toList with
        | some case => .ok (.more { e with cases := e.cases ++ [String.ofList case] })
        | none => .error ⟨t.position, .malformedBlock (.foreignCommand e.name t.text)⟩
  | .eof => .error ⟨e.start.position, .malformedBlock (.unclosedEnum e.name)⟩
  | _ => .error foreign

end OpenEnum

/-- The two spellings of a conditional: by commands, or by markers on text lines. -/
inductive Spelling where
  | command
  | marker
  deriving DecidableEq, Repr

/-- An open block, with the statements that stand before it in the block around it. -/
inductive Frame where
  | indented (outer : Body)
  | choice (outer : Body) (done : List (Choice × Body)) (choice : Choice)
  | branch (outer : Body) (spelling : Spelling) (start : Token)
      (done : List (Option String × Body)) (condition : Option String)
  /-- The body of a once block that has its own level of indentation. -/
  | onceIndented (outer : Body)
  /-- The body of a once block that ends with its closer or with the block around it. -/
  | once (outer : Body)

/-- What the next token may still belong to. -/
inductive Mode where
  | plain
  /-- An option was read; indentation directly behind it holds its body. -/
  | choiceHead (done : List (Choice × Body)) (choice : Choice)
  /-- Between the options of a group. -/
  | choices (done : List (Choice × Body))
  /-- A once command was read; indentation directly behind it holds its body. -/
  | onceHead
  /-- An indented once body has ended and its closer may follow. -/
  | onceEnd (body : Body)
  | enumeration (e : OpenEnum)
  /-- An enumeration has ended; levels that it opened close with it. -/
  | enumerationEnd (enum : Enumeration) (depth : Nat)

/-- The statements of the innermost open block, and the blocks around it. A token first closes what
it shows to be complete, though no closer was written; then it extends the innermost block, opens a
block inside it or closes it. -/
structure BlockState where
  frames : List Frame
  /-- The statements of the innermost open block. -/
  here : Body
  mode : Mode
  /-- The enumerations that have ended, in order. -/
  enums : List Enumeration

namespace BlockState

def initial : BlockState :=
  ⟨[], [], .plain, []⟩

/-- Appends a statement to the innermost block. -/
def add (s : BlockState) (statement : Statement) : BlockState :=
  { s with here := s.here ++ [statement], mode := .plain }

/-- Opens a block inside the innermost one. -/
def enter (s : BlockState) (frame : Frame) : BlockState :=
  { s with frames := frame :: s.frames, here := [], mode := .plain }

end BlockState

def isOnceEnd (t : Token) : Bool :=
  t.kind = .command && t.text = "endonce"

/-- Whether a command continues or ends a conditional. -/
def isBranchCommand (text : List Char) : Bool :=
  text = "else".toList || text = "endif".toList || (elseIf? text).isSome

/-- Whether a token ends every block that it is not part of. -/
def endsScope (t : Token) : Bool :=
  t.kind = .dedent || t.kind = .nodeEnd || t.kind = .eof

/-- Closes the once blocks that a token ends without a closer. -/
def closeOnces : List Frame → Body → List Frame × Body
  | .once outer :: frames, here => closeOnces frames (outer ++ [.once here])
  | frames, here => (frames, here)

/-- Ends a group of options, unless the next token may go on with it. -/
def BlockState.settleChoices (s : BlockState) (t : Token) (done : List (Choice × Body)) :
    BlockState :=
  if t.kind = .option || t.kind = .empty then { s with mode := .choices done }
  else s.add (.options done)

/-- Leaves a mode that the next token does not belong to. -/
def BlockState.settleMode (s : BlockState) (t : Token) : BlockState :=
  match s.mode with
  | .choiceHead done choice =>
      if t.kind = .indent then s else s.settleChoices t (done ++ [(choice, [])])
  | .choices done => s.settleChoices t done
  | .onceHead => if t.kind = .indent then s else s.enter (.once s.here)
  | .onceEnd body => if t.kind = .empty || isOnceEnd t then s else s.add (.once body)
  | .enumerationEnd enum _ =>
      if t.kind = .empty || t.kind = .dedent then s else s.add (.enumeration enum)
  | .plain | .enumeration _ => s

/-- Closes what the next token shows to be complete. -/
def BlockState.settle (s : BlockState) (t : Token) : BlockState :=
  let s := s.settleMode t
  match s.mode with
  | .plain =>
      if endsScope t then
        let (frames, here) := closeOnces s.frames s.here
        { s with frames := frames, here := here }
      else s
  | _ => s

/-- Ends an enumeration, together with the levels it opened. -/
def BlockState.endEnum (s : BlockState) (enum : Enumeration) (depth : Nat) : BlockState :=
  if depth = 0 then s.add (.enumeration enum)
  else { s with mode := .enumerationEnd enum depth }

/-- Takes a command that is a statement or opens one. -/
def BlockState.takeCommand (s : BlockState) (t : Token) : Except ParseError BlockState :=
  let text := trim t.text.toList
  let malformed (fault : BlockFault) : Except ParseError BlockState :=
    .error ⟨t.position, .malformedBlock fault⟩
  match argument? "jump" text with
  | some target => .ok (s.add (.jump (String.ofList target)))
  | none =>
  match argument? "detour" text with
  | some target => .ok (s.add (.detour (String.ofList target)))
  | none =>
  if text = "jump".toList || text = "detour".toList then malformed .missingTarget
  else match argument? "if" text with
  | some condition =>
      .ok (s.enter (.branch s.here .command t [] (some (String.ofList condition))))
  | none =>
  if text = "if".toList then malformed .missingCondition
  else if text = "once".toList then .ok { s with mode := .onceHead }
  else match argument? "enum" text with
  | some name => do
      let e ← OpenEnum.begin t name
      .ok { s with mode := .enumeration e }
  | none =>
  if isBranchCommand t.text.toList then
    .error ⟨t.position, .unmatchedConditional (.strayCommand (String.ofList text))⟩
  else if text = "endonce".toList then malformed .strayOnceEnd
  else if text = "endenum".toList || (argument? "case" text).isSome then malformed .strayCase
  else .ok (s.add (.command (String.ofList text)))

/-- Takes a text line: a line of dialogue, or a marker that opens a conditional. -/
def BlockState.takeText (s : BlockState) (t : Token) : Except ParseError BlockState :=
  match marker? t.text with
  | some (.opens condition) => .ok (s.enter (.branch s.here .marker t [] (some condition)))
  | some _ => .error ⟨t.position, .unmatchedConditional (.strayMarker (trimmed t.text))⟩
  | none => .ok (s.add (.line (lineOf t.text)))

/-- Takes a token that starts a statement. -/
def BlockState.takeItem (s : BlockState) (t : Token) : Except ParseError BlockState :=
  match t.kind with
  | .option => .ok { s with mode := .choiceHead [] (choiceOf t.text) }
  | .indent => .ok (s.enter (.indented s.here))
  | .command => s.takeCommand t
  | .text => s.takeText t
  | _ => .error (.unexpected "statement" t)

/-- What a token does to the branch of a conditional that it stands in. -/
inductive BranchEffect where
  | inside
  | next (condition : Option String)
  | closes
  | wrong

/-- A branch without a condition is the last one. -/
def commandEffect (lastBranch : Bool) (t : Token) : BranchEffect :=
  if t.kind = .command then
    if t.text = "endif" then .closes
    else if t.text = "else" then if lastBranch then .wrong else .next none
    else match elseIf? t.text.toList with
      | some condition => if lastBranch then .wrong else .next (some (String.ofList condition))
      | none => .inside
  else if endsScope t then .wrong
  else .inside

def markerEffect (lastBranch : Bool) (t : Token) : BranchEffect :=
  if t.kind = .text then
    match marker? t.text with
    | some .closes => .closes
    | some .otherwise => if lastBranch then .wrong else .next none
    | some (.elseIf condition) => if lastBranch then .wrong else .next (some condition)
    | _ => .inside
  else if t.kind = .option || endsScope t then .wrong
  else .inside

namespace Spelling

def effect : Spelling → Bool → Token → BranchEffect
  | command => commandEffect
  | marker => markerEffect

def unclosed : Spelling → Token → ConditionalFault
  | command => .unclosedCommand
  | marker => .unclosedMarker

end Spelling

/-- Takes a token while statements are being read. -/
def BlockState.takePlain (s : BlockState) (t : Token) : Except ParseError BlockState :=
  if t.kind = .empty then .ok s
  else match s.frames with
  | [] => s.takeItem t
  | .indented outer :: frames =>
      if t.kind = .dedent then .ok { s with frames := frames, here := outer ++ s.here }
      else s.takeItem t
  | .choice outer done choice :: frames =>
      if t.kind = .dedent then
        .ok { s with
          frames := frames
          here := outer
          mode := .choices (done ++ [(choice, s.here)]) }
      else s.takeItem t
  | .onceIndented outer :: frames =>
      if t.kind = .dedent then
        .ok { s with frames := frames, here := outer, mode := .onceEnd s.here }
      else s.takeItem t
  | .once outer :: frames =>
      if isOnceEnd t then .ok { s with frames := frames, here := outer ++ [.once s.here] }
      else s.takeItem t
  | .branch outer spelling start done condition :: frames =>
      match spelling.effect condition.isNone t with
      | .inside => s.takeItem t
      | .next following =>
          let done := done ++ [(condition, s.here)]
          .ok { s with
            frames := .branch outer spelling start done following :: frames
            here := [] }
      | .closes =>
          .ok { s with
            frames := frames
            here := outer ++ [.conditional (done ++ [(condition, s.here)])] }
      | .wrong => .error ⟨start.position, .unmatchedConditional (spelling.unclosed t)⟩

/-- Takes a settled token. -/
def BlockState.take (s : BlockState) (t : Token) : Except ParseError BlockState :=
  match s.mode with
  | .plain => s.takePlain t
  | .choiceHead done choice => .ok (s.enter (.choice s.here done choice))
  | .choices done =>
      if t.kind = .option then .ok { s with mode := .choiceHead done (choiceOf t.text) } else .ok s
  | .onceHead => .ok (s.enter (.onceIndented s.here))
  | .onceEnd body => if t.kind = .empty then .ok s else .ok (s.add (.once body))
  | .enumeration e => do
      match ← e.take t with
      | .more e => .ok { s with mode := .enumeration e }
      | .closed e =>
          let s := { s with enums := s.enums ++ [e.definition] }
          .ok (s.endEnum e.definition e.depth)
  | .enumerationEnd enum depth =>
      if t.kind = .empty then .ok s else .ok (s.endEnum enum (depth - 1))

/-- The state after one more token of a body. -/
def BlockState.step (s : BlockState) (t : Token) : Except ParseError BlockState :=
  (s.settle t).take t

/-- The whole body, at the token that ends the node or the input. -/
def BlockState.finish (s : BlockState) (t : Token) : Except ParseError (Body × List Enumeration) :=
  let s := s.settle t
  match s.mode with
  | .enumeration e => do
      let _ ← e.take t
      .error (.unexpected "statement" t)
  | _ =>
      match s.frames with
      | [] =>
          if t.kind = .nodeEnd then .ok (s.here, s.enums) else .error (.unexpected "'==='" t)
      | .branch _ spelling start _ _ :: _ =>
          .error ⟨start.position, .unmatchedConditional (spelling.unclosed t)⟩
      | _ :: _ =>
          if t.kind = .eof then .error (.unexpected "dedent" t)
          else .error (.unexpected "statement" t)

end Dialogue.Script
