import Dialogue.Script.Document

set_option autoImplicit false

namespace Dialogue.Script

open Dialogue.Text

/-- The tokens that have not been taken, and the enumerations met so far. -/
structure Cursor where
  rest : List Token
  enums : List Enumeration

/-- How a part of the descent ends. -/
inductive Outcome (α : Type) where
  | read (value : α) (left : Cursor)
  | refused (cause : ParseError)
  /-- It looked for a token behind the last one. -/
  | astray
  /-- The rounds that a loop is allowed, or the levels of nesting, did not suffice. -/
  | unfinished

/-- A part of the descent, which reads from a cursor. -/
def Descent (α : Type) : Type :=
  Cursor → Outcome α

namespace Outcome

/-- The document or the fault, if the descent came to one. -/
def result? {α : Type} : Outcome α → Option (Except ParseError α)
  | read value _ => some (.ok value)
  | refused cause => some (.error cause)
  | astray | unfinished => none

end Outcome

namespace Descent

instance : Monad Descent where
  pure value := fun c => .read value c
  bind first further := fun c =>
    match first c with
    | .read value left => further value left
    | .refused cause => .refused cause
    | .astray => .astray
    | .unfinished => .unfinished

variable {σ α : Type}

def refuse (cause : ParseError) : Descent α :=
  fun _ => .refused cause

def lift : Except ParseError α → Descent α
  | .ok value => pure value
  | .error cause => refuse cause

def peek : Descent Token := fun c =>
  match c.rest with
  | [] => .astray
  | t :: _ => .read t c

def next : Descent Token := fun c =>
  match c.rest with
  | [] => .astray
  | t :: rest => .read t { c with rest := rest }

/-- Takes blank lines up to a token of another kind. -/
def skipBlank : Descent Unit := fun c =>
  match c.rest.dropWhile fun t => t.kind = .empty with
  | [] => .astray
  | t :: rest => .read () { c with rest := t :: rest }

def expect (kind : TokenKind) (expected : String) : Descent Token := do
  let t ← peek
  if t.kind = kind then next else refuse (.unexpected expected t)

/-- Notes an enumeration. -/
def define (enum : Enumeration) : Descent Unit :=
  fun c => .read () { c with enums := c.enums ++ [enum] }

/-- What one round of a loop comes to. -/
inductive Round (σ α : Type) where
  | again (state : σ)
  | leave (value : α)

/-- Rounds from a state on, until one leaves the loop. -/
def loop (round : σ → Descent (Round σ α)) : Nat → σ → Descent α
  | 0, _ => fun _ => .unfinished
  | rounds + 1, state => do
      match ← round state with
      | .again state => loop round rounds state
      | .leave value => pure value

/-- The state holds the cases so far and the levels of indentation that are open. -/
def enumRound (start : Token) (name : String) (state : List String × Nat) :
    Descent (Round (List String × Nat) (List String × Nat)) := do
  let t ← next
  match ← lift (OpenEnum.take ⟨start, name, state.1, state.2⟩ t) with
  | .more e => pure (.again (e.cases, e.depth))
  | .closed e => pure (.leave (e.cases, e.depth))

/-- Closes the levels of indentation that an enumeration has left open. -/
def levelsRound (depth : Nat) : Descent (Round Nat Unit) :=
  if depth = 0 then pure (.leave ())
  else do
    skipBlank
    let t ← peek
    if t.kind = .dedent then do
      let _ ← next
      pure (.again (depth - 1))
    else pure (.leave ())

def enumBlock (rounds : Nat) (start : Token) (name : List Char) : Descent Enumeration := do
  let e ← lift (OpenEnum.begin start name)
  let (cases, depth) ← loop (enumRound start e.name) rounds (e.cases, e.depth)
  loop levelsRound rounds depth
  pure ⟨e.name, cases⟩

section

variable (item : Descent Body) (rounds : Nat)

/-- Statements up to a token that stops them, which is left. -/
def statementsRound (stops : Token → Bool) (out : Body) : Descent (Round Body Body) := do
  skipBlank
  let t ← peek
  if stops t then pure (.leave out)
  else do
    let more ← item
    pure (.again (out ++ more))

def statements (stops : Token → Bool) : Descent Body :=
  loop (statementsRound item stops) rounds []

/-- Stops at a kind of token, or where the input ends. -/
def endsAt (kind : TokenKind) (t : Token) : Bool :=
  t.kind = kind || t.kind = .eof

/-- Stops at some tokens, or where the block around ends. -/
def stopsAt (stop : Token → Bool) (t : Token) : Bool :=
  stop t || endsScope t

def indentedBlock : Descent Body := do
  let _ ← expect .indent "indentation"
  let body ← statements item rounds (endsAt .dedent)
  let _ ← expect .dedent "dedent"
  pure body

/-- The body of an option, if indentation stands directly behind it. -/
def optionBody : Descent Body := do
  let head ← peek
  if head.kind = .indent then indentedBlock item rounds else pure []

def optionRound (choices : List (Choice × Body)) :
    Descent (Round (List (Choice × Body)) Statement) := do
  let t ← peek
  if t.kind = .option then do
    let t ← next
    let body ← optionBody item rounds
    skipBlank
    pure (.again (choices ++ [(choiceOf t.text, body)]))
  else pure (.leave (.options choices))

def optionGroup : Descent Statement :=
  loop (optionRound item rounds) rounds []

/-- A command that goes on with a conditional or ends it. -/
def isBranch (t : Token) : Bool :=
  t.kind = .command && isBranchCommand t.text.toList

/-- The condition of the branch that a command begins. -/
def following? (lastBranch : Bool) (t : Token) : Option (Option String) :=
  if t.kind ≠ .command || lastBranch then none
  else if t.text = "else" then some none
  else (elseIf? t.text.toList).map fun condition => some (String.ofList condition)

/-- The state holds the branches so far, and whether the last of them has no condition. -/
def commandRound (start : Token) (state : List (Option String × Body) × Bool) :
    Descent (Round (List (Option String × Body) × Bool) Statement) := do
  skipBlank
  let t ← peek
  if t.kind = .command && t.text = "endif" then do
    let _ ← next
    pure (.leave (.conditional state.1))
  else
    match following? state.2 t with
    | none => refuse ⟨start.position, .unmatchedConditional (.unclosedCommand t)⟩
    | some condition => do
        let _ ← next
        let body ← statements item rounds (stopsAt isBranch)
        pure (.again (state.1 ++ [(condition, body)], condition.isNone))

def commandConditional (condition : String) (start : Token) : Descent Statement := do
  let body ← statements item rounds (stopsAt isBranch)
  loop (commandRound item rounds start) rounds ([(some condition, body)], false)

/-- An option, or a marker that goes on with a conditional or ends it. -/
def endsMarked (t : Token) : Bool :=
  t.kind = .option || (t.kind = .text &&
    match marker? t.text with
    | some (.opens _) | none => false
    | some _ => true)

/-- The state holds the branches before the current one, and its condition. -/
def markerRound (start : Token) (state : List (Option String × Body) × Option String) :
    Descent (Round (List (Option String × Body) × Option String) Statement) := do
  let body ← statements item rounds (stopsAt endsMarked)
  let branches := state.1 ++ [(state.2, body)]
  let t ← peek
  match if t.kind = .text then marker? t.text else none, state.2.isNone with
  | some .closes, _ => do
      let _ ← next
      pure (.leave (.conditional branches))
  | some (.elseIf condition), false => do
      let _ ← next
      pure (.again (branches, some condition))
  | some .otherwise, false => do
      let _ ← next
      pure (.again (branches, none))
  | _, _ => refuse ⟨start.position, .unmatchedConditional (.unclosedMarker t)⟩

def markerConditional (condition : String) (start : Token) : Descent Statement :=
  loop (markerRound item rounds start) rounds ([], some condition)

/-- The body of a once block, which is indented or ends at its closer. -/
def onceBody : Descent Body := do
  let head ← peek
  if head.kind = .indent then do
    let body ← indentedBlock item rounds
    skipBlank
    pure body
  else statements item rounds (stopsAt isOnceEnd)

def onceBlock : Descent Statement := do
  let body ← onceBody item rounds
  let t ← peek
  if isOnceEnd t then do
    let _ ← next
    pure (.once body)
  else pure (.once body)

/-- The statement of a command that has been taken. -/
def commandStatement (t : Token) : Descent Statement :=
  let text := trim t.text.toList
  let malformed (fault : BlockFault) : Descent Statement :=
    refuse ⟨t.position, .malformedBlock fault⟩
  match argument? "jump" text with
  | some target => pure (.jump (String.ofList target))
  | none =>
  match argument? "detour" text with
  | some target => pure (.detour (String.ofList target))
  | none =>
  if text = "jump".toList || text = "detour".toList then malformed .missingTarget
  else match argument? "if" text with
  | some condition => commandConditional item rounds (String.ofList condition) t
  | none =>
  if text = "if".toList then malformed .missingCondition
  else if text = "once".toList then onceBlock item rounds
  else match argument? "enum" text with
  | some name => do
      let enum ← enumBlock rounds t name
      define enum
      pure (.enumeration enum)
  | none =>
  if isBranchCommand t.text.toList then
    refuse ⟨t.position, .unmatchedConditional (.strayCommand (String.ofList text))⟩
  else if text = "endonce".toList then malformed .strayOnceEnd
  else if text = "endenum".toList || (argument? "case" text).isSome then malformed .strayCase
  else pure (.command (String.ofList text))

/-- The statement of a text line that has been taken. -/
def textStatement (t : Token) : Descent Statement :=
  match marker? t.text with
  | some (.opens condition) => markerConditional item rounds condition t
  | some _ => refuse ⟨t.position, .unmatchedConditional (.strayMarker (trimmed t.text))⟩
  | none => pure (.line (lineOf t.text))

def statement : Descent Statement := do
  let t ← peek
  match t.kind with
  | .command => do
      let t ← next
      commandStatement item rounds t
  | .text => do
      let t ← next
      textStatement item rounds t
  | _ => refuse (.unexpected "statement" t)

/-- One statement, or the statements of an indented block. -/
def itemStep : Descent Body := do
  let t ← peek
  match t.kind with
  | .option => do
      let group ← optionGroup item rounds
      pure [group]
  | .indent => indentedBlock item rounds
  | _ => do
      let one ← statement item rounds
      pure [one]

end

/-- What stands inside a loop, nested up to a depth. -/
def item (rounds : Nat) : Nat → Descent Body
  | 0 => fun _ => .unfinished
  | depth + 1 => itemStep (item rounds depth) rounds

/-- The lines of a style header with one more, which may be the last. -/
def cssPart (parts : List (List Char)) (line : List Char) :
    Round (List (List Char)) (List (List Char)) :=
  match splitOnce '\x7d' line with
  | some (inside, _) => .leave (parts ++ [inside])
  | none => .again (parts ++ [line])

def cssRound (parts : List (List Char)) :
    Descent (Round (List (List Char)) (List (List Char))) := do
  let t ← peek
  match t.kind with
  | .text => do
      let t ← next
      pure (cssPart parts t.text.toList)
  | .headerKey => do
      let key ← next
      let t ← peek
      if t.kind = .headerValue then do
        let value ← next
        pure (cssPart parts (key.text ++ ": " ++ value.text).toList)
      else pure (cssPart parts (key.text ++ ": ").toList)
  | .empty => do
      let _ ← next
      pure (.again parts)
  | _ => pure (.leave parts)

/-- The style of a header whose value starts one. -/
def cssHeader (rounds : Nat) (first : List Char) : Descent String :=
  match splitOnce '\x7d' first with
  | some (inside, _) => pure (trimmed (String.ofList inside))
  | none => do
      let parts ← loop cssRound rounds [first]
      pure (joinCss parts)

/-- A header with the style that its value starts, if it does. -/
def styled (rounds : Nat) (head : NodeHead) (value : List Char) : Descent NodeHead :=
  match after? cssOpen value with
  | some first => do
      let css ← cssHeader rounds first
      pure { head with css := some css }
  | none => pure head

def nodeRound (rounds : Nat) (start : Token) (head : NodeHead) :
    Descent (Round NodeHead NodeHead) := do
  let t ← peek
  if t.kind = .nodeStart then pure (.leave head)
  else if t.kind = .eof && head.title.isNone && !head.headers.isEmpty then
    refuse ⟨start.position, .missingTitle⟩
  else do
    let key ← expect .headerKey "node header or '---'"
    let value ← expect .headerValue "header value"
    let head ← styled rounds (head.record key.text value.text) (trim value.text.toList)
    skipBlank
    pure (.again head)

def node (item : Descent Body) (rounds : Nat) : Descent Node := do
  let start ← peek
  let head ← loop (nodeRound rounds start) rounds (.begin start)
  match head.title.filter fun title => !title.isEmpty with
  | none => refuse ⟨start.position, .missingTitle⟩
  | some title => do
      let _ ← expect .nodeStart "'---'"
      let body ← statements item rounds (endsAt .nodeEnd)
      let _ ← expect .nodeEnd "'==='"
      pure (head.node title body)

/-- The name of the enumeration that a token begins between nodes. -/
def enumName? (t : Token) : Option (List Char) :=
  if t.kind = .command then argument? "enum" t.text.toList else none

def documentRound (item : Descent Body) (rounds : Nat) (nodes : List Node) :
    Descent (Round (List Node) (List Node)) := do
  skipBlank
  let t ← peek
  if t.kind = .eof then pure (.leave nodes)
  else
    match enumName? t with
    | some name => do
        let t ← next
        let enum ← enumBlock rounds t name
        define enum
        pure (.again nodes)
    | none => do
        let node ← node item rounds
        pure (.again (nodes ++ [node]))

def document (item : Descent Body) (rounds : Nat) : Descent Document := do
  let nodes ← loop (documentRound item rounds) rounds []
  fun c => .read ⟨c.enums, nodes⟩ c

end Descent

/-- Reads a script by descent, where every loop may take as many rounds, and blocks may be nested as
deeply, as the limit says. -/
def descend (limit : Nat) (source : String) : Outcome Document :=
  Descent.document (Descent.item limit limit) limit ⟨lex source, []⟩

end Dialogue.Script
