import Dialogue.Script.Block

set_option autoImplicit false

namespace Dialogue.Script

open Dialogue.Text

/-- A node whose headers are being read. -/
structure NodeHead where
  start : Token
  headers : Table String
  title : Option String
  tags : List String
  conditions : List String
  css : Option String

namespace NodeHead

def begin (start : Token) : NodeHead :=
  ⟨start, .empty, none, [], [], none⟩

/-- Records a header. The value is kept as written; what it means is trimmed. -/
def record (h : NodeHead) (key value : String) : NodeHead :=
  let meaning := trimmed value
  let h := match key with
    | "title" => { h with title := some meaning }
    | "tags" => { h with tags := (words meaning.toList).map String.ofList }
    | "when" => { h with conditions := h.conditions ++ [meaning] }
    | _ => h
  { h with headers := h.headers.insert key value }

def missingTitle (h : NodeHead) : ParseError :=
  ⟨h.start.position, .missingTitle⟩

def node (h : NodeHead) (title : String) (body : Body) : Node :=
  ⟨title, h.headers, h.tags, h.conditions, h.css, body, h.start.position.line⟩

end NodeHead

/-- Where the reading of a document stands. -/
inductive DocumentMode where
  | between
  | enumeration (e : OpenEnum)
  | enumerationEnd (depth : Nat)
  | header (head : NodeHead)
  | headerValue (head : NodeHead) (key : String)
  /-- A style header runs over several lines; `parts` are the lines so far. -/
  | css (head : NodeHead) (parts : List (List Char))
  | cssValue (head : NodeHead) (parts : List (List Char)) (key : String)
  | body (head : NodeHead) (title : String) (block : BlockState)
  | finished

structure DocumentState where
  mode : DocumentMode
  enums : List Enumeration
  nodes : List Node

namespace DocumentState

def initial : DocumentState :=
  ⟨.between, [], []⟩

end DocumentState

/-- The style that lines of a style header spell; blank lines do not count. -/
def joinCss (parts : List (List Char)) : String :=
  let kept := parts.filter fun part => !part.all isBlank
  trimmed (join "\n" (kept.map String.ofList))

/-- Adds a line to a style header, which the first closing brace ends. -/
def cssLine (head : NodeHead) (parts : List (List Char)) (line : List Char) : DocumentMode :=
  match splitOnce '\x7d' line with
  | some (inside, _) => .header { head with css := some (joinCss (parts ++ [inside])) }
  | none => .css head (parts ++ [line])

/-- The mode after a header's value. -/
def afterHeader (head : NodeHead) (key value : String) : DocumentMode :=
  let head := head.record key value
  match after? cssOpen (trim value.toList) with
  | some rest => cssLine head [] rest
  | none => .header head

/-- Takes a token where a header or the start of the body is due. -/
def takeHeader (head : NodeHead) (t : Token) : Except ParseError DocumentMode :=
  match t.kind with
  | .empty => .ok (.header head)
  | .nodeStart =>
      match head.title with
      | some title =>
          if title.isEmpty then .error head.missingTitle else .ok (.body head title .initial)
      | none => .error head.missingTitle
  | .headerKey => .ok (.headerValue head t.text)
  | .eof =>
      if head.title.isNone && !head.headers.isEmpty then .error head.missingTitle
      else .error (.unexpected "node header or '---'" t)
  | _ => .error (.unexpected "node header or '---'" t)

/-- Takes a token between nodes. -/
def takeBetween (t : Token) : Except ParseError DocumentMode :=
  match t.kind with
  | .empty => .ok .between
  | .eof => .ok .finished
  | .command =>
      match argument? "enum" t.text.toList with
      | some name => return .enumeration (← OpenEnum.begin t name)
      | none => takeHeader (.begin t) t
  | _ => takeHeader (.begin t) t

/-- Takes a token of a style header that runs over several lines; another kind of token ends it. -/
def takeCss (head : NodeHead) (parts : List (List Char)) (t : Token) :
    Except ParseError DocumentMode :=
  match t.kind with
  | .empty => .ok (.css head parts)
  | .text => .ok (cssLine head parts t.text.toList)
  | .headerKey => .ok (.cssValue head parts t.text)
  | _ => takeHeader { head with css := some (joinCss parts) } t

/-- The state after one more token of a document. -/
def DocumentState.step (s : DocumentState) (t : Token) : Except ParseError DocumentState :=
  match s.mode with
  | .finished => .ok s
  | .between => return { s with mode := ← takeBetween t }
  | .enumeration e => do
      match ← e.take t with
      | .more e => .ok { s with mode := .enumeration e }
      | .closed e =>
          .ok { s with
            mode := if e.depth = 0 then .between else .enumerationEnd e.depth
            enums := s.enums ++ [e.definition] }
  | .enumerationEnd depth =>
      if t.kind = .empty then .ok s
      else if t.kind = .dedent then
        .ok { s with mode := if depth = 1 then .between else .enumerationEnd (depth - 1) }
      else return { s with mode := ← takeBetween t }
  | .header head => return { s with mode := ← takeHeader head t }
  | .headerValue head key =>
      if t.kind = .headerValue then .ok { s with mode := afterHeader head key t.text }
      else .error (.unexpected "header value" t)
  | .css head parts => return { s with mode := ← takeCss head parts t }
  | .cssValue head parts key =>
      if t.kind = .headerValue then
        .ok { s with mode := cssLine head parts (key ++ ": " ++ t.text).toList }
      else return { s with mode := ← takeCss head (parts ++ [(key ++ ": ").toList]) t }
  | .body head title block =>
      if t.kind = .nodeEnd || t.kind = .eof then do
        let (body, enums) ← block.finish t
        .ok ⟨.between, s.enums ++ enums, s.nodes ++ [head.node title body]⟩
      else return { s with mode := .body head title (← block.step t) }

/-- Reads tokens, the last of which is the end of input. -/
def parseTokens (tokens : List Token) : Except ParseError Document := do
  let s ← tokens.foldlM DocumentState.step .initial
  return ⟨s.enums, s.nodes⟩

/-- Reads a script. The first fault refuses the whole of it. -/
def parse (source : String) : Except ParseError Document :=
  parseTokens (lex source)

end Dialogue.Script
