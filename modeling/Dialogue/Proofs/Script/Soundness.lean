import Dialogue.Proofs.Script.Definitions
import Dialogue.Proofs.Script.Reading

set_option autoImplicit false

namespace Dialogue.Script

/-- The sections that have ended, and the one that has begun. -/
structure Sections where
  done : List (List Token)
  current : Option (List Token)

namespace Sections

def initial : Sections :=
  ⟨[], none⟩

def step (s : Sections) (t : Token) : Sections :=
  match s.current with
  | none => if t.kind = .nodeStart then { s with current := some [] } else s
  | some section_ =>
      if t.kind = .nodeEnd then ⟨s.done ++ [section_], none⟩
      else { s with current := some (section_ ++ t.content) }

end Sections

/-- The content tokens of each body, in order. -/
def sections (tokens : List Token) : List (List Token) :=
  let s := tokens.foldl Sections.step .initial
  s.done ++ s.current.toList

/-- The mode stands outside of bodies, and more tokens are due. -/
def DocumentMode.Outside : DocumentMode → Prop
  | .body _ _ _ | .finished => False
  | _ => True

/-- A token outside of bodies starts a body, stays outside, or is the end of input. -/
def Leads (t : Token) (mode : DocumentMode) : Prop :=
  (t.kind = .nodeStart ∧ ∃ head title, mode = .body head title .initial) ∨
    (t.kind ≠ .nodeStart ∧ mode.Outside) ∨ (t.kind = .eof ∧ mode = .finished)

section

variable {t : Token} {mode : DocumentMode}

theorem takeHeader_leads {head : NodeHead} (ok : takeHeader head t = .ok mode) : Leads t mode := by
  unfold takeHeader at ok
  split at ok
  · rename_i kind
    obtain rfl := Except.ok.inj ok
    exact .inr (.inl ⟨by simp [kind], trivial⟩)
  · rename_i kind
    split at ok
    · rename_i title titled
      split at ok
      · cases ok
      · obtain rfl := Except.ok.inj ok
        exact .inl ⟨kind, head, title, rfl⟩
    · cases ok
  · rename_i kind
    obtain rfl := Except.ok.inj ok
    exact .inr (.inl ⟨by simp [kind], trivial⟩)
  · split at ok <;> cases ok
  · cases ok

theorem takeBetween_leads (ok : takeBetween t = .ok mode) : Leads t mode := by
  unfold takeBetween at ok
  split at ok
  · rename_i kind
    obtain rfl := Except.ok.inj ok
    exact .inr (.inl ⟨by simp [kind], trivial⟩)
  · rename_i kind
    exact .inr (.inr ⟨kind, (Except.ok.inj ok).symm⟩)
  · rename_i kind
    split at ok
    · rename_i name enum
      cases begun : OpenEnum.begin t name with
      | error cause => simp [begun, bind, Except.bind] at ok
      | ok e =>
          simp only [begun, bind, Except.bind] at ok
          obtain rfl := Except.ok.inj ok
          exact .inr (.inl ⟨by simp [kind], trivial⟩)
    · exact takeHeader_leads ok
  · exact takeHeader_leads ok

theorem cssLine_outside (head : NodeHead) (parts : List (List Char)) (line : List Char) :
    (cssLine head parts line).Outside := by
  unfold cssLine
  split <;> trivial

theorem takeCss_leads {head : NodeHead} {parts : List (List Char)}
    (ok : takeCss head parts t = .ok mode) : Leads t mode := by
  unfold takeCss at ok
  split at ok
  · rename_i kind
    obtain rfl := Except.ok.inj ok
    exact .inr (.inl ⟨by simp [kind], trivial⟩)
  · rename_i kind
    obtain rfl := Except.ok.inj ok
    exact .inr (.inl ⟨by simp [kind], cssLine_outside _ _ _⟩)
  · rename_i kind
    obtain rfl := Except.ok.inj ok
    exact .inr (.inl ⟨by simp [kind], trivial⟩)
  · exact takeHeader_leads ok

theorem afterHeader_outside (head : NodeHead) (key value : String) :
    (afterHeader head key value).Outside := by
  unfold afterHeader
  simp only
  split
  · exact cssLine_outside _ _ _
  · trivial

theorem enum_take_kind {e : OpenEnum} {progress : OpenEnum.Progress}
    (ok : e.take t = .ok progress) :
    t.kind ≠ .nodeStart := by
  intro kind
  simp [OpenEnum.take, kind] at ok

end

/-- The sections spell the bodies that have been read. -/
structure DocumentReads (s : DocumentState) (sections : Sections) : Prop where
  bodies : List.Forall₂ Spells sections.done (s.nodes.map Node.body)
  current : (s.mode.Outside ∧ sections.current = none) ∨
    ∃ head title block tokens, s.mode = .body head title block ∧
      sections.current = some tokens ∧ Reads block tokens ∧ block.definitions = block.enums
  enums : (s.nodes.flatMap fun node => bodyDefinitions node.body).Sublist s.enums

section

variable {s after : DocumentState} {t : Token}

/-- Outside of bodies a token changes no node and drops no enumeration. -/
theorem step_outside (outside : s.mode.Outside) (ok : s.step t = .ok after) :
    Leads t after.mode ∧ after.nodes = s.nodes ∧ s.enums <+: after.enums := by
  unfold DocumentState.step at ok
  cases mode_eq : s.mode with
  | finished => simp [mode_eq, DocumentMode.Outside] at outside
  | body head title block => simp [mode_eq, DocumentMode.Outside] at outside
  | between =>
      rw [mode_eq] at ok
      obtain ⟨mode, taken, rest⟩ := bind_ok ok
      obtain rfl := Except.ok.inj rest
      exact ⟨takeBetween_leads taken, rfl, List.prefix_refl _⟩
  | enumeration e =>
      rw [mode_eq] at ok
      obtain ⟨progress, taken, rest⟩ := bind_ok ok
      cases progress with
      | more e =>
          obtain rfl := Except.ok.inj rest
          exact ⟨.inr (.inl ⟨enum_take_kind taken, trivial⟩), rfl, List.prefix_refl _⟩
      | closed e =>
          obtain rfl := Except.ok.inj rest
          refine ⟨.inr (.inl ⟨enum_take_kind taken, ?_⟩), rfl, List.prefix_append _ _⟩
          simp only
          split <;> trivial
  | enumerationEnd depth =>
      rw [mode_eq] at ok
      simp only at ok
      split at ok
      · rename_i kind
        obtain rfl := Except.ok.inj ok
        exact ⟨.inr (.inl ⟨by simp [kind], outside⟩), rfl, List.prefix_refl _⟩
      split at ok
      · rename_i kind
        obtain rfl := Except.ok.inj ok
        refine ⟨.inr (.inl ⟨by simp [kind], ?_⟩), rfl, List.prefix_refl _⟩
        simp only
        split <;> trivial
      · obtain ⟨mode, taken, rest⟩ := bind_ok ok
        obtain rfl := Except.ok.inj rest
        exact ⟨takeBetween_leads taken, rfl, List.prefix_refl _⟩
  | header head =>
      rw [mode_eq] at ok
      obtain ⟨mode, taken, rest⟩ := bind_ok ok
      obtain rfl := Except.ok.inj rest
      exact ⟨takeHeader_leads taken, rfl, List.prefix_refl _⟩
  | headerValue head key =>
      rw [mode_eq] at ok
      simp only at ok
      split at ok
      · rename_i kind
        obtain rfl := Except.ok.inj ok
        exact ⟨.inr (.inl ⟨by simp [kind], afterHeader_outside _ _ _⟩), rfl, List.prefix_refl _⟩
      · cases ok
  | css head parts =>
      rw [mode_eq] at ok
      obtain ⟨mode, taken, rest⟩ := bind_ok ok
      obtain rfl := Except.ok.inj rest
      exact ⟨takeCss_leads taken, rfl, List.prefix_refl _⟩
  | cssValue head parts key =>
      rw [mode_eq] at ok
      simp only at ok
      split at ok
      · rename_i kind
        obtain rfl := Except.ok.inj ok
        exact ⟨.inr (.inl ⟨by simp [kind], cssLine_outside _ _ _⟩), rfl, List.prefix_refl _⟩
      · obtain ⟨mode, taken, rest⟩ := bind_ok ok
        obtain rfl := Except.ok.inj rest
        exact ⟨takeCss_leads taken, rfl, List.prefix_refl _⟩

/-- Inside of a body a token either ends it or is a step of it. -/
theorem step_body {head : NodeHead} {title : String} {block : BlockState}
    (inside : s.mode = .body head title block) (ok : s.step t = .ok after) :
    (t.kind = .nodeEnd ∧ ∃ body enums, block.finish t = .ok (body, enums) ∧
      after = ⟨.between, s.enums ++ enums, s.nodes ++ [head.node title body]⟩) ∨
    (t.kind ≠ .nodeEnd ∧ t.kind ≠ .eof ∧ ∃ next, block.step t = .ok next ∧
      after = { s with mode := .body head title next }) := by
  unfold DocumentState.step at ok
  rw [inside] at ok
  simp only at ok
  split at ok
  · obtain ⟨⟨body, enums⟩, finished, rest⟩ := bind_ok ok
    obtain rfl := Except.ok.inj rest
    exact .inl ⟨(finish_ok finished).1, body, enums, finished, rfl⟩
  · rename_i other
    simp only [Bool.or_eq_true, decide_eq_true_eq, not_or] at other
    obtain ⟨next, taken, rest⟩ := bind_ok ok
    obtain rfl := Except.ok.inj rest
    exact .inr ⟨other.1, other.2, next, taken, rfl⟩

/-- Every token of a line leaves the sections in step with the bodies. -/
theorem step_documentReads {sections : Sections} (line : t.OfLine)
    (reads : DocumentReads s sections) (ok : s.step t = .ok after) :
    DocumentReads after (sections.step t) := by
  rcases reads.current with
    ⟨outside, idle⟩ | ⟨head, title, block, tokens, inside, open_, spelled, same⟩
  · obtain ⟨leads, nodes, grown⟩ := step_outside outside ok
    have bodies := reads.bodies
    have enums := reads.enums.trans grown.sublist
    rw [← nodes] at bodies enums
    unfold Sections.step
    rw [idle]
    rcases leads with ⟨kind, head, title, mode⟩ | ⟨kind, mode⟩ | ⟨eof, -⟩
    · simp only [kind, if_true]
      refine ⟨bodies, .inr ⟨head, title, .initial, [], mode, rfl, ?_, rfl⟩, enums⟩
      exact ⟨[], [], .nil, .plain .nil, rfl⟩
    · simp only [kind, if_false]
      exact ⟨bodies, .inl ⟨mode, idle⟩, enums⟩
    · exact absurd eof line.1
  · unfold Sections.step
    rw [open_]
    rcases step_body inside ok with ⟨kind, body, enums, finished, rfl⟩ | ⟨kind, -, next, taken, rfl⟩
    · simp only [kind, if_true]
      refine ⟨?_, .inl ⟨trivial, rfl⟩, ?_⟩
      · rw [List.map_append]
        exact List.rel_append reads.bodies (.cons (finish_spells spelled finished) .nil)
      · rw [List.flatMap_append]
        refine reads.enums.append ?_
        simp [NodeHead.node, BlockState.finish_definitions same finished]
    · simp only [kind, if_false]
      refine ⟨reads.bodies, .inr ⟨head, title, next, _, rfl, rfl, ?_, ?_⟩, reads.enums⟩
      · exact step_reads line.2 spelled taken
      · obtain ⟨new, statements, listed⟩ := BlockState.step_defines line.2 taken
        rw [statements, listed, same]

theorem run_documentReads {sections : Sections} {tokens : List Token}
    (lines : ∀ t ∈ tokens, t.OfLine) (reads : DocumentReads s sections)
    (ok : tokens.foldlM DocumentState.step s = .ok after) :
    DocumentReads after (tokens.foldl Sections.step sections) := by
  induction tokens generalizing s sections with
  | nil =>
      obtain rfl := Except.ok.inj ok
      exact reads
  | cons t tokens ih =>
      obtain ⟨first, others⟩ := List.forall_mem_cons.mp lines
      obtain ⟨next, taken, rest⟩ := bind_ok ok
      exact ih others (step_documentReads first reads taken) rest

end

theorem parseTokens_snoc {tokens : List Token} {last : Token} {document : Document}
    (ok : parseTokens (tokens ++ [last]) = .ok document) :
    ∃ s final, tokens.foldlM DocumentState.step .initial = .ok s ∧ s.step last = .ok final ∧
      document = ⟨final.enums, final.nodes⟩ := by
  unfold parseTokens at ok
  obtain ⟨final, folded, result⟩ := bind_ok ok
  rw [List.foldlM_append] at folded
  obtain ⟨s, before, rest⟩ := bind_ok folded
  obtain ⟨after, stepped, rest⟩ := bind_ok rest
  obtain rfl := Except.ok.inj rest
  exact ⟨s, after, before, stepped, (Except.ok.inj result).symm⟩

/-- Nothing is lost, repeated or moved: the content tokens of each body of a script that is accepted
spell the statements of that body, and the enumerations of the bodies are among those of the
document, in order. -/
theorem sections_spell_bodies {source : String} {document : Document}
    (accepted : parse source = .ok document) :
    List.Forall₂ Spells (sections (lex source)) (document.nodes.map Node.body) ∧
      (document.nodes.flatMap fun node => bodyDefinitions node.body).Sublist document.enums := by
  obtain ⟨tokens, last, lexed, eof, lines⟩ := lex_ends source
  unfold parse at accepted
  rw [lexed] at accepted ⊢
  obtain ⟨s, final, before, stepped, rfl⟩ := parseTokens_snoc accepted
  have initial : DocumentReads .initial .initial := ⟨.nil, .inl ⟨trivial, rfl⟩, .slnil⟩
  have reads := run_documentReads lines initial before
  rcases reads.current with ⟨outside, idle⟩ | ⟨head, title, block, _, inside, -⟩
  · obtain ⟨-, nodes, grown⟩ := step_outside outside stepped
    have ended : sections (tokens ++ [last]) = (tokens.foldl Sections.step .initial).done := by
      simp [sections, Sections.step, idle, eof]
    rw [ended, nodes]
    exact ⟨reads.bodies, reads.enums.trans grown.sublist⟩
  · -- A body that the input breaks off is not accepted.
    rcases step_body inside stepped with ⟨kind, -⟩ | ⟨-, other, -⟩
    · rw [eof] at kind
      cases kind
    · exact absurd eof other

/-- A script with a group of options, a conditional inside of it, an enumeration that is indented,
and a once block without a closer. -/
def bazaar : String :=
  "title: Bazaar\n---\n<<enum Coin>>\n  <<case Gold>>\n<<endenum>>\n-> Buy <<if $rich>>\n" ++
    "  <<if $late>>\n  Closed.\n  <<else>>\n  <<once>>\n    Ada: Take it. #sold\n  <<endif>>\n" ++
    "-> Leave\n<<jump End>>\n==="

theorem bazaar_spelled : ∃ document, parse bazaar = .ok document ∧
    List.Forall₂ Spells (sections (lex bazaar)) (document.nodes.map Node.body) ∧
      (document.nodes.flatMap fun node => bodyDefinitions node.body).Sublist document.enums := by
  have accepted : (parse bazaar).isOk = true := by decide +kernel
  cases outcome : parse bazaar with
  | error cause => simp [outcome, Except.isOk, Except.toBool] at accepted
  | ok document => exact ⟨document, rfl, sections_spell_bodies outcome⟩

end Dialogue.Script
