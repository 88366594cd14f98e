import Dialogue.Script.Document

set_option autoImplicit false

namespace Dialogue.Script

open Dialogue.Text

def Position.unlined (p : Position) : Position :=
  { p with line := 0 }

def Token.unlined (t : Token) : Token :=
  { t with position := t.position.unlined }

def BlockFault.unlined : BlockFault → BlockFault
  | .foreignToken found => .foreignToken found.unlined
  | fault => fault

def ConditionalFault.unlined : ConditionalFault → ConditionalFault
  | .unclosedCommand found => .unclosedCommand found.unlined
  | .unclosedMarker found => .unclosedMarker found.unlined
  | fault => fault

def ParseCause.unlined : ParseCause → ParseCause
  | .missingTitle => .missingTitle
  | .unexpectedToken expected found => .unexpectedToken expected found.unlined
  | .malformedBlock fault => .malformedBlock fault.unlined
  | .unmatchedConditional fault => .unmatchedConditional fault.unlined

def ParseError.unlined (e : ParseError) : ParseError :=
  ⟨e.position.unlined, e.cause.unlined⟩

def OpenEnum.unlined (e : OpenEnum) : OpenEnum :=
  { e with start := e.start.unlined }

def OpenEnum.Progress.unlined : OpenEnum.Progress → OpenEnum.Progress
  | .more e => .more e.unlined
  | .closed e => .closed e.unlined

def Frame.unlined : Frame → Frame
  | .branch outer spelling start done condition =>
      .branch outer spelling start.unlined done condition
  | frame => frame

def Mode.unlined : Mode → Mode
  | .enumeration e => .enumeration e.unlined
  | mode => mode

def BlockState.unlined (s : BlockState) : BlockState :=
  { s with frames := s.frames.map Frame.unlined, mode := s.mode.unlined }

def NodeHead.unlined (h : NodeHead) : NodeHead :=
  { h with start := h.start.unlined }

def DocumentMode.unlined : DocumentMode → DocumentMode
  | .between => .between
  | .enumeration e => .enumeration e.unlined
  | .enumerationEnd depth => .enumerationEnd depth
  | .header head => .header head.unlined
  | .headerValue head key => .headerValue head.unlined key
  | .css head parts => .css head.unlined parts
  | .cssValue head parts key => .cssValue head.unlined parts key
  | .body head title block => .body head.unlined title block.unlined
  | .finished => .finished

def Node.unlined (n : Node) : Node :=
  { n with line := 0 }

def DocumentState.unlined (s : DocumentState) : DocumentState :=
  { s with mode := s.mode.unlined, nodes := s.nodes.map Node.unlined }

def Document.unlined (d : Document) : Document :=
  { d with nodes := d.nodes.map Node.unlined }

/-- An outcome of reading without its line numbers; `forget` takes them from the result. -/
def unlinedOutcome {α : Type} (forget : α → α) : Except ParseError α → Except ParseError α
  | .ok a => .ok (forget a)
  | .error e => .error e.unlined

/-- Both sides of a choice may be treated apart. -/
theorem ite_commutes {α β : Type} {c : Prop} [Decidable c] (f : α → β) {a b : α} {a' b' : β}
    (yes : f a = a') (no : f b = b') : f (if c then a else b) = if c then a' else b' := by
  rw [apply_ite f, yes, no]

section

variable {α β : Type} (forget : α → α) (forgetNext : β → β)

@[simp] theorem unlinedOutcome_ok (a : α) : unlinedOutcome forget (.ok a) = .ok (forget a) := rfl

@[simp] theorem unlinedOutcome_error (e : ParseError) :
    unlinedOutcome forget (.error e) = .error e.unlined := rfl

theorem unlinedOutcome_bind {x : Except ParseError α} {f g : α → Except ParseError β}
    (commutes : ∀ a, unlinedOutcome forgetNext (f a) = g (forget a)) :
    unlinedOutcome forgetNext (x >>= f) = unlinedOutcome forget x >>= g := by
  cases x with
  | error e => rfl
  | ok a => exact commutes a

end

section

variable (s : BlockState) (t : Token) (e : OpenEnum)

@[simp] theorem Token.unlined_kind : t.unlined.kind = t.kind := rfl

@[simp] theorem Token.unlined_text : t.unlined.text = t.text := rfl

@[simp] theorem Token.unlined_position : t.unlined.position = t.position.unlined := rfl

@[simp] theorem endsScope_unlined : endsScope t.unlined = endsScope t := rfl

@[simp] theorem isOnceEnd_unlined : isOnceEnd t.unlined = isOnceEnd t := rfl

@[simp] theorem Spelling.effect_unlined (spelling : Spelling) (last : Bool) :
    spelling.effect last t.unlined = spelling.effect last t := by
  cases spelling <;> rfl

@[simp] theorem Spelling.unclosed_unlined (spelling : Spelling) :
    spelling.unclosed t.unlined = (spelling.unclosed t).unlined := by
  cases spelling <;> rfl

@[simp] theorem ParseError.unlined_unexpected (expected : String) :
    (ParseError.unexpected expected t).unlined = .unexpected expected t.unlined := rfl

theorem OpenEnum.begin_unlined (name : List Char) :
    unlinedOutcome OpenEnum.unlined (OpenEnum.begin t name) = OpenEnum.begin t.unlined name := by
  unfold OpenEnum.begin
  split <;> rfl

theorem OpenEnum.take_unlined :
    unlinedOutcome OpenEnum.Progress.unlined (e.take t) = e.unlined.take t.unlined := by
  unfold OpenEnum.take
  simp only [Token.unlined_kind, Token.unlined_text]
  split
  · rfl
  · rfl
  · exact ite_commutes _ rfl rfl
  · refine ite_commutes _ rfl ?_
    split <;> rfl
  · rfl
  · rfl

@[simp] theorem BlockState.unlined_add (statement : Statement) :
    (s.add statement).unlined = s.unlined.add statement := rfl

@[simp] theorem BlockState.unlined_enter (frame : Frame) :
    (s.enter frame).unlined = s.unlined.enter frame.unlined := rfl

theorem closeOnces_unlined (frames : List Frame) (here : Body) :
    closeOnces (frames.map Frame.unlined) here =
      ((closeOnces frames here).1.map Frame.unlined, (closeOnces frames here).2) := by
  induction frames generalizing here with
  | nil => rfl
  | cons frame frames ih =>
      cases frame with
      | once outer => exact ih _
      | _ => rfl

theorem BlockState.settleChoices_unlined (done : List (Choice × Body)) :
    (s.settleChoices t done).unlined = s.unlined.settleChoices t.unlined done := by
  unfold BlockState.settleChoices
  exact ite_commutes _ rfl rfl

theorem BlockState.settleMode_unlined :
    (s.settleMode t).unlined = s.unlined.settleMode t.unlined := by
  obtain ⟨frames, here, mode, enums⟩ := s
  cases mode with
  | plain => rfl
  | enumeration e => rfl
  | choiceHead done choice =>
      exact ite_commutes _ rfl (settleChoices_unlined _ _ _)
  | choices done => exact settleChoices_unlined _ _ _
  | onceHead =>
      exact ite_commutes _ rfl rfl
  | onceEnd body =>
      exact ite_commutes _ rfl rfl
  | enumerationEnd enum depth =>
      exact ite_commutes _ rfl rfl

theorem BlockState.settle_unlined : (s.settle t).unlined = s.unlined.settle t.unlined := by
  unfold BlockState.settle
  rw [← settleMode_unlined]
  generalize s.settleMode t = settled
  obtain ⟨frames, here, mode, enums⟩ := settled
  cases mode with
  | plain =>
      simp only [BlockState.unlined, Mode.unlined, endsScope_unlined, closeOnces_unlined]
      split <;> rfl
  | _ => rfl

theorem BlockState.takeCommand_unlined :
    unlinedOutcome BlockState.unlined (s.takeCommand t) = s.unlined.takeCommand t.unlined := by
  unfold BlockState.takeCommand
  simp only [Token.unlined_text]
  split
  · rfl
  split
  · rfl
  refine ite_commutes _ rfl ?_
  split
  · rfl
  refine ite_commutes _ rfl (ite_commutes _ rfl ?_)
  split
  · rw [← OpenEnum.begin_unlined]
    exact unlinedOutcome_bind _ _ fun _ => rfl
  · exact ite_commutes _ rfl (ite_commutes _ rfl (ite_commutes _ rfl rfl))

theorem BlockState.takeText_unlined :
    unlinedOutcome BlockState.unlined (s.takeText t) = s.unlined.takeText t.unlined := by
  unfold BlockState.takeText
  simp only [Token.unlined_text]
  split <;> rfl

theorem BlockState.takeItem_unlined :
    unlinedOutcome BlockState.unlined (s.takeItem t) = s.unlined.takeItem t.unlined := by
  unfold BlockState.takeItem
  simp only [Token.unlined_kind]
  split
  · rfl
  · rfl
  · exact takeCommand_unlined s t
  · exact takeText_unlined s t
  · rfl

theorem BlockState.takePlain_unlined :
    unlinedOutcome BlockState.unlined (s.takePlain t) = s.unlined.takePlain t.unlined := by
  obtain ⟨frames, here, mode, enums⟩ := s
  unfold BlockState.takePlain
  simp only [Token.unlined_kind]
  refine ite_commutes _ rfl ?_
  have item := takeItem_unlined ⟨frames, here, mode, enums⟩ t
  cases frames with
  | nil => exact item
  | cons frame frames =>
      cases frame with
      | branch outer spelling start done condition =>
          simp only [BlockState.unlined, List.map_cons, Frame.unlined, Spelling.effect_unlined]
          split
          · exact item
          · rfl
          · rfl
          · simp [ParseError.unlined, ParseCause.unlined]
      | once outer =>
          exact ite_commutes _ rfl item
      | _ =>
          exact ite_commutes _ rfl item

theorem BlockState.endEnum_unlined (enum : Enumeration) (depth : Nat) :
    (s.endEnum enum depth).unlined = s.unlined.endEnum enum depth := by
  unfold BlockState.endEnum
  split <;> rfl

theorem BlockState.take_unlined :
    unlinedOutcome BlockState.unlined (s.take t) = s.unlined.take t.unlined := by
  obtain ⟨frames, here, mode, enums⟩ := s
  cases mode with
  | plain => exact takePlain_unlined _ t
  | choiceHead done choice => rfl
  | onceHead => rfl
  | choices done =>
      exact ite_commutes _ rfl rfl
  | onceEnd body =>
      exact ite_commutes _ rfl rfl
  | enumeration e =>
      change unlinedOutcome _ (e.take t >>= _) = e.unlined.take t.unlined >>= _
      rw [← OpenEnum.take_unlined]
      refine unlinedOutcome_bind _ _ fun progress => ?_
      cases progress with
      | more e => rfl
      | closed e => exact congrArg Except.ok (endEnum_unlined _ _ _)
  | enumerationEnd enum depth =>
      exact ite_commutes _ rfl (congrArg Except.ok (endEnum_unlined _ _ _))

theorem BlockState.step_unlined :
    unlinedOutcome BlockState.unlined (s.step t) = s.unlined.step t.unlined := by
  unfold BlockState.step
  rw [take_unlined, settle_unlined]

theorem BlockState.finish_unlined :
    unlinedOutcome id (s.finish t) = s.unlined.finish t.unlined := by
  unfold BlockState.finish
  simp only [Token.unlined_kind]
  rw [← settle_unlined]
  generalize s.settle t = settled
  obtain ⟨frames, here, mode, enums⟩ := settled
  cases mode with
  | enumeration e =>
      change unlinedOutcome _ (e.take t >>= _) = e.unlined.take t.unlined >>= _
      rw [← OpenEnum.take_unlined]
      exact unlinedOutcome_bind _ _ fun _ => rfl
  | _ =>
      cases frames with
      | nil =>
          exact ite_commutes _ rfl rfl
      | cons frame frames =>
          cases frame with
          | branch outer spelling start done condition =>
              simp [BlockState.unlined, Frame.unlined, Mode.unlined, ParseError.unlined,
                ParseCause.unlined]
          | _ =>
              exact ite_commutes _ rfl rfl

end

section

variable (head : NodeHead) (parts : List (List Char)) (t : Token)

theorem cssLine_unlined (line : List Char) :
    (cssLine head parts line).unlined = cssLine head.unlined parts line := by
  unfold cssLine
  split <;> rfl

theorem NodeHead.record_unlined (key value : String) :
    (head.record key value).unlined = head.unlined.record key value := by
  unfold NodeHead.record
  simp only
  split <;> simp only [NodeHead.unlined]

theorem afterHeader_unlined (key value : String) :
    (afterHeader head key value).unlined = afterHeader head.unlined key value := by
  unfold afterHeader
  simp only [← NodeHead.record_unlined]
  split
  · exact cssLine_unlined _ _ _
  · rfl

theorem takeHeader_unlined :
    unlinedOutcome DocumentMode.unlined (takeHeader head t) =
      takeHeader head.unlined t.unlined := by
  unfold takeHeader
  simp only [Token.unlined_kind]
  split
  · rfl
  · have same : head.unlined.title = head.title := rfl
    rw [same]
    cases head.title with
    | none => rfl
    | some title => exact ite_commutes _ rfl rfl
  · rfl
  · exact ite_commutes _ rfl rfl
  · rfl

theorem takeBetween_unlined :
    unlinedOutcome DocumentMode.unlined (takeBetween t) = takeBetween t.unlined := by
  unfold takeBetween
  simp only [Token.unlined_kind, Token.unlined_text]
  split
  · rfl
  · rfl
  · split
    · rw [← OpenEnum.begin_unlined]
      exact unlinedOutcome_bind _ _ fun _ => rfl
    · exact takeHeader_unlined _ t
  · exact takeHeader_unlined _ t

theorem takeCss_unlined :
    unlinedOutcome DocumentMode.unlined (takeCss head parts t) =
      takeCss head.unlined parts t.unlined := by
  unfold takeCss
  simp only [Token.unlined_kind, Token.unlined_text]
  split
  · rfl
  · exact congrArg Except.ok (cssLine_unlined _ _ _)
  · rfl
  · exact takeHeader_unlined _ t

theorem DocumentState.step_unlined (s : DocumentState) :
    unlinedOutcome DocumentState.unlined (s.step t) = s.unlined.step t.unlined := by
  obtain ⟨mode, enums, nodes⟩ := s
  cases mode with
  | finished => rfl
  | between =>
      change unlinedOutcome _ (takeBetween t >>= _) = takeBetween t.unlined >>= _
      rw [← takeBetween_unlined]
      exact unlinedOutcome_bind _ _ fun _ => rfl
  | enumeration e =>
      change unlinedOutcome _ (e.take t >>= _) = e.unlined.take t.unlined >>= _
      rw [← OpenEnum.take_unlined]
      refine unlinedOutcome_bind _ _ fun progress => ?_
      cases progress with
      | more e => rfl
      | closed e =>
          simp only [DocumentState.unlined, OpenEnum.Progress.unlined, OpenEnum.unlined,
            unlinedOutcome_ok]
          split <;> rfl
  | enumerationEnd depth =>
      refine ite_commutes _ rfl (ite_commutes _ ?_ ?_)
      · simp only [DocumentState.unlined, unlinedOutcome_ok]
        split <;> rfl
      · rw [← takeBetween_unlined]
        exact unlinedOutcome_bind _ _ fun _ => rfl
  | header head =>
      change unlinedOutcome _ (takeHeader head t >>= _) = takeHeader head.unlined t.unlined >>= _
      rw [← takeHeader_unlined]
      exact unlinedOutcome_bind _ _ fun _ => rfl
  | headerValue head key =>
      refine ite_commutes _ ?_ rfl
      simp [DocumentState.unlined, afterHeader_unlined]
  | css head parts =>
      change unlinedOutcome _ (takeCss head parts t >>= _) =
        takeCss head.unlined parts t.unlined >>= _
      rw [← takeCss_unlined]
      exact unlinedOutcome_bind _ _ fun _ => rfl
  | cssValue head parts key =>
      refine ite_commutes _ ?_ ?_
      · simp [DocumentState.unlined, cssLine_unlined]
      · rw [← takeCss_unlined]
        exact unlinedOutcome_bind _ _ fun _ => rfl
  | body head title block =>
      refine ite_commutes _ ?_ ?_
      · rw [← BlockState.finish_unlined]
        refine unlinedOutcome_bind _ _ fun finished => ?_
        simp [DocumentState.unlined, DocumentMode.unlined, NodeHead.node, Node.unlined,
          NodeHead.unlined, Position.unlined]
      · rw [← BlockState.step_unlined]
        exact unlinedOutcome_bind _ _ fun _ => rfl

end

theorem foldlM_unlined (tokens : List Token) (s : DocumentState) :
    unlinedOutcome DocumentState.unlined (tokens.foldlM DocumentState.step s) =
      (tokens.map Token.unlined).foldlM DocumentState.step s.unlined := by
  induction tokens generalizing s with
  | nil => rfl
  | cons t tokens ih =>
      rw [List.map_cons, List.foldlM_cons, List.foldlM_cons, ← DocumentState.step_unlined]
      exact unlinedOutcome_bind _ _ ih

/-- Reading commutes with forgetting the lines that tokens stand on. -/
theorem parseTokens_unlined (tokens : List Token) :
    unlinedOutcome Document.unlined (parseTokens tokens) =
      parseTokens (tokens.map Token.unlined) := by
  unfold parseTokens
  have folded := foldlM_unlined tokens .initial
  change _ = _ >>= _
  change _ = List.foldlM DocumentState.step .initial (tokens.map Token.unlined) at folded
  rw [← folded]
  exact unlinedOutcome_bind _ _ fun _ => rfl

end Dialogue.Script
