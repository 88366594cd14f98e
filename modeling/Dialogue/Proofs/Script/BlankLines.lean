import Dialogue.Proofs.Script.Soundness
import Dialogue.Proofs.Script.Unlined

set_option autoImplicit false

namespace Dialogue.Script

open Dialogue.Text

/-- Whether the lines behind a line are part of a body. -/
def inBodyBehind (inBody : Bool) (raw : List Char) : Bool :=
  let mark := trimEnd (raw.dropWhile isMargin)
  if mark = ['-', '-', '-'] then true
  else if mark = ['=', '=', '='] then false
  else inBody

/-- The second lines are the first without some of the blank lines inside of bodies. -/
inductive Thinned : Bool → List (List Char) → List (List Char) → Prop
  | nil {inBody : Bool} : Thinned inBody [] []
  | keep {inBody : Bool} {raw : List Char} {lines shorter : List (List Char)}
      (others : Thinned (inBodyBehind inBody raw) lines shorter) :
      Thinned inBody (raw :: lines) (raw :: shorter)
  | drop {raw : List Char} {lines shorter : List (List Char)} (blank : raw.all isBlank)
      (others : Thinned true lines shorter) : Thinned true (raw :: lines) shorter

/-- Whether indentation directly behind a token holds a block of the statement that it starts. -/
def Token.isHead (t : Token) : Bool :=
  t.kind = .option || t.kind = .command && t.text = "once"

/-- How often indentation stands directly behind the head of a block. -/
def attached (behindHead : Bool) : List Token → Nat
  | [] => 0
  | t :: tokens => (if behindHead && t.kind = .indent then 1 else 0) + attached t.isHead tokens

def Token.inBodyBehind (inBody : Bool) (t : Token) : Bool :=
  if t.kind = .nodeStart then true
  else if t.kind = .nodeEnd then false
  else inBody

/-- The second tokens are the first without some of the blank lines inside of bodies. -/
inductive Elides : Bool → List Token → List Token → Prop
  | nil {inBody : Bool} : Elides inBody [] []
  | keep {inBody : Bool} {t : Token} {tokens shorter : List Token}
      (others : Elides (t.inBodyBehind inBody) tokens shorter) :
      Elides inBody (t :: tokens) (t :: shorter)
  | drop {t : Token} {tokens shorter : List Token} (kind : t.kind = .empty)
      (others : Elides true tokens shorter) : Elides true (t :: tokens) shorter

theorem Elides.append {line tokens shorter : List Token} {inBody : Bool}
    (elides : Elides (line.foldl Token.inBodyBehind inBody) tokens shorter) :
    Elides inBody (line ++ tokens) (line ++ shorter) := by
  induction line generalizing inBody with
  | nil => exact elides
  | cons t line ih => exact .keep (ih elides)

/-- Tokens that do not bound a body leave it open or closed. -/
theorem foldl_inBodyBehind {tokens : List Token} (inBody : Bool)
    (inner : ∀ t ∈ tokens, t.kind ≠ .nodeStart ∧ t.kind ≠ .nodeEnd) :
    tokens.foldl Token.inBodyBehind inBody = inBody := by
  induction tokens with
  | nil => rfl
  | cons t tokens ih =>
      obtain ⟨⟨start, stop⟩, others⟩ := List.forall_mem_cons.mp inner
      rw [List.foldl_cons, Token.inBodyBehind, if_neg start, if_neg stop, ih others]

theorem dedents_inner (count line : Nat) :
    ∀ t ∈ Layout.dedents count line, t.kind ≠ .nodeStart ∧ t.kind ≠ .nodeEnd := by
  intro t member
  rw [(List.mem_replicate.mp member).2]
  simp [Token.layout]

theorem indentTo_inner (levels : List Nat) (width line : Nat) :
    ∀ t ∈ (Layout.indentTo levels width line).1, t.kind ≠ .nodeStart ∧ t.kind ≠ .nodeEnd := by
  unfold Layout.indentTo
  split
  · simp [Token.layout]
  · exact dedents_inner _ _

theorem contentTokens_inner (inHeaders : Bool) (content : List Char) (line column : Nat) :
    ∀ t ∈ contentTokens inHeaders content line column,
      t.kind ≠ .nodeStart ∧ t.kind ≠ .nodeEnd := by
  unfold contentTokens
  split
  · simp
  · split
    · simp
    · split <;> simp

theorem all_isBlank_dropWhile (raw : List Char) :
    (raw.dropWhile isMargin).all isBlank = raw.all isBlank := by
  induction raw with
  | nil => rfl
  | cons c raw ih =>
      rw [List.dropWhile_cons]
      split
      · rename_i margin
        rw [ih, List.all_cons, isBlank_of_isMargin margin, Bool.true_and]
      · rfl

theorem trimEnd_eq_nil {cs : List Char} (blank : cs.all isBlank) : trimEnd cs = [] := by
  simpa [trimEnd, List.dropWhile_eq_nil_iff] using blank

/-- The tokens of a line and the line itself agree on where bodies lie. -/
theorem lexLine_inBody (inHeaders : Bool) (levels : List Nat) (line : Nat) (raw : List Char) :
    (lexLine ⟨inHeaders, levels⟩ line raw).1.foldl Token.inBodyBehind (!inHeaders) =
        inBodyBehind (!inHeaders) raw ∧
      (lexLine ⟨inHeaders, levels⟩ line raw).2.inHeaders = !inBodyBehind (!inHeaders) raw := by
  have shifted : ∀ width,
      ∀ t ∈ (if inHeaders then ([], levels) else Layout.indentTo levels width line).1,
        t.kind ≠ .nodeStart ∧ t.kind ≠ .nodeEnd := by
    intro width
    split
    · simp
    · exact indentTo_inner _ _ _
  unfold lexLine inBodyBehind
  simp only
  split
  · rename_i blank
    simp [trimEnd_eq_nil blank, Token.inBodyBehind, Token.layout]
  split
  · rw [List.foldl_append, foldl_inBodyBehind _ (shifted _)]
    exact ⟨rfl, rfl⟩
  split
  · rw [List.foldl_append, List.foldl_append, foldl_inBodyBehind _ (shifted _),
      foldl_inBodyBehind _ (dedents_inner _ _)]
    exact ⟨rfl, rfl⟩
  · rw [List.foldl_append, foldl_inBodyBehind _ (shifted _),
      foldl_inBodyBehind _ (contentTokens_inner _ _ _ _)]
    exact ⟨rfl, by simp⟩

theorem indentTo_unlined (levels : List Nat) (width n m : Nat) :
    (Layout.indentTo levels width n).1.map Token.unlined =
        (Layout.indentTo levels width m).1.map Token.unlined ∧
      (Layout.indentTo levels width n).2 = (Layout.indentTo levels width m).2 := by
  unfold Layout.indentTo
  split
  · exact ⟨rfl, rfl⟩
  · refine ⟨?_, rfl⟩
    simp only [Layout.dedents, List.map_replicate]
    rfl

theorem contentTokens_unlined (inHeaders : Bool) (content : List Char) (n m column : Nat) :
    (contentTokens inHeaders content n column).map Token.unlined =
      (contentTokens inHeaders content m column).map Token.unlined := by
  unfold contentTokens
  split
  · rfl
  · split
    · rfl
    · split <;> rfl

/-- The number of a line decides only the lines of its tokens. -/
theorem lexLine_unlined (layout : Layout) (n m : Nat) (raw : List Char) :
    (lexLine layout n raw).1.map Token.unlined = (lexLine layout m raw).1.map Token.unlined ∧
      (lexLine layout n raw).2 = (lexLine layout m raw).2 := by
  have shifted : ∀ width,
      (if layout.inHeaders then ([], layout.levels)
          else Layout.indentTo layout.levels width n).1.map Token.unlined =
        (if layout.inHeaders then ([], layout.levels)
          else Layout.indentTo layout.levels width m).1.map Token.unlined ∧
      (if layout.inHeaders then ([], layout.levels)
          else Layout.indentTo layout.levels width n).2 =
        (if layout.inHeaders then ([], layout.levels)
          else Layout.indentTo layout.levels width m).2 := by
    intro width
    split
    · exact ⟨rfl, rfl⟩
    · exact indentTo_unlined _ _ _ _
  unfold lexLine
  simp only [(shifted _).2]
  split
  · exact ⟨rfl, rfl⟩
  split
  · rw [List.map_append, List.map_append, (shifted _).1]
    exact ⟨rfl, rfl⟩
  split
  · simp only [List.map_append, (shifted _).1, Layout.dedents, List.map_replicate]
    exact ⟨rfl, trivial⟩
  · rw [List.map_append, List.map_append, (shifted _).1, contentTokens_unlined _ _ n m]
    exact ⟨rfl, rfl⟩

theorem Elides.refl (inBody : Bool) (tokens : List Token) : Elides inBody tokens tokens := by
  induction tokens generalizing inBody with
  | nil => exact .nil
  | cons t tokens ih => exact .keep (ih _)

theorem lexLines_elides {inBody : Bool} {lines shorter : List (List Char)}
    (thinned : Thinned inBody lines shorter) (levels : List Nat) (n m : Nat) :
    Elides inBody ((lexLines ⟨!inBody, levels⟩ n lines).map Token.unlined)
      ((lexLines ⟨!inBody, levels⟩ m shorter).map Token.unlined) := by
  induction thinned generalizing levels n m with
  | nil =>
      simp only [lexLines, Layout.dedents, List.map_append, List.map_replicate]
      exact .refl _ _
  | @keep inBody raw lines shorter others ih =>
      obtain ⟨tokens, behind⟩ := lexLine_inBody (!inBody) levels n raw
      obtain ⟨sameTokens, sameLayout⟩ := lexLine_unlined ⟨!inBody, levels⟩ n m raw
      rw [Bool.not_not] at tokens behind
      rw [lexLines_cons, lexLines_cons, List.map_append, List.map_append, ← sameTokens,
        ← sameLayout]
      generalize lexLine ⟨!inBody, levels⟩ n raw = line at tokens behind
      obtain ⟨first, inHeaders, levels⟩ := line
      obtain rfl : inHeaders = !inBodyBehind inBody raw := behind
      refine .append ?_
      rw [List.foldl_map]
      change Elides (first.foldl Token.inBodyBehind inBody) _ _
      rw [show first.foldl Token.inBodyBehind inBody = inBodyBehind inBody raw from tokens]
      exact ih levels (n + 1) (m + 1)
  | drop blank others ih =>
      rename_i raw lines shorter
      have empty : lexLine ⟨!true, levels⟩ n raw = ([.layout .empty n], ⟨!true, levels⟩) := by
        simp only [lexLine, all_isBlank_dropWhile, blank, if_true]
      rw [lexLines_cons, empty]
      exact .drop rfl (ih levels (n + 1) m)

/-- Whether indentation would belong to the statement that was just begun. -/
def BlockState.AtHead (s : BlockState) : Prop :=
  match s.mode with
  | .choiceHead _ _ | .onceHead => True
  | _ => False

namespace BlockState

variable {s after : BlockState} {t : Token}

theorem ease_eq (other : ¬ s.AtHead) : s.ease = s := by
  obtain ⟨frames, here, mode, enums⟩ := s
  cases mode with
  | choiceHead done choice => exact absurd trivial other
  | onceHead => exact absurd trivial other
  | _ => rfl

theorem ease_not_atHead (s : BlockState) : ¬ s.ease.AtHead := by
  obtain ⟨frames, here, mode, enums⟩ := s
  cases mode <;> exact id

theorem step_empty (s : BlockState) (kind : t.kind = .empty) : s.step t = .ok s.ease := by
  obtain ⟨frames, here, mode, enums⟩ := s
  cases mode <;>
    simp [step, settle, settleMode, settleChoices, take, takePlain, enter, ease, endsScope, kind,
      OpenEnum.take, bind, Except.bind]

theorem takeItem_atHead (tidy : t.Tidy) (ok : s.takeItem t = .ok after)
    (atHead : after.AtHead) : t.isHead = true := by
  unfold takeItem at ok
  split at ok
  · rename_i kind
    simp [Token.isHead, kind]
  · obtain rfl := Except.ok.inj ok
    exact absurd atHead id
  · rename_i kind
    rcases takeCommand_ok tidy kind ok with
      ⟨_, -, -, rfl⟩ | ⟨_, -, rfl⟩ | ⟨⟨-, text⟩, -⟩ | ⟨_, -, -, rfl⟩
    · exact absurd atHead id
    · exact absurd atHead id
    · simp [Token.isHead, kind, text]
    · exact absurd atHead id
  · unfold takeText at ok
    split at ok
    · obtain rfl := Except.ok.inj ok
      exact absurd atHead id
    · cases ok
    · obtain rfl := Except.ok.inj ok
      exact absurd atHead id
  · cases ok

theorem endEnum_not_atHead (s : BlockState) (enum : Enumeration) (depth : Nat) :
    ¬ (s.endEnum enum depth).AtHead := by
  unfold endEnum
  split <;> exact id

/-- Only a head is directly behind a head. -/
theorem step_atHead (tidy : t.Tidy) (ok : s.step t = .ok after) (atHead : after.AtHead) :
    t.isHead = true := by
  unfold step at ok
  generalize s.settle t = settled at ok
  obtain ⟨frames, here, mode, enums⟩ := settled
  cases mode with
  | plain =>
      rcases takePlain_ok ok with ⟨-, rfl⟩ | taken | closing
      · exact absurd atHead id
      · exact takeItem_atHead tidy taken atHead
      · cases closing <;> exact absurd atHead id
  | choiceHead done choice =>
      obtain rfl := Except.ok.inj ok
      exact absurd atHead id
  | choices done =>
      simp only [take] at ok
      split at ok
      · rename_i kind
        simp [Token.isHead, kind]
      · obtain rfl := Except.ok.inj ok
        exact absurd atHead id
  | onceHead =>
      obtain rfl := Except.ok.inj ok
      exact absurd atHead id
  | onceEnd body =>
      simp only [take] at ok
      split at ok <;>
      · obtain rfl := Except.ok.inj ok
        exact absurd atHead id
  | enumeration e =>
      obtain ⟨progress, -, rest⟩ := bind_ok ok
      cases progress with
      | more e =>
          obtain rfl := Except.ok.inj rest
          exact absurd atHead id
      | closed e =>
          obtain rfl := Except.ok.inj rest
          exact absurd atHead (endEnum_not_atHead _ _ _)
  | enumerationEnd enum depth =>
      simp only [take] at ok
      split at ok
      · obtain rfl := Except.ok.inj ok
        exact absurd atHead id
      · obtain rfl := Except.ok.inj ok
        exact absurd atHead (endEnum_not_atHead _ _ _)

end BlockState

namespace DocumentState

def AtHead (s : DocumentState) : Prop :=
  match s.mode with
  | .body _ _ block => block.AtHead
  | _ => False

def ease (s : DocumentState) : DocumentState :=
  match s.mode with
  | .body head title block => { s with mode := .body head title block.ease }
  | _ => s

variable {s after : DocumentState} {t : Token}

theorem ease_eq (other : ¬ s.AtHead) : s.ease = s := by
  obtain ⟨mode, enums, nodes⟩ := s
  cases mode with
  | body head title block =>
      have same : block.ease = block := BlockState.ease_eq other
      simp [ease, same]
  | _ => rfl

theorem ease_not_atHead (s : DocumentState) : ¬ s.ease.AtHead := by
  obtain ⟨mode, enums, nodes⟩ := s
  cases mode with
  | body head title block => exact BlockState.ease_not_atHead block
  | _ => exact id

@[simp] theorem ease_ease (s : DocumentState) : s.ease.ease = s.ease :=
  ease_eq (ease_not_atHead s)

theorem step_empty (inside : ¬ s.mode.Outside) (kind : t.kind = .empty) :
    s.step t = .ok s.ease := by
  obtain ⟨mode, enums, nodes⟩ := s
  cases mode with
  | body head title block =>
      simp [step, ease, kind, BlockState.step_empty block kind, bind, Except.bind, pure,
        Except.pure]
  | finished => rfl
  | _ => exact absurd trivial inside

theorem step_ease (s : DocumentState) (kind : t.kind ≠ .indent) : s.ease.step t = s.step t := by
  obtain ⟨mode, enums, nodes⟩ := s
  cases mode with
  | body head title block =>
      simp only [step, ease, BlockState.step_ease block kind, BlockState.finish_ease block kind]
  | _ => rfl

/-- A mode is outside of bodies, in a body, or at the end. -/
theorem mode_cases (s : DocumentState) :
    s.mode.Outside ∨ (∃ head title block, s.mode = .body head title block) ∨
      s.mode = .finished := by
  cases s.mode with
  | body head title block => exact .inr (.inl ⟨head, title, block, rfl⟩)
  | finished => exact .inr (.inr rfl)
  | _ => exact .inl trivial

theorem step_finished (finished : s.mode = .finished) : s.step t = .ok s := by
  simp [step, finished]

theorem outside_not_atHead (outside : s.mode.Outside) : ¬ s.AtHead := by
  unfold AtHead
  split
  · rename_i inside
    simp [inside, DocumentMode.Outside] at outside
  · exact id

theorem step_atHead (tidy : t.Tidy) (ok : s.step t = .ok after) (atHead : after.AtHead) :
    t.isHead = true := by
  rcases mode_cases s with outside | ⟨head, title, block, inside⟩ | finished
  · obtain ⟨leads, -, -⟩ := step_outside outside ok
    rcases leads with ⟨-, head, title, mode⟩ | ⟨-, mode⟩ | ⟨-, mode⟩
    · simp [AtHead, mode, BlockState.AtHead, BlockState.initial] at atHead
    · exact absurd atHead (outside_not_atHead mode)
    · simp [AtHead, mode] at atHead
  · rcases step_body inside ok with ⟨-, _, _, -, rfl⟩ | ⟨-, -, next, taken, rfl⟩
    · exact absurd atHead id
    · exact BlockState.step_atHead tidy taken atHead
  · rw [step_finished finished] at ok
    obtain rfl := Except.ok.inj ok
    simp [AtHead, finished] at atHead

/-- Tokens and states agree on where bodies lie. -/
theorem step_inside {inBody : Bool} (inside : inBody = true → ¬ s.mode.Outside)
    (ok : s.step t = .ok after) : t.inBodyBehind inBody = true → ¬ after.mode.Outside := by
  intro behind
  rcases mode_cases s with outside | ⟨head, title, block, within⟩ | finished
  · obtain ⟨leads, -, -⟩ := step_outside outside ok
    have start : t.kind = .nodeStart := by
      by_contra other
      have closed : inBody ≠ true := fun opened => inside opened outside
      simp [Token.inBodyBehind, other, closed] at behind
    rcases leads with ⟨-, head, title, mode⟩ | ⟨other, -⟩ | ⟨eof, -⟩
    · simp [mode, DocumentMode.Outside]
    · exact absurd start other
    · rw [start] at eof
      cases eof
  · rcases step_body within ok with ⟨stop, -⟩ | ⟨-, -, next, -, rfl⟩
    · simp [Token.inBodyBehind, stop] at behind
    · exact id
  · rw [step_finished finished] at ok
    obtain rfl := Except.ok.inj ok
    simp [finished, DocumentMode.Outside]

end DocumentState

theorem attached_empty {t : Token} (kind : t.kind = .empty) (behind : Bool) (tokens : List Token) :
    attached behind (t :: tokens) = attached false tokens := by
  simp [attached, Token.isHead, kind]

/-- Leaving out blank lines never parts indentation from a head. -/
theorem attached_le {inBody behind behind' : Bool} {tokens shorter : List Token}
    (elides : Elides inBody tokens shorter) (weaker : behind = true → behind' = true) :
    attached behind tokens ≤ attached behind' shorter := by
  induction elides generalizing behind behind' with
  | nil => exact Nat.le_refl _
  | @keep _ t _ _ others ih =>
      refine Nat.add_le_add ?_ (ih id)
      cases behind with
      | false => simp
      | true => rw [weaker rfl]
  | drop kind others ih =>
      rw [attached_empty kind]
      exact ih (fun never => absurd never (by simp))

/-- Reading goes the same way with and without the blank lines. Behind a blank line that was left
out the states may differ, until the next token, in whether they wait for indentation. -/
theorem foldlM_elides {inBody behind behind' : Bool} {tokens shorter : List Token}
    {s s' : DocumentState} (elides : Elides inBody tokens shorter)
    (tidy : ∀ t ∈ shorter, t.Tidy) (inside : inBody = true → ¬ s'.mode.Outside)
    (heads : s'.AtHead → behind' = true)
    (state : s = s' ∧ behind = behind' ∨ s = s'.ease ∧ behind = false)
    (same : attached behind' shorter = attached behind tokens) :
    (tokens.foldlM DocumentState.step s).map DocumentState.ease =
      (shorter.foldlM DocumentState.step s').map DocumentState.ease := by
  induction elides generalizing s s' behind behind' with
  | nil =>
      rcases state with ⟨rfl, -⟩ | ⟨rfl, -⟩
      · rfl
      · exact congrArg Except.ok (DocumentState.ease_ease s')
  | @keep inBody t tokens shorter others ih =>
      obtain ⟨first, rest⟩ := List.forall_mem_cons.mp tidy
      have tail := attached_le others (fun head : t.isHead = true => head)
      -- The states agree on this token: either they are the same, or it is no indentation.
      have stepped : s.step t = s'.step t ∧
          attached t.isHead shorter = attached t.isHead tokens := by
        simp only [attached] at same
        rcases state with ⟨rfl, rfl⟩ | ⟨rfl, rfl⟩
        · exact ⟨rfl, by omega⟩
        · simp only [Bool.false_and, Bool.false_eq_true, if_false] at same
          refine ⟨?_, by omega⟩
          by_cases kind : t.kind = .indent
          · have notHead : ¬ s'.AtHead := by
              intro atHead
              simp only [heads atHead, kind, decide_true, Bool.and_self, if_true] at same
              omega
            rw [DocumentState.ease_eq notHead]
          · exact DocumentState.step_ease s' kind
      rw [List.foldlM_cons, List.foldlM_cons, stepped.1]
      cases outcome : s'.step t with
      | error e => rfl
      | ok next =>
          exact ih rest (DocumentState.step_inside inside outcome)
            (DocumentState.step_atHead first outcome) (.inl ⟨rfl, rfl⟩) stepped.2
  | @drop t tokens shorter kind others ih =>
      have eased : s.step t = .ok s'.ease := by
        rcases state with ⟨rfl, -⟩ | ⟨rfl, -⟩
        · exact DocumentState.step_empty (inside rfl) kind
        · rw [DocumentState.step_ease s' (by simp [kind])]
          exact DocumentState.step_empty (inside rfl) kind
      rw [attached_empty kind] at same
      rw [List.foldlM_cons, eased]
      exact ih tidy inside heads (.inr ⟨rfl, rfl⟩) same

theorem attached_unlined (behind : Bool) (tokens : List Token) :
    attached behind (tokens.map Token.unlined) = attached behind tokens := by
  induction tokens generalizing behind with
  | nil => rfl
  | cons t tokens ih =>
      rw [List.map_cons, attached, attached, ← ih t.isHead]
      rfl

theorem parseTokens_ease (tokens : List Token) :
    parseTokens tokens =
      ((tokens.foldlM DocumentState.step .initial).map DocumentState.ease).map
        fun s => ⟨s.enums, s.nodes⟩ := by
  unfold parseTokens
  cases tokens.foldlM DocumentState.step .initial with
  | error e => rfl
  | ok s =>
      obtain ⟨mode, enums, nodes⟩ := s
      cases mode <;> rfl

/-- Leaving out blank lines inside of bodies changes nothing but line numbers, unless it brings
indentation directly behind an option or a `<<once>>`. -/
theorem parse_thinned {source shorter : String}
    (thinned : Thinned false (sourceLines source) (sourceLines shorter))
    (apart : attached false (lex shorter) = attached false (lex source)) :
    unlinedOutcome Document.unlined (parse shorter) =
      unlinedOutcome Document.unlined (parse source) := by
  have elides : Elides false ((lex source).map Token.unlined) ((lex shorter).map Token.unlined) :=
    lexLines_elides thinned [] 1 1
  have tidy : ∀ t ∈ (lex shorter).map Token.unlined, t.Tidy := by
    intro t member
    obtain ⟨lined, lexed, rfl⟩ := List.mem_map.mp member
    exact lex_tidy shorter lined lexed
  have state : DocumentState.initial = .initial ∧ false = false ∨
      DocumentState.initial = DocumentState.initial.ease ∧ false = false := .inl ⟨rfl, rfl⟩
  rw [← attached_unlined, ← attached_unlined false (lex source)] at apart
  have folded := foldlM_elides elides tidy (by simp) (fun head => absurd head id) state apart
  unfold parse
  rw [parseTokens_unlined, parseTokens_unlined, parseTokens_ease, parseTokens_ease, folded]

/-- Blank lines between options, behind what they lead to, behind an opener and before a closer. -/
def spacious : String :=
  "title: Inn\n---\n-> Stay\n    Hello.\n\n\t\n-> Leave\n\n<<once>>\n\nRain.\n \n<<endonce>>\n==="

def compact : String :=
  "title: Inn\n---\n-> Stay\n    Hello.\n-> Leave\n<<once>>\nRain.\n<<endonce>>\n==="

theorem spacious_thinned :
    Thinned false (sourceLines spacious) (sourceLines compact) ∧
      attached false (lex compact) = attached false (lex spacious) ∧
      unlinedOutcome Document.unlined (parse compact) =
        unlinedOutcome Document.unlined (parse spacious) := by
  have thinned : Thinned false (sourceLines spacious) (sourceLines compact) := by
    have first : sourceLines spacious =
        ["title: Inn", "---", "-> Stay", "    Hello.", "", "\t", "-> Leave", "", "<<once>>", "",
          "Rain.", " ", "<<endonce>>", "==="].map String.toList := by decide +kernel
    have second : sourceLines compact =
        ["title: Inn", "---", "-> Stay", "    Hello.", "-> Leave", "<<once>>", "Rain.",
          "<<endonce>>", "==="].map String.toList := by decide +kernel
    rw [first, second]
    exact .keep (.keep (.keep (.keep (.drop rfl (.drop rfl (.keep (.drop rfl (.keep (.drop rfl
      (.keep (.drop rfl (.keep (.keep .nil)))))))))))))
  have apart : attached false (lex compact) = attached false (lex spacious) := by decide +kernel
  exact ⟨thinned, apart, parse_thinned thinned apart⟩

/-- A blank line between an option and what it leads to. -/
def parted : String :=
  "title: A\n---\n-> Yes\n\n    Great\n===\n"

def joined : String :=
  "title: A\n---\n-> Yes\n    Great\n===\n"

/-- Without the blank line the text belongs to the option; with it, it stands behind the group. -/
theorem parted_ne_joined :
    Thinned false (sourceLines parted) (sourceLines joined) ∧
      unlinedOutcome Document.unlined (parse joined) ≠
        unlinedOutcome Document.unlined (parse parted) := by
  constructor
  · have first : sourceLines parted =
        ["title: A", "---", "-> Yes", "", "    Great", "===", ""].map String.toList := by
      decide +kernel
    have second : sourceLines joined =
        ["title: A", "---", "-> Yes", "    Great", "===", ""].map String.toList := by
      decide +kernel
    rw [first, second]
    exact .keep (.keep (.keep (.drop rfl (.keep (.keep (.keep .nil))))))
  · intro same
    have lengths := congrArg (fun outcome =>
      outcome.toOption.map fun document => document.nodes.map fun node => node.body.length) same
    revert lengths
    decide +kernel

end Dialogue.Script
