import Dialogue.Proofs.Except
import Dialogue.Proofs.Script.Grammar
import Dialogue.Proofs.Script.Lexing

set_option autoImplicit false

namespace Dialogue.Script

open Dialogue.Text

section

variable {s after : BlockState} {t : Token}

theorem content_of_kind (kind : t.kind = .text ∨ t.kind = .option ∨ t.kind = .command) :
    t.content = [t] := by
  rcases kind with kind | kind | kind <;> simp [Token.content, Token.isContent, kind]

theorem Continues.content {spelling : Spelling} {condition : Option String}
    (continues : Continues spelling condition t) : t.content = [t] := by
  cases continues with
  | elseCommand reads => exact content_of_kind (.inr (.inr reads.1))
  | elseIfCommand kind reads => exact content_of_kind (.inr (.inr kind))
  | elseMarker kind reads => exact content_of_kind (.inl kind)
  | elseIfMarker kind reads => exact content_of_kind (.inl kind)

theorem Closes.content {spelling : Spelling} (closes : Closes spelling t) : t.content = [t] := by
  cases closes with
  | command reads => exact content_of_kind (.inr (.inr reads.1))
  | marker kind reads => exact content_of_kind (.inl kind)

/-- What a command that is taken comes to: a statement without blocks, or the head of one. -/
theorem takeCommand_ok (tidy : t.Tidy) (kind : t.kind = .command)
    (ok : s.takeCommand t = .ok after) :
    (∃ statement, SpellsOne [t] statement ∧ statement.definitions = [] ∧
      after = s.add statement) ∨
    (∃ condition, Opens .command condition t ∧
      after = s.enter (.branch s.here .command t [] (some condition))) ∨
    (IsCommand "once" t ∧ after = { s with mode := .onceHead }) ∨
    (∃ name, HasArgument "enum" name t ∧ name ≠ "" ∧
      after = { s with mode := .enumeration ⟨t, name, [], 0⟩ }) := by
  unfold BlockState.takeCommand at ok
  rw [tidy kind] at ok
  simp only at ok
  -- The alternatives are tried in the order in which they are taken.
  split at ok
  · rename_i target jump
    obtain rfl := Except.ok.inj ok
    exact .inl ⟨_, .jump ⟨kind, by simpa using jump⟩, by simp, rfl⟩
  rename_i noJump
  split at ok
  · rename_i target detour
    obtain rfl := Except.ok.inj ok
    exact .inl ⟨_, .detour ⟨kind, by simpa using detour⟩, by simp, rfl⟩
  rename_i noDetour
  split at ok
  · cases ok
  rename_i targeted
  split at ok
  · rename_i condition opens
    obtain rfl := Except.ok.inj ok
    exact .inr (.inl ⟨_, .command ⟨kind, by simpa using opens⟩, rfl⟩)
  rename_i noIf
  split at ok
  · cases ok
  rename_i conditioned
  split at ok
  · rename_i once
    obtain rfl := Except.ok.inj ok
    exact .inr (.inr (.inl ⟨⟨kind, String.toList_inj.mp once⟩, rfl⟩))
  rename_i notOnce
  split at ok
  · rename_i name enum
    unfold OpenEnum.begin at ok
    split at ok
    · cases ok
    · rename_i named
      obtain rfl := Except.ok.inj ok
      refine .inr (.inr (.inr ⟨String.ofList name, ⟨kind, by simpa using enum⟩, ?_, rfl⟩))
      rintro nameless
      simp [String.ofList_eq_empty_iff.mp nameless] at named
  rename_i noEnum
  split at ok
  · cases ok
  rename_i noBranch
  split at ok
  · cases ok
  rename_i notEnd
  split at ok
  · cases ok
  rename_i noCase
  obtain rfl := Except.ok.inj ok
  refine .inl ⟨.command t.text, .command kind ?_, by simp, by simp⟩
  simp only [isBranchCommand, Bool.or_eq_true, decide_eq_true_eq, not_or, Bool.not_eq_true,
    Option.isSome_eq_false_iff, Option.isNone_iff_eq_none] at targeted noBranch noCase
  have noElseIf : argument? "elseif" t.text.toList = none := by
    have none_of := noBranch.2
    unfold elseIf? at none_of
    cases found : argument? "elseif" t.text.toList <;> simp_all
  refine ⟨?_, ?_, noBranch.2⟩
  · simp only [bareKeywords, List.forall_mem_cons]
    exact ⟨targeted.1, targeted.2, conditioned, notOnce, noBranch.1.1, noBranch.1.2, notEnd,
      noCase.1, by simp⟩
  · simp only [argumentKeywords, List.forall_mem_cons]
    exact ⟨noJump, noDetour, noIf, noEnum, noElseIf, noCase.2, by simp⟩

/-- A token that ends a branch or begins the next one is of the kind that the spelling asks for. -/
theorem effect_next {spelling : Spelling} {last : Bool} {following : Option String}
    (effect : spelling.effect last t = .next following) : Continues spelling following t := by
  cases spelling with
  | command =>
      simp only [Spelling.effect, commandEffect] at effect
      split at effect
      · rename_i kind
        split at effect
        · cases effect
        · split at effect
          · rename_i text
            split at effect
            · cases effect
            · obtain rfl := BranchEffect.next.inj effect
              exact .elseCommand ⟨kind, text⟩
          · split at effect
            · rename_i condition reads
              split at effect
              · cases effect
              · obtain rfl := BranchEffect.next.inj effect
                exact .elseIfCommand kind (by simpa using reads)
            · cases effect
      · split at effect <;> cases effect
  | marker =>
      simp only [Spelling.effect, markerEffect] at effect
      split at effect
      · rename_i kind
        split at effect
        · cases effect
        · rename_i reads
          split at effect
          · cases effect
          · obtain rfl := BranchEffect.next.inj effect
            exact .elseMarker kind reads
        · rename_i condition reads
          split at effect
          · cases effect
          · obtain rfl := BranchEffect.next.inj effect
            exact .elseIfMarker kind reads
        · cases effect
      · split at effect <;> cases effect

theorem effect_closes {spelling : Spelling} {last : Bool}
    (effect : spelling.effect last t = .closes) : Closes spelling t := by
  cases spelling with
  | command =>
      simp only [Spelling.effect, commandEffect] at effect
      split at effect
      · rename_i kind
        split at effect
        · rename_i text
          exact .command ⟨kind, text⟩
        · repeat' split at effect
          all_goals cases effect
      · split at effect <;> cases effect
  | marker =>
      simp only [Spelling.effect, markerEffect] at effect
      split at effect
      · rename_i kind
        split at effect
        · rename_i reads
          exact .marker kind reads
        · split at effect <;> cases effect
        · split at effect <;> cases effect
        · cases effect
      · split at effect <;> cases effect

theorem isOnceEnd_iff : isOnceEnd t = true ↔ IsCommand "endonce" t := by
  simp [isOnceEnd, IsCommand]

/-- What a token does to the innermost open block if it belongs to its head. -/
inductive Closing (s : BlockState) (t : Token) : BlockState → Prop
  | indented {outer : Body} {frames : List Frame} (stack : s.frames = .indented outer :: frames)
      (kind : t.kind = .dedent) : Closing s t { s with frames := frames, here := outer ++ s.here }
  | choice {outer : Body} {done : List (Choice × Body)} {choice : Choice} {frames : List Frame}
      (stack : s.frames = .choice outer done choice :: frames) (kind : t.kind = .dedent) :
      Closing s t
        { s with frames := frames, here := outer, mode := .choices (done ++ [(choice, s.here)]) }
  | onceIndented {outer : Body} {frames : List Frame}
      (stack : s.frames = .onceIndented outer :: frames) (kind : t.kind = .dedent) :
      Closing s t { s with frames := frames, here := outer, mode := .onceEnd s.here }
  | once {outer : Body} {frames : List Frame} (stack : s.frames = .once outer :: frames)
      (closer : IsCommand "endonce" t) :
      Closing s t { s with frames := frames, here := outer ++ [.once s.here] }
  | next {outer : Body} {spelling : Spelling} {start : Token} {done : List (Option String × Body)}
      {condition following : Option String} {frames : List Frame}
      (stack : s.frames = .branch outer spelling start done condition :: frames)
      (continues : Continues spelling following t) :
      Closing s t
        { s with
          frames := .branch outer spelling start (done ++ [(condition, s.here)]) following :: frames
          here := [] }
  | conditional {outer : Body} {spelling : Spelling} {start : Token}
      {done : List (Option String × Body)} {condition : Option String} {frames : List Frame}
      (stack : s.frames = .branch outer spelling start done condition :: frames)
      (closes : Closes spelling t) :
      Closing s t
        { s with
          frames := frames
          here := outer ++ [.conditional (done ++ [(condition, s.here)])] }

/-- A token among statements is a blank line, starts a statement, or belongs to the head of the
innermost block. -/
theorem takePlain_ok (ok : s.takePlain t = .ok after) :
    (t.kind = .empty ∧ after = s) ∨ s.takeItem t = .ok after ∨ Closing s t after := by
  unfold BlockState.takePlain at ok
  split at ok
  · rename_i kind
    exact .inl ⟨kind, (Except.ok.inj ok).symm⟩
  refine .inr ?_
  split at ok
  · exact .inl ok
  · rename_i stack
    split at ok
    · rename_i kind
      obtain rfl := Except.ok.inj ok
      exact .inr (.indented stack kind)
    · exact .inl ok
  · rename_i stack
    split at ok
    · rename_i kind
      obtain rfl := Except.ok.inj ok
      exact .inr (.choice stack kind)
    · exact .inl ok
  · rename_i stack
    split at ok
    · rename_i kind
      obtain rfl := Except.ok.inj ok
      exact .inr (.onceIndented stack kind)
    · exact .inl ok
  · rename_i stack
    split at ok
    · rename_i closer
      obtain rfl := Except.ok.inj ok
      exact .inr (.once stack (isOnceEnd_iff.mp closer))
    · exact .inl ok
  · rename_i stack
    split at ok
    · exact .inl ok
    · rename_i effect
      obtain rfl := Except.ok.inj ok
      exact .inr (.next stack (effect_next effect))
    · rename_i effect
      obtain rfl := Except.ok.inj ok
      exact .inr (.conditional stack (effect_closes effect))
    · cases ok

/-- Taking a token of an enumeration either adds a case, ends it, or is layout. -/
theorem enum_take_ok {e : OpenEnum} {progress : OpenEnum.Progress} (ok : e.take t = .ok progress) :
    (∃ depth, t.content = [] ∧ progress = .more { e with depth := depth }) ∨
    (∃ case, HasArgument "case" case t ∧ progress = .more { e with cases := e.cases ++ [case] }) ∨
    (IsCommand "endenum" t ∧ progress = .closed e) := by
  unfold OpenEnum.take at ok
  simp only at ok
  split at ok
  · rename_i kind
    obtain rfl := Except.ok.inj ok
    exact .inl ⟨e.depth, by simp [Token.content, Token.isContent, kind], rfl⟩
  · rename_i kind
    obtain rfl := Except.ok.inj ok
    exact .inl ⟨_, by simp [Token.content, Token.isContent, kind], rfl⟩
  · rename_i kind
    split at ok
    · cases ok
    · obtain rfl := Except.ok.inj ok
      exact .inl ⟨_, by simp [Token.content, Token.isContent, kind], rfl⟩
  · rename_i kind
    split at ok
    · rename_i text
      obtain rfl := Except.ok.inj ok
      exact .inr (.inr ⟨⟨kind, text⟩, rfl⟩)
    · split at ok
      · rename_i case reads
        obtain rfl := Except.ok.inj ok
        exact .inr (.inl ⟨String.ofList case, ⟨kind, by simpa using reads⟩, rfl⟩)
      · cases ok
  · cases ok
  · cases ok

/-- The token belongs to what the mode holds. -/
def Mode.Suits (t : Token) : Mode → Prop
  | .plain | .enumeration _ => True
  | .choiceHead _ _ | .onceHead => t.kind = .indent
  | .choices _ => t.kind = .option ∨ t.kind = .empty
  | .onceEnd _ => t.kind = .empty ∨ IsCommand "endonce" t
  | .enumerationEnd _ _ => t.kind = .empty ∨ t.kind = .dedent

theorem settleChoices_suits (s : BlockState) (t : Token) (done : List (Choice × Body)) :
    (s.settleChoices t done).mode.Suits t := by
  unfold BlockState.settleChoices
  split
  · rename_i kind
    simpa [Mode.Suits] using kind
  · trivial

/-- Settling leaves every mode that the token does not belong to. -/
theorem settleMode_suits (s : BlockState) (t : Token) : (s.settleMode t).mode.Suits t := by
  unfold BlockState.settleMode
  split
  · rename_i mode_eq
    split
    · rename_i kind
      rw [mode_eq]
      exact kind
    · exact settleChoices_suits s t _
  · exact settleChoices_suits s t _
  · rename_i mode_eq
    split
    · rename_i kind
      rw [mode_eq]
      exact kind
    · trivial
  · rename_i mode_eq
    split
    · rename_i kind
      rw [mode_eq]
      simpa [Mode.Suits, isOnceEnd_iff] using kind
    · trivial
  · rename_i mode_eq
    split
    · rename_i kind
      rw [mode_eq]
      simpa [Mode.Suits] using kind
    · trivial
  · rename_i mode_eq
    rw [mode_eq]
    trivial
  · rename_i mode_eq
    rw [mode_eq]
    trivial

theorem settle_suits (s : BlockState) (t : Token) : (s.settle t).mode.Suits t := by
  have suits := settleMode_suits s t
  unfold BlockState.settle
  simp only
  split
  · rename_i plain
    split
    · rw [plain]
      trivial
    · exact suits
  · exact suits

/-- The end of a node belongs to no statement. -/
theorem plain_of_suits {mode : Mode} (kind : t.kind = .nodeEnd) (suits : mode.Suits t) :
    mode = .plain ∨ ∃ e, mode = .enumeration e := by
  cases mode with
  | plain => exact .inl rfl
  | enumeration e => exact .inr ⟨e, rfl⟩
  | _ => simp [Mode.Suits, IsCommand, kind] at suits

/-- A body is complete if nothing is open in it. -/
theorem finish_ok {body : Body} {enums : List Enumeration} (ok : s.finish t = .ok (body, enums)) :
    t.kind = .nodeEnd ∧ s.settle t = ⟨[], body, .plain, enums⟩ := by
  have suits := settle_suits s t
  unfold BlockState.finish at ok
  simp only at ok
  generalize s.settle t = settled at suits ok
  obtain ⟨frames, here, mode, listed⟩ := settled
  split at ok
  · obtain ⟨progress, -, ok⟩ := bind_ok ok
    cases ok
  · rename_i noEnum
    split at ok
    · rename_i closed
      split at ok
      · rename_i kind
        obtain ⟨rfl, rfl⟩ := Prod.mk.inj (Except.ok.inj ok)
        rcases plain_of_suits kind suits with plain | ⟨e, enum⟩
        · obtain rfl : frames = [] := closed
          obtain rfl : mode = .plain := plain
          exact ⟨kind, rfl⟩
        · exact absurd enum (noEnum e)
      · cases ok
    · cases ok
    · split at ok <;> cases ok

end

/-- The state in which a head that waits for indentation waits no longer. -/
def BlockState.ease (s : BlockState) : BlockState :=
  match s.mode with
  | .choiceHead done choice => { s with mode := .choices (done ++ [(choice, [])]) }
  | .onceHead => s.enter (.once s.here)
  | _ => s

namespace BlockState

variable {t : Token}

theorem settle_ease (s : BlockState) (kind : t.kind ≠ .indent) : s.ease.settle t = s.settle t := by
  obtain ⟨frames, here, mode, enums⟩ := s
  have same : ∀ mode, (⟨frames, here, mode, enums⟩ : BlockState).ease.settleMode t =
      (⟨frames, here, mode, enums⟩ : BlockState).settleMode t := by
    intro mode
    cases mode with
    | choiceHead done choice => simp [ease, settleMode, settleChoices, add, kind]
    | onceHead => simp [ease, settleMode, enter, kind]
    | _ => rfl
  simp only [settle, same]

theorem step_ease (s : BlockState) (kind : t.kind ≠ .indent) : s.ease.step t = s.step t := by
  rw [step, settle_ease s kind, step]

theorem finish_ease (s : BlockState) (kind : t.kind ≠ .indent) : s.ease.finish t = s.finish t := by
  simp only [finish, settle_ease s kind]

end BlockState

end Dialogue.Script
