import Dialogue.Proofs.Script.Tracking

set_option autoImplicit false

namespace Dialogue.Script

open Dialogue.Text

namespace Descent

/-- Loops are allowed more rounds than there are tokens, and levels of nesting at least as many. -/
structure Fits (rounds depth : Nat) (tokens : List Token) : Prop where
  rounds : tokens.length < rounds
  depth : tokens.length ≤ depth

section

variable {rounds depth : Nat} {t : Token} {tokens shorter : List Token}

theorem Fits.of_le (fits : Fits rounds depth tokens) (le : shorter.length ≤ tokens.length) :
    Fits rounds depth shorter :=
  ⟨Nat.lt_of_le_of_lt le fits.rounds, Nat.le_trans le fits.depth⟩

theorem Fits.tail (fits : Fits rounds (depth + 1) (t :: tokens)) : Fits rounds depth tokens :=
  ⟨Nat.lt_of_succ_lt fits.rounds, Nat.le_of_succ_le_succ fits.depth⟩

end

/-- A descent follows the reading in one pass through every item that starts at a token which
neither is blank nor stops the statements around. -/
def Follows (rounds depth : Nat) : Prop :=
  ∀ ⦃whole : Except ParseError DocumentState⦄ ⦃around : Around⦄ ⦃frames : List Frame⦄
    ⦃here : Body⦄ ⦃t : Token⦄ ⦃rest : List Token⦄ ⦃enums : List Enumeration⦄,
    t.kind ≠ .empty → stopOf frames t = false → Fits rounds depth (t :: rest) →
    Tracks whole around frames here .plain ⟨t :: rest, enums⟩ →
    (item rounds depth ⟨t :: rest, enums⟩).Meets False
      (fun body left => Tracks whole around frames (here ++ body) .plain left) (Refuses whole)

/-- At a token that stops the statements of the innermost block. -/
def Stopped (whole : Except ParseError DocumentState) (around : Around) (frames : List Frame)
    (here : Body) (c : Cursor) : Prop :=
  ∃ t rest enums, c = ⟨t :: rest, enums⟩ ∧ t.kind ≠ .empty ∧ stopOf frames t = true ∧
    Tracks whole around frames here .plain c

/-- Between the options of a group, at a token that is not blank. -/
def BetweenOptions (whole : Except ParseError DocumentState) (around : Around)
    (frames : List Frame) (here : Body) (choices : List (Choice × Body)) (c : Cursor) : Prop :=
  ∃ t rest enums, c = ⟨t :: rest, enums⟩ ∧ t.kind ≠ .empty ∧
    Tracks whole around frames here (.choices choices) c

/-- In a branch of a conditional, at the token that stops it. -/
def InBranch (whole : Except ParseError DocumentState) (around : Around) (frames : List Frame)
    (outer : Body) (start : Token) (state : List (Option String × Body) × Bool) (c : Cursor) :
    Prop :=
  ∃ branches condition body, state = (branches ++ [(condition, body)], condition.isNone) ∧
    Stopped whole around (.branch outer .command start branches condition :: frames) body c

/-- Behind the body of a once block, whose closer is not needed. -/
def BehindOnce (whole : Except ParseError DocumentState) (around : Around) (frames : List Frame)
    (here : Body) (c : Cursor) : Prop :=
  ∃ t rest enums, c = ⟨t :: rest, enums⟩ ∧
    Tracks whole around frames here .plain ⟨if isOnceEnd t then rest else t :: rest, enums⟩

section

variable {α : Type} {whole : Except ParseError DocumentState} {around : Around}
variable {frames : List Frame} {here outer : Body} {mode : Mode} {c : Cursor} {t start : Token}
variable {rest : List Token} {enums : List Enumeration} {rounds depth : Nat}
variable {done : α → Cursor → Prop}

theorem enumStatement_meets {name : List Char} (more : t.kind ≠ .nodeEnd ∧ t.kind ≠ .eof)
    (enough : rest.length < rounds)
    (step : ∀ inner, (⟨frames, here, .plain, inner⟩ : BlockState).step t = do
      let e ← OpenEnum.begin t name
      .ok ⟨frames, here, .enumeration e, inner⟩)
    (tracks : Tracks whole around frames here .plain ⟨t :: rest, enums⟩) :
    ((enumBlock rounds t name >>= fun enum => do
        define enum
        pure (.enumeration enum)) ⟨rest, enums⟩).Meets False
      (fun statement => Tracks whole around frames (here ++ [statement]) .plain)
      (Refuses whole) := by
  refine Outcome.meets_bind ?_
  cases begins : OpenEnum.begin t name with
  | error cause =>
      rw [enumBlock_refused begins]
      exact tracks.refused more fun inner => by rw [step, begins]; rfl
  | ok e =>
      obtain ⟨inner, held, reaches⟩ : Tracks whole around frames here (.enumeration e) _ :=
        tracks.step more fun inner => by rw [step, begins]; rfl
      refine (enumBlock_meets (hosts_body around frames here inner) begins enough reaches).imp
        (fun enum left ends => ?_) fun _ refused => refused
      exact ⟨inner ++ [enum], by rw [ends.1, ← List.append_assoc, ← held], ends.2⟩

variable (follows : Follows rounds depth)

include follows

theorem statementsRound_meets (out : Body) (fits : Fits rounds depth c.rest)
    (tracks : Tracks whole around frames (here ++ out) .plain c) :
    (statementsRound (item rounds depth) (stopOf frames) out c).Meets False
      (Round.Leaves (fun out left => Tracks whole around frames (here ++ out) .plain left)
        fun body left => Stopped whole around frames (here ++ body) left)
      (Refuses whole) := by
  refine tracks.skipBlank (fun _ => rfl) fun t rest filled le tracks => ?_
  rw [peek_bind]
  split
  · rename_i stops
    exact ⟨t, rest, c.enums, rfl, filled, stops, tracks⟩
  · rename_i goes
    have read := follows filled (Bool.eq_false_iff.mpr goes) (fits.of_le le) tracks
    refine Outcome.meets_then read fun body left _ tracks => ?_
    change Tracks whole around frames (here ++ (out ++ body)) .plain left
    rwa [← List.append_assoc]

theorem statements_meets (fits : Fits rounds depth c.rest)
    (tracks : Tracks whole around frames here .plain c) :
    (statements (item rounds depth) rounds (stopOf frames) c).Meets False
      (fun body left => Stopped whole around frames (here ++ body) left) (Refuses whole) := by
  refine loop_meets (fun out left => Tracks whole around frames (here ++ out) .plain left)
    ((allTight rounds depth).statements _) (Nat.le_refl _) fits.rounds ?_
    fun out left le tracks => statementsRound_meets follows out (fits.of_le le) tracks
  rwa [List.append_nil]

/-- What comes behind some statements starts at the token that stopped them. -/
theorem statements_then {f : Body → Descent α} (fits : Fits rounds depth c.rest)
    (tracks : Tracks whole around frames here .plain c)
    (further : ∀ body t rest enums, t.kind ≠ .empty → stopOf frames t = true →
      Fits rounds depth (t :: rest) →
      Tracks whole around frames (here ++ body) .plain ⟨t :: rest, enums⟩ →
      (f body ⟨t :: rest, enums⟩).Meets False done (Refuses whole)) :
    ((statements (item rounds depth) rounds (stopOf frames) >>= f) c).Meets False done
      (Refuses whole) := by
  have careful : Careful c.rest (fun _ => 0)
      (statements (item rounds depth) rounds (stopOf frames)) c :=
    statements_careful (item_careful rounds depth)
  refine careful.andThen (List.suffix_refl _) (statements_meets follows fits tracks)
    fun body left stopped takes => ?_
  obtain ⟨t, rest, enums, rfl, filled, stops, tracks⟩ := stopped
  exact further body t rest enums filled stops (fits.of_le takes.fewer) tracks

theorem indentedBlock_meets (frame : Frame) (after : Body → Body) (ended : Body → Mode)
    (indented : frame.IsIndented)
    (opens : ∀ inner, (⟨frames, here, mode, inner⟩ : BlockState).step t =
      .ok ⟨frame :: frames, [], .plain, inner⟩)
    (closes : ∀ inner body (t : Token), t.kind = .dedent →
      (⟨frame :: frames, body, .plain, inner⟩ : BlockState).step t =
        .ok ⟨frames, after body, ended body, inner⟩)
    (kind : t.kind = .indent) (fits : Fits rounds depth rest)
    (tracks : Tracks whole around frames here mode ⟨t :: rest, enums⟩) :
    (indentedBlock (item rounds depth) rounds ⟨t :: rest, enums⟩).Meets False
      (fun body left => Tracks whole around frames (after body) (ended body) left)
      (Refuses whole) := by
  have stop := indented.stopOf frames
  rw [indentedBlock, expect_bind kind, ← stop]
  refine statements_then follows fits (tracks.step (by simp [kind]) opens)
    fun body t rest enums filled stops _ tracks => ?_
  rw [List.nil_append] at tracks
  by_cases dedent : t.kind = .dedent
  · rw [expect_bind dedent]
    exact tracks.step (by simp [dedent]) fun inner => closes inner body t dedent
  · rw [expect_refused dedent]
    rw [stop, endsAt, Bool.or_eq_true, decide_eq_true_eq, decide_eq_true_eq] at stops
    have eof := stops.resolve_left dedent
    refine tracks.unfinished (.inr eof) fun inner => ?_
    cases frame with
    | branch => exact indented.elim
    | once => exact indented.elim
    | _ => simp [BlockState.finish, BlockState.settle, BlockState.settleMode, closeOnces, eof]

theorem optionBody_meets {choices : List (Choice × Body)} {choice : Choice}
    (fits : Fits rounds depth c.rest)
    (tracks : Tracks whole around frames here (.choiceHead choices choice) c) :
    (optionBody (item rounds depth) rounds c).Meets False
      (fun body left =>
        Tracks whole around frames here (.choices (choices ++ [(choice, body)])) left)
      (Refuses whole) := by
  obtain ⟨t, rest, shape⟩ := tracks.exists_cons
  rw [shape] at tracks fits ⊢
  rw [optionBody, peek_bind]
  split
  · rename_i indent
    exact indentedBlock_meets follows (.choice here choices choice) (fun _ => here)
      (fun body => .choices (choices ++ [(choice, body)])) trivial
      (fun _ => step_choice_indent indent) (fun _ _ _ => step_choice_dedent) indent
      (fits.of_le (Nat.le_succ _)) tracks
  · rename_i other
    exact tracks.settled fun inner =>
      (BlockState.settle_ease ⟨frames, here, .choiceHead choices choice, inner⟩ other).symm

theorem optionRound_meets (choices : List (Choice × Body)) (fits : Fits rounds (depth + 1) c.rest)
    (between : BetweenOptions whole around frames here choices c) :
    (optionRound (item rounds depth) rounds choices c).Meets False
      (Round.Leaves (BetweenOptions whole around frames here)
        fun group left => Tracks whole around frames (here ++ [group]) .plain left)
      (Refuses whole) := by
  obtain ⟨t, rest, enums, rfl, filled, tracks⟩ := between
  rw [optionRound, peek_bind]
  split
  · rename_i kind
    rw [next_bind]
    have headed : Tracks whole around frames here (.choiceHead choices (choiceOf t.text))
        ⟨rest, enums⟩ := by
      refine tracks.step (by simp [kind]) fun inner => ?_
      simp [BlockState.step, BlockState.settle, BlockState.settleMode, BlockState.settleChoices,
        BlockState.take, kind]
    refine Outcome.meets_then (optionBody_meets follows fits.tail headed)
      fun body left _ tracks => ?_
    refine tracks.skipBlank (fun _ => rfl) fun t rest filled _ tracks => ?_
    exact ⟨t, rest, left.enums, rfl, filled, tracks⟩
  · rename_i other
    refine tracks.settled fun inner => ?_
    simp [BlockState.settle, BlockState.settleMode, BlockState.settleChoices, BlockState.add,
      filled, other]

theorem optionGroup_meets (kind : t.kind = .option) (goes : stopOf frames t = false)
    (fits : Fits rounds (depth + 1) (t :: rest))
    (tracks : Tracks whole around frames here .plain ⟨t :: rest, enums⟩) :
    (optionGroup (item rounds depth) rounds ⟨t :: rest, enums⟩).Meets False
      (fun group left => Tracks whole around frames (here ++ [group]) .plain left)
      (Refuses whole) := by
  have filled : t.kind ≠ .empty := by simp [kind]
  -- At an option, it makes no difference whether a group without options is open.
  have opens : Tracks whole around frames here (.choices []) ⟨t :: rest, enums⟩ := by
    refine tracks.congr (by simp [kind]) fun inner => ?_
    rw [step_of_goes filled goes]
    simp [BlockState.takeItem, BlockState.step, BlockState.settle, BlockState.settleMode,
      BlockState.settleChoices, BlockState.take, kind]
  exact loop_meets (BetweenOptions whole around frames here) (allTight rounds depth).options
    (Nat.le_refl _) fits.rounds ⟨t, rest, enums, rfl, filled, opens⟩
    fun choices left le between => optionRound_meets follows choices (fits.of_le le) between

theorem commandRound_meets (state : List (Option String × Body) × Bool)
    (fits : Fits rounds depth c.rest)
    (inBranch : InBranch whole around frames outer start state c) :
    (commandRound (item rounds depth) rounds start state c).Meets False
      (Round.Leaves (InBranch whole around frames outer start)
        fun statement left => Tracks whole around frames (outer ++ [statement]) .plain left)
      (Refuses whole) := by
  obtain ⟨branches, condition, body, rfl, t, rest, enums, rfl, filled, stops, tracks⟩ := inBranch
  have effect := commandEffect_of_stop condition.isNone stops
  rw [commandRound, skipBlank_bind filled, peek_bind]
  split
  · rename_i closes
    rw [if_pos closes] at effect
    rw [Bool.and_eq_true, decide_eq_true_eq] at closes
    refine tracks.step (by simp [closes.1]) fun inner => ?_
    simp only [branch_step filled, Spelling.effect, effect]
  · rename_i other
    rw [if_neg other] at effect
    dsimp only
    cases found : following? condition.isNone t with
    | none =>
        simp only [found] at effect
        exact branch_wrong filled tracks effect
    | some following =>
        simp only [found] at effect
        have kind : t.kind = .command := by
          by_contra other
          simp [following?, other] at found
        have entered : Tracks whole around
            (.branch outer .command start (branches ++ [(condition, body)]) following :: frames) []
            .plain ⟨rest, enums⟩ := by
          refine tracks.step (by simp [kind]) fun inner => ?_
          simp only [branch_step filled, Spelling.effect, effect]
        have read := statements_meets follows (fits.of_le (Nat.le_succ _)) entered
        change Outcome.Meets _ _ _ ((next >>= _) _)
        rw [next_bind]
        exact Outcome.meets_then read fun body left _ stopped => ⟨_, _, body, rfl, stopped⟩

theorem commandConditional_meets {condition : String} (fits : Fits rounds depth c.rest)
    (tracks : Tracks whole around
      (.branch outer .command start [] (some condition) :: frames) [] .plain c) :
    (commandConditional (item rounds depth) rounds condition start c).Meets False
      (fun statement left => Tracks whole around frames (outer ++ [statement]) .plain left)
      (Refuses whole) := by
  refine statements_then follows fits tracks fun body t rest enums filled stops fits tracks => ?_
  refine loop_meets (InBranch whole around frames outer start)
    ((allTight rounds depth).commands start) (Nat.le_refl _) fits.rounds ?_
    fun state left le inBranch => commandRound_meets follows state (fits.of_le le) inBranch
  exact ⟨[], some condition, body, rfl, t, rest, enums, rfl, filled, stops, tracks⟩

theorem markerRound_meets (state : List (Option String × Body) × Option String)
    (fits : Fits rounds depth c.rest)
    (tracks : Tracks whole around (.branch outer .marker start state.1 state.2 :: frames) []
      .plain c) :
    (markerRound (item rounds depth) rounds start state c).Meets False
      (Round.Leaves
        (fun state => Tracks whole around
          (.branch outer .marker start state.1 state.2 :: frames) [] .plain)
        fun statement => Tracks whole around frames (outer ++ [statement]) .plain)
      (Refuses whole) := by
  refine statements_then follows fits tracks fun body t rest enums filled stops _ tracks => ?_
  have effect := markerEffect_of_stop state.2.isNone stops
  have goesOn {following : Option String} (kind : t.kind = .text)
      (effect : markerEffect state.2.isNone t = .next following) : Tracks whole around
        (.branch outer .marker start (state.1 ++ [(state.2, body)]) following :: frames) []
        .plain ⟨rest, enums⟩ := by
    refine tracks.step (by simp [kind]) fun inner => ?_
    simp only [branch_step filled, Spelling.effect, effect, List.nil_append]
  change Outcome.Meets _ _ _ ((peek >>= _) _)
  rw [peek_bind]
  by_cases kind : t.kind = .text
  · simp only [if_pos kind] at effect ⊢
    cases marker : marker? t.text with
    | none =>
        simp only [marker] at effect
        exact branch_wrong filled tracks effect
    | some mark =>
        cases mark with
        | opens condition =>
            simp only [marker] at effect
            exact branch_wrong filled tracks effect
        | closes =>
            simp only [marker] at effect
            refine tracks.step (by simp [kind]) fun inner => ?_
            simp only [branch_step filled, Spelling.effect, effect, List.nil_append]
        | elseIf condition =>
            cases last : state.2.isNone with
            | false =>
                simp only [marker, last] at effect
                exact goesOn kind (by rw [last, effect])
            | true =>
                simp only [marker, last] at effect
                exact branch_wrong filled tracks (last ▸ effect)
        | otherwise =>
            cases last : state.2.isNone with
            | false =>
                simp only [marker, last] at effect
                exact goesOn kind (by rw [last, effect])
            | true =>
                simp only [marker, last] at effect
                exact branch_wrong filled tracks (last ▸ effect)
  · simp only [if_neg kind] at effect ⊢
    exact branch_wrong filled tracks effect

theorem markerConditional_meets {condition : String} (fits : Fits rounds depth c.rest)
    (tracks : Tracks whole around
      (.branch outer .marker start [] (some condition) :: frames) [] .plain c) :
    (markerConditional (item rounds depth) rounds condition start c).Meets False
      (fun statement left => Tracks whole around frames (outer ++ [statement]) .plain left)
      (Refuses whole) :=
  loop_meets (fun state => Tracks whole around
      (.branch outer .marker start state.1 state.2 :: frames) [] .plain)
    ((allTight rounds depth).markers start) (Nat.le_refl _) fits.rounds tracks
    fun state _ le tracks => markerRound_meets follows state (fits.of_le le) tracks

theorem onceBody_meets (fits : Fits rounds depth c.rest)
    (tracks : Tracks whole around frames here .onceHead c) :
    (onceBody (item rounds depth) rounds c).Meets False
      (fun body => BehindOnce whole around frames (here ++ [.once body])) (Refuses whole) := by
  obtain ⟨t, rest, shape⟩ := tracks.exists_cons
  rw [shape] at tracks fits ⊢
  rw [onceBody, peek_bind]
  split
  · rename_i indent
    have read := indentedBlock_meets follows (.onceIndented here) (fun _ => here) .onceEnd trivial
      (fun inner => ?_) (fun inner body t dedent => ?_) indent (fits.of_le (Nat.le_succ _)) tracks
    · -- The block has ended with its indentation, and a closer that follows is taken along.
      refine Outcome.meets_then read fun body left _ tracks => ?_
      refine tracks.skipBlank (fun _ => rfl) fun t rest filled _ tracks => ?_
      refine ⟨t, rest, left.enums, rfl, ?_⟩
      split
      · rename_i closer
        have command := (isOnceEnd_iff.mp closer).1
        refine tracks.step (by simp [command]) fun inner => ?_
        simp [BlockState.step, BlockState.settle, BlockState.settleMode, BlockState.take,
          BlockState.add, filled, closer]
      · rename_i other
        refine tracks.settled fun inner => ?_
        simp [BlockState.settle, BlockState.settleMode, BlockState.add, filled, other]
    · simp [BlockState.step, BlockState.settle, BlockState.settleMode, BlockState.take,
        BlockState.enter, indent]
    · simp [BlockState.step, BlockState.settle, BlockState.settleMode, BlockState.take,
        BlockState.takePlain, closeOnces, endsScope, dedent]
  · rename_i other
    have entered : Tracks whole around (.once here :: frames) [] .plain ⟨t :: rest, c.enums⟩ :=
      tracks.settled fun inner =>
        (BlockState.settle_ease ⟨frames, here, .onceHead, inner⟩ other).symm
    refine (statements_meets follows fits entered).imp (fun body left stopped => ?_)
      fun _ refused => refused
    obtain ⟨t, rest, enums, rfl, filled, stops, tracks⟩ := stopped
    refine ⟨t, rest, enums, rfl, ?_⟩
    split
    · rename_i closer
      have command := isOnceEnd_iff.mp closer
      exact tracks.step (by simp [command.1]) fun inner => step_endonce command.1 command.2
    · rename_i other
      have scope : endsScope t = true := by simpa [stopOf, stopsAt, other] using stops
      refine tracks.settled fun inner => ?_
      simp [BlockState.settle, BlockState.settleMode, scope, closeOnces]

theorem onceBlock_meets (fits : Fits rounds depth c.rest)
    (tracks : Tracks whole around frames here .onceHead c) :
    (onceBlock (item rounds depth) rounds c).Meets False
      (fun statement => Tracks whole around frames (here ++ [statement]) .plain)
      (Refuses whole) := by
  refine Outcome.meets_then (onceBody_meets follows fits tracks) fun body left _ behind => ?_
  obtain ⟨t, rest, enums, rfl, tracks⟩ := behind
  rw [peek_bind]
  split
  · rename_i closer
    rw [if_pos closer] at tracks
    exact tracks
  · rename_i other
    rw [if_neg other] at tracks
    exact tracks

theorem commandStatement_meets (kind : t.kind = .command) (fits : Fits rounds depth rest)
    (step : ∀ inner, (⟨frames, here, .plain, inner⟩ : BlockState).step t =
      BlockState.takeCommand ⟨frames, here, .plain, inner⟩ t)
    (tracks : Tracks whole around frames here .plain ⟨t :: rest, enums⟩) :
    (commandStatement (item rounds depth) rounds t ⟨rest, enums⟩).Meets False
      (fun statement => Tracks whole around frames (here ++ [statement]) .plain)
      (Refuses whole) := by
  have more : t.kind ≠ .nodeEnd ∧ t.kind ≠ .eof := by simp [kind]
  -- Both readings ask for the same keywords in the same order.
  unfold BlockState.takeCommand at step
  unfold commandStatement
  dsimp only at step ⊢
  cases jump : argument? "jump" (trim t.text.toList) with
  | some target =>
      simp only [jump] at step
      exact tracks.step more step
  | none =>
  simp only [jump] at step
  cases detour : argument? "detour" (trim t.text.toList) with
  | some target =>
      simp only [detour] at step
      exact tracks.step more step
  | none =>
  simp only [detour] at step
  by_cases bare : (decide (trim t.text.toList = "jump".toList) ||
      decide (trim t.text.toList = "detour".toList)) = true
  · simp only [if_pos bare] at step ⊢
    exact tracks.refused more step
  simp only [if_neg bare] at step ⊢
  cases condition : argument? "if" (trim t.text.toList) with
  | some condition =>
      simp only [condition] at step
      exact commandConditional_meets follows fits (tracks.step more step)
  | none =>
  simp only [condition] at step
  by_cases bare : trim t.text.toList = "if".toList
  · simp only [if_pos bare] at step ⊢
    exact tracks.refused more step
  simp only [if_neg bare] at step ⊢
  by_cases once : trim t.text.toList = "once".toList
  · simp only [if_pos once] at step ⊢
    exact onceBlock_meets follows fits (tracks.step more step)
  simp only [if_neg once] at step ⊢
  cases enum : argument? "enum" (trim t.text.toList) with
  | some name =>
      simp only [enum] at step
      exact enumStatement_meets more fits.rounds step tracks
  | none =>
  simp only [enum] at step
  by_cases branch : isBranchCommand t.text.toList = true
  · simp only [if_pos branch] at step ⊢
    exact tracks.refused more step
  simp only [if_neg branch] at step ⊢
  by_cases stray : trim t.text.toList = "endonce".toList
  · simp only [if_pos stray] at step ⊢
    exact tracks.refused more step
  simp only [if_neg stray] at step ⊢
  by_cases stray : (decide (trim t.text.toList = "endenum".toList) ||
      (argument? "case" (trim t.text.toList)).isSome) = true
  · simp only [if_pos stray] at step ⊢
    exact tracks.refused more step
  simp only [if_neg stray] at step ⊢
  exact tracks.step more step

theorem textStatement_meets (kind : t.kind = .text) (fits : Fits rounds depth rest)
    (step : ∀ inner, (⟨frames, here, .plain, inner⟩ : BlockState).step t =
      BlockState.takeText ⟨frames, here, .plain, inner⟩ t)
    (tracks : Tracks whole around frames here .plain ⟨t :: rest, enums⟩) :
    (textStatement (item rounds depth) rounds t ⟨rest, enums⟩).Meets False
      (fun statement => Tracks whole around frames (here ++ [statement]) .plain)
      (Refuses whole) := by
  have more : t.kind ≠ .nodeEnd ∧ t.kind ≠ .eof := by simp [kind]
  unfold BlockState.takeText at step
  unfold textStatement
  cases marker : marker? t.text with
  | none =>
      simp only [marker] at step
      exact tracks.step more step
  | some mark =>
      cases mark with
      | opens condition =>
          simp only [marker] at step
          exact markerConditional_meets follows fits (tracks.step more step)
      | _ =>
          simp only [marker] at step
          exact tracks.refused more step

theorem statement_meets (filled : t.kind ≠ .empty) (goes : stopOf frames t = false)
    (single : t.kind ≠ .option ∧ t.kind ≠ .indent) (fits : Fits rounds (depth + 1) (t :: rest))
    (tracks : Tracks whole around frames here .plain ⟨t :: rest, enums⟩) :
    (statement (item rounds depth) rounds ⟨t :: rest, enums⟩).Meets False
      (fun statement => Tracks whole around frames (here ++ [statement]) .plain)
      (Refuses whole) := by
  have step (inner : List Enumeration) := @step_of_goes frames here inner t filled goes
  unfold BlockState.takeItem at step
  rw [statement, peek_bind]
  cases kind : t.kind with
  | option => exact absurd kind single.1
  | indent => exact absurd kind single.2
  | empty => exact absurd kind filled
  | command =>
      simp only [kind] at step
      exact commandStatement_meets follows kind fits.tail step tracks
  | text =>
      simp only [kind] at step
      exact textStatement_meets follows kind fits.tail step tracks
  | nodeEnd => exact tracks.unfinished (.inl kind) fun inner => finish_of_goes goes (.inl kind)
  | eof => exact tracks.unfinished (.inr kind) fun inner => finish_of_goes goes (.inr kind)
  | _ =>
      simp only [kind] at step
      exact tracks.refused (by simp [kind]) step

theorem itemStep_meets (filled : t.kind ≠ .empty) (goes : stopOf frames t = false)
    (fits : Fits rounds (depth + 1) (t :: rest))
    (tracks : Tracks whole around frames here .plain ⟨t :: rest, enums⟩) :
    (itemStep (item rounds depth) rounds ⟨t :: rest, enums⟩).Meets False
      (fun body => Tracks whole around frames (here ++ body) .plain) (Refuses whole) := by
  rw [itemStep, peek_bind]
  cases kind : t.kind with
  | option => exact Outcome.meets_bind (optionGroup_meets follows kind goes fits tracks)
  | indent =>
      refine indentedBlock_meets follows (.indented here) (fun body => here ++ body)
        (fun _ => .plain) trivial (fun inner => ?_) (fun inner body t dedent => ?_) kind fits.tail
        tracks
      · rw [step_of_goes filled goes]
        simp [BlockState.takeItem, BlockState.enter, kind]
      · simp [BlockState.step, BlockState.settle, BlockState.settleMode, BlockState.take,
          BlockState.takePlain, closeOnces, endsScope, dedent]
  | _ =>
      have read := statement_meets follows filled goes (by simp [kind]) fits tracks
      exact Outcome.meets_bind read

end

/-- By induction on the depth: what stands inside of an item has fewer tokens. -/
theorem item_follows (rounds depth : Nat) : Follows rounds depth := by
  induction depth with
  | zero =>
      intro _ _ _ _ _ _ _ _ _ fits _
      exact absurd fits.depth (Nat.not_succ_le_zero _)
  | succ depth ih =>
      intro _ _ _ _ _ _ _ filled goes fits tracks
      exact itemStep_meets ih filled goes fits tracks

end Descent

end Dialogue.Script
