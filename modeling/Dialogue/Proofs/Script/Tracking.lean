import Dialogue.Proofs.Script.BlankLines
import Dialogue.Proofs.Script.Consumption
import Dialogue.Proofs.Script.Steps

set_option autoImplicit false

namespace Dialogue.Script

open Dialogue.Text

/-- Tokens of which the last and no other is the end of input, with the keys of headers made of the
characters of a name. -/
inductive Stream : List Token → Prop
  | eof {t : Token} (kind : t.kind = .eof) : Stream [t]
  | cons {t : Token} {rest : List Token} (kind : t.kind ≠ .eof)
      (keyed : t.kind = .headerKey → ∀ c ∈ t.text.toList, isNameChar c = true)
      (stream : Stream rest) : Stream (t :: rest)

/-- From a state on, the tokens are a stream and lead to the result. -/
structure Reaches (whole : Except ParseError DocumentState) (s : DocumentState)
    (tokens : List Token) : Prop where
  stream : Stream tokens
  run : tokens.foldlM DocumentState.step s = whole

section

variable {whole : Except ParseError DocumentState} {s s' : DocumentState} {t : Token}
variable {tokens rest : List Token}

theorem Reaches.exists_cons (reaches : Reaches whole s tokens) : ∃ t rest, tokens = t :: rest := by
  cases reaches.stream with
  | eof kind => exact ⟨_, _, rfl⟩
  | cons kind keyed stream => exact ⟨_, _, rfl⟩

theorem Reaches.step (reaches : Reaches whole s (t :: rest)) (kind : t.kind ≠ .eof)
    (step : s.step t = .ok s') : Reaches whole s' rest := by
  have run := reaches.run
  rw [List.foldlM_cons, step] at run
  cases reaches.stream with
  | eof eof => exact absurd eof kind
  | cons kind keyed stream => exact ⟨stream, run⟩

theorem Reaches.last (reaches : Reaches whole s (t :: rest)) (kind : t.kind = .eof)
    (step : s.step t = .ok s') : whole = .ok s' := by
  have run := reaches.run
  rw [List.foldlM_cons, step] at run
  cases reaches.stream with
  | eof _ => exact run.symm
  | cons more _ _ => exact absurd kind more

theorem Reaches.refused {cause : ParseError} (reaches : Reaches whole s (t :: rest))
    (step : s.step t = .error cause) : whole = .error cause := by
  rw [← reaches.run, List.foldlM_cons, step]
  rfl

theorem Reaches.congr (reaches : Reaches whole s (t :: rest)) (same : s.step t = s'.step t) :
    Reaches whole s' (t :: rest) := by
  refine ⟨reaches.stream, ?_⟩
  rw [← reaches.run, List.foldlM_cons, List.foldlM_cons, same]

end

namespace Descent

variable {σ α β : Type} {stuck : Prop} {whole : Except ParseError DocumentState}
variable {c : Cursor} {t : Token} {tokens rest : List Token} {enums : List Enumeration}

/-- What the result of a whole reading says of a descent that is refused. -/
abbrev Refuses (whole : Except ParseError DocumentState) (cause : ParseError) : Prop :=
  whole = .error cause

/-- What a round leaves, by whether the loop goes on. -/
def Round.Leaves (again : σ → Cursor → Prop) (done : α → Cursor → Prop) :
    Round σ α → Cursor → Prop
  | .again state => again state
  | .leave value => done value

/-- A loop with tight rounds comes to an end if it is allowed more rounds than there are tokens. -/
theorem loop_meets (inv : σ → Cursor → Prop) {round : σ → Descent (Round σ α)}
    (tight : Tight round) {done : α → Cursor → Prop} {fault : ParseError → Prop}
    {bound rounds : Nat} {state : σ} {c : Cursor} (short : c.rest.length ≤ bound)
    (enough : c.rest.length < rounds) (holds : inv state c)
    (keeps : ∀ state c, c.rest.length ≤ bound → inv state c →
      (round state c).Meets False (Round.Leaves inv done) fault) :
    (loop round rounds state c).Meets False done fault := by
  induction rounds generalizing state c with
  | zero => exact absurd enough (Nat.not_lt_zero _)
  | succ rounds ih =>
      refine Outcome.meets_then (keeps state c short holds) fun result left same leaves => ?_
      cases result with
      | leave value => exact leaves
      | again further =>
          -- Both the rounds and the tokens have become fewer.
          have takes := (tight same).fewer
          exact ih (by omega) (by omega) leaves

theorem Careful.andThen {x : Descent α} {f : α → Descent β} {least : α → Nat}
    {done : α → Cursor → Prop} {done' : β → Cursor → Prop} {fault : ParseError → Prop}
    (careful : Careful tokens least x c) (within : c.rest <:+ tokens)
    (meets : (x c).Meets stuck done fault)
    (further : ∀ value left, done value left → c.Takes (least value) left →
      (f value left).Meets stuck done' fault) : ((x >>= f) c).Meets stuck done' fault :=
  Outcome.meets_then meets fun value left same holds =>
    further value left holds (careful.takes within same)

section

variable {f : Token → Descent α} {g : Unit → Descent α}

theorem peek_bind : (peek >>= f) ⟨t :: rest, enums⟩ = f t ⟨t :: rest, enums⟩ := rfl

theorem next_bind : (next >>= f) ⟨t :: rest, enums⟩ = f t ⟨rest, enums⟩ := rfl

theorem expect_bind {kind : TokenKind} {expected : String} (found : t.kind = kind) :
    (expect kind expected >>= f) ⟨t :: rest, enums⟩ = f t ⟨rest, enums⟩ := by
  simp only [Outcome.bind_eq, expect, peek, found, if_true, next]

theorem expect_refused {kind : TokenKind} {expected : String} (other : t.kind ≠ kind) :
    (expect kind expected >>= f) ⟨t :: rest, enums⟩ = .refused (.unexpected expected t) := by
  simp only [Outcome.bind_eq, expect, peek, other, if_false, refuse]

theorem skipBlank_bind (other : t.kind ≠ .empty) :
    (skipBlank >>= g) ⟨t :: rest, enums⟩ = g () ⟨t :: rest, enums⟩ := by
  simp [Outcome.bind_eq, skipBlank, other]

theorem skipBlank_cons (blank : t.kind = .empty) :
    (skipBlank >>= g) ⟨t :: rest, enums⟩ = (skipBlank >>= g) ⟨rest, enums⟩ := by
  simp [Outcome.bind_eq, skipBlank, blank]

/-- Blank lines are passed where they leave the reading in one pass as it is. -/
theorem skipBlank_meets {s : DocumentState} {done : α → Cursor → Prop}
    {fault : ParseError → Prop} (reaches : Reaches whole s tokens)
    (blank : ∀ t : Token, t.kind = .empty → s.step t = .ok s)
    (further : ∀ t rest, t.kind ≠ .empty → (t :: rest).length ≤ tokens.length →
      Reaches whole s (t :: rest) → (g () ⟨t :: rest, enums⟩).Meets stuck done fault) :
    ((skipBlank >>= g) ⟨tokens, enums⟩).Meets stuck done fault := by
  induction tokens with
  | nil =>
      obtain ⟨_, _, impossible⟩ := reaches.exists_cons
      cases impossible
  | cons t rest ih =>
      by_cases kind : t.kind = .empty
      · rw [skipBlank_cons kind]
        refine ih (reaches.step (by simp [kind]) (blank t kind)) fun t' rest' other fits => ?_
        exact further t' rest' other (Nat.le_succ_of_le fits)
      · rw [skipBlank_bind kind]
        exact further t rest kind (Nat.le_refl _) reaches

end

/-- The states around an enumeration: while it is open, and behind it with levels of indentation
that close with it. -/
structure Hosts (opened : OpenEnum → DocumentState) (ended : Enumeration → Nat → DocumentState) :
    Prop where
  more : ∀ {e further : OpenEnum} {t : Token}, e.take t = .ok (.more further) →
    (opened e).step t = .ok (opened further)
  closes : ∀ {e closed : OpenEnum} {t : Token}, e.take t = .ok (.closed closed) →
    (opened e).step t = .ok (ended closed.definition closed.depth)
  refuses : ∀ {e : OpenEnum} {t : Token} {cause : ParseError}, e.take t = .error cause →
    (opened e).step t = .error cause
  blank : ∀ {enum : Enumeration} {depth : Nat} {t : Token}, t.kind = .empty →
    (ended enum (depth + 1)).step t = .ok (ended enum (depth + 1))
  dedent : ∀ {enum : Enumeration} {depth : Nat} {t : Token}, t.kind = .dedent →
    (ended enum (depth + 1)).step t = .ok (ended enum depth)
  other : ∀ {enum : Enumeration} {depth : Nat} {t : Token}, t.kind ≠ .empty → t.kind ≠ .dedent →
    (ended enum (depth + 1)).step t = (ended enum 0).step t

theorem kind_of_take {e : OpenEnum} {progress : OpenEnum.Progress} (ok : e.take t = .ok progress) :
    t.kind ≠ .nodeEnd ∧ t.kind ≠ .eof := by
  constructor <;> intro kind <;> simp [OpenEnum.take, kind] at ok

section

variable {opened : OpenEnum → DocumentState} {ended : Enumeration → Nat → DocumentState}

theorem enumRound_meets (hosts : Hosts opened ended) {start : Token} {name : String}
    (state : List String × Nat)
    (reaches : Reaches whole (opened ⟨start, name, state.1, state.2⟩) c.rest) :
    (enumRound start name state c).Meets False
      (Round.Leaves
        (fun state left => left.enums = c.enums ∧
          Reaches whole (opened ⟨start, name, state.1, state.2⟩) left.rest)
        (fun result left => left.enums = c.enums ∧
          Reaches whole (ended ⟨name, result.1⟩ result.2) left.rest))
      (Refuses whole) := by
  obtain ⟨rest, enums⟩ := c
  obtain ⟨t, rest, rfl⟩ := reaches.exists_cons
  rw [enumRound, next_bind]
  cases taken : OpenEnum.take ⟨start, name, state.1, state.2⟩ t with
  | error cause => exact reaches.refused (hosts.refuses taken)
  | ok progress =>
      have line := (kind_of_take taken).2
      rcases enum_take_ok taken with ⟨depth, -, rfl⟩ | ⟨case, -, rfl⟩ | ⟨-, rfl⟩
      · exact ⟨rfl, reaches.step line (hosts.more taken)⟩
      · exact ⟨rfl, reaches.step line (hosts.more taken)⟩
      · exact ⟨rfl, reaches.step line (hosts.closes taken)⟩

theorem levelsRound_meets (hosts : Hosts opened ended) {enum : Enumeration} (depth : Nat)
    (reaches : Reaches whole (ended enum depth) c.rest) :
    (levelsRound depth c).Meets False
      (Round.Leaves
        (fun depth left => left.enums = c.enums ∧ Reaches whole (ended enum depth) left.rest)
        (fun _ left => left.enums = c.enums ∧ Reaches whole (ended enum 0) left.rest))
      (Refuses whole) := by
  unfold levelsRound
  cases depth with
  | zero => exact ⟨rfl, reaches⟩
  | succ depth =>
      rw [if_neg (Nat.succ_ne_zero depth)]
      refine skipBlank_meets reaches (fun _ => hosts.blank) fun t rest filled _ reaches => ?_
      rw [peek_bind]
      split
      · rename_i dedent
        rw [next_bind]
        exact ⟨rfl, reaches.step (by simp [dedent]) (hosts.dedent dedent)⟩
      · rename_i other
        exact ⟨rfl, reaches.congr (hosts.other filled other)⟩

theorem enumBlock_refused {start : Token} {name : List Char} {cause : ParseError} {rounds : Nat}
    (begins : OpenEnum.begin start name = .error cause) :
    enumBlock rounds start name c = .refused cause := by
  rw [enumBlock, begins]
  rfl

/-- A descent follows an enumeration and the levels it opened. -/
theorem enumBlock_meets (hosts : Hosts opened ended) {start : Token} {name : List Char}
    {e : OpenEnum} (begins : OpenEnum.begin start name = .ok e) {rounds : Nat}
    (enough : c.rest.length < rounds) (reaches : Reaches whole (opened e) c.rest) :
    (enumBlock rounds start name c).Meets False
      (fun enum left => left.enums = c.enums ∧ Reaches whole (ended enum 0) left.rest)
      (Refuses whole) := by
  have tight := allTight 0 0
  obtain rfl : e = ⟨start, String.ofList name, [], 0⟩ := by
    unfold OpenEnum.begin at begins
    split at begins
    · cases begins
    · exact (Except.ok.inj begins).symm
  unfold enumBlock
  rw [begins]
  have cases : (loop (enumRound start (String.ofList name)) rounds ([], 0) c).Meets False
      (fun result left => left.enums = c.enums ∧
        Reaches whole (ended ⟨String.ofList name, result.1⟩ result.2) left.rest)
      (Refuses whole) := by
    refine loop_meets
      (fun state left => left.enums = c.enums ∧
        Reaches whole (opened ⟨start, String.ofList name, state.1, state.2⟩) left.rest)
      (tight.cases start _) (Nat.le_refl _) enough ⟨rfl, reaches⟩ fun state left _ holds => ?_
    rw [← holds.1]
    exact enumRound_meets hosts state holds.2
  have careful : Careful (start :: c.rest) (fun _ => 0)
      (loop (enumRound start (String.ofList name)) rounds ([], 0)) c :=
    .loop ((enumRound_careful List.mem_cons_self _ _).mono fun _ => Nat.zero_le _)
      (enumRound_careful List.mem_cons_self) rounds
  refine careful.andThen (List.suffix_cons _ _) cases fun result left holds takes => ?_
  have levels : (loop levelsRound rounds result.2 left).Meets False
      (fun _ after => after.enums = c.enums ∧
        Reaches whole (ended ⟨String.ofList name, result.1⟩ 0) after.rest)
      (Refuses whole) := by
    have fewer := takes.fewer
    refine loop_meets
      (fun depth after => after.enums = c.enums ∧
        Reaches whole (ended ⟨String.ofList name, result.1⟩ depth) after.rest)
      tight.levels (Nat.le_refl _) (by omega) holds fun depth after _ holds => ?_
    rw [← holds.1]
    exact levelsRound_meets hosts depth holds.2
  exact Outcome.meets_bind levels

end

end Descent

/-- What has been read when a body begins. -/
structure Around where
  head : NodeHead
  title : String
  enums : List Enumeration
  nodes : List Node

def Around.inside (around : Around) (s : BlockState) : DocumentState :=
  ⟨.body around.head around.title s, around.enums, around.nodes⟩

section

variable {around : Around} {s s' : BlockState} {t : Token} {cause : ParseError}

theorem inside_step (more : t.kind ≠ .nodeEnd ∧ t.kind ≠ .eof) (step : s.step t = .ok s') :
    (around.inside s).step t = .ok (around.inside s') := by
  simp [Around.inside, DocumentState.step, more.1, more.2, step, bind, Except.bind, pure,
    Except.pure]

theorem inside_step_error (more : t.kind ≠ .nodeEnd ∧ t.kind ≠ .eof)
    (step : s.step t = .error cause) : (around.inside s).step t = .error cause := by
  simp [Around.inside, DocumentState.step, more.1, more.2, step, bind, Except.bind]

theorem inside_finish_error (last : t.kind = .nodeEnd ∨ t.kind = .eof)
    (finish : s.finish t = .error cause) : (around.inside s).step t = .error cause := by
  rcases last with kind | kind <;>
    simp [Around.inside, DocumentState.step, kind, finish, bind, Except.bind]

theorem inside_step_congr (more : t.kind ≠ .nodeEnd ∧ t.kind ≠ .eof) (same : s.step t = s'.step t) :
    (around.inside s).step t = (around.inside s').step t := by
  simp [Around.inside, DocumentState.step, more.1, more.2, same]

/-- Only what a token settles matters for it. -/
theorem inside_congr (same : s.settle t = s'.settle t) :
    (around.inside s).step t = (around.inside s').step t := by
  simp only [Around.inside, DocumentState.step, BlockState.step, BlockState.finish, same]

theorem hosts_body (around : Around) (frames : List Frame) (here : Body)
    (inner : List Enumeration) :
    Descent.Hosts (fun e => around.inside ⟨frames, here, .enumeration e, inner⟩)
      fun enum depth =>
        around.inside (BlockState.endEnum ⟨frames, here, .plain, inner ++ [enum]⟩ enum depth) where
  more := by
    intro e further t taken
    refine inside_step (Descent.kind_of_take taken) ?_
    simp [BlockState.step, BlockState.settle, BlockState.settleMode, BlockState.take, taken, bind,
      Except.bind]
  closes := by
    intro e closed t taken
    refine inside_step (Descent.kind_of_take taken) ?_
    simp [BlockState.step, BlockState.settle, BlockState.settleMode, BlockState.take, taken, bind,
      Except.bind, BlockState.endEnum, BlockState.add]
  refuses := by
    intro e t cause taken
    by_cases last : t.kind = .nodeEnd ∨ t.kind = .eof
    · refine inside_finish_error last ?_
      simp [BlockState.finish, BlockState.settle, BlockState.settleMode, taken, bind, Except.bind]
    · refine inside_step_error (not_or.mp last) ?_
      simp [BlockState.step, BlockState.settle, BlockState.settleMode, BlockState.take, taken, bind,
        Except.bind]
  blank := by
    intro enum depth t kind
    refine inside_step (by simp [kind]) ?_
    simp [BlockState.endEnum, BlockState.step, BlockState.settle, BlockState.settleMode,
      BlockState.take, kind]
  dedent := by
    intro enum depth t kind
    refine inside_step (by simp [kind]) ?_
    simp [BlockState.endEnum, BlockState.add, BlockState.step, BlockState.settle,
      BlockState.settleMode, BlockState.take, kind]
  other := by
    intro enum depth t filled other
    refine inside_congr ?_
    simp [BlockState.endEnum, BlockState.add, BlockState.settle, BlockState.settleMode, filled,
      other]

end

/-- The state inside of a body from which the result comes, with the enumerations that the cursor
holds behind those from before. -/
def Tracks (whole : Except ParseError DocumentState) (around : Around) (frames : List Frame)
    (here : Body) (mode : Mode) (c : Cursor) : Prop :=
  ∃ inner, c.enums = around.enums ++ inner ∧
    Reaches whole (around.inside ⟨frames, here, mode, inner⟩) c.rest

section

variable {whole : Except ParseError DocumentState} {around : Around} {frames frames' : List Frame}
variable {here here' : Body} {mode mode' : Mode} {c : Cursor} {t : Token} {rest : List Token}
variable {enums : List Enumeration} {cause : ParseError}

theorem Tracks.exists_cons (tracks : Tracks whole around frames here mode c) :
    ∃ t rest, c = ⟨t :: rest, c.enums⟩ := by
  obtain ⟨rest, enums⟩ := c
  obtain ⟨_, _, reaches⟩ := tracks
  obtain ⟨t, rest, rfl⟩ := reaches.exists_cons
  exact ⟨t, rest, rfl⟩

theorem Tracks.step (tracks : Tracks whole around frames here mode ⟨t :: rest, enums⟩)
    (more : t.kind ≠ .nodeEnd ∧ t.kind ≠ .eof)
    (step : ∀ inner, (⟨frames, here, mode, inner⟩ : BlockState).step t =
      .ok ⟨frames', here', mode', inner⟩) :
    Tracks whole around frames' here' mode' ⟨rest, enums⟩ := by
  obtain ⟨inner, same, reaches⟩ := tracks
  exact ⟨inner, same, reaches.step more.2 (inside_step more (step inner))⟩

theorem Tracks.refused (tracks : Tracks whole around frames here mode ⟨t :: rest, enums⟩)
    (more : t.kind ≠ .nodeEnd ∧ t.kind ≠ .eof)
    (step : ∀ inner, (⟨frames, here, mode, inner⟩ : BlockState).step t = .error cause) :
    whole = .error cause := by
  obtain ⟨inner, -, reaches⟩ := tracks
  exact reaches.refused (inside_step_error more (step inner))

theorem Tracks.unfinished (tracks : Tracks whole around frames here mode ⟨t :: rest, enums⟩)
    (last : t.kind = .nodeEnd ∨ t.kind = .eof)
    (finish : ∀ inner, (⟨frames, here, mode, inner⟩ : BlockState).finish t = .error cause) :
    whole = .error cause := by
  obtain ⟨inner, -, reaches⟩ := tracks
  exact reaches.refused (inside_finish_error last (finish inner))

theorem Tracks.congr (tracks : Tracks whole around frames here mode ⟨t :: rest, enums⟩)
    (more : t.kind ≠ .nodeEnd ∧ t.kind ≠ .eof)
    (same : ∀ inner, (⟨frames, here, mode, inner⟩ : BlockState).step t =
      (⟨frames', here', mode', inner⟩ : BlockState).step t) :
    Tracks whole around frames' here' mode' ⟨t :: rest, enums⟩ := by
  obtain ⟨inner, held, reaches⟩ := tracks
  exact ⟨inner, held, reaches.congr (inside_step_congr more (same inner))⟩

theorem Tracks.settled (tracks : Tracks whole around frames here mode ⟨t :: rest, enums⟩)
    (same : ∀ inner, (⟨frames, here, mode, inner⟩ : BlockState).settle t =
      (⟨frames', here', mode', inner⟩ : BlockState).settle t) :
    Tracks whole around frames' here' mode' ⟨t :: rest, enums⟩ := by
  obtain ⟨inner, held, reaches⟩ := tracks
  exact ⟨inner, held, reaches.congr (inside_congr (same inner))⟩

theorem Tracks.skipBlank {α : Type} {g : Unit → Descent α} {done : α → Cursor → Prop}
    {fault : ParseError → Prop} (tracks : Tracks whole around frames here mode c)
    (eased : ∀ inner, (⟨frames, here, mode, inner⟩ : BlockState).ease =
      ⟨frames, here, mode, inner⟩)
    (further : ∀ t rest, t.kind ≠ .empty → (t :: rest).length ≤ c.rest.length →
      Tracks whole around frames here mode ⟨t :: rest, c.enums⟩ →
      (g () ⟨t :: rest, c.enums⟩).Meets False done fault) :
    ((Descent.skipBlank >>= g) c).Meets False done fault := by
  obtain ⟨inner, held, reaches⟩ := tracks
  refine Descent.skipBlank_meets reaches (fun t kind => ?_) fun t rest filled fits reaches =>
    further t rest filled fits ⟨inner, held, reaches⟩
  exact inside_step (by simp [kind]) (by rw [BlockState.step_empty _ kind, eased])

end

/-- Whether a token stops the statements of the innermost block. -/
def stopOf : List Frame → Token → Bool
  | [] => Descent.endsAt .nodeEnd
  | .once _ :: _ => Descent.stopsAt isOnceEnd
  | .branch _ .command _ _ _ :: _ => Descent.stopsAt Descent.isBranch
  | .branch _ .marker _ _ _ :: _ => Descent.stopsAt Descent.endsMarked
  | _ :: _ => Descent.endsAt .dedent

/-- The block has a level of indentation of its own. -/
def Frame.IsIndented : Frame → Prop
  | .indented _ | .choice _ _ _ | .onceIndented _ => True
  | .branch _ _ _ _ _ | .once _ => False

theorem Frame.IsIndented.stopOf {frame : Frame} (indented : frame.IsIndented)
    (frames : List Frame) : stopOf (frame :: frames) = Descent.endsAt .dedent := by
  cases frame with
  | branch => exact indented.elim
  | once => exact indented.elim
  | _ => rfl

section

variable {frames : List Frame} {here : Body} {inner : List Enumeration} {t : Token}

/-- A token that does not stop the statements settles nothing. -/
theorem settle_of_goes (goes : stopOf frames t = false) :
    (⟨frames, here, .plain, inner⟩ : BlockState).settle t = ⟨frames, here, .plain, inner⟩ := by
  simp only [BlockState.settle, BlockState.settleMode]
  split
  · cases frames with
    | nil => rfl
    | cons frame frames =>
        cases frame with
        | once outer => simp_all [stopOf, Descent.stopsAt]
        | _ => rfl
  · rfl

theorem markerEffect_inside (last : Bool) (goes : Descent.stopsAt Descent.endsMarked t = false) :
    markerEffect last t = .inside := by
  simp only [Descent.stopsAt, Descent.endsMarked, Bool.or_eq_false_iff, Bool.and_eq_false_iff,
    decide_eq_false_iff_not] at goes
  obtain ⟨⟨option, marked⟩, scope⟩ := goes
  unfold markerEffect
  split
  · rename_i kind
    have unmarked := marked.resolve_left (fun other => other kind)
    split at unmarked
    · rename_i opens
      rw [opens]
    · rename_i none
      rw [none]
    · cases unmarked
  · rw [if_neg (by simp [option, scope])]

/-- A token that does not stop the statements starts a statement. -/
theorem step_of_goes (filled : t.kind ≠ .empty) (goes : stopOf frames t = false) :
    (⟨frames, here, .plain, inner⟩ : BlockState).step t =
      BlockState.takeItem ⟨frames, here, .plain, inner⟩ t := by
  rw [BlockState.step, settle_of_goes goes]
  change BlockState.takePlain _ t = _
  unfold BlockState.takePlain
  rw [if_neg filled]
  cases frames with
  | nil => rfl
  | cons frame frames =>
      cases frame with
      | branch outer spelling start done condition =>
          cases spelling with
          | marker => simp only [Spelling.effect, markerEffect_inside condition.isNone goes]
          | command =>
              simp only [stopOf, Descent.stopsAt, Descent.isBranch, Bool.or_eq_false_iff,
                Bool.and_eq_false_iff, decide_eq_false_iff_not] at goes
              have effect := commandEffect_inside condition.isNone goes.2 fun command =>
                goes.1.resolve_left fun other => other command
              simp only [Spelling.effect, effect]
      | once outer =>
          simp only [stopOf, Descent.stopsAt, Bool.or_eq_false_iff] at goes
          simp only [goes.1, Bool.false_eq_true, if_false]
      | _ =>
          simp only [stopOf, Descent.endsAt, Bool.or_eq_false_iff, decide_eq_false_iff_not] at goes
          exact if_neg goes.1

/-- The end of a node is no statement of an inner block. -/
theorem finish_of_goes (goes : stopOf frames t = false)
    (last : t.kind = .nodeEnd ∨ t.kind = .eof) :
    (⟨frames, here, .plain, inner⟩ : BlockState).finish t = .error (.unexpected "statement" t) := by
  have scope : endsScope t = true := by rcases last with kind | kind <;> simp [endsScope, kind]
  simp only [BlockState.finish, settle_of_goes goes]
  cases frames with
  | nil => rcases last with kind | kind <;> simp [stopOf, Descent.endsAt, kind] at goes
  | cons frame frames =>
      cases frame with
      | branch outer spelling start done condition =>
          cases spelling <;> simp [stopOf, Descent.stopsAt, scope] at goes
      | once outer => simp [stopOf, Descent.stopsAt, scope] at goes
      | _ =>
          simp only [stopOf, Descent.endsAt, Bool.or_eq_false_iff, decide_eq_false_iff_not] at goes
          exact if_neg goes.2

end

section

open Descent

variable {whole : Except ParseError DocumentState} {around : Around} {frames : List Frame}
variable {here outer : Body} {t start : Token} {rest : List Token} {enums : List Enumeration}

/-- A token that stops a branch between commands goes on with the conditional or is wrong. -/
theorem commandEffect_of_stop (last : Bool) (stops : stopsAt isBranch t = true) :
    commandEffect last t =
      if t.kind = .command && t.text = "endif" then .closes
      else match following? last t with
        | none => .wrong
        | some condition => .next condition := by
  unfold commandEffect following?
  by_cases kind : t.kind = .command
  · have branch : isBranchCommand t.text.toList = true := by
      simpa [stopsAt, isBranch, endsScope, kind] using stops
    by_cases closes : t.text = "endif"
    · simp [kind, closes]
    · by_cases otherwise : t.text = "else"
      · cases last <;> simp [kind, otherwise]
      · have named : (elseIf? t.text.toList).isSome = true := by
          have notElse : t.text.toList ≠ "else".toList := mt String.toList_inj.mp otherwise
          have notEnd : t.text.toList ≠ "endif".toList := mt String.toList_inj.mp closes
          simpa only [isBranchCommand, notElse, notEnd, decide_false, Bool.false_or] using branch
        obtain ⟨condition, reads⟩ := Option.isSome_iff_exists.mp named
        cases last <;> simp [kind, closes, otherwise, reads]
  · have scope : endsScope t = true := by simpa [stopsAt, isBranch, kind] using stops
    simp [kind, scope]

/-- A token that stops a branch between markers goes on with the conditional or is wrong. -/
theorem markerEffect_of_stop (last : Bool) (stops : stopsAt endsMarked t = true) :
    markerEffect last t =
      match if t.kind = .text then marker? t.text else none, last with
      | some .closes, _ => .closes
      | some (.elseIf condition), false => .next (some condition)
      | some .otherwise, false => .next none
      | _, _ => .wrong := by
  unfold markerEffect
  by_cases kind : t.kind = .text
  · have marked := stops
    simp only [stopsAt, endsMarked, endsScope, kind] at marked
    cases marker : marker? t.text with
    | none => simp [marker] at marked
    | some mark =>
        cases mark with
        | opens condition => simp [marker] at marked
        | elseIf condition => cases last <;> simp [kind]
        | otherwise => cases last <;> simp [kind]
        | closes => simp [kind]
  · have outside : (t.kind = .option || endsScope t) = true := by
      simpa [stopsAt, endsMarked, kind] using stops
    simp [kind, outside]

variable {spelling : Spelling} {branches : List (Option String × Body)}
variable {condition : Option String}

theorem settle_branch {inner : List Enumeration} :
    (⟨.branch outer spelling start branches condition :: frames, here, .plain, inner⟩ :
        BlockState).settle t =
      ⟨.branch outer spelling start branches condition :: frames, here, .plain, inner⟩ := by
  simp [BlockState.settle, BlockState.settleMode, closeOnces]

theorem branch_step {inner : List Enumeration} (filled : t.kind ≠ .empty) :
    (⟨.branch outer spelling start branches condition :: frames, here, .plain, inner⟩ :
        BlockState).step t =
      match spelling.effect condition.isNone t with
      | .inside => BlockState.takeItem
          ⟨.branch outer spelling start branches condition :: frames, here, .plain, inner⟩ t
      | .next following => .ok
          ⟨.branch outer spelling start (branches ++ [(condition, here)]) following :: frames, [],
            .plain, inner⟩
      | .closes => .ok
          ⟨frames, outer ++ [.conditional (branches ++ [(condition, here)])], .plain, inner⟩
      | .wrong => .error ⟨start.position, .unmatchedConditional (spelling.unclosed t)⟩ := by
  rw [BlockState.step, settle_branch]
  change BlockState.takePlain _ t = _
  unfold BlockState.takePlain
  cases effect : spelling.effect condition.isNone t <;> simp only [if_neg filled, effect]

/-- A branch ends with what neither goes on with its conditional nor closes it. -/
theorem branch_wrong (filled : t.kind ≠ .empty)
    (tracks : Tracks whole around (.branch outer spelling start branches condition :: frames) here
      .plain ⟨t :: rest, enums⟩)
    (effect : spelling.effect condition.isNone t = .wrong) :
    whole = .error ⟨start.position, .unmatchedConditional (spelling.unclosed t)⟩ := by
  by_cases last : t.kind = .nodeEnd ∨ t.kind = .eof
  · refine tracks.unfinished last fun inner => ?_
    simp [BlockState.finish, settle_branch]
  · refine tracks.refused (not_or.mp last) fun inner => ?_
    rw [branch_step filled, effect]

end

end Dialogue.Script
