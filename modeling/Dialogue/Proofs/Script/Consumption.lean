import Dialogue.Proofs.Script.Descent

set_option autoImplicit false

namespace Dialogue.Script

open Dialogue.Text

namespace Outcome

variable {α β : Type} {stuck : Prop} {done : α → Cursor → Prop} {fault : ParseError → Prop}

/-- `done` holds of what is read and what is left, `fault` of the cause of a refusal. `stuck` says
whether it may come to neither. -/
def Meets (stuck : Prop) (done : α → Cursor → Prop) (fault : ParseError → Prop) :
    Outcome α → Prop
  | read value left => done value left
  | refused cause => fault cause
  | astray => stuck
  | unfinished => stuck

theorem Meets.imp {outcome : Outcome α} {done' : α → Cursor → Prop} {fault' : ParseError → Prop}
    (meets : outcome.Meets stuck done fault)
    (reads : ∀ value left, done value left → done' value left)
    (refuses : ∀ cause, fault cause → fault' cause) : outcome.Meets stuck done' fault' := by
  cases outcome with
  | read value left => exact reads value left meets
  | refused cause => exact refuses cause meets
  | astray => exact meets
  | unfinished => exact meets

section

variable {x : Descent α} {f : α → Descent β} {c : Cursor}

theorem bind_eq : (x >>= f) c = match x c with
    | .read value left => f value left
    | .refused cause => .refused cause
    | .astray => .astray
    | .unfinished => .unfinished := rfl

theorem meets_then {mid : α → Cursor → Prop} {done : β → Cursor → Prop}
    (meets : (x c).Meets stuck mid fault)
    (further : ∀ value left, x c = .read value left → mid value left →
      (f value left).Meets stuck done fault) : ((x >>= f) c).Meets stuck done fault := by
  rw [bind_eq]
  cases same : x c with
  | read value left =>
      rw [same] at meets
      exact further value left same meets
  | refused cause =>
      rw [same] at meets
      exact meets
  | astray =>
      rw [same] at meets
      exact meets
  | unfinished =>
      rw [same] at meets
      exact meets

theorem meets_bind {done : β → Cursor → Prop}
    (meets : (x c).Meets stuck (fun value left => (f value left).Meets stuck done fault) fault) :
    ((x >>= f) c).Meets stuck done fault :=
  meets_then meets fun _ _ _ further => further

end

end Outcome

/-- The second cursor is left of the first when at least `count` tokens have been taken. -/
structure Cursor.Takes (count : Nat) (c left : Cursor) : Prop where
  suffix : left.rest <:+ c.rest
  fewer : left.rest.length + count ≤ c.rest.length

namespace Cursor.Takes

variable {count more : Nat} {c d left : Cursor}

theorem refl (c : Cursor) : c.Takes 0 c :=
  ⟨List.suffix_refl _, Nat.le_refl _⟩

theorem trans (first : c.Takes count d) (second : d.Takes more left) :
    c.Takes (count + more) left := by
  refine ⟨second.suffix.trans first.suffix, ?_⟩
  have := first.fewer
  have := second.fewer
  omega

theorem mono (takes : c.Takes count left) (le : more ≤ count) : c.Takes more left :=
  ⟨takes.suffix, Nat.le_trans (Nat.add_le_add_left le _) takes.fewer⟩

theorem of_cons {t : Token} {rest : List Token} {enums : List Enumeration}
    (shape : c.rest = t :: rest) : c.Takes 1 ⟨rest, enums⟩ := by
  refine ⟨?_, ?_⟩
  · rw [shape]
    exact List.suffix_cons t rest
  · rw [shape]
    exact Nat.le_refl _

end Cursor.Takes

/-- The fault stands at one of the tokens. -/
def ParseError.StandsAt (tokens : List Token) (cause : ParseError) : Prop :=
  ∃ t ∈ tokens, cause.position = t.position

namespace Descent

variable {σ α β : Type} {tokens : List Token} {least : α → Nat} {c : Cursor}

/-- From a cursor within the tokens, as many are taken from the front as `least` says at least,
which depends on what is read, and a fault stands at one of the tokens. -/
def Careful (tokens : List Token) (least : α → Nat) (x : Descent α) (c : Cursor) : Prop :=
  c.rest <:+ tokens →
    (x c).Meets True (fun value left => c.Takes (least value) left) (ParseError.StandsAt tokens)

/-- A round takes a token if the loop goes on behind it. -/
def Round.takes : Round σ α → Nat
  | .again _ => 1
  | .leave _ => 0

namespace Careful

variable {x : Descent α} {f : α → Descent β} {least' : β → Nat}

theorem mono {fewer : α → Nat} (careful : Careful tokens least x c)
    (le : ∀ value, fewer value ≤ least value) : Careful tokens fewer x c := fun within =>
  (careful within).imp (fun value _ takes => takes.mono (le value)) fun _ stands => stands

theorem pure {value : α} (none : least value = 0) :
    Careful tokens least (Pure.pure value) c := by
  intro _
  change c.Takes (least value) c
  rw [none]
  exact .refl c

theorem refuse {cause : ParseError} (stands : cause.StandsAt tokens) :
    Careful tokens least (refuse cause) c := fun _ =>
  stands

theorem unfinished : Careful tokens least (fun _ => .unfinished) c := fun _ =>
  trivial

/-- What the first part takes need not be taken by the second. -/
theorem bind (first : Careful tokens least x c)
    (second : ∀ value left, c.Takes (least value) left →
      Careful tokens (fun result => least' result - least value) (f value) left) :
    Careful tokens least' (x >>= f) c := by
  intro within
  refine Outcome.meets_then (first within) fun value left _ takes => ?_
  refine (second value left takes (takes.suffix.trans within)).imp (fun result _ more => ?_)
    fun _ stands => stands
  exact (takes.trans more).mono (by dsimp only; omega)

theorem lift {r : Except ParseError α} (reads : ∀ value, r = .ok value → least value = 0)
    (refuses : ∀ cause, r = .error cause → cause.StandsAt tokens) :
    Careful tokens least (lift r) c := by
  cases r with
  | ok value => exact pure (reads value rfl)
  | error cause => exact refuse (refuses cause rfl)

theorem peek {f : Token → Descent β}
    (further : ∀ t rest, c.rest = t :: rest → t ∈ tokens → Careful tokens least' (f t) c) :
    Careful tokens least' (peek >>= f) c := by
  obtain ⟨rest, enums⟩ := c
  intro within
  cases rest with
  | nil => exact trivial
  | cons t rest => exact further t rest rfl (within.subset List.mem_cons_self) within

theorem next {f : Token → Descent β}
    (further : ∀ t rest, c.rest = t :: rest → t ∈ tokens →
      Careful tokens (fun result => least' result - 1) (f t) ⟨rest, c.enums⟩) :
    Careful tokens least' (next >>= f) c := by
  obtain ⟨rest, enums⟩ := c
  intro within
  cases rest with
  | nil => exact trivial
  | cons t rest =>
      refine (further t rest rfl (within.subset List.mem_cons_self)
        ((List.suffix_cons t rest).trans within)).imp (fun result left more => ?_)
        fun _ stands => stands
      exact ((Cursor.Takes.of_cons rfl).trans more).mono (by dsimp only; omega)

theorem skipBlank : Careful tokens (fun _ => 0) skipBlank c := by
  intro _
  have suffix := List.dropWhile_suffix (l := c.rest) fun t => decide (t.kind = .empty)
  unfold Descent.skipBlank
  split
  · trivial
  · rename_i t rest shape
    rw [shape] at suffix
    exact ⟨suffix, suffix.length_le⟩

theorem expect {kind : TokenKind} {expected : String} :
    Careful tokens (fun _ => 1) (expect kind expected) c := by
  refine peek fun t rest shape member => ?_
  split
  · intro within
    rw [Descent.next, shape]
    exact .of_cons shape
  · exact refuse ⟨t, member, rfl⟩

theorem define {enum : Enumeration} : Careful tokens (fun _ => 0) (define enum) c := fun _ =>
  ⟨List.suffix_refl _, Nat.le_refl _⟩

/-- A loop takes what its first round takes. -/
theorem loop {round : σ → Descent (Round σ α)} {state : σ} {count : Nat}
    (first : Careful tokens (fun _ => count) (round state) c)
    (careful : ∀ state c, Careful tokens Round.takes (round state) c) (rounds : Nat) :
    Careful tokens (fun _ => count) (loop round rounds state) c := by
  induction rounds generalizing state c count with
  | zero => exact unfinished
  | succ rounds ih =>
      refine bind first fun result left takes => ?_
      cases result with
      | leave value => exact pure (Nat.sub_self count)
      | again state =>
          exact (ih ((careful state left).mono fun _ => Nat.zero_le _)).mono fun _ => by omega

end Careful

theorem begin_standsAt {start : Token} {name : List Char} {cause : ParseError}
    (member : start ∈ tokens) (refused : OpenEnum.begin start name = .error cause) :
    cause.StandsAt tokens := by
  unfold OpenEnum.begin at refused
  split at refused
  · cases refused
    exact ⟨start, member, rfl⟩
  · cases refused

theorem take_standsAt {e : OpenEnum} {t : Token} {cause : ParseError}
    (started : e.start ∈ tokens) (member : t ∈ tokens) (refused : e.take t = .error cause) :
    cause.StandsAt tokens := by
  unfold OpenEnum.take at refused
  split at refused
  case h_3 =>
    split at refused
    · cases refused
      exact ⟨t, member, rfl⟩
    · cases refused
  case h_4 =>
    split at refused
    · cases refused
    · split at refused
      · cases refused
      · cases refused
        exact ⟨t, member, rfl⟩
  case h_5 =>
    cases refused
    exact ⟨e.start, started, rfl⟩
  all_goals
    cases refused
    try exact ⟨t, member, rfl⟩

theorem enumRound_careful {start : Token} (started : start ∈ tokens) {name : String}
    (state : List String × Nat) (c : Cursor) :
    Careful tokens Round.takes (enumRound start name state) c := by
  refine .next fun t rest _ member => ?_
  refine .bind (.lift (fun _ _ => rfl) fun cause refused =>
    take_standsAt started member refused) fun progress left _ => ?_
  cases progress with
  | more e => exact .pure rfl
  | closed e => exact .pure rfl

theorem levelsRound_careful (depth : Nat) (c : Cursor) :
    Careful tokens Round.takes (levelsRound depth) c := by
  unfold levelsRound
  split
  · exact .pure rfl
  · refine .bind .skipBlank fun _ _ _ => .peek fun t rest _ _ => ?_
    split
    · exact .next fun _ _ _ _ => .pure rfl
    · exact .pure rfl

theorem enumBlock_careful {start : Token} (started : start ∈ tokens) {rounds : Nat}
    {name : List Char} : Careful tokens (fun _ => 0) (enumBlock rounds start name) c := by
  refine .bind (.lift (fun _ _ => rfl) fun cause refused => begin_standsAt started refused)
    fun e _ _ => ?_
  refine .bind (.loop ((enumRound_careful started _ _).mono fun _ => Nat.zero_le _)
    (enumRound_careful started) rounds) fun ended _ _ => ?_
  refine .bind (.loop ((levelsRound_careful _ _).mono fun _ => Nat.zero_le _)
    levelsRound_careful rounds) fun _ _ _ => ?_
  exact .pure rfl

section

variable {item : Descent Body} (itemTakes : ∀ c, Careful tokens (fun _ => 1) item c)

include itemTakes

theorem statementsRound_careful {stops : Token → Bool} (out : Body) (c : Cursor) :
    Careful tokens Round.takes (statementsRound item stops out) c := by
  refine .bind .skipBlank fun _ _ _ => .peek fun t rest _ _ => ?_
  split
  · exact .pure rfl
  · exact .bind (itemTakes _) fun _ _ _ => .pure rfl

theorem statements_careful {stops : Token → Bool} {rounds : Nat} :
    Careful tokens (fun _ => 0) (statements item rounds stops) c :=
  .loop ((statementsRound_careful itemTakes _ _).mono fun _ => Nat.zero_le _)
    (statementsRound_careful itemTakes) rounds

theorem indentedBlock_careful {rounds : Nat} :
    Careful tokens (fun _ => 1) (indentedBlock item rounds) c :=
  .bind .expect fun _ _ _ => .bind (statements_careful itemTakes) fun _ _ _ =>
    .bind (.mono .expect fun _ => Nat.zero_le _) fun _ _ _ => .pure rfl

theorem optionBody_careful {rounds : Nat} :
    Careful tokens (fun _ => 0) (optionBody item rounds) c := by
  refine .peek fun head _ _ _ => ?_
  split
  · exact (indentedBlock_careful itemTakes).mono fun _ => Nat.zero_le _
  · exact .pure rfl

/-- Where an option stands, it is taken. -/
theorem optionRound_takes {rounds : Nat} {choices : List (Choice × Body)} {t : Token}
    {rest : List Token} (shape : c.rest = t :: rest) (kind : t.kind = .option) :
    Careful tokens (fun _ => 1) (optionRound item rounds choices) c := by
  refine .peek fun t' rest' same _ => ?_
  obtain ⟨rfl, -⟩ := List.cons.inj (shape.symm.trans same)
  rw [if_pos kind]
  exact .next fun _ _ _ _ => .bind (optionBody_careful itemTakes) fun _ _ _ =>
    .bind .skipBlank fun _ _ _ => .pure rfl

theorem optionRound_careful {rounds : Nat} (choices : List (Choice × Body)) (c : Cursor) :
    Careful tokens Round.takes (optionRound item rounds choices) c := by
  obtain ⟨rest, enums⟩ := c
  cases rest with
  | nil => exact fun _ => trivial
  | cons t rest =>
      by_cases kind : t.kind = .option
      · refine (optionRound_takes itemTakes rfl kind).mono fun round => ?_
        cases round with
        | again _ => exact Nat.le_refl _
        | leave _ => exact Nat.zero_le _
      · refine .peek fun t' rest' same _ => ?_
        obtain ⟨rfl, -⟩ := List.cons.inj same
        rw [if_neg kind]
        exact .pure rfl

theorem optionGroup_careful {rounds : Nat} {t : Token} {rest : List Token}
    (shape : c.rest = t :: rest) (kind : t.kind = .option) :
    Careful tokens (fun _ => 1) (optionGroup item rounds) c :=
  .loop (optionRound_takes itemTakes shape kind) (optionRound_careful itemTakes) rounds

theorem commandRound_careful {rounds : Nat} {start : Token} (started : start ∈ tokens)
    (state : List (Option String × Body) × Bool) (c : Cursor) :
    Careful tokens Round.takes (commandRound item rounds start state) c := by
  refine .bind .skipBlank fun _ _ _ => .peek fun t rest _ _ => ?_
  split
  · exact .next fun _ _ _ _ => .pure rfl
  · split
    · exact .refuse ⟨start, started, rfl⟩
    · exact .next fun _ _ _ _ => .bind (statements_careful itemTakes) fun _ _ _ => .pure rfl

theorem commandConditional_careful {rounds : Nat} {condition : String} {start : Token}
    (started : start ∈ tokens) :
    Careful tokens (fun _ => 0) (commandConditional item rounds condition start) c :=
  .bind (statements_careful itemTakes) fun _ _ _ =>
    .loop ((commandRound_careful itemTakes started _ _).mono fun _ => Nat.zero_le _)
      (commandRound_careful itemTakes started) rounds

theorem markerRound_careful {rounds : Nat} {start : Token} (started : start ∈ tokens)
    (state : List (Option String × Body) × Option String) (c : Cursor) :
    Careful tokens Round.takes (markerRound item rounds start state) c := by
  refine .bind (statements_careful itemTakes) fun _ _ _ => .peek fun t rest _ _ => ?_
  split
  · exact .next fun _ _ _ _ => .pure rfl
  · exact .next fun _ _ _ _ => .pure rfl
  · exact .next fun _ _ _ _ => .pure rfl
  · exact .refuse ⟨start, started, rfl⟩

theorem markerConditional_careful {rounds : Nat} {condition : String} {start : Token}
    (started : start ∈ tokens) :
    Careful tokens (fun _ => 0) (markerConditional item rounds condition start) c :=
  .loop ((markerRound_careful itemTakes started _ _).mono fun _ => Nat.zero_le _)
    (markerRound_careful itemTakes started) rounds

theorem onceBody_careful {rounds : Nat} :
    Careful tokens (fun _ => 0) (onceBody item rounds) c := by
  refine .peek fun head _ _ _ => ?_
  split
  · exact .bind ((indentedBlock_careful itemTakes).mono fun _ => Nat.zero_le _) fun _ _ _ =>
      .bind .skipBlank fun _ _ _ => .pure rfl
  · exact statements_careful itemTakes

theorem onceBlock_careful {rounds : Nat} :
    Careful tokens (fun _ => 0) (onceBlock item rounds) c := by
  refine .bind (onceBody_careful itemTakes) fun _ _ _ => .peek fun t _ _ _ => ?_
  split
  · exact .next fun _ _ _ _ => .pure rfl
  · exact .pure rfl

theorem commandStatement_careful {rounds : Nat} {t : Token} (member : t ∈ tokens) :
    Careful tokens (fun _ => 0) (commandStatement item rounds t) c := by
  have blamed {cause : ParseCause} : ParseError.StandsAt tokens ⟨t.position, cause⟩ :=
    ⟨t, member, rfl⟩
  unfold commandStatement
  dsimp only
  split
  · exact .pure rfl
  split
  · exact .pure rfl
  split
  · exact .refuse blamed
  split
  · exact commandConditional_careful itemTakes member
  split
  · exact .refuse blamed
  split
  · exact onceBlock_careful itemTakes
  split
  · exact .bind (enumBlock_careful member) fun _ _ _ => .bind .define fun _ _ _ => .pure rfl
  split
  · exact .refuse blamed
  split
  · exact .refuse blamed
  split
  · exact .refuse blamed
  · exact .pure rfl

theorem textStatement_careful {rounds : Nat} {t : Token} (member : t ∈ tokens) :
    Careful tokens (fun _ => 0) (textStatement item rounds t) c := by
  unfold textStatement
  split
  · exact markerConditional_careful itemTakes member
  · exact .refuse ⟨t, member, rfl⟩
  · exact .pure rfl

theorem statement_careful {rounds : Nat} :
    Careful tokens (fun _ => 1) (statement item rounds) c := by
  refine .peek fun t _ _ member => ?_
  split
  · exact .next fun _ _ _ member => commandStatement_careful itemTakes member
  · exact .next fun _ _ _ member => textStatement_careful itemTakes member
  · exact .refuse ⟨t, member, rfl⟩

theorem itemStep_careful {rounds : Nat} (c : Cursor) :
    Careful tokens (fun _ => 1) (itemStep item rounds) c := by
  refine .peek fun t rest shape member => ?_
  split
  · rename_i kind
    exact .bind (optionGroup_careful itemTakes shape kind) fun _ _ _ => .pure rfl
  · exact indentedBlock_careful itemTakes
  · exact .bind (statement_careful itemTakes) fun _ _ _ => .pure rfl

end

theorem item_careful (rounds depth : Nat) (c : Cursor) :
    Careful tokens (fun _ => 1) (item rounds depth) c := by
  induction depth generalizing c with
  | zero => exact .unfinished
  | succ depth ih => exact itemStep_careful ih c

theorem cssRound_careful (parts : List (List Char)) (c : Cursor) :
    Careful tokens Round.takes (cssRound parts) c := by
  have one (round : Round (List (List Char)) (List (List Char))) : round.takes - 1 = 0 := by
    cases round <;> rfl
  refine .peek fun t _ _ _ => ?_
  split
  · exact .next fun _ _ _ _ => .pure (one _)
  · refine .next fun _ _ _ _ => .peek fun value _ _ _ => ?_
    split
    · exact .next fun _ _ _ _ => .pure (by rw [one])
    · exact .pure (one _)
  · exact .next fun _ _ _ _ => .pure rfl
  · exact .pure rfl

theorem styled_careful {rounds : Nat} {head : NodeHead} {value : List Char} :
    Careful tokens (fun _ => 0) (styled rounds head value) c := by
  unfold styled
  split
  · rename_i first _
    refine @Careful.bind _ _ _ (fun _ => 0) _ _ _ _ ?_ fun _ _ _ => .pure rfl
    unfold cssHeader
    split
    · exact .pure rfl
    · exact .bind (.loop ((cssRound_careful _ _).mono fun _ => Nat.zero_le _) cssRound_careful
        rounds) fun _ _ _ => .pure rfl
  · exact .pure rfl

theorem nodeRound_careful {rounds : Nat} {start : Token} (started : start ∈ tokens)
    (head : NodeHead) (c : Cursor) :
    Careful tokens Round.takes (nodeRound rounds start head) c := by
  refine .peek fun t _ _ _ => ?_
  split
  · exact .pure rfl
  split
  · exact .refuse ⟨start, started, rfl⟩
  · exact .bind .expect fun _ _ _ => .bind (.mono .expect fun _ => Nat.zero_le _) fun _ _ _ =>
      .bind styled_careful fun _ _ _ => .bind .skipBlank fun _ _ _ => .pure rfl

section

variable {item : Descent Body} (itemTakes : ∀ c, Careful tokens (fun _ => 1) item c)

include itemTakes

theorem node_careful {rounds : Nat} : Careful tokens (fun _ => 1) (node item rounds) c := by
  refine .peek fun start _ _ started => ?_
  refine .bind (.loop ((nodeRound_careful started _ _).mono fun _ => Nat.zero_le _)
    (nodeRound_careful started) rounds) fun head _ _ => ?_
  split
  · exact .refuse ⟨start, started, rfl⟩
  · exact .bind .expect fun _ _ _ => .bind (statements_careful itemTakes) fun _ _ _ =>
      .bind (.mono .expect fun _ => Nat.zero_le _) fun _ _ _ => .pure rfl

theorem documentRound_careful {rounds : Nat} (nodes : List Node) (c : Cursor) :
    Careful tokens Round.takes (documentRound item rounds nodes) c := by
  refine .bind .skipBlank fun _ _ _ => .peek fun t _ _ _ => ?_
  split
  · exact .pure rfl
  split
  · exact .next fun _ _ _ member => .bind (enumBlock_careful member) fun _ _ _ =>
      .bind .define fun _ _ _ => .pure rfl
  · exact .bind (node_careful itemTakes) fun _ _ _ => .pure rfl

theorem document_careful {rounds : Nat} :
    Careful tokens (fun _ => 0) (document item rounds) c :=
  .bind (.loop ((documentRound_careful itemTakes _ _).mono fun _ => Nat.zero_le _)
    (documentRound_careful itemTakes) rounds) fun _ _ _ _ => .refl _

end

theorem Careful.takes {x : Descent α} {value : α} {left : Cursor}
    (careful : Careful tokens least x c) (within : c.rest <:+ tokens)
    (read : x c = .read value left) : c.Takes (least value) left := by
  have met := careful within
  rw [read] at met
  exact met

/-- A round behind which the loop goes on leaves fewer of the tokens that were there. -/
def Tight (round : σ → Descent (Round σ α)) : Prop :=
  ∀ ⦃state c further left⦄, round state c = .read (.again further) left → c.Takes 1 left

theorem tight_of_careful {round : σ → Descent (Round σ α)} (tokens : Cursor → List Token)
    (within : ∀ c, c.rest <:+ tokens c)
    (careful : ∀ state c, Careful (tokens c) Round.takes (round state) c) : Tight round :=
  fun state c _ _ read => (careful state c).takes (within c) read

/-- Every loop of a descent is tight. -/
structure AllTight (rounds depth : Nat) : Prop where
  document : Tight (documentRound (item rounds depth) rounds)
  node : ∀ start, Tight (nodeRound rounds start)
  css : Tight cssRound
  statements : ∀ stops, Tight (statementsRound (item rounds depth) stops)
  options : Tight (optionRound (item rounds depth) rounds)
  commands : ∀ start, Tight (commandRound (item rounds depth) rounds start)
  markers : ∀ start, Tight (markerRound (item rounds depth) rounds start)
  cases : ∀ start name, Tight (enumRound start name)
  levels : Tight levelsRound

theorem allTight (rounds depth : Nat) : AllTight rounds depth := by
  have itself (c : Cursor) : c.rest <:+ c.rest := List.suffix_refl _
  have behind (start : Token) (c : Cursor) : c.rest <:+ start :: c.rest := List.suffix_cons _ _
  have started {start : Token} {tokens : List Token} : start ∈ start :: tokens :=
    List.mem_cons_self
  exact {
    document := tight_of_careful _ itself fun _ _ =>
      documentRound_careful (item_careful rounds depth) _ _
    node := fun start => tight_of_careful _ (behind start) fun _ _ => nodeRound_careful started _ _
    css := tight_of_careful _ itself fun _ _ => cssRound_careful _ _
    statements := fun _ => tight_of_careful _ itself fun _ _ =>
      statementsRound_careful (item_careful rounds depth) _ _
    options := tight_of_careful _ itself fun _ _ =>
      optionRound_careful (item_careful rounds depth) _ _
    commands := fun start => tight_of_careful _ (behind start) fun _ _ =>
      commandRound_careful (item_careful rounds depth) started _ _
    markers := fun start => tight_of_careful _ (behind start) fun _ _ =>
      markerRound_careful (item_careful rounds depth) started _ _
    cases := fun start _ => tight_of_careful _ (behind start) fun _ _ =>
      enumRound_careful started _ _
    levels := tight_of_careful _ itself fun _ _ => levelsRound_careful _ _ }

end Descent

end Dialogue.Script
