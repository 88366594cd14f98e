import Dialogue.Proofs.Script.Steps

set_option autoImplicit false

namespace Dialogue.Script

open Dialogue.Text

section

variable {ε σ α : Type} {f : σ → α → Except ε σ} {s next : σ}

theorem foldlM_cons_ok {x : α} (ok : f s x = .ok next) (xs : List α) :
    (x :: xs).foldlM f s = xs.foldlM f next := by
  rw [List.foldlM_cons, ok]
  rfl

theorem foldlM_append_ok {xs : List α} (ok : xs.foldlM f s = .ok next) (ys : List α) :
    (xs ++ ys).foldlM f s = ys.foldlM f next := by
  rw [List.foldlM_append, ok]
  rfl

end

/-- Tokens that say the given things lead from a state to one that satisfies a condition. -/
def Takes (s : BlockState) (lexemes : List Lexeme) (post : BlockState → Prop) : Prop :=
  ∀ tokens : List Token, tokens.map Token.lexeme = lexemes →
    ∃ after, tokens.foldlM BlockState.step s = .ok after ∧ post after

namespace Takes

variable {s s' : BlockState} {lexeme : Lexeme} {lexemes more : List Lexeme}
variable {mid post : BlockState → Prop}

theorem nil (holds : post s) : Takes s [] post := by
  intro tokens same
  obtain rfl := List.map_eq_nil_iff.mp same
  exact ⟨s, rfl, holds⟩

theorem cons (first : ∀ t : Token, t.lexeme = lexeme →
    ∃ next, s.step t = .ok next ∧ Takes next lexemes post) : Takes s (lexeme :: lexemes) post := by
  intro tokens same
  obtain ⟨t, rest, rfl, head, tail⟩ := List.map_eq_cons_iff.mp same
  obtain ⟨next, stepped, takes⟩ := first t head
  obtain ⟨after, folded, holds⟩ := takes rest tail
  exact ⟨after, (foldlM_cons_ok stepped rest).trans folded, holds⟩

theorem append (first : Takes s lexemes mid) (second : ∀ next, mid next → Takes next more post) :
    Takes s (lexemes ++ more) post := by
  intro tokens same
  obtain ⟨front, back, rfl, head, tail⟩ := List.map_eq_append_iff.mp same
  obtain ⟨next, folded, holds⟩ := first front head
  obtain ⟨after, rest, ends⟩ := second next holds back tail
  exact ⟨after, (foldlM_append_ok folded back).trans rest, ends⟩

theorem one (step : ∀ t : Token, t.lexeme = lexeme → ∃ next, s.step t = .ok next ∧ post next) :
    Takes s [lexeme] post := by
  refine .cons fun t same => ?_
  obtain ⟨next, stepped, holds⟩ := step t same
  exact ⟨next, stepped, .nil holds⟩

theorem mono (takes : Takes s lexemes mid) (weaker : ∀ next, mid next → post next) :
    Takes s lexemes post := by
  intro tokens same
  obtain ⟨after, folded, holds⟩ := takes tokens same
  exact ⟨after, folded, weaker after holds⟩

/-- Only the first token tells two states apart. -/
theorem of_step (takes : Takes s' (lexeme :: lexemes) post)
    (same : ∀ t : Token, t.lexeme = lexeme → s.step t = s'.step t) :
    Takes s (lexeme :: lexemes) post := by
  intro tokens shape
  obtain ⟨t, rest, rfl, head, -⟩ := List.map_eq_cons_iff.mp shape
  obtain ⟨after, folded, holds⟩ := takes _ shape
  refine ⟨after, ?_, holds⟩
  rw [List.foldlM_cons] at folded ⊢
  rw [same t head]
  exact folded

end Takes

/-- The statements of the innermost block have been read; a group of options may go on. -/
inductive Rests (frames : List Frame) (enums : List Enumeration) : Body → BlockState → Prop
  | plain {here : Body} : Rests frames enums here ⟨frames, here, .plain, enums⟩
  | choices {here : Body} {done : List (Choice × Body)} :
      Rests frames enums (here ++ [.options done]) ⟨frames, here, .choices done, enums⟩
  | choiceHead {here : Body} {done : List (Choice × Body)} {choice : Choice} :
      Rests frames enums (here ++ [.options (done ++ [(choice, [])])])
        ⟨frames, here, .choiceHead done choice, enums⟩

/-- A token that does not go on with options. -/
def Token.Leaves (t : Token) : Prop :=
  t.kind ≠ .option ∧ t.kind ≠ .empty ∧ t.kind ≠ .indent

namespace Rests

variable {frames : List Frame} {enums : List Enumeration} {here : Body} {s : BlockState} {t : Token}

theorem settle (rests : Rests frames enums here s) (leaves : t.Leaves) :
    s.settle t = (⟨frames, here, .plain, enums⟩ : BlockState).settle t := by
  obtain ⟨notOption, notEmpty, notIndent⟩ := leaves
  cases rests with
  | plain => rfl
  | choices =>
      simp [BlockState.settle, BlockState.settleMode, BlockState.settleChoices, BlockState.add,
        notOption, notEmpty]
  | choiceHead =>
      simp [BlockState.settle, BlockState.settleMode, BlockState.settleChoices, BlockState.add,
        notOption, notEmpty, notIndent]

theorem step (rests : Rests frames enums here s) (leaves : t.Leaves) :
    s.step t = (⟨frames, here, .plain, enums⟩ : BlockState).step t := by
  rw [BlockState.step, rests.settle leaves, BlockState.step]

theorem finish (rests : Rests frames enums here s) (leaves : t.Leaves) :
    s.finish t = (⟨frames, here, .plain, enums⟩ : BlockState).finish t := by
  simp only [BlockState.finish, rests.settle leaves]

end Rests

/-- Another option may follow those of a group. -/
inductive Offers (frames : List Frame) (enums : List Enumeration) (here : Body) :
    List (Choice × Body) → BlockState → Prop
  | start : Offers frames enums here [] ⟨frames, here, .plain, enums⟩
  | choices {done : List (Choice × Body)} :
      Offers frames enums here done ⟨frames, here, .choices done, enums⟩
  | choiceHead {done : List (Choice × Body)} {choice : Choice} :
      Offers frames enums here (done ++ [(choice, [])])
        ⟨frames, here, .choiceHead done choice, enums⟩

namespace Offers

variable {frames : List Frame} {enums : List Enumeration} {here : Body} {s : BlockState} {t : Token}
variable {done : List (Choice × Body)}

theorem step (offers : Offers frames enums here done s) (top : Unmarked frames)
    (kind : t.kind = .option) :
    s.step t = .ok ⟨frames, here, .choiceHead done (choiceOf t.text), enums⟩ := by
  cases offers with
  | start =>
      rw [step_item top (.inr (.inl kind)) (by simp [kind])]
      simp only [BlockState.takeItem, kind]
  | choices =>
      simp [BlockState.step, BlockState.settle, BlockState.settleMode, BlockState.settleChoices,
        BlockState.take, kind]
  | choiceHead =>
      simp [BlockState.step, BlockState.settle, BlockState.settleMode, BlockState.settleChoices,
        BlockState.take, kind]

theorem rests (offers : Offers frames enums here done s) (offered : done ≠ []) :
    Rests frames enums (here ++ [.options done]) s := by
  cases offers with
  | start => exact absurd rfl offered
  | choices => exact .choices
  | choiceHead => exact .choiceHead

end Offers

/-- A statement has been read; only a group of options may go on. -/
structure Added (frames : List Frame) (enums : List Enumeration) (here : Body)
    (statement : Statement) (s : BlockState) : Prop where
  rests : Rests frames (enums ++ statement.definitions) (here ++ [statement]) s
  closed : statement.isOptions = false → s.mode = .plain

theorem Added.plain {frames : List Frame} {enums : List Enumeration} {here : Body}
    {statement : Statement} :
    Added frames enums here statement
      ⟨frames, here ++ [statement], .plain, enums ++ statement.definitions⟩ :=
  ⟨.plain, fun _ => rfl⟩

/-- The first token of a statement does not continue what stands before it. -/
theorem Statement.lexemes_start {statement : Statement} (wellFormed : statement.WellFormed) :
    ∃ kind text rest, statement.lexemes = (kind, text) :: rest ∧ kind ≠ .empty ∧ kind ≠ .indent ∧
      (statement.isOptions = false → kind ≠ .option) := by
  cases statement with
  | options choices =>
      rw [Statement.WellFormed] at wellFormed
      cases choices with
      | nil => exact absurd rfl wellFormed.1
      | cons choice choices =>
          exact ⟨_, _, _, rfl, by simp, by simp, by simp [Statement.isOptions]⟩
  | conditional branches =>
      rw [Statement.WellFormed] at wellFormed
      obtain ⟨⟨condition, body, rest, rfl⟩, -⟩ := wellFormed
      exact ⟨_, _, _, rfl, by simp, by simp, by simp⟩
  | _ => exact ⟨_, _, _, rfl, by simp, by simp, by simp⟩

section

variable {frames : List Frame} {enums : List Enumeration} {here : Body}

theorem takes_cases {e : OpenEnum} {cases_ : List String}
    (arguments : ∀ case ∈ cases_, IsArgument case) :
    Takes ⟨frames, here, .enumeration e, enums⟩
      (cases_.map fun case => (.command, "case " ++ case))
      (· = ⟨frames, here, .enumeration { e with cases := e.cases ++ cases_ }, enums⟩) := by
  induction cases_ generalizing e with
  | nil => exact .nil (by rw [List.append_nil])
  | cons case cases_ ih =>
      obtain ⟨first, others⟩ := List.forall_mem_cons.mp arguments
      refine .cons fun t same => ?_
      obtain ⟨kind, text⟩ := Prod.mk.inj same
      refine ⟨_, step_case first kind text, ?_⟩
      simpa using ih (e := { e with cases := e.cases ++ [case] }) others

theorem takes_line {line : Line} (wellFormed : line.WellFormed) (top : Unmarked frames) :
    Takes ⟨frames, here, .plain, enums⟩ [(.text, line.written)]
      (Added frames enums here (.line line)) := by
  refine .one fun t same => ?_
  obtain ⟨kind, text⟩ := Prod.mk.inj same
  have unmarked : marker? line.written = none := by
    simpa using wellFormed.prose_written.marker
  refine ⟨_, ?_, .plain⟩
  rw [step_item top (.inl kind) (by simp [kind])]
  simp [BlockState.takeItem, BlockState.takeText, kind, unmarked, BlockState.add, text,
    wellFormed.lineOf_written]

/-- A command that is a statement of its own. -/
theorem takes_command {text : String} {statement : Statement} (top : Unmarked frames)
    (flat : statement.definitions = [])
    (apart : ∀ t : Token, t.text = text →
      t.text ≠ "endonce" ∧ isBranchCommand t.text.toList = false)
    (taken : ∀ (s : BlockState) (t : Token), t.text = text →
      s.takeCommand t = .ok (s.add statement)) :
    Takes ⟨frames, here, .plain, enums⟩ [(.command, text)] (Added frames enums here statement) := by
  refine .one fun t same => ?_
  obtain ⟨kind, spelled⟩ := Prod.mk.inj same
  refine ⟨_, ?_, .plain⟩
  rw [step_item top (.inr (.inr kind)) fun _ => apart t spelled]
  simp only [BlockState.takeItem, kind, taken _ t spelled, BlockState.add, flat, List.append_nil]

theorem takes_enumeration {enum : Enumeration} (top : Unmarked frames)
    (wellFormed : (Statement.enumeration enum).WellFormed) :
    Takes ⟨frames, here, .plain, enums⟩ (Statement.enumeration enum).lexemes
      (Added frames enums here (.enumeration enum)) := by
  rw [Statement.WellFormed] at wellFormed
  rw [Statement.lexemes, List.cons_append]
  refine .cons fun t same => ?_
  obtain ⟨kind, text⟩ := Prod.mk.inj same
  have shape := take_lead text (by decide)
  refine ⟨⟨frames, here, .enumeration ⟨t, enum.name, [], 0⟩, enums⟩, ?_, ?_⟩
  · rw [step_item top (.inr (.inr kind)) fun _ =>
      apart_of_take (by rw [shape]; decide) (by rw [shape]; decide)]
    simp only [BlockState.takeItem, kind, takeCommand_enum wellFormed.1 text]
  refine (takes_cases wellFormed.2).append ?_
  rintro _ rfl
  refine .one fun t same => ?_
  obtain ⟨kind, text⟩ := Prod.mk.inj same
  exact ⟨_, step_endenum rfl kind text, .plain⟩

end

/-- A statement may follow statements that are complete. -/
theorem Takes.behind {frames : List Frame} {enums : List Enumeration} {here : Body}
    {s : BlockState} {statement : Statement} {post : BlockState → Prop}
    (takes : Takes ⟨frames, here, .plain, enums⟩ statement.lexemes post)
    (wellFormed : statement.WellFormed) (rests : Rests frames enums here s)
    (parted : statement.isOptions = true → s.mode = .plain) : Takes s statement.lexemes post := by
  obtain ⟨kind, text, rest, start, notEmpty, notIndent, notOption⟩ :=
    Statement.lexemes_start wellFormed
  cases options : statement.isOptions with
  | true =>
      have plain := parted options
      cases rests with
      | plain => exact takes
      | choices => cases plain
      | choiceHead => cases plain
  | false =>
      rw [start] at takes ⊢
      refine takes.of_step fun t same => rests.step ?_
      obtain ⟨rfl, -⟩ := Prod.mk.inj same
      exact ⟨notOption options, notEmpty, notIndent⟩

/-- The statements behind `<<once>>` are read as its body, unless they are indented. -/
theorem Takes.once {frames : List Frame} {enums : List Enumeration} {here : Body}
    {lexemes : List Lexeme} {post : BlockState → Prop} (nonempty : lexemes ≠ [])
    (flat : ∀ lexeme ∈ lexemes.head?, lexeme.1 ≠ .indent)
    (takes : Takes ⟨.once here :: frames, [], .plain, enums⟩ lexemes post) :
    Takes ⟨frames, here, .onceHead, enums⟩ lexemes post := by
  cases lexemes with
  | nil => exact absurd rfl nonempty
  | cons lexeme lexemes =>
      refine takes.of_step fun t same => ?_
      have kind : t.kind ≠ .indent := by
        rw [← same] at flat
        exact flat t.lexeme rfl
      exact (BlockState.step_ease ⟨frames, here, .onceHead, enums⟩ kind).symm

theorem bodyLexemes_flat {body : List Statement} (wellFormed : WellFormedBody body)
    (more : List Lexeme) (flat : ∀ lexeme ∈ more.head?, lexeme.1 ≠ .indent) :
    ∀ lexeme ∈ (bodyLexemes body ++ more).head?, lexeme.1 ≠ .indent := by
  cases body with
  | nil => exact flat
  | cons statement rest =>
      rw [WellFormedBody] at wellFormed
      obtain ⟨kind, text, others, start, -, notIndent, -⟩ :=
        Statement.lexemes_start wellFormed.1
      rw [bodyLexemes, start]
      rintro lexeme ⟨⟩
      exact notIndent

mutual

/-- A statement that was written is read, whatever stands around it. -/
theorem takes_statement {frames : List Frame} {enums : List Enumeration} {here : Body}
    (top : Unmarked frames) : ∀ (statement : Statement), statement.WellFormed →
    Takes ⟨frames, here, .plain, enums⟩ statement.lexemes (Added frames enums here statement)
  | .line line, wellFormed => by
      rw [Statement.WellFormed] at wellFormed
      exact takes_line wellFormed top
  | .command content, wellFormed => by
      rw [Statement.WellFormed] at wellFormed
      refine takes_command top rfl ?_ ?_
      · rintro t rfl
        exact wellFormed.2.apart
      · rintro s t rfl
        exact takeCommand_command wellFormed.1.1.trimmed.trim wellFormed.2
  | .jump target, wellFormed => by
      rw [Statement.WellFormed] at wellFormed
      refine takes_command top rfl (fun t text => ?_) fun s t => takeCommand_jump wellFormed
      have shape := take_lead text (by decide)
      exact apart_of_take (by rw [shape]; decide) (by rw [shape]; decide)
  | .detour target, wellFormed => by
      rw [Statement.WellFormed] at wellFormed
      refine takes_command top rfl (fun t text => ?_) fun s t => takeCommand_detour wellFormed
      have shape := take_lead text (by decide)
      exact apart_of_take (by rw [shape]; decide) (by rw [shape]; decide)
  | .options choices, wellFormed => by
      rw [Statement.WellFormed] at wellFormed
      refine (takes_choices .start top choices wellFormed.2).mono fun s offers => ?_
      exact ⟨offers.rests wellFormed.1, by simp [Statement.isOptions]⟩
  | .conditional [], wellFormed => by
      rw [Statement.WellFormed] at wellFormed
      obtain ⟨⟨_, _, _, same⟩, -⟩ := wellFormed
      cases same
  | .conditional ((none, body) :: rest), wellFormed => by
      rw [Statement.WellFormed] at wellFormed
      obtain ⟨⟨_, _, _, same⟩, -⟩ := wellFormed
      cases same
  | .conditional ((some condition, body) :: rest), wellFormed => by
      rw [Statement.WellFormed, WellFormedBranches] at wellFormed
      obtain ⟨-, arguments, bodyWellFormed, -, restWellFormed⟩ := wellFormed
      rw [Statement.lexemes, branchesLexemes, List.cons_append, List.cons_append,
        List.append_assoc]
      refine .cons fun t same => ?_
      obtain ⟨kind, text⟩ := Prod.mk.inj same
      have text : t.text = "if " ++ condition := text
      have shape := take_lead text (by decide)
      refine ⟨⟨.branch here .command t [] (some condition) :: frames, [], .plain, enums⟩, ?_, ?_⟩
      · rw [step_item top (.inr (.inr kind)) fun _ =>
          apart_of_take (by rw [shape]; decide) (by rw [shape]; decide)]
        simp only [BlockState.takeItem, kind, takeCommand_if (arguments condition rfl) text]
        rfl
      · refine (takes_body .plain (by trivial) body bodyWellFormed fun _ _ _ => rfl).append
          fun s rests => ?_
        refine (takes_branches rests rest restWellFormed (by simp)).mono ?_
        rintro _ rfl
        have added : Added frames enums here (.conditional ((some condition, body) :: rest)) _ :=
          .plain
        simpa using added
  | .once body, wellFormed => by
      rw [Statement.WellFormed] at wellFormed
      rw [Statement.lexemes, List.cons_append]
      refine .cons fun t same => ?_
      obtain ⟨kind, text⟩ := Prod.mk.inj same
      refine ⟨⟨frames, here, .onceHead, enums⟩, ?_, ?_⟩
      · rw [step_item top (.inr (.inr kind)) fun _ =>
          apart_of_take (by rw [text]; decide) (by rw [text]; decide)]
        simp only [BlockState.takeItem, kind, takeCommand_once text]
      · refine .once (by simp) (bodyLexemes_flat wellFormed _ (by simp)) ?_
        refine (takes_body .plain (by trivial) body wellFormed fun _ _ _ => rfl).append
          fun s rests => ?_
        refine .one fun t same => ?_
        obtain ⟨kind, text⟩ := Prod.mk.inj same
        have leaves : t.Leaves := by simp [Token.Leaves, kind]
        exact ⟨_, (rests.step leaves).trans (step_endonce kind text), .plain⟩
  | .enumeration enum, wellFormed => takes_enumeration top wellFormed
termination_by structural statement => statement

/-- A body that was written is read behind statements that are complete. -/
theorem takes_body {frames : List Frame} {enums : List Enumeration} {here : Body} {s : BlockState}
    (rests : Rests frames enums here s) (top : Unmarked frames) :
    ∀ (body : List Statement), WellFormedBody body →
    (∀ next ∈ body.head?, next.isOptions = true → s.mode = .plain) →
    Takes s (bodyLexemes body) (Rests frames (enums ++ bodyDefinitions body) (here ++ body))
  | [], _, _ => .nil (by simpa using rests)
  | statement :: rest, wellFormed, parted => by
      rw [WellFormedBody] at wellFormed
      obtain ⟨first, apart, others⟩ := wellFormed
      have takes := (takes_statement top statement first).behind first rests (parted statement rfl)
      rw [bodyLexemes]
      refine takes.append fun next added => ?_
      -- Only a group of options leaves another mode behind it, and no group follows a group.
      have later := takes_body added.rests top rest others fun following behind options => by
        refine added.closed (Bool.eq_false_iff.mpr fun grouped => ?_)
        rw [apart grouped following behind] at options
        cases options
      simpa using later
termination_by structural body => body

/-- Options that were written are read behind the options of their group. -/
theorem takes_choices {frames : List Frame} {enums : List Enumeration} {here : Body}
    {s : BlockState} {done : List (Choice × Body)} (offers : Offers frames enums here done s)
    (top : Unmarked frames) :
    ∀ (choices : List (Choice × List Statement)), WellFormedChoices choices →
    Takes s (choicesLexemes choices)
      (Offers frames (enums ++ choicesDefinitions choices) here (done ++ choices))
  | [], _ => .nil (by simpa using offers)
  | (choice, []) :: rest, wellFormed => by
      rw [WellFormedChoices] at wellFormed
      refine .cons fun t same => ?_
      obtain ⟨kind, text⟩ := Prod.mk.inj same
      refine ⟨_, offers.step top kind, ?_⟩
      rw [text, wellFormed.1.choiceOf_written]
      simpa using takes_choices .choiceHead top rest wellFormed.2.2
  | (choice, statement :: body) :: rest, wellFormed => by
      rw [WellFormedChoices] at wellFormed
      obtain ⟨choiceWellFormed, bodyWellFormed, restWellFormed⟩ := wellFormed
      rw [choicesLexemes]
      simp only [List.isEmpty_cons, Bool.false_eq_true, if_false, List.cons_append,
        List.append_assoc]
      refine .cons fun t same => ?_
      obtain ⟨kind, text⟩ := Prod.mk.inj same
      refine ⟨_, offers.step top kind, .cons fun t same => ?_⟩
      obtain ⟨kind, -⟩ := Prod.mk.inj same
      refine ⟨_, step_choice_indent kind, ?_⟩
      rw [text, choiceWellFormed.choiceOf_written]
      refine (takes_body .plain (by trivial) _ bodyWellFormed fun _ _ _ => rfl).append
        fun s rests => ?_
      refine .cons fun t same => ?_
      obtain ⟨kind, -⟩ := Prod.mk.inj same
      -- A group at the end of the body is left by this dedent, which then closes the option.
      have leaves : t.Leaves := by simp [Token.Leaves, kind]
      refine ⟨_, (rests.step leaves).trans (step_choice_dedent kind), ?_⟩
      have offered : Offers frames (enums ++ bodyDefinitions (statement :: body)) here
        (done ++ [(choice, statement :: body)]) _ := .choices
      simpa using takes_choices offered top rest restWellFormed
termination_by structural choices => choices

/-- Branches that were written are read behind the first one, up to the end of the conditional. -/
theorem takes_branches {frames : List Frame} {enums : List Enumeration} {outer here : Body}
    {s : BlockState} {start : Token} {done : List (Option String × Body)}
    {condition : Option String}
    (rests : Rests (.branch outer .command start done condition :: frames) enums here s) :
    ∀ (branches : List (Option String × List Statement)), WellFormedBranches branches →
    (condition = none → branches = []) →
    Takes s (branchesLexemes "elseif" branches ++ [(.command, "endif")])
      (· = ⟨frames, outer ++ [.conditional (done ++ (condition, here) :: branches)], .plain,
        enums ++ branchesDefinitions branches⟩)
  | [], _, _ => by
      refine .one fun t same => ?_
      obtain ⟨kind, text⟩ := Prod.mk.inj same
      have leaves : t.Leaves := by simp [Token.Leaves, kind]
      exact ⟨_, (rests.step leaves).trans (step_endif kind text), by simp⟩
  | (following, body) :: rest, wellFormed, last => by
      rw [WellFormedBranches] at wellFormed
      obtain ⟨arguments, bodyWellFormed, final, restWellFormed⟩ := wellFormed
      have conditional : condition.isNone = false := by
        cases condition with
        | none => cases last rfl
        | some condition => rfl
      rw [branchesLexemes, List.cons_append, List.cons_append, List.append_assoc]
      refine .cons fun t same => ?_
      obtain ⟨kind, text⟩ := Prod.mk.inj same
      have leaves : t.Leaves := by simp [Token.Leaves, kind]
      have effect := commandEffect_branchText kind text arguments
      rw [← conditional] at effect
      refine ⟨_, (rests.step leaves).trans (step_next kind effect), ?_⟩
      refine (takes_body .plain (by trivial) body bodyWellFormed fun _ _ _ => rfl).append
        fun s rests => ?_
      simpa using takes_branches rests rest restWellFormed final
termination_by structural branches => branches

end

theorem unifyNewlines_eq_self {cs : List Char} (absent : '\r' ∉ cs) : unifyNewlines cs = cs := by
  induction cs with
  | nil => rfl
  | cons c cs ih =>
      obtain ⟨other, absent⟩ := not_or.mp (mt List.mem_cons.mpr absent)
      unfold unifyNewlines
      split
      · rename_i same
        exact same.symm
      · rename_i same
        exact absurd (List.cons.inj same).1.symm other
      · rename_i same
        obtain ⟨rfl, rfl⟩ := List.cons.inj same
        rw [if_neg (Ne.symm other), ih absent]

theorem not_mem_join {lines : List String} (absent : ∀ line ∈ lines, '\r' ∉ line.toList) :
    '\r' ∉ (join "\n" lines).toList := by
  induction lines with
  | nil => decide
  | cons line lines ih =>
      obtain ⟨first, others⟩ := List.forall_mem_cons.mp absent
      cases lines with
      | nil => exact first
      | cons next lines =>
          rw [join, String.toList_append, String.toList_append, List.mem_append, List.mem_append]
          rintro ((inside | separator) | later)
          · exact first inside
          · exact absurd separator (by decide)
          · exact ih others later

theorem sourceLines_join {line : String} {lines : List String}
    (single : ∀ part ∈ line :: lines, IsSingle part) :
    sourceLines (join "\n" (line :: lines)) = (line :: lines).map String.toList := by
  unfold sourceLines
  rw [unifyNewlines_eq_self (not_mem_join fun part member => (single part member).2)]
  exact splitAll_join fun part member => (single part member).1

theorem header?_title {title : String} (argument : IsArgument title) :
    ∃ offset, header? ('t' :: ("itle".toList ++ ':' :: ' ' :: title.toList)) =
      some ("title".toList, title.toList, offset) := by
  have key : ('t' :: ("itle".toList ++ ':' :: ' ' :: title.toList)).takeWhile isNameChar =
      "title".toList := rfl
  have behind : ('t' :: ("itle".toList ++ ':' :: ' ' :: title.toList)).dropWhile isNameChar =
      ':' :: ' ' :: title.toList := rfl
  have value : trimStart (' ' :: title.toList) = title.toList := trimStart_space argument.1.trimmed
  rw [header?, if_pos (by decide), key, behind]
  change ∃ offset, some ("title".toList, trimStart (' ' :: title.toList), _) = _
  rw [value]
  exact ⟨_, rfl⟩

theorem lexLine_title {title : String} (argument : IsArgument title) :
    ∃ column, lexLine .initial 1 ("title: " ++ title).toList =
      ([⟨.headerKey, "title", ⟨1, 1⟩⟩, ⟨.headerValue, title, ⟨1, column⟩⟩], .initial) := by
  obtain ⟨offset, found⟩ := header?_title argument
  have spelled : ("title: " ++ title).toList =
      't' :: ("itle".toList ++ ':' :: ' ' :: title.toList) := by
    rw [String.toList_append]
    rfl
  have whole : trimEnd ("title: " ++ title).toList = ("title: " ++ title).toList := by
    rw [String.toList_append]
    exact trimEnd_append argument.1.trimmed.trimEnd (mt String.toList_eq_nil_iff.mp argument.2)
  have content : ("title: " ++ title).toList.dropWhile isMargin = ("title: " ++ title).toList := by
    rw [spelled]
    rfl
  have visible : ("title: " ++ title).toList.all isBlank = false := by
    rw [spelled]
    rfl
  have notBound : ∀ {c : Char} {cs : List Char}, c ≠ 't' →
      ("title: " ++ title).toList ≠ c :: cs := by
    intro c cs other same
    rw [spelled] at same
    exact other (List.cons.inj same).1.symm
  have tokens : contentTokens true ("title: " ++ title).toList 1 1 =
      [⟨.headerKey, "title", ⟨1, 1⟩⟩, ⟨.headerValue, title, ⟨1, 1 + offset⟩⟩] := by
    rw [contentTokens, if_pos rfl, spelled, found]
    simp only [String.ofList_toList]
  refine ⟨1 + offset, ?_⟩
  unfold lexLine
  simp only [content, visible, whole, Layout.initial, Nat.sub_self, Nat.zero_add, tokens,
    if_neg (notBound (show '-' ≠ 't' by decide)), if_neg (notBound (show '=' ≠ 't' by decide)),
    Bool.false_eq_true, if_false, if_true, List.nil_append]

/-- The tokens of the canonical script. -/
theorem lex_render {title : String} {body : Body} (argument : IsArgument title)
    (wellFormed : WellFormedBody body) :
    ∃ column tokens, lex (render title body) =
        ⟨.headerKey, "title", ⟨1, 1⟩⟩ :: ⟨.headerValue, title, ⟨1, column⟩⟩ ::
          ⟨.nodeStart, "---", ⟨2, 1⟩⟩ :: tokens ∧
      tokens.map Token.lexeme = bodyLexemes body ++ [(.nodeEnd, "===")] ++ [(.eof, "")] := by
  have follows := bodyRows_follows body wellFormed (.bound 0)
  rw [List.append_nil, List.replicate_zero, List.nil_append] at follows
  have single : ∀ part ∈ ("title: " ++ title) :: "---" :: (bodyRows 0 body).map Row.line ++ ["==="],
      IsSingle part := by
    simp only [List.cons_append, List.forall_mem_cons, List.forall_mem_append, List.forall_mem_map]
    exact ⟨.append (by decide) argument.1.single, by decide,
      fun r member => (follows.lays.legible r member).single, by decide, by simp⟩
  obtain ⟨column, titleLine⟩ := lexLine_title argument
  have boundLine : lexLine .initial 2 "---".toList =
      ([⟨.nodeStart, "---", ⟨2, 1⟩⟩], ⟨false, evenLevels 0⟩) := rfl
  refine ⟨column, _, ?_, follows.lays.lexLines 3⟩
  unfold lex render
  rw [List.cons_append, List.cons_append] at single ⊢
  rw [sourceLines_join single, List.map_cons, List.map_cons, lexLines_cons, titleLine,
    lexLines_cons, boundLine, List.map_append, List.map_map]
  rfl

theorem BlockState.step_bound (s : BlockState) {t : Token}
    (bound : t.kind = .nodeEnd ∨ t.kind = .eof) (after : BlockState) : s.step t ≠ .ok after := by
  intro ok
  have suits := settle_suits s t
  unfold BlockState.step at ok
  generalize s.settle t = settled at suits ok
  obtain ⟨frames, here, mode, enums⟩ := settled
  cases mode with
  | plain =>
      rcases takePlain_ok ok with ⟨kind, -⟩ | taken | closing
      · rcases bound with bound | bound <;> simp [bound] at kind
      · rcases bound with bound | bound <;> simp [BlockState.takeItem, bound] at taken
      · have layout : t.kind ≠ .dedent ∧ t.content ≠ [t] := by
          rcases bound with bound | bound <;> simp [Token.content, Token.isContent, bound]
        cases closing with
        | indented stack kind => exact layout.1 kind
        | choice stack kind => exact layout.1 kind
        | onceIndented stack kind => exact layout.1 kind
        | once stack closer => exact layout.2 (content_of_kind (.inr (.inr closer.1)))
        | next stack continues => exact layout.2 continues.content
        | conditional stack closes => exact layout.2 closes.content
  | enumeration e =>
      obtain ⟨progress, taken, -⟩ := bind_ok ok
      rcases bound with bound | bound <;> simp [OpenEnum.take, bound] at taken
  | _ => rcases bound with bound | bound <;> simp [Mode.Suits, IsCommand, bound] at suits

theorem foldlM_body {head : NodeHead} {title : String} {enums : List Enumeration}
    {nodes : List Node} {block after : BlockState} {tokens : List Token}
    (ok : tokens.foldlM BlockState.step block = .ok after) :
    tokens.foldlM DocumentState.step ⟨.body head title block, enums, nodes⟩ =
      .ok ⟨.body head title after, enums, nodes⟩ := by
  induction tokens generalizing block with
  | nil =>
      obtain rfl := Except.ok.inj ok
      rfl
  | cons t tokens ih =>
      obtain ⟨next, stepped, rest⟩ := bind_ok ok
      have inner : ¬ (t.kind = .nodeEnd || t.kind = .eof) = true := by
        intro bound
        simp only [Bool.or_eq_true, decide_eq_true_eq] at bound
        exact block.step_bound bound next stepped
      have taken : DocumentState.step ⟨.body head title block, enums, nodes⟩ t =
          .ok ⟨.body head title next, enums, nodes⟩ := by
        simp only [DocumentState.step, if_neg inner, stepped]
        rfl
      rw [foldlM_cons_ok taken]
      exact ih rest

/-- A title that is told from a style. -/
def IsTitle (title : String) : Prop :=
  IsArgument title ∧ after? cssOpen title.toList = none

instance (title : String) : Decidable (IsTitle title) :=
  inferInstanceAs (Decidable (_ ∧ _))

/-- The node that the canonical script of a body stands for. -/
def soleNode (title : String) (body : Body) : Node :=
  ⟨title, Table.empty.insert "title" title, [], [], none, body, 1⟩

/-- The head of a node with a title and no other header. -/
def titleHead (title : String) : NodeHead :=
  ⟨⟨.headerKey, "title", ⟨1, 1⟩⟩, Table.empty.insert "title" title, some title, [], [], none⟩

theorem foldlM_title {title : String} (titled : IsTitle title) (column : Nat) :
    [⟨.headerKey, "title", ⟨1, 1⟩⟩, ⟨.headerValue, title, ⟨1, column⟩⟩,
      ⟨.nodeStart, "---", ⟨2, 1⟩⟩].foldlM DocumentState.step .initial =
      .ok ⟨.body (titleHead title) title .initial, [], []⟩ := by
  obtain ⟨⟨phrase, nonempty⟩, unstyled⟩ := titled
  have meaning : trimmed title = title := by
    rw [trimmed, phrase.trimmed.trim, String.ofList_toList]
  have headed : afterHeader (.begin ⟨.headerKey, "title", ⟨1, 1⟩⟩) "title" title =
      .header (titleHead title) := by
    simp only [afterHeader, phrase.trimmed.trim, unstyled, NodeHead.record, meaning,
      NodeHead.begin, titleHead]
  have named : title.isEmpty = false := by simpa using nonempty
  have key : DocumentState.initial.step ⟨.headerKey, "title", ⟨1, 1⟩⟩ =
      .ok ⟨.headerValue (.begin ⟨.headerKey, "title", ⟨1, 1⟩⟩) "title", [], []⟩ := rfl
  have value : DocumentState.step
      ⟨.headerValue (.begin ⟨.headerKey, "title", ⟨1, 1⟩⟩) "title", [], []⟩
        ⟨.headerValue, title, ⟨1, column⟩⟩ = .ok ⟨.header (titleHead title), [], []⟩ := by
    rw [← headed]
    rfl
  have bound : DocumentState.step ⟨.header (titleHead title), [], []⟩
      ⟨.nodeStart, "---", ⟨2, 1⟩⟩ = .ok ⟨.body (titleHead title) title .initial, [], []⟩ := by
    simp only [DocumentState.step, takeHeader, titleHead, named]
    rfl
  rw [foldlM_cons_ok key, foldlM_cons_ok value, foldlM_cons_ok bound]
  rfl

/-- The tokens of a body and the bound behind it complete the node. -/
theorem foldlM_node {title : String} {body : Body} (wellFormed : WellFormedBody body)
    {tokens : List Token} {stop : Token} (shape : tokens.map Token.lexeme = bodyLexemes body)
    (bound : stop.kind = .nodeEnd) :
    (tokens ++ [stop]).foldlM DocumentState.step ⟨.body (titleHead title) title .initial, [], []⟩ =
      .ok ⟨.between, bodyDefinitions body, [soleNode title body]⟩ := by
  have initial : Rests [] [] [] BlockState.initial := .plain
  obtain ⟨after, folded, rests⟩ :=
    takes_body initial trivial body wellFormed (fun _ _ _ => rfl) tokens shape
  have closed : after.finish stop = .ok (body, bodyDefinitions body) := by
    rw [rests.finish (by simp [Token.Leaves, bound])]
    simp [BlockState.finish, BlockState.settle, BlockState.settleMode, closeOnces, bound]
  have ended : DocumentState.step ⟨.body (titleHead title) title after, [], []⟩ stop =
      .ok ⟨.between, bodyDefinitions body, [soleNode title body]⟩ := by
    simp only [DocumentState.step, bound, closed]
    rfl
  rw [foldlM_append_ok (foldlM_body folded), foldlM_cons_ok ended]
  rfl

/-- The canonical script of a well-formed body is read as one node with that title and body. -/
theorem parse_render {title : String} {body : Body} (titled : IsTitle title)
    (wellFormed : WellFormedBody body) :
    parse (render title body) = .ok ⟨bodyDefinitions body, [soleNode title body]⟩ := by
  obtain ⟨column, tokens, lexed, shape⟩ := lex_render titled.1 wellFormed
  obtain ⟨node, last, rfl, nodeShape, lastShape⟩ := List.map_eq_append_iff.mp shape
  obtain ⟨inner, bound, rfl, bodyShape, boundShape⟩ := List.map_eq_append_iff.mp nodeShape
  obtain ⟨stop, rfl, stopShape⟩ := List.map_eq_singleton_iff.mp boundShape
  obtain ⟨eof, rfl, eofShape⟩ := List.map_eq_singleton_iff.mp lastShape
  have stopKind : stop.kind = .nodeEnd := congrArg Prod.fst stopShape
  have eofKind : eof.kind = .eof := congrArg Prod.fst eofShape
  have finished : DocumentState.step ⟨.between, bodyDefinitions body, [soleNode title body]⟩ eof =
      .ok ⟨.finished, bodyDefinitions body, [soleNode title body]⟩ := by
    simp only [DocumentState.step, takeBetween, eofKind]
    rfl
  have split : lex (render title body) = [⟨.headerKey, "title", ⟨1, 1⟩⟩,
      ⟨.headerValue, title, ⟨1, column⟩⟩, ⟨.nodeStart, "---", ⟨2, 1⟩⟩] ++
        ((inner ++ [stop]) ++ [eof]) := lexed
  rw [parse, parseTokens, split, foldlM_append_ok (foldlM_title titled column),
    foldlM_append_ok (foldlM_node wellFormed bodyShape stopKind), foldlM_cons_ok finished]
  rfl

/-- A body with every kind of statement, of which options and a conditional are nested. -/
def tavern : Body :=
  [.line ⟨some "Mira", "Welcome back.", ["warm", "mood:calm"], none⟩,
    .options
      [(⟨"Order soup", ["food"], none, some "$coins > 2"⟩,
          [.command "set $coins to $coins - 2",
            .conditional
              [(some "visited(\"Soup\")", [.line ⟨none, "The usual.", [], none⟩]),
                (none, [.options [(⟨"Taste it", [], none, none⟩, [.detour "Soup"])]])]]),
        (⟨"Leave", [], none, none⟩, [])],
    .once [.jump "Street"]]

theorem tavern_wellFormed : WellFormedBody tavern := by
  have welcome : Line.WellFormed ⟨some "Mira", "Welcome back.", ["warm", "mood:calm"], none⟩ := by
    constructor <;> decide
  have usual : Line.WellFormed ⟨none, "The usual.", [], none⟩ := by
    constructor <;> decide
  have order : Choice.WellFormed ⟨"Order soup", ["food"], none, some "$coins > 2"⟩ := by
    constructor <;> decide
  have taste : Choice.WellFormed ⟨"Taste it", [], none, none⟩ := by
    constructor <;> decide
  have leave : Choice.WellFormed ⟨"Leave", [], none, none⟩ := by
    constructor <;> decide
  have paid : IsArgument "set $coins to $coins - 2" ∧
      IsPlain "set $coins to $coins - 2".toList := by decide
  have targets : IsArgument "Soup" ∧ IsArgument "Street" := by decide
  have known : IsArgument "visited(\"Soup\")" := by decide
  simp [tavern, WellFormedBody, WellFormedChoices, WellFormedBranches, Statement.WellFormed,
    -String.reduceToList, Statement.isOptions, welcome, usual, order, taste, leave, paid, targets,
    known]

theorem tavern_read_back :
    IsTitle "Tavern" ∧ WellFormedBody tavern ∧
      parse (render "Tavern" tavern) = .ok ⟨[], [soleNode "Tavern" tavern]⟩ :=
  ⟨by decide, tavern_wellFormed, parse_render (by decide) tavern_wellFormed⟩

end Dialogue.Script
