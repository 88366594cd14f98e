import Dialogue.Proofs.Script.Lexing
import Dialogue.Proofs.Script.Written

set_option autoImplicit false

namespace Dialogue.Script

open Dialogue.Text

/-- What a token says, apart from where it stands. -/
abbrev Lexeme := TokenKind × String

def Token.lexeme (t : Token) : Lexeme :=
  (t.kind, t.text)

inductive Row.Legible : Row → Prop
  | text {depth : Nat} {text : String} (prose : IsProse text.toList)
      (start : ∃ c cs, text.toList = c :: cs ∧ isBlank c = false) (single : IsSingle text) :
      Legible ⟨depth, .text, text⟩
  | option {depth : Nat} {text : String} (phrase : IsPhrase text) : Legible ⟨depth, .option, text⟩
  | command {depth : Nat} {text : String} (argument : IsArgument text) :
      Legible ⟨depth, .command, text⟩

theorem command?_written {text : String} (argument : IsArgument text) :
    command? ('<' :: '<' :: (text.toList ++ ['>', '>'])) = some text.toList := by
  have ended : trimEnd (['<', '<'] ++ text.toList ++ ['>', '>']) =
      ['<', '<'] ++ (text.toList ++ ['>', '>']) := trimEnd_append (by decide) (by simp)
  have nonempty : text.toList.reverse.isEmpty = false := by
    simpa using argument.2
  change command? (['<', '<'] ++ text.toList ++ ['>', '>']) = _
  unfold command?
  rw [ended, after?_append]
  simp only [Option.bind_eq_bind, Option.bind_some, List.reverse_append]
  change Option.bind (after? ['>', '>'] (['>', '>'] ++ _)) _ = _
  rw [after?_append, Option.bind_some, nonempty]
  simp only [Bool.false_eq_true, if_false, List.reverse_reverse, argument.1.trimmed.trim]

namespace Row

theorem toList_content_option (depth : Nat) (text : String) :
    (content ⟨depth, .option, text⟩).toList = '-' :: '>' :: ' ' :: text.toList := by
  simp [content]

theorem toList_content_command (depth : Nat) (text : String) :
    (content ⟨depth, .command, text⟩).toList = '<' :: '<' :: (text.toList ++ ['>', '>']) := by
  simp [content]

namespace Legible

variable {r : Row}

theorem start (legible : r.Legible) : ∃ c cs, r.content.toList = c :: cs ∧ isBlank c = false := by
  cases legible with
  | text prose start single => exact start
  | option phrase => exact ⟨'-', _, toList_content_option _ _, by decide⟩
  | command argument => exact ⟨'<', _, toList_content_command _ _, by decide⟩

theorem single (legible : r.Legible) : IsSingle r.line := by
  have spaces : IsSingle (String.ofList (List.replicate (4 * r.depth) ' ')) := by
    simp [IsSingle, List.mem_replicate]
  refine spaces.append ?_
  cases legible with
  | text prose start single => exact single
  | option phrase => exact .append (by decide) phrase.single
  | command argument => exact .append (.append (by decide) argument.1.single) (by decide)

/-- A line does not bound a body. -/
theorem bounds (legible : r.Legible) :
    trimEnd r.content.toList ≠ ['-', '-', '-'] ∧ trimEnd r.content.toList ≠ ['=', '=', '='] := by
  have start : trimEnd r.content.toList <+: r.content.toList := List.rdropWhile_prefix isBlank _
  cases legible with
  | text prose start single => exact prose.bounds
  | option phrase =>
      rw [toList_content_option] at start ⊢
      constructor <;>
      · intro bound
        rw [bound] at start
        simp [List.cons_prefix_cons] at start
  | command argument =>
      rw [toList_content_command] at start ⊢
      constructor <;>
      · intro bound
        rw [bound] at start
        simp [List.cons_prefix_cons] at start

/-- A line is a single token of its kind. -/
theorem contentTokens (legible : r.Legible) (line column : Nat) :
    contentTokens false r.content.toList line column = [⟨r.kind, r.text, ⟨line, column⟩⟩] := by
  unfold Script.contentTokens
  cases legible with
  | text prose start single =>
      simp [Row.content, prose.option, prose.command]
  | @option depth text phrase =>
      have found : after? ['-', '>'] ('-' :: '>' :: ' ' :: text.toList) =
          some (' ' :: text.toList) := after?_append ['-', '>'] (' ' :: text.toList)
      have trimmed : trim (' ' :: text.toList) = text.toList := by
        rw [trim, trimStart_space phrase.trimmed, phrase.trimmed.trimEnd]
      simp only [toList_content_option, found, trimmed, Bool.false_eq_true, if_false,
        String.ofList_toList]
  | @command depth text argument =>
      have absent : after? ['-', '>'] ('<' :: '<' :: (text.toList ++ ['>', '>'])) = none := rfl
      simp only [toList_content_command, absent, command?_written argument, Bool.false_eq_true,
        if_false, String.ofList_toList]

end Legible

end Row

/-- The widths of levels of four spaces, the innermost first. -/
def evenLevels : Nat → List Nat
  | 0 => []
  | depth + 1 => 4 * (depth + 1) :: evenLevels depth

theorem length_evenLevels (depth : Nat) : (evenLevels depth).length = depth := by
  induction depth with
  | zero => rfl
  | succ depth ih => rw [evenLevels, List.length_cons, ih]

theorem headD_evenLevels (depth : Nat) : (evenLevels depth).headD 0 = 4 * depth := by
  cases depth <;> rfl

theorem dropWhile_evenLevels {depth inner : Nat} (within : depth ≤ inner) :
    (evenLevels inner).dropWhile (4 * depth < ·) = evenLevels depth := by
  induction inner with
  | zero =>
      obtain rfl : depth = 0 := by omega
      rfl
  | succ inner ih =>
      by_cases same : depth = inner + 1
      · subst same
        rw [evenLevels, List.dropWhile_cons, if_neg (by simp)]
      · have wider : 4 * depth < 4 * (inner + 1) := by omega
        rw [evenLevels, List.dropWhile_cons, if_pos (by simpa using wider), ih (by omega)]

theorem indentTo_deeper (depth line : Nat) :
    Layout.indentTo (evenLevels depth) (4 * (depth + 1)) line =
      ([.layout .indent line], evenLevels (depth + 1)) := by
  rw [Layout.indentTo, headD_evenLevels, if_pos (by omega)]
  rfl

theorem indentTo_back {depth inner : Nat} (within : depth ≤ inner) (line : Nat) :
    Layout.indentTo (evenLevels inner) (4 * depth) line =
      (Layout.dedents (inner - depth) line, evenLevels depth) := by
  rw [Layout.indentTo, headD_evenLevels, if_neg (by omega)]
  simp only [dropWhile_evenLevels within, length_evenLevels]

theorem lexLine_row {r : Row} (legible : r.Legible) (levels : List Nat) (line : Nat) :
    lexLine ⟨false, levels⟩ line r.line.toList =
      ((Layout.indentTo levels (4 * r.depth) line).1 ++
          [⟨r.kind, r.text, ⟨line, 4 * r.depth + 1⟩⟩],
        ⟨false, (Layout.indentTo levels (4 * r.depth) line).2⟩) := by
  obtain ⟨c, cs, spelled, nonblank⟩ := legible.start
  have content : r.line.toList.dropWhile isMargin = r.content.toList := by
    rw [Row.line, String.toList_append, String.toList_ofList, List.dropWhile_append_of_pos]
    · rw [spelled, List.dropWhile_cons, if_neg]
      intro margin
      rw [isBlank_of_isMargin margin] at nonblank
      cases nonblank
    · intro space inside
      rw [List.eq_of_mem_replicate inside]
      decide
  have width : r.line.toList.length - r.content.toList.length = 4 * r.depth := by
    rw [Row.line, String.toList_append, String.toList_ofList, List.length_append,
      List.length_replicate]
    omega
  have visible : r.content.toList.all isBlank = false := by
    simp [spelled, nonblank]
  unfold lexLine
  simp only [content, width, visible, legible.bounds.1, legible.bounds.2, legible.contentTokens,
    Bool.false_eq_true, if_false]

/-- Lines behind a line of the given depth, with the tokens of these lines and of the bound that
follows them. -/
inductive Lays : Nat → List Row → List Lexeme → Prop
  | bound {depth : Nat} :
      Lays depth [] (List.replicate depth (.dedent, "") ++ [(.nodeEnd, "===")])
  | deeper {depth : Nat} {kind : TokenKind} {text : String} {rows : List Row}
      {lexemes : List Lexeme} (legible : Row.Legible ⟨depth + 1, kind, text⟩)
      (rest : Lays (depth + 1) rows lexemes) :
      Lays depth (⟨depth + 1, kind, text⟩ :: rows) ((.indent, "") :: (kind, text) :: lexemes)
  | back {depth : Nat} {r : Row} {rows : List Row} {lexemes : List Lexeme}
      (within : r.depth ≤ depth) (legible : r.Legible) (rest : Lays r.depth rows lexemes) :
      Lays depth (r :: rows)
        (List.replicate (depth - r.depth) (.dedent, "") ++ (r.kind, r.text) :: lexemes)

theorem map_lexeme_dedents (count line : Nat) :
    (Layout.dedents count line).map Token.lexeme = List.replicate count (.dedent, "") :=
  List.map_replicate

theorem lexLine_bound (depth line : Nat) :
    (lexLine ⟨false, evenLevels depth⟩ line "===".toList).1.map Token.lexeme =
        List.replicate depth (.dedent, "") ++ [(.nodeEnd, "===")] ∧
      (lexLine ⟨false, evenLevels depth⟩ line "===".toList).2 = ⟨true, []⟩ := by
  have shifted : Layout.indentTo (evenLevels depth) 0 line = (Layout.dedents depth line, []) :=
    indentTo_back (Nat.zero_le depth) line
  have tokens : lexLine ⟨false, evenLevels depth⟩ line ['=', '=', '='] =
      ((Layout.indentTo (evenLevels depth) 0 line).1 ++
          Layout.dedents (Layout.indentTo (evenLevels depth) 0 line).2.length line ++
          [⟨.nodeEnd, "===", ⟨line, 1⟩⟩], ⟨true, []⟩) := rfl
  rw [show "===".toList = ['=', '=', '='] from rfl, tokens, shifted]
  simp only [List.map_append, map_lexeme_dedents]
  exact ⟨by simp [Token.lexeme], trivial⟩

/-- The lines lex to their tokens. -/
theorem Lays.lexLines {depth : Nat} {rows : List Row} {lexemes : List Lexeme}
    (lays : Lays depth rows lexemes) (line : Nat) :
    (lexLines ⟨false, evenLevels depth⟩ line
        (rows.map (·.line.toList) ++ ["===".toList])).map Token.lexeme =
      lexemes ++ [(.eof, "")] := by
  induction lays generalizing line with
  | @bound depth =>
      obtain ⟨tokens, next⟩ := lexLine_bound depth line
      rw [List.map_nil, List.nil_append, lexLines_cons, next, List.map_append, tokens]
      rfl
  | @deeper depth kind text rows lexemes legible rest ih =>
      rw [List.map_cons, List.cons_append, lexLines_cons, lexLine_row legible]
      simp only [indentTo_deeper, List.map_append, ih]
      rfl
  | @back depth r rows lexemes within legible rest ih =>
      rw [List.map_cons, List.cons_append, lexLines_cons, lexLine_row legible]
      simp only [indentTo_back within, List.map_append, ih, map_lexeme_dedents]
      simp [Token.lexeme]

theorem Lays.legible {depth : Nat} {rows : List Row} {lexemes : List Lexeme}
    (lays : Lays depth rows lexemes) : ∀ r ∈ rows, r.Legible := by
  induction lays with
  | bound => simp
  | deeper legible rest ih => exact List.forall_mem_cons.mpr ⟨legible, ih⟩
  | back within legible rest ih => exact List.forall_mem_cons.mpr ⟨legible, ih⟩

/-- Lines that can follow a block of the given depth. -/
structure Follows (depth : Nat) (rows : List Row) (lexemes : List Lexeme) : Prop where
  lays : Lays depth rows lexemes
  leaves : ∀ r ∈ rows.head?, r.depth ≤ depth

namespace Follows

variable {depth : Nat} {rows : List Row} {lexemes : List Lexeme}

theorem bound (depth : Nat) :
    Follows depth [] (List.replicate depth (.dedent, "") ++ [(.nodeEnd, "===")]) :=
  ⟨.bound, by simp⟩

/-- A line of the block itself. -/
theorem row {kind : TokenKind} {text : String} (legible : Row.Legible ⟨depth, kind, text⟩)
    (follows : Follows depth rows lexemes) :
    Follows depth (⟨depth, kind, text⟩ :: rows) ((kind, text) :: lexemes) := by
  refine ⟨?_, by simp⟩
  have lays := Lays.back (Nat.le_refl depth) legible follows.lays
  rwa [Nat.sub_self, List.replicate_zero, List.nil_append] at lays

theorem command {text : String} (argument : IsArgument text)
    (follows : Follows depth rows lexemes) :
    Follows depth (⟨depth, .command, text⟩ :: rows) ((.command, text) :: lexemes) :=
  follows.row (.command argument)

/-- What follows a block closes a deeper one. -/
theorem dedent (follows : Follows depth rows lexemes) :
    Follows (depth + 1) rows ((.dedent, "") :: lexemes) := by
  refine ⟨?_, fun r first => Nat.le_succ_of_le (follows.leaves r first)⟩
  have leaves := follows.leaves
  cases follows.lays with
  | bound => exact .bound
  | deeper legible rest => exact absurd (leaves _ rfl) (by simp)
  | @back _ r rows lexemes within legible rest =>
      have closed := Lays.back (Nat.le_succ_of_le within) legible rest
      rwa [Nat.succ_sub within, List.replicate_succ, List.cons_append] at closed

/-- A deeper block starts with indentation. -/
theorem indent {kind : TokenKind} {text : String}
    (follows : Follows (depth + 1) (⟨depth + 1, kind, text⟩ :: rows) lexemes) :
    Lays depth (⟨depth + 1, kind, text⟩ :: rows) ((.indent, "") :: lexemes) := by
  cases follows.lays with
  | back within legible rest =>
      simp only [Nat.sub_self, List.replicate_zero, List.nil_append]
      exact .deeper legible rest

end Follows

mutual

/-- The tokens of a statement. -/
def Statement.lexemes : Statement → List Lexeme
  | .line line => [(.text, line.written)]
  | .command content => [(.command, content)]
  | .jump target => [(.command, "jump " ++ target)]
  | .detour target => [(.command, "detour " ++ target)]
  | .options choices => choicesLexemes choices
  | .conditional branches => branchesLexemes "if" branches ++ [(.command, "endif")]
  | .once body => (.command, "once") :: bodyLexemes body ++ [(.command, "endonce")]
  | .enumeration enum =>
      (.command, "enum " ++ enum.name) ::
        enum.cases.map (fun case => (.command, "case " ++ case)) ++
        [(.command, "endenum")]

def bodyLexemes : List Statement → List Lexeme
  | [] => []
  | statement :: rest => statement.lexemes ++ bodyLexemes rest

/-- Indentation brackets what an option leads to. -/
def choicesLexemes : List (Choice × List Statement) → List Lexeme
  | [] => []
  | (choice, body) :: rest =>
      (.option, choice.written) ::
        (if body.isEmpty then [] else (.indent, "") :: bodyLexemes body ++ [(.dedent, "")]) ++
          choicesLexemes rest

def branchesLexemes (keyword : String) : List (Option String × List Statement) → List Lexeme
  | [] => []
  | (condition, body) :: rest =>
      (.command, branchText keyword condition) :: bodyLexemes body ++ branchesLexemes "elseif" rest

end

/-- A word of a command: it starts visibly and has no line ends. -/
def IsKeyword (word : String) : Prop :=
  word ≠ "" ∧ (∀ c ∈ word.toList.head?, isBlank c = false) ∧ IsSingle word

instance (word : String) : Decidable (IsKeyword word) :=
  @instDecidableAnd _ _ inferInstance
    (@instDecidableAnd _ _ (Option.decidableForallMem word.toList.head?) inferInstance)

theorem isArgument_append {keyword text : String} (leads : IsKeyword keyword)
    (argument : IsArgument text) : IsArgument (keyword ++ text) := by
  obtain ⟨named, start, single⟩ := leads
  refine ⟨⟨⟨?_, ?_⟩, single.append argument.1.single⟩, by simp [named]⟩
  · intro c first
    rw [String.toList_append, List.head?_append_of_ne_nil _ (by simpa using named)] at first
    exact start c first
  · intro c last
    rw [String.toList_append, List.getLast?_append_of_ne_nil _ (by simpa using argument.2)] at last
    exact argument.1.trimmed.2 c last

theorem isArgument_branchText {keyword : String} {condition : Option String}
    (leads : IsKeyword (keyword ++ " ")) (arguments : ∀ text ∈ condition, IsArgument text) :
    IsArgument (branchText keyword condition) := by
  cases condition with
  | none => exact (by decide : IsArgument "else")
  | some text => exact isArgument_append leads (arguments text rfl)

theorem Statement.rows_start {statement : Statement} (wellFormed : statement.WellFormed)
    (depth : Nat) : ∃ kind text rows, statement.rows depth = ⟨depth, kind, text⟩ :: rows := by
  cases statement with
  | options choices =>
      rw [Statement.WellFormed] at wellFormed
      cases choices with
      | nil => exact absurd rfl wellFormed.1
      | cons choice choices => exact ⟨_, _, _, rfl⟩
  | conditional branches =>
      rw [Statement.WellFormed] at wellFormed
      obtain ⟨⟨condition, body, rest, rfl⟩, -⟩ := wellFormed
      exact ⟨_, _, _, rfl⟩
  | _ => exact ⟨_, _, _, rfl⟩

theorem bodyRows_start {body : List Statement} (wellFormed : WellFormedBody body)
    (nonempty : body ≠ []) (depth : Nat) :
    ∃ kind text rows, bodyRows depth body = ⟨depth, kind, text⟩ :: rows := by
  cases body with
  | nil => exact absurd rfl nonempty
  | cons statement rest =>
      rw [WellFormedBody] at wellFormed
      obtain ⟨kind, text, rows, start⟩ := Statement.rows_start wellFormed.1 depth
      exact ⟨kind, text, _, by rw [bodyRows, start, List.cons_append]⟩

theorem casesRows_follows {depth : Nat} {rows : List Row} {lexemes : List Lexeme}
    {cases_ : List String} (arguments : ∀ case ∈ cases_, IsArgument case)
    (follows : Follows depth rows lexemes) :
    Follows depth (cases_.map (fun case => ⟨depth, .command, "case " ++ case⟩) ++ rows)
      (cases_.map (fun case => (.command, "case " ++ case)) ++ lexemes) := by
  induction cases_ with
  | nil => exact follows
  | cons case cases_ ih =>
      obtain ⟨first, others⟩ := List.forall_mem_cons.mp arguments
      exact (ih others).command (isArgument_append (by decide) first)

mutual

/-- The lines of a statement have the tokens of the statement, whatever follows it. -/
theorem statementRows_follows {depth : Nat} {rows : List Row} {lexemes : List Lexeme} :
    ∀ (statement : Statement), statement.WellFormed → Follows depth rows lexemes →
      Follows depth (statement.rows depth ++ rows) (statement.lexemes ++ lexemes)
  | .line line, wellFormed, follows => by
      rw [Statement.WellFormed] at wellFormed
      exact follows.row
        (.text wellFormed.prose_written wellFormed.written_start wellFormed.isSingle)
  | .command content, wellFormed, follows => by
      rw [Statement.WellFormed] at wellFormed
      exact follows.command wellFormed.1
  | .jump target, wellFormed, follows => by
      rw [Statement.WellFormed] at wellFormed
      exact follows.command (isArgument_append (by decide) wellFormed)
  | .detour target, wellFormed, follows => by
      rw [Statement.WellFormed] at wellFormed
      exact follows.command (isArgument_append (by decide) wellFormed)
  | .options choices, wellFormed, follows => by
      rw [Statement.WellFormed] at wellFormed
      exact choicesRows_follows choices wellFormed.2 follows
  | .conditional branches, wellFormed, follows => by
      rw [Statement.WellFormed] at wellFormed
      rw [Statement.rows, Statement.lexemes, List.append_assoc, List.append_assoc]
      have closed : Follows depth (⟨depth, .command, "endif"⟩ :: rows) _ :=
        follows.command (by decide)
      exact branchesRows_follows "if" (by decide) branches wellFormed.2 closed
  | .once body, wellFormed, follows => by
      rw [Statement.WellFormed] at wellFormed
      rw [Statement.rows, Statement.lexemes, List.append_assoc, List.append_assoc]
      have closed : Follows depth (⟨depth, .command, "endonce"⟩ :: rows) _ :=
        follows.command (by decide)
      exact (bodyRows_follows body wellFormed closed).command (by decide)
  | .enumeration enum, wellFormed, follows => by
      rw [Statement.WellFormed] at wellFormed
      rw [Statement.rows, Statement.lexemes, List.append_assoc, List.append_assoc]
      have closed : Follows depth (⟨depth, .command, "endenum"⟩ :: rows) _ :=
        follows.command (by decide)
      exact (casesRows_follows wellFormed.2 closed).command
        (isArgument_append (by decide) wellFormed.1)

theorem bodyRows_follows {depth : Nat} {rows : List Row} {lexemes : List Lexeme} :
    ∀ (body : List Statement), WellFormedBody body → Follows depth rows lexemes →
      Follows depth (bodyRows depth body ++ rows) (bodyLexemes body ++ lexemes)
  | [], _, follows => follows
  | statement :: rest, wellFormed, follows => by
      rw [WellFormedBody] at wellFormed
      rw [bodyRows, bodyLexemes, List.append_assoc, List.append_assoc]
      exact statementRows_follows statement wellFormed.1
        (bodyRows_follows rest wellFormed.2.2 follows)

theorem choicesRows_follows {depth : Nat} {rows : List Row} {lexemes : List Lexeme} :
    ∀ (choices : List (Choice × List Statement)), WellFormedChoices choices →
      Follows depth rows lexemes →
      Follows depth (choicesRows depth choices ++ rows) (choicesLexemes choices ++ lexemes)
  | [], _, follows => follows
  | (choice, body) :: rest, wellFormed, follows => by
      rw [WellFormedChoices] at wellFormed
      obtain ⟨choiceWellFormed, bodyWellFormed, restWellFormed⟩ := wellFormed
      -- From the last option to the first: what follows a body decides how its levels close.
      have others := choicesRows_follows rest restWellFormed follows
      have legible : ∀ depth, Row.Legible ⟨depth, .option, choice.written⟩ :=
        fun _ => .option choiceWellFormed.isPhrase
      rw [choicesRows, choicesLexemes]
      simp only [List.cons_append, List.append_assoc]
      cases body with
      | nil => exact others.row (legible depth)
      | cons statement body =>
          have inside := bodyRows_follows (statement :: body) bodyWellFormed others.dedent
          obtain ⟨kind, text, more, start⟩ :=
            bodyRows_start bodyWellFormed (List.cons_ne_nil _ _) (depth + 1)
          rw [start] at inside ⊢
          have lays := Lays.back (Nat.le_refl depth) (legible depth) inside.indent
          rw [Nat.sub_self, List.replicate_zero, List.nil_append] at lays
          refine ⟨?_, by simp⟩
          simpa using lays

theorem branchesRows_follows {depth : Nat} {rows : List Row} {lexemes : List Lexeme}
    (keyword : String) (leads : IsKeyword (keyword ++ " ")) :
    ∀ (branches : List (Option String × List Statement)), WellFormedBranches branches →
      Follows depth rows lexemes →
      Follows depth (branchesRows depth keyword branches ++ rows)
        (branchesLexemes keyword branches ++ lexemes)
  | [], _, follows => follows
  | (condition, body) :: rest, wellFormed, follows => by
      rw [WellFormedBranches] at wellFormed
      obtain ⟨arguments, bodyWellFormed, -, restWellFormed⟩ := wellFormed
      rw [branchesRows, branchesLexemes, List.append_assoc, List.append_assoc]
      have others := branchesRows_follows "elseif" (by decide) rest restWellFormed follows
      exact (bodyRows_follows body bodyWellFormed others).command
        (isArgument_branchText leads arguments)

end

end Dialogue.Script
