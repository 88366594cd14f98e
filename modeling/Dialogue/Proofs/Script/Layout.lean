import Dialogue.Proofs.Script.BlankLines

set_option autoImplicit false

namespace Dialogue.Script

open Dialogue.Text

/-- How many spaces and tabs a line starts with. -/
def margin (raw : List Char) : Nat :=
  (raw.takeWhile isMargin).length

/-- A line without its margin and the white space at its end. -/
def bare (raw : List Char) : List Char :=
  trimEnd (raw.dropWhile isMargin)

/-- The line is not blank and does not bound a body. -/
structure Plain (raw : List Char) : Prop where
  visible : raw.all isBlank = false
  notStart : bare raw ≠ ['-', '-', '-']
  notStop : bare raw ≠ ['=', '=', '=']

instance (raw : List Char) : Decidable (Plain raw) :=
  decidable_of_iff
    (raw.all isBlank = false ∧ bare raw ≠ ['-', '-', '-'] ∧ bare raw ≠ ['=', '=', '='])
    ⟨fun ⟨visible, notStart, notStop⟩ => ⟨visible, notStart, notStop⟩,
      fun plain => ⟨plain.visible, plain.notStart, plain.notStop⟩⟩

/-- The tokens that lead to the level of a line, and the levels that are open then. -/
def Layout.shift (layout : Layout) (width line : Nat) : List Token × List Nat :=
  if layout.inHeaders then ([], layout.levels) else indentTo layout.levels width line

theorem length_sub_dropWhile (raw : List Char) :
    raw.length - (raw.dropWhile isMargin).length = margin raw := by
  have whole := congrArg List.length (List.takeWhile_append_dropWhile (p := isMargin) (l := raw))
  rw [List.length_append] at whole
  unfold margin
  omega

theorem lexLine_eq (layout : Layout) (line : Nat) (raw : List Char) :
    lexLine layout line raw =
      if raw.all isBlank then ([.layout .empty line], layout)
      else if bare raw = ['-', '-', '-'] then
        ((layout.shift (margin raw) line).1 ++ [⟨.nodeStart, "---", ⟨line, margin raw + 1⟩⟩],
          ⟨false, (layout.shift (margin raw) line).2⟩)
      else if bare raw = ['=', '=', '='] then
        ((layout.shift (margin raw) line).1 ++
            Layout.dedents (layout.shift (margin raw) line).2.length line ++
            [⟨.nodeEnd, "===", ⟨line, margin raw + 1⟩⟩],
          ⟨true, []⟩)
      else
        ((layout.shift (margin raw) line).1 ++
            contentTokens layout.inHeaders (raw.dropWhile isMargin) line (margin raw + 1),
          ⟨layout.inHeaders, (layout.shift (margin raw) line).2⟩) := by
  unfold lexLine
  simp only [all_isBlank_dropWhile, length_sub_dropWhile]
  rfl

/-- Every line is blank, starts a body, ends one, or is plain. -/
theorem line_cases (raw : List Char) :
    raw.all isBlank = true ∨
      raw.all isBlank = false ∧ bare raw = ['-', '-', '-'] ∨
      raw.all isBlank = false ∧ bare raw = ['=', '=', '='] ∨ Plain raw := by
  cases blank : raw.all isBlank with
  | true => exact .inl rfl
  | false =>
      by_cases start : bare raw = ['-', '-', '-']
      · exact .inr (.inl ⟨rfl, start⟩)
      · by_cases stop : bare raw = ['=', '=', '=']
        · exact .inr (.inr (.inl ⟨rfl, stop⟩))
        · exact .inr (.inr (.inr ⟨blank, start, stop⟩))

section

variable {raw : List Char} (layout : Layout) (line : Nat)

theorem lexLine_blank (blank : raw.all isBlank = true) :
    lexLine layout line raw = ([.layout .empty line], layout) := by
  rw [lexLine_eq, if_pos blank]

theorem lexLine_start (visible : raw.all isBlank = false) (start : bare raw = ['-', '-', '-']) :
    lexLine layout line raw =
      ((layout.shift (margin raw) line).1 ++ [⟨.nodeStart, "---", ⟨line, margin raw + 1⟩⟩],
        ⟨false, (layout.shift (margin raw) line).2⟩) := by
  rw [lexLine_eq, if_neg (by simp [visible]), if_pos start]

theorem lexLine_stop (visible : raw.all isBlank = false) (stop : bare raw = ['=', '=', '=']) :
    lexLine layout line raw =
      ((layout.shift (margin raw) line).1 ++
          Layout.dedents (layout.shift (margin raw) line).2.length line ++
          [⟨.nodeEnd, "===", ⟨line, margin raw + 1⟩⟩],
        ⟨true, []⟩) := by
  rw [lexLine_eq, if_neg (by simp [visible]), if_neg (by simp [stop]), if_pos stop]

theorem lexLine_plain (plain : Plain raw) :
    lexLine layout line raw =
      ((layout.shift (margin raw) line).1 ++
          contentTokens layout.inHeaders (raw.dropWhile isMargin) line (margin raw + 1),
        ⟨layout.inHeaders, (layout.shift (margin raw) line).2⟩) := by
  rw [lexLine_eq, if_neg (by simp [plain.visible]), if_neg plain.notStart, if_neg plain.notStop]

end

/-- The tokens of lines, and the layout behind them. -/
def lexFrom (layout : Layout) (line : Nat) : List (List Char) → List Token × Layout
  | [] => ([], layout)
  | raw :: rest =>
      ((lexLine layout line raw).1 ++ (lexFrom (lexLine layout line raw).2 (line + 1) rest).1,
        (lexFrom (lexLine layout line raw).2 (line + 1) rest).2)

theorem lexLines_append (layout : Layout) (line : Nat) (lines more : List (List Char)) :
    lexLines layout line (lines ++ more) =
      (lexFrom layout line lines).1 ++
        lexLines (lexFrom layout line lines).2 (line + lines.length) more := by
  induction lines generalizing layout line with
  | nil => rfl
  | cons raw rest ih =>
      have behind : line + 1 + rest.length = line + (raw :: rest).length := by
        rw [List.length_cons]
        omega
      rw [List.cons_append, lexLines_cons, ih, behind, lexFrom, List.append_assoc]

/-- At the end of input the levels close that are still open. -/
theorem lexLines_eq (layout : Layout) (line : Nat) (lines : List (List Char)) :
    lexLines layout line lines =
      (lexFrom layout line lines).1 ++
        Layout.dedents (lexFrom layout line lines).2.levels.length (line + lines.length - 1) ++
        [.layout .eof (line + lines.length)] := by
  have whole := lexLines_append layout line lines []
  rw [List.append_nil] at whole
  rw [whole, List.append_assoc]
  rfl

namespace TokenKind

/-- Whether a kind of token opens or closes a level. -/
def isShift : TokenKind → Bool
  | indent | dedent => true
  | _ => false

/-- The kinds of tokens that a plain line can consist of. -/
def isPlain : TokenKind → Bool
  | option | command | text => true
  | _ => false

theorem isPlain_facts {kind : TokenKind} (plain : kind.isPlain = true) :
    kind.isShift = false ∧ kind ≠ .eof ∧ kind ≠ .indent ∧ kind ≠ .dedent := by
  cases kind <;> simp_all [isPlain, isShift]

end TokenKind

/-- The tokens that say what stands on a line. -/
inductive LineUnit (line : Nat) (raw : List Char) : List Token → Prop
  | empty (blank : raw.all isBlank = true) : LineUnit line raw [.layout .empty line]
  | start {t : Token} (visible : raw.all isBlank = false) (mark : bare raw = ['-', '-', '-'])
      (kind : t.kind = .nodeStart) (placed : t.position.line = line) : LineUnit line raw [t]
  | stop {t : Token} (visible : raw.all isBlank = false) (mark : bare raw = ['=', '=', '='])
      (kind : t.kind = .nodeEnd) (placed : t.position.line = line) : LineUnit line raw [t]
  | plain {t : Token} (plain : Plain raw) (kind : t.kind.isPlain = true)
      (placed : t.position.line = line) : LineUnit line raw [t]
  | header {key value : Token} (plain : Plain raw)
      (keyKind : key.kind = .headerKey) (valueKind : value.kind = .headerValue)
      (keyPlaced : key.position.line = line) (valuePlaced : value.position.line = line) :
      LineUnit line raw [key, value]

/-- The tokens that say something, the end of input aside. -/
def said (tokens : List Token) : List Token :=
  tokens.filter fun t => !t.kind.isShift && t.kind ≠ .eof

@[simp] theorem said_append (tokens more : List Token) :
    said (tokens ++ more) = said tokens ++ said more :=
  List.filter_append ..

theorem said_of_shifts {tokens : List Token} (shifts : ∀ t ∈ tokens, t.kind.isShift = true) :
    said tokens = [] := by
  rw [said, List.filter_eq_nil_iff]
  intro t member
  simp [shifts t member]

theorem dedents_shift (count line : Nat) :
    ∀ t ∈ Layout.dedents count line, t.kind.isShift = true := by
  intro t member
  rw [(List.mem_replicate.mp member).2]
  rfl

theorem indentTo_shift (levels : List Nat) (width line : Nat) :
    ∀ t ∈ (Layout.indentTo levels width line).1, t.kind.isShift = true := by
  unfold Layout.indentTo
  split
  · exact List.forall_mem_singleton.mpr rfl
  · exact dedents_shift _ _

theorem shift_shift (layout : Layout) (width line : Nat) :
    ∀ t ∈ (layout.shift width line).1, t.kind.isShift = true := by
  unfold Layout.shift
  split
  · exact List.forall_mem_nil _
  · exact indentTo_shift _ _ _

/-- What stands on a line outside of bodies is one token, or a key with its value. -/
theorem contentTokens_cases (inHeaders : Bool) (content : List Char) (line column : Nat) :
    (∃ key value offset, inHeaders = true ∧ contentTokens inHeaders content line column =
        [⟨.headerKey, key, ⟨line, column⟩⟩, ⟨.headerValue, value, ⟨line, column + offset⟩⟩]) ∨
      ∃ kind text, kind.isPlain = true ∧
        contentTokens inHeaders content line column = [⟨kind, text, ⟨line, column⟩⟩] := by
  unfold contentTokens
  split
  · rename_i key value offset found
    refine .inl ⟨_, _, _, ?_, rfl⟩
    cases inHeaders with
    | true => rfl
    | false => cases found
  · split
    · exact .inr ⟨.option, _, rfl, rfl⟩
    · split
      · exact .inr ⟨.command, _, rfl, rfl⟩
      · exact .inr ⟨.text, _, rfl, rfl⟩

theorem said_plain {t : Token} (plain : t.kind.isPlain = true) : said [t] = [t] := by
  obtain ⟨shift, eof, -⟩ := TokenKind.isPlain_facts plain
  simp [said, shift, eof]

/-- Each line says one unit. -/
theorem lexLine_unit (layout : Layout) (line : Nat) (raw : List Char) :
    LineUnit line raw (said (lexLine layout line raw).1) := by
  have shifts := said_of_shifts (shift_shift layout (margin raw) line)
  rcases line_cases raw with blank | ⟨visible, start⟩ | ⟨visible, stop⟩ | plain
  · rw [lexLine_blank layout line blank]
    exact .empty blank
  · rw [lexLine_start layout line visible start, said_append, shifts]
    exact .start visible start rfl rfl
  · rw [lexLine_stop layout line visible stop, said_append, said_append, shifts,
      said_of_shifts (dedents_shift _ _)]
    exact .stop visible stop rfl rfl
  · rw [lexLine_plain layout line plain, said_append, shifts, List.nil_append]
    rcases contentTokens_cases layout.inHeaders (raw.dropWhile isMargin) line (margin raw + 1) with
      ⟨key, value, offset, -, same⟩ | ⟨kind, text, known, same⟩
    · rw [same]
      exact .header plain rfl rfl rfl rfl
    · rw [same, said_plain known]
      exact .plain plain known rfl

theorem lexFrom_units (layout : Layout) (line : Nat) (lines : List (List Char)) :
    ∃ units, said (lexFrom layout line lines).1 = units.flatten ∧
      List.Forall₂ (fun numbered unit => LineUnit numbered.2 numbered.1 unit)
        (lines.zipIdx line) units := by
  induction lines generalizing layout line with
  | nil => exact ⟨[], rfl, .nil⟩
  | cons raw rest ih =>
      obtain ⟨units, same, each⟩ := ih (lexLine layout line raw).2 (line + 1)
      refine ⟨said (lexLine layout line raw).1 :: units, ?_, .cons (lexLine_unit _ _ _) each⟩
      rw [lexFrom, said_append, same, List.flatten_cons]

/-- Where a token stands: outside of bodies, or in one with so many levels open. -/
inductive Depth where
  | outside
  | inside (levels : Nat)

namespace Depth

def levels : Depth → Nat
  | outside => 0
  | inside levels => levels

/-- How a token changes the depth. A body and a script end with no level open. -/
inductive Step : Depth → TokenKind → Depth → Prop
  | indent (n : Nat) : Step (inside n) .indent (inside (n + 1))
  | dedent (n : Nat) : Step (inside (n + 1)) .dedent (inside n)
  | start : Step outside .nodeStart (inside 0)
  | startAgain (n : Nat) : Step (inside n) .nodeStart (inside n)
  | stop {d : Depth} (closed : d.levels = 0) : Step d .nodeEnd outside
  | finish {d : Depth} (closed : d.levels = 0) : Step d .eof d
  | empty (d : Depth) : Step d .empty d
  | plain {kind : TokenKind} (d : Depth) (plain : kind.isPlain = true) : Step d kind d
  | headerKey (d : Depth) : Step d .headerKey d
  | headerValue (d : Depth) : Step d .headerValue d

/-- How tokens, one after the other, change the depth. -/
inductive Run : Depth → List TokenKind → Depth → Prop
  | nil (d : Depth) : Run d [] d
  | cons {d middle last : Depth} {kind : TokenKind} {rest : List TokenKind}
      (first : Step d kind middle) (tail : Run middle rest last) : Run d (kind :: rest) last

variable {d middle last : Depth} {kind : TokenKind} {kinds more : List TokenKind}

theorem Run.append (first : Run d kinds middle) (second : Run middle more last) :
    Run d (kinds ++ more) last := by
  induction first with
  | nil => exact second
  | cons step _ ih => exact .cons step (ih second)

theorem Run.single (step : Step d kind last) : Run d [kind] last :=
  .cons step (.nil _)

theorem Run.split (run : Run d (kinds ++ more) last) :
    ∃ middle, Run d kinds middle ∧ Run middle more last := by
  induction kinds generalizing d with
  | nil => exact ⟨d, .nil d, run⟩
  | cons kind kinds ih =>
      cases run with
      | cons step tail =>
          obtain ⟨middle, first, second⟩ := ih tail
          exact ⟨middle, .cons step first, second⟩

theorem Step.nodeEnd (step : Step d .nodeEnd last) : d.levels = 0 ∧ last = .outside := by
  cases step with
  | stop closed => exact ⟨closed, rfl⟩
  | plain _ plain => cases plain

theorem Step.eof (step : Step d .eof last) : d.levels = 0 := by
  cases step with
  | finish closed => exact closed
  | plain _ plain => cases plain

theorem Step.levels_add (step : Step d kind last) :
    d.levels + [kind].count .indent = last.levels + [kind].count .dedent := by
  cases step with
  | indent | dedent | start | startAgain | empty | headerKey | headerValue => rfl
  | stop closed => rw [closed]; rfl
  | finish => rfl
  | plain d plain =>
      obtain ⟨-, -, indent, dedent⟩ := TokenKind.isPlain_facts plain
      rw [List.count_singleton, List.count_singleton, if_neg (by simpa using indent),
        if_neg (by simpa using dedent)]

/-- Levels are opened and closed one by one. -/
theorem Run.levels_add (run : Run d kinds last) :
    d.levels + kinds.count .indent = last.levels + kinds.count .dedent := by
  induction run with
  | nil => rfl
  | @cons d middle last kind rest step _ ih =>
      have one := step.levels_add
      rw [← List.singleton_append, List.count_append, List.count_append]
      omega

theorem Run.count_le (run : Run outside (kinds ++ more) last) :
    kinds.count .dedent ≤ kinds.count .indent := by
  obtain ⟨middle, first, -⟩ := run.split
  have balance : 0 + _ = _ := first.levels_add
  omega

/-- Where a body or the script ends, all levels are closed. -/
theorem Run.count_eq (run : Run outside (kinds ++ kind :: more) last)
    (ending : kind = .nodeEnd ∨ kind = .eof) : kinds.count .dedent = kinds.count .indent := by
  obtain ⟨middle, first, second⟩ := run.split
  have balance : 0 + _ = _ := first.levels_add
  have closed : middle.levels = 0 := by
    cases second with
    | cons step _ =>
        rcases ending with rfl | rfl
        · exact step.nodeEnd.1
        · exact step.eof
  omega

theorem Run.no_shift (run : Run outside kinds last) (noBody : .nodeStart ∉ kinds) :
    ∀ kind ∈ kinds, kind.isShift = false := by
  generalize from_ : Depth.outside = d at run
  induction run with
  | nil => exact List.forall_mem_nil _
  | @cons d middle last kind rest step _ ih =>
      subst from_
      rw [List.mem_cons, not_or] at noBody
      obtain ⟨here, later⟩ := noBody
      have stays : middle = .outside ∧ kind.isShift = false := by
        cases step with
        | start => exact absurd rfl here
        | plain _ plain => exact ⟨rfl, (TokenKind.isPlain_facts plain).1⟩
        | _ => exact ⟨rfl, rfl⟩
      exact List.forall_mem_cons.mpr ⟨stays.2, ih later stays.1.symm⟩

/-- From the beginning or the end of a body to the next body no level is opened or closed. -/
theorem Run.flat {stretch : List TokenKind} (run : Run outside (kinds ++ stretch ++ more) last)
    (begins : kinds = [] ∨ ∃ earlier, kinds = earlier ++ [.nodeEnd])
    (noBody : .nodeStart ∉ stretch) : ∀ kind ∈ stretch, kind.isShift = false := by
  obtain ⟨middle, first, -⟩ := run.split
  obtain ⟨from_, earlier, along⟩ := first.split
  have outside : from_ = .outside := by
    rcases begins with rfl | ⟨front, rfl⟩
    · cases earlier
      rfl
    · obtain ⟨_, -, last⟩ := earlier.split
      cases last with
      | cons step tail =>
          cases tail
          exact step.nodeEnd.2
  subst outside
  exact along.no_shift noBody

end Depth

namespace Layout

def depth (layout : Layout) : Depth :=
  if layout.inHeaders then .outside else .inside layout.levels.length

/-- Outside of bodies no level is open. -/
def Flat (layout : Layout) : Prop :=
  layout.inHeaders = true → layout.levels = []

theorem run_dedents (count rest line : Nat) :
    Depth.Run (.inside (count + rest)) ((dedents count line).map Token.kind) (.inside rest) := by
  induction count with
  | zero =>
      rw [Nat.zero_add]
      exact .nil _
  | succ count ih =>
      rw [Nat.add_right_comm]
      exact .cons (.dedent _) ih

theorem run_indentTo (levels : List Nat) (width line : Nat) :
    Depth.Run (.inside levels.length) ((indentTo levels width line).1.map Token.kind)
      (.inside (indentTo levels width line).2.length) := by
  unfold indentTo
  split
  · exact .single (.indent _)
  · have fewer := List.length_dropWhile_le (width < ·) levels
    have closing := run_dedents (levels.length - (levels.dropWhile (width < ·)).length)
      (levels.dropWhile (width < ·)).length line
    rw [Nat.sub_add_cancel fewer] at closing
    exact closing

variable {layout : Layout}

/-- The tokens in front of a line keep to the depth, and outside of bodies there are none. -/
theorem Flat.shift (flat : layout.Flat) (width line : Nat) :
    Depth.Run layout.depth ((layout.shift width line).1.map Token.kind)
        (Layout.depth ⟨layout.inHeaders, (layout.shift width line).2⟩) ∧
      Layout.Flat ⟨layout.inHeaders, (layout.shift width line).2⟩ := by
  obtain ⟨inHeaders, levels⟩ := layout
  cases inHeaders with
  | true => exact ⟨.nil _, flat⟩
  | false => exact ⟨run_indentTo levels width line, fun outside => Bool.noConfusion outside⟩

/-- A `---` outside of bodies starts one, and inside it changes nothing. -/
theorem step_nodeStart (inHeaders : Bool) (levels : List Nat)
    (flat : Layout.Flat ⟨inHeaders, levels⟩) :
    Depth.Step (depth ⟨inHeaders, levels⟩) .nodeStart (depth ⟨false, levels⟩) := by
  cases inHeaders with
  | true =>
      obtain rfl : levels = [] := flat rfl
      exact .start
  | false => exact .startAgain _

/-- A `===` closes all levels and leaves the body. -/
theorem run_nodeEnd (inHeaders : Bool) (levels : List Nat) (line : Nat)
    (flat : Layout.Flat ⟨inHeaders, levels⟩) :
    Depth.Run (depth ⟨inHeaders, levels⟩)
      ((dedents levels.length line).map Token.kind ++ [.nodeEnd]) .outside := by
  cases inHeaders with
  | true =>
      obtain rfl : levels = [] := flat rfl
      exact .single (.stop rfl)
  | false => exact (run_dedents levels.length 0 line).append (.single (.stop rfl))

theorem run_contentTokens (d : Depth) (inHeaders : Bool) (content : List Char)
    (line column : Nat) :
    Depth.Run d ((contentTokens inHeaders content line column).map Token.kind) d := by
  rcases contentTokens_cases inHeaders content line column with
    ⟨key, value, offset, -, same⟩ | ⟨kind, text, plain, same⟩
  · rw [same]
    exact .cons (.headerKey d) (.single (.headerValue d))
  · rw [same]
    exact .single (.plain d plain)

/-- The tokens of a line keep to the depth. -/
theorem Flat.lexLine (flat : layout.Flat) (line : Nat) (raw : List Char) :
    Depth.Run layout.depth ((lexLine layout line raw).1.map Token.kind)
        (lexLine layout line raw).2.depth ∧
      (lexLine layout line raw).2.Flat := by
  obtain ⟨shifted, kept⟩ := flat.shift (margin raw) line
  rcases line_cases raw with blank | ⟨visible, start⟩ | ⟨visible, stop⟩ | plain
  · rw [lexLine_blank layout line blank]
    exact ⟨.single (.empty _), flat⟩
  · rw [lexLine_start layout line visible start, List.map_append]
    exact ⟨shifted.append (.single (step_nodeStart _ _ kept)), fun outside => nomatch outside⟩
  · rw [lexLine_stop layout line visible stop, List.map_append, List.map_append,
      List.append_assoc]
    exact ⟨shifted.append (run_nodeEnd _ _ line kept), fun _ => rfl⟩
  · rw [lexLine_plain layout line plain, List.map_append]
    exact ⟨shifted.append (run_contentTokens _ _ _ _ _), kept⟩

/-- The tokens of lines keep to the depth. -/
theorem Flat.lexFrom (flat : layout.Flat) (line : Nat) (lines : List (List Char)) :
    Depth.Run layout.depth ((lexFrom layout line lines).1.map Token.kind)
        (lexFrom layout line lines).2.depth ∧
      (lexFrom layout line lines).2.Flat := by
  induction lines generalizing layout line with
  | nil => exact ⟨.nil _, flat⟩
  | cons raw rest ih =>
      obtain ⟨first, kept⟩ := flat.lexLine line raw
      obtain ⟨later, last⟩ := ih kept (line + 1)
      rw [Script.lexFrom, List.map_append]
      exact ⟨first.append later, last⟩

theorem Flat.finish (flat : layout.Flat) (line last : Nat) :
    ∃ d, Depth.Run layout.depth
      ((dedents layout.levels.length line ++ [Token.layout .eof last]).map Token.kind) d := by
  rw [List.map_append]
  obtain ⟨inHeaders, levels⟩ := layout
  cases inHeaders with
  | true =>
      obtain rfl : levels = [] := flat rfl
      exact ⟨_, .single (.finish rfl)⟩
  | false =>
      exact ⟨_, (run_dedents levels.length 0 line).append (.single (.finish (d := .inside 0) rfl))⟩

end Layout

theorem lex_eq (source : String) :
    lex source = (lexFrom .initial 1 (sourceLines source)).1 ++
      Layout.dedents (lexFrom .initial 1 (sourceLines source)).2.levels.length
        (sourceLines source).length ++
      [.layout .eof ((sourceLines source).length + 1)] := by
  rw [lex, lexLines_eq, Nat.add_comm 1, Nat.add_sub_cancel]

theorem lex_run (source : String) : ∃ d, Depth.Run .outside ((lex source).map Token.kind) d := by
  have flat : Layout.Flat .initial := fun _ => rfl
  obtain ⟨run, kept⟩ := flat.lexFrom 1 (sourceLines source)
  obtain ⟨d, closing⟩ := kept.finish (sourceLines source).length
    ((sourceLines source).length + 1)
  refine ⟨d, ?_⟩
  rw [lex_eq, List.append_assoc, List.map_append]
  exact run.append closing

/-- How often a kind of token occurs. -/
def occurrences (kind : TokenKind) (tokens : List Token) : Nat :=
  (tokens.map Token.kind).count kind

/-- How tokens are laid out over lines. -/
structure LaidOut (lines : List (List Char)) (tokens : List Token) : Prop where
  /-- The end of input is the last token and no other. -/
  ends : ∃ before, tokens = before ++ [Token.layout TokenKind.eof (lines.length + 1)] ∧
    ∀ t ∈ before, t.kind ≠ .eof
  /-- Every line says one unit, in the order of the lines. -/
  units : ∃ units, said tokens = units.flatten ∧
    List.Forall₂ (fun numbered unit => LineUnit numbered.2 numbered.1 unit)
      (lines.zipIdx 1) units
  /-- No more levels are closed than have been opened. -/
  opened : ∀ before after, tokens = before ++ after →
    occurrences .dedent before ≤ occurrences .indent before
  /-- Where a body or the script ends, all levels are closed. -/
  closed : ∀ before t after, tokens = before ++ t :: after → t.kind = .nodeEnd ∨ t.kind = .eof →
    occurrences .dedent before = occurrences .indent before
  /-- From the beginning or the end of a body to the start of the next, there are no levels. -/
  flat : ∀ before stretch after, tokens = before ++ stretch ++ after →
    (before = [] ∨ ∃ earlier t, before = earlier ++ [t] ∧ t.kind = .nodeEnd) →
    (∀ t ∈ stretch, t.kind ≠ .nodeStart) → ∀ t ∈ stretch, t.kind ≠ .indent ∧ t.kind ≠ .dedent

theorem lex_eof (source : String) :
    ∃ before, lex source = before ++ [.layout .eof ((sourceLines source).length + 1)] ∧
      ∀ t ∈ before, t.kind ≠ .eof := by
  obtain ⟨tokens, last, same, -, others⟩ := lex_ends source
  have final := lex_eq source
  rw [same] at final
  obtain ⟨front, -⟩ := List.append_inj' final rfl
  exact ⟨_, lex_eq source, front ▸ fun t member => (others t member).1⟩

theorem lex_units (source : String) :
    ∃ units, said (lex source) = units.flatten ∧
      List.Forall₂ (fun numbered unit => LineUnit numbered.2 numbered.1 unit)
        ((sourceLines source).zipIdx 1) units := by
  obtain ⟨units, same, each⟩ := lexFrom_units .initial 1 (sourceLines source)
  refine ⟨units, ?_, each⟩
  have eof : ∀ line, said [Token.layout .eof line] = [] := fun _ => rfl
  rw [lex_eq, said_append, said_append, same, said_of_shifts (dedents_shift _ _), eof,
    List.append_nil, List.append_nil]

/-- Whatever its text, the tokens of a script are laid out over its lines. -/
theorem lex_laidOut (source : String) : LaidOut (sourceLines source) (lex source) := by
  obtain ⟨d, run⟩ := lex_run source
  refine ⟨lex_eof source, lex_units source, ?_, ?_, ?_⟩
  · intro before after split
    rw [split, List.map_append] at run
    exact run.count_le
  · intro before t after split ending
    rw [split, List.map_append, List.map_cons] at run
    exact run.count_eq ending
  · intro before stretch after split begins noBody
    rw [split, List.map_append, List.map_append] at run
    have starts : before.map Token.kind = [] ∨
        ∃ earlier, before.map Token.kind = earlier ++ [.nodeEnd] := by
      rcases begins with rfl | ⟨earlier, t, rfl, kind⟩
      · exact .inl rfl
      · exact .inr ⟨earlier.map Token.kind, by rw [List.map_append, List.map_singleton, kind]⟩
    have shifts := run.flat starts (by simpa using noBody)
    intro t member
    have still := shifts t.kind (List.mem_map_of_mem member)
    constructor <;>
    · intro kind
      rw [kind] at still
      cases still

end Dialogue.Script
