import Dialogue.Proofs.Script.Layout

set_option autoImplicit false

namespace Dialogue.Script

open Dialogue.Text

/-- The open levels behind a token, each as the token that opened it, innermost first. -/
def afterToken (opened : List Token) (t : Token) : List Token :=
  match t.kind with
  | .indent => t :: opened
  | .dedent => opened.tail
  | _ => opened

/-- The levels that tokens leave open. -/
def openIndents (tokens : List Token) : List Token :=
  tokens.foldl afterToken []

/-- The margin of the line that a token stands on. -/
def lineMargin (lines : List (List Char)) (t : Token) : Nat :=
  margin (lines.getD (t.position.line - 1) [])

/-- The margin of the line that opened the innermost level, and zero where no level is open. -/
def innermost (lines : List (List Char)) (tokens : List Token) : Nat :=
  ((openIndents tokens).map (lineMargin lines)).headD 0

theorem foldl_afterToken_flat {tokens : List Token} (opened : List Token)
    (flat : ∀ t ∈ tokens, t.kind.isShift = false) :
    tokens.foldl afterToken opened = opened := by
  induction tokens with
  | nil => rfl
  | cons t tokens ih =>
      obtain ⟨first, others⟩ := List.forall_mem_cons.mp flat
      have same : afterToken opened t = opened := by
        unfold afterToken
        cases kind : t.kind <;> simp_all [TokenKind.isShift]
      rw [List.foldl_cons, same, ih others]

theorem foldl_afterToken_dedents (opened : List Token) (count line : Nat) :
    (Layout.dedents count line).foldl afterToken opened = opened.drop count := by
  induction count generalizing opened with
  | zero => rfl
  | succ count ih =>
      rw [← List.drop_tail]
      exact ih opened.tail

theorem contentTokens_flat (inHeaders : Bool) (content : List Char) (line column : Nat) :
    ∀ t ∈ contentTokens inHeaders content line column, t.kind.isShift = false := by
  rcases contentTokens_cases inHeaders content line column with
    ⟨key, value, offset, -, same⟩ | ⟨kind, text, plain, same⟩
  · simp [same, TokenKind.isShift]
  · simpa [same] using (TokenKind.isPlain_facts plain).1

section

variable {lines : List (List Char)} {opened : List Token} {layout : Layout} {n : Nat}
  {raw : List Char}

theorem lineMargin_layout (found : lines[n]? = some raw) (kind : TokenKind) :
    lineMargin lines (.layout kind (n + 1)) = margin raw := by
  rw [lineMargin, List.getD_eq_getElem?_getD]
  exact congrArg (fun line => margin (line.getD [])) found

/-- In front of a line, the open levels become those of the line. -/
theorem opened_shift (found : lines[n]? = some raw)
    (same : opened.map (lineMargin lines) = layout.levels) :
    ((layout.shift (margin raw) (n + 1)).1.foldl afterToken opened).map (lineMargin lines) =
      (layout.shift (margin raw) (n + 1)).2 := by
  unfold Layout.shift
  split
  · exact same
  unfold Layout.indentTo
  split
  · rw [← same, ← lineMargin_layout found .indent]
    rfl
  · have kept := List.suffix_iff_eq_drop.mp
      (List.dropWhile_suffix (margin raw < ·) (l := layout.levels))
    rw [foldl_afterToken_dedents, List.map_drop, same]
    exact kept.symm

/-- The tokens of a line leave open what its layout says, each level with its margin. -/
theorem opened_lexLine (found : lines[n]? = some raw)
    (same : opened.map (lineMargin lines) = layout.levels) :
    ((lexLine layout (n + 1) raw).1.foldl afterToken opened).map (lineMargin lines) =
      (lexLine layout (n + 1) raw).2.levels := by
  have shifted := opened_shift found same
  rcases line_cases raw with blank | ⟨visible, start⟩ | ⟨visible, stop⟩ | plain
  · rw [lexLine_blank layout (n + 1) blank]
    exact same
  · rw [lexLine_start layout (n + 1) visible start, List.foldl_append]
    exact shifted
  · rw [lexLine_stop layout (n + 1) visible stop, List.foldl_append, List.foldl_append,
      foldl_afterToken_dedents]
    change List.map _ (List.drop _ _) = []
    rw [List.map_drop, shifted, List.drop_length]
  · rw [lexLine_plain layout (n + 1) plain, List.foldl_append,
      foldl_afterToken_flat _ (contentTokens_flat _ _ _ _)]
    exact shifted

theorem opened_lexFrom {run later : List (List Char)} (placed : lines.drop n = run ++ later)
    (same : opened.map (lineMargin lines) = layout.levels) :
    ((lexFrom layout (n + 1) run).1.foldl afterToken opened).map (lineMargin lines) =
      (lexFrom layout (n + 1) run).2.levels := by
  induction run generalizing layout opened n with
  | nil => exact same
  | cons raw rest ih =>
      have found : lines[n]? = some raw := by
        rw [← Nat.add_zero n, ← List.getElem?_drop, placed]
        rfl
      have behind : lines.drop (n + 1) = rest ++ later := by
        rw [← List.drop_drop, placed]
        rfl
      rw [lexFrom, List.foldl_append]
      exact ih behind (opened_lexLine found same)

end

/-- The layout behind lines and the lines themselves agree on where bodies lie. -/
theorem inHeaders_lexFrom (layout : Layout) (line : Nat) (lines : List (List Char)) :
    (lexFrom layout line lines).2.inHeaders = !lines.foldl inBodyBehind (!layout.inHeaders) := by
  induction lines generalizing layout line with
  | nil => exact (Bool.not_not _).symm
  | cons raw rest ih =>
      obtain ⟨inHeaders, levels⟩ := layout
      rw [lexFrom, ih, (lexLine_inBody inHeaders levels line raw).2, Bool.not_not,
        List.foldl_cons]

theorem lexFrom_inBody {before : List (List Char)}
    (inBody : before.foldl inBodyBehind false = true) :
    ∃ tokens levels, lexFrom .initial 1 before = (tokens, ⟨false, levels⟩) := by
  have inside := inHeaders_lexFrom .initial 1 before
  change _ = !before.foldl inBodyBehind false at inside
  rw [inBody] at inside
  exact ⟨_, _, congrArg (fun inHeaders => (_, Layout.mk inHeaders _)) inside⟩

/-- Behind the tokens in front of a line, the innermost level is that of the layout. -/
theorem innermost_indentTo {lines before rest : List (List Char)} {raw : List Char}
    {tokens : List Token} {levels : List Nat} (placed : lines = before ++ raw :: rest)
    (start : lexFrom .initial 1 before = (tokens, ⟨false, levels⟩)) :
    innermost lines (tokens ++ (Layout.indentTo levels (margin raw) (before.length + 1)).1) =
      (Layout.indentTo levels (margin raw) (before.length + 1)).2.headD 0 := by
  have found : lines[before.length]? = some raw := by
    rw [placed, List.getElem?_append_right (Nat.le_refl _), Nat.sub_self]
    rfl
  have unopened : [].map (lineMargin lines) = Layout.initial.levels := rfl
  have behind := opened_lexFrom (n := 0) placed unopened
  rw [Nat.zero_add, start] at behind
  have shifted := opened_shift found behind
  rw [innermost, openIndents, List.foldl_append]
  exact congrArg (List.headD · 0) shifted

namespace Layout

theorem indentTo_eq (levels : List Nat) (width line : Nat) :
    indentTo levels width line =
      if levels.headD 0 < width then ([.layout .indent line], width :: levels)
      else (dedents (levels.length - (levels.dropWhile (width < ·)).length) line,
        levels.dropWhile (width < ·)) :=
  rfl

theorem indentTo_head_le (levels : List Nat) (width line : Nat) :
    (indentTo levels width line).2.headD 0 ≤ width := by
  rw [indentTo_eq]
  split
  · exact Nat.le_refl _
  · change (levels.dropWhile (width < ·)).headD 0 ≤ width
    have stops := List.head_dropWhile_not (width < ·) (l := levels)
    generalize levels.dropWhile (width < ·) = kept at stops
    cases kept with
    | nil => exact Nat.zero_le _
    | cons level rest => exact Nat.le_of_not_lt (of_decide_eq_false (stops (List.cons_ne_nil _ _)))

theorem indentTo_line (levels : List Nat) (width line : Nat) :
    ∀ t ∈ (indentTo levels width line).1, t.position.line = line := by
  rw [indentTo_eq]
  split
  · exact List.forall_mem_singleton.mpr rfl
  · intro t member
    rw [(List.mem_replicate.mp member).2]
    rfl

/-- A line that is not narrower than the innermost level closes none. -/
theorem indentTo_of_le {levels : List Nat} {width : Nat} (line : Nat)
    (le : levels.headD 0 ≤ width) :
    (indentTo levels width line).1 =
      if levels.headD 0 = width then [] else [Token.layout .indent line] := by
  rw [indentTo_eq]
  by_cases same : levels.headD 0 = width
  · have stays : levels.dropWhile (width < ·) = levels := by
      cases levels with
      | nil => rfl
      | cons level rest => exact List.dropWhile_cons_of_neg (by simpa using le)
    rw [if_neg (by omega), if_pos same, stays, Nat.sub_self]
    rfl
  · rw [if_pos (by omega), if_neg same]

/-- A line that closes no level has the margin of the level that is innermost then. -/
theorem indentTo_head {levels : List Nat} {width line : Nat}
    (closesNone : ∀ t ∈ (indentTo levels width line).1, t.kind ≠ .dedent) :
    (indentTo levels width line).2.headD 0 = width := by
  have le := indentTo_head_le levels width line
  rw [indentTo_eq] at closesNone le ⊢
  split at closesNone
  · rename_i wider
    rw [if_pos wider]
    rfl
  · rename_i notWider
    rw [if_neg notWider] at le ⊢
    have count : levels.length - (levels.dropWhile (width < ·)).length = 0 := by
      by_contra some
      exact closesNone _ (List.mem_replicate.mpr ⟨some, rfl⟩) rfl
    have stays : levels.dropWhile (width < ·) = levels :=
      (List.dropWhile_suffix _).eq_of_length_le (Nat.sub_eq_zero_iff_le.mp count)
    rw [stays] at le ⊢
    exact Nat.le_antisymm le (Nat.le_of_not_lt notWider)

end Layout

/-- Inside of a body a plain line is one token behind those that lead to its level. -/
theorem lexLines_plain (levels : List Nat) (line : Nat) {raw : List Char} (plain : Plain raw)
    (rest : List (List Char)) :
    ∃ t : Token, t.kind.isPlain = true ∧ t.position = ⟨line, margin raw + 1⟩ ∧
      lexLines ⟨false, levels⟩ line (raw :: rest) =
        (Layout.indentTo levels (margin raw) line).1 ++
          t :: lexLines ⟨false, (Layout.indentTo levels (margin raw) line).2⟩ (line + 1) rest := by
  rw [lexLines_cons, lexLine_plain _ _ plain]
  rcases contentTokens_cases false (raw.dropWhile isMargin) line (margin raw + 1) with
    ⟨_, _, _, outside, -⟩ | ⟨kind, text, known, same⟩
  · cases outside
  · refine ⟨⟨kind, text, ⟨line, margin raw + 1⟩⟩, known, rfl, ?_⟩
    rw [same, List.append_assoc]
    rfl

theorem lexLines_blanks (layout : Layout) (line : Nat) {blanks : List (List Char)}
    (blank : ∀ raw ∈ blanks, raw.all isBlank = true) (rest : List (List Char)) :
    lexLines layout line (blanks ++ rest) =
      (List.range' line blanks.length).map (Token.layout .empty) ++
        lexLines layout (line + blanks.length) rest := by
  induction blanks generalizing line with
  | nil => rfl
  | cons raw others ih =>
      obtain ⟨first, more⟩ := List.forall_mem_cons.mp blank
      have behind : line + 1 + others.length = line + (raw :: others).length := by
        rw [List.length_cons]
        omega
      rw [List.cons_append, lexLines_cons, lexLine_blank layout line first, ih (line + 1) more,
        behind]
      rfl

section

variable {first second : List Char} {blanks : List (List Char)}

/-- The second of two lines with the same margin opens a level if the first has left a narrower
one innermost, and otherwise stays. -/
theorem lexLines_equalMargins (levels : List Nat) (line : Nat) (plainFirst : Plain first)
    (plainSecond : Plain second) (blank : ∀ raw ∈ blanks, raw.all isBlank = true)
    (equal : margin first = margin second) (later : List (List Char)) :
    ∃ a b further,
      lexLines ⟨false, levels⟩ line (first :: (blanks ++ second :: later)) =
        (Layout.indentTo levels (margin first) line).1 ++ a ::
          ((List.range' (line + 1) blanks.length).map (Token.layout .empty) ++
            (if (Layout.indentTo levels (margin first) line).2.headD 0 = margin first then []
              else [Token.layout .indent (line + blanks.length + 1)]) ++ b :: further) ∧
      a.kind.isPlain = true ∧ a.position = ⟨line, margin first + 1⟩ ∧
      b.kind.isPlain = true ∧ b.position = ⟨line + blanks.length + 1, margin second + 1⟩ := by
  obtain ⟨a, kindA, placeA, lexA⟩ := lexLines_plain levels line plainFirst
    (blanks ++ second :: later)
  obtain ⟨b, kindB, placeB, lexB⟩ :=
    lexLines_plain (Layout.indentTo levels (margin first) line).2 (line + blanks.length + 1)
      plainSecond later
  have stays := Layout.indentTo_of_le (line + blanks.length + 1)
    (Layout.indentTo_head_le levels (margin first) line)
  rw [← equal, stays] at lexB
  rw [lexA, lexLines_blanks _ _ blank, Nat.add_right_comm line 1, lexB, ← List.append_assoc]
  exact ⟨a, b, _, rfl, kindA, placeA, kindB, placeB⟩

/-- Between two lines of a body with the same margin, and only blank lines in between, no level
opens or closes if the margin is that of the innermost level, and otherwise a level opens. It is
that of the innermost level if the first line closes none. -/
theorem lex_equalMargins {source : String} {before later : List (List Char)}
    (lines : sourceLines source = before ++ first :: (blanks ++ second :: later))
    (inBody : before.foldl inBodyBehind false = true)
    (plainFirst : Plain first) (plainSecond : Plain second)
    (blank : ∀ raw ∈ blanks, raw.all isBlank = true)
    (equal : margin first = margin second) :
    ∃ earlier a b further,
      lex source = earlier ++ a ::
        ((List.range' (before.length + 2) blanks.length).map (Token.layout .empty) ++
          (if innermost (sourceLines source) earlier = margin first then []
            else [Token.layout .indent (before.length + blanks.length + 2)]) ++ b :: further) ∧
      a.kind.isPlain = true ∧ a.position = ⟨before.length + 1, margin first + 1⟩ ∧
      b.kind.isPlain = true ∧
      b.position = ⟨before.length + blanks.length + 2, margin second + 1⟩ ∧
      ((∀ t ∈ earlier, t.kind = .dedent → t.position.line ≠ before.length + 1) →
        innermost (sourceLines source) earlier = margin first) := by
  obtain ⟨tokens, levels, start⟩ := lexFrom_inBody inBody
  have level := innermost_indentTo lines start
  have whole : lex source = lexLines .initial 1 (sourceLines source) := rfl
  rw [lines, lexLines_append, start, Nat.add_comm 1] at whole
  obtain ⟨a, b, further, same, kindA, placeA, kindB, placeB⟩ :=
    lexLines_equalMargins levels (before.length + 1) plainFirst plainSecond blank equal later
  rw [Nat.add_right_comm before.length 1 blanks.length] at same placeB
  refine ⟨tokens ++ (Layout.indentTo levels (margin first) (before.length + 1)).1, a, b, further,
    ?_, kindA, placeA, kindB, placeB, fun closesNone => ?_⟩
  · rw [whole, same, ← level]
    exact (List.append_assoc _ _ _).symm
  · rw [level]
    refine Layout.indentTo_head fun t member kind => ?_
    exact closesNone t (List.mem_append_right _ member) kind (Layout.indentTo_line _ _ _ t member)

end

/-- Two lines of a level that the first of them opens, with a blank line in between. -/
def steady : String :=
  "title: A\n---\nStart\n    One\n\n    Two\n==="

theorem steady_stays :
    ∃ earlier a b further,
      lex steady = earlier ++ a :: Token.layout .empty 5 :: b :: further ∧
      a.position = ⟨4, 5⟩ ∧ b.position = ⟨6, 5⟩ := by
  have lines : sourceLines steady = ["title: A", "---", "Start"].map String.toList ++
      "    One".toList :: ([[]] ++ "    Two".toList :: ["===".toList]) := by
    decide +kernel
  have width : margin "    One".toList = 4 := by decide +kernel
  obtain ⟨earlier, a, b, further, same, -, placeA, -, placeB, level⟩ :=
    lex_equalMargins lines (by decide +kernel) (by decide +kernel) (by decide +kernel) (by simp)
      (by decide +kernel)
  have closesNone : ∀ t ∈ lex steady, t.kind = .dedent → t.position.line ≠ 4 := by
    decide +kernel
  have innermost := level fun t member =>
    closesNone t (same ▸ List.mem_append_left _ member)
  rw [if_pos innermost] at same
  exact ⟨earlier, a, b, further, same, by rw [placeA, width]; rfl, by rw [placeB]; rfl⟩

/-- Two options that stand where a deeper level was left, but where no level was opened. -/
def siblings : String :=
  "title: A\n---\nStart\n        Deep\n    -> One\n    -> Two\n===\n"

/-- The second option opens a level, as if it belonged to the first. -/
theorem siblings_parted :
    (∃ before later, sourceLines siblings =
        before ++ "    -> One".toList :: "    -> Two".toList :: later ∧
      before.length = 4 ∧ before.foldl inBodyBehind false = true) ∧
    Plain "    -> One".toList ∧ Plain "    -> Two".toList ∧
    margin "    -> One".toList = margin "    -> Two".toList ∧
    ∃ earlier further, lex siblings =
      earlier ++ ⟨.option, "One", ⟨5, 5⟩⟩ :: Token.layout .indent 6 ::
        ⟨.option, "Two", ⟨6, 5⟩⟩ :: further := by
  refine ⟨⟨["title: A", "---", "Start", "        Deep"].map String.toList,
    ["===", ""].map String.toList, ?_⟩, ?_, ?_, ?_,
    ⟨(lex siblings).take 7, (lex siblings).drop 10, ?_⟩⟩ <;>
  decide +kernel

end Dialogue.Script
