import Dialogue.Proofs.Text.Trim
import Dialogue.Script.Token

set_option autoImplicit false

namespace Dialogue.Script

open Dialogue.Text

theorem isBlank_of_isMargin {c : Char} (margin : isMargin c = true) : isBlank c = true := by
  simp only [isMargin, Bool.or_eq_true, decide_eq_true_eq] at margin
  rcases margin with rfl | rfl <;> decide

/-- A command has no outer white space. -/
def Token.Tidy (t : Token) : Prop :=
  t.kind = .command → trim t.text.toList = t.text.toList

theorem command?_trim {content inner : List Char} (found : command? content = some inner) :
    trim inner = inner := by
  unfold command? at found
  simp only [Option.bind_eq_bind, Option.bind_eq_some_iff] at found
  obtain ⟨_, -, reversed, -, found⟩ := found
  split at found
  · cases found
  · rw [← Option.some.inj found]
    exact trim_trim _

/-- A token of a line, of which the commands have no outer white space. -/
def Token.OfLine (t : Token) : Prop :=
  t.kind ≠ .eof ∧ t.Tidy

theorem ofLine_of_kind {t : Token} (line : t.kind ≠ .eof) (other : t.kind ≠ .command) : t.OfLine :=
  ⟨line, fun command => absurd command other⟩

theorem contentTokens_ofLine (inHeaders : Bool) (content : List Char) (line column : Nat) :
    ∀ t ∈ contentTokens inHeaders content line column, t.OfLine := by
  unfold contentTokens
  split
  · simp [ofLine_of_kind]
  · split
    · simp [ofLine_of_kind]
    · split
      · rename_i inner found
        rw [List.forall_mem_singleton]
        refine ⟨by simp, ?_⟩
        intro _
        simpa using command?_trim found
      · simp [ofLine_of_kind]

section

variable {P : Token → Prop}
variable (bare : ∀ t : Token, t.kind ∈ [.empty, .indent, .dedent, .nodeStart, .nodeEnd] → P t)

include bare

theorem dedents_forall (count line : Nat) : ∀ t ∈ Layout.dedents count line, P t := by
  intro t member
  rw [(List.mem_replicate.mp member).2]
  exact bare _ (by simp [Token.layout])

theorem indentTo_forall (levels : List Nat) (width line : Nat) :
    ∀ t ∈ (Layout.indentTo levels width line).1, P t := by
  unfold Layout.indentTo
  split
  · rw [List.forall_mem_singleton]
    exact bare _ (by simp [Token.layout])
  · exact dedents_forall bare _ _

/-- A line has tokens of layout, the bounds of a body and the tokens of its content. -/
theorem lexLine_forall
    (content : ∀ inHeaders content line column,
      ∀ t ∈ contentTokens inHeaders content line column, P t)
    (layout : Layout) (line : Nat) (raw : List Char) : ∀ t ∈ (lexLine layout line raw).1, P t := by
  have shifted : ∀ width,
      ∀ t ∈ (if layout.inHeaders then ([], layout.levels)
        else Layout.indentTo layout.levels width line).1, P t := by
    intro width
    split
    · simp
    · exact indentTo_forall bare _ _ _
  unfold lexLine
  simp only
  split
  · rw [List.forall_mem_singleton]
    exact bare _ (by simp [Token.layout])
  split
  · rw [List.forall_mem_append, List.forall_mem_singleton]
    exact ⟨shifted _, bare _ (by simp)⟩
  split
  · rw [List.forall_mem_append, List.forall_mem_append, List.forall_mem_singleton]
    exact ⟨⟨shifted _, dedents_forall bare _ _⟩, bare _ (by simp)⟩
  · rw [List.forall_mem_append]
    exact ⟨shifted _, content _ _ _ _⟩

end

theorem ofLine_of_bare {t : Token}
    (bare : t.kind ∈ [.empty, .indent, .dedent, .nodeStart, .nodeEnd]) : t.OfLine := by
  simp only [List.mem_cons, List.not_mem_nil, or_false] at bare
  rcases bare with kind | kind | kind | kind | kind <;>
    exact ofLine_of_kind (by simp [kind]) (by simp [kind])

theorem lexLine_ofLine (layout : Layout) (line : Nat) (raw : List Char) :
    ∀ t ∈ (lexLine layout line raw).1, t.OfLine :=
  lexLine_forall (fun _ => ofLine_of_bare) contentTokens_ofLine layout line raw

theorem lexLines_cons (layout : Layout) (line : Nat) (raw : List Char) (rest : List (List Char)) :
    lexLines layout line (raw :: rest) =
      (lexLine layout line raw).1 ++ lexLines (lexLine layout line raw).2 (line + 1) rest := rfl

/-- The end of input is the last token, and all others come from lines. -/
theorem lexLines_ends (layout : Layout) (line : Nat) (lines : List (List Char)) :
    ∃ tokens last, lexLines layout line lines = tokens ++ [last] ∧ last.kind = .eof ∧
      ∀ t ∈ tokens, t.OfLine := by
  induction lines generalizing layout line with
  | nil => exact ⟨_, _, rfl, rfl, dedents_forall (fun _ => ofLine_of_bare) _ _⟩
  | cons raw rest ih =>
      obtain ⟨tokens, last, same, eof, others⟩ := ih (lexLine layout line raw).2 (line + 1)
      refine ⟨(lexLine layout line raw).1 ++ tokens, last, ?_, eof, ?_⟩
      · rw [lexLines_cons, same, List.append_assoc]
      · rw [List.forall_mem_append]
        exact ⟨lexLine_ofLine _ _ _, others⟩

theorem lex_ends (source : String) :
    ∃ tokens last, lex source = tokens ++ [last] ∧ last.kind = .eof ∧ ∀ t ∈ tokens, t.OfLine :=
  lexLines_ends _ _ _

theorem lex_tidy (source : String) : ∀ t ∈ lex source, t.Tidy := by
  obtain ⟨tokens, last, same, eof, others⟩ := lex_ends source
  rw [same, List.forall_mem_append, List.forall_mem_singleton]
  refine ⟨fun t member => (others t member).2, ?_⟩
  intro command
  rw [eof] at command
  cases command

end Dialogue.Script
