import Dialogue.Markup.Parse

set_option autoImplicit false

namespace Dialogue.Markup

variable {c : Char} {cs content rest : List Char}

/-- Text in which brackets and backslashes stand for themselves. -/
def escape : List Char → List Char
  | [] => []
  | c :: cs => if isEscapable c then '\\' :: c :: escape cs else c :: escape cs

/-- A unit together with the characters that spell it. -/
structure Lexeme where
  source : List Char
  piece : Piece

/-- The units of a source text, with their places in it. -/
def lexemes : List Char → List Lexeme
  | [] => []
  | [c] => [⟨[c], .literal c⟩]
  | c :: d :: cs =>
      if c = '\\' && isEscapable d then ⟨[c, d], .literal d⟩ :: lexemes cs
      else if c = '[' then
        match _closed : closeBracket false (d :: cs) with
        | some (content, rest) => ⟨c :: content ++ [']'], .bracketed content⟩ :: lexemes rest
        | none => ⟨[c], .literal c⟩ :: lexemes (d :: cs)
      else ⟨[c], .literal c⟩ :: lexemes (d :: cs)
termination_by cs => cs.length
decreasing_by
  all_goals simp only [List.length_cons]
  · omega
  · have := closeBracket_length _closed
    simp only [List.length_cons] at this
    omega
  · omega
  · omega

theorem pieces_eq_lexemes (cs : List Char) : pieces cs = (lexemes cs).map Lexeme.piece := by
  fun_induction lexemes cs with
  | case1 => rw [pieces]; rfl
  | case2 c => rw [pieces]; rfl
  | case3 c d cs escaped ih => rw [pieces, if_pos escaped, ih]; rfl
  | case4 d cs content rest closed escaped ih =>
      rw [pieces, if_neg escaped, if_pos rfl]
      split
      · rename_i content' rest' found
        obtain ⟨rfl, rfl⟩ := Prod.mk.inj (Option.some.inj (found.symm.trans closed))
        rw [ih]
        rfl
      · rename_i missing
        rw [missing] at closed
        cases closed
  | case5 d cs missing escaped ih =>
      rw [pieces, if_neg escaped, if_pos rfl]
      split
      · rename_i content rest found
        rw [missing] at found
        cases found
      · rw [ih]
        rfl
  | case6 c d cs escaped opening ih => rw [pieces, if_neg escaped, if_neg opening, ih]; rfl

theorem lexemes_nil : lexemes [] = [] := by
  unfold lexemes
  rfl

theorem lexemes_escaped (escapable : isEscapable c = true) (rest : List Char) :
    lexemes ('\\' :: c :: rest) = ⟨['\\', c], .literal c⟩ :: lexemes rest := by
  rw [lexemes, if_pos (by simp [escapable])]

theorem lexemes_plain (notOpening : c ≠ '[') (notBackslash : c ≠ '\\') (rest : List Char) :
    lexemes (c :: rest) = ⟨[c], .literal c⟩ :: lexemes rest := by
  cases rest with
  | nil => rw [lexemes_nil, lexemes]
  | cons d rest => rw [lexemes, if_neg (by simp [notBackslash]), if_neg notOpening]

theorem lexemes_backslash (follows : ∀ d ∈ rest.head?, isEscapable d = false) :
    lexemes ('\\' :: rest) = ⟨['\\'], .literal '\\'⟩ :: lexemes rest := by
  cases rest with
  | nil => rw [lexemes_nil, lexemes]
  | cons d rest =>
      have plain := follows d rfl
      rw [lexemes, if_neg (by simp [plain]), if_neg (by decide)]

theorem lexemes_bracketed (closed : closeBracket false cs = some (content, rest)) :
    lexemes ('[' :: cs) = ⟨'[' :: content ++ [']'], .bracketed content⟩ :: lexemes rest := by
  cases cs with
  | nil => cases closed
  | cons d cs =>
      rw [lexemes, if_neg (by simp), if_pos rfl]
      split
      · rename_i content' rest' found
        obtain ⟨rfl, rfl⟩ := Prod.mk.inj (Option.some.inj (found.symm.trans closed))
        rfl
      · rename_i missing
        rw [missing] at closed
        cases closed

theorem lexemes_unclosed (missing : closeBracket false cs = none) :
    lexemes ('[' :: cs) = ⟨['['], .literal '['⟩ :: lexemes cs := by
  cases cs with
  | nil => rw [lexemes_nil, lexemes]
  | cons d cs =>
      rw [lexemes, if_neg (by simp), if_pos rfl]
      split
      · rename_i content rest found
        rw [missing] at found
        cases found
      · rfl

/-- Reading a source unit by unit. -/
@[elab_as_elim]
theorem lexemes_induction {motive : List Char → Prop} (nil : motive [])
    (escaped : ∀ c rest, isEscapable c = true → motive rest → motive ('\\' :: c :: rest))
    (bracketed : ∀ cs content rest, closeBracket false cs = some (content, rest) → motive rest →
      motive ('[' :: cs))
    (unclosed : ∀ rest, closeBracket false rest = none → motive rest → motive ('[' :: rest))
    (backslash : ∀ rest : List Char, (∀ d ∈ rest.head?, isEscapable d = false) → motive rest →
      motive ('\\' :: rest))
    (plain : ∀ c rest, c ≠ '[' → c ≠ '\\' → motive rest → motive (c :: rest)) (cs : List Char) :
    motive cs := by
  fun_induction lexemes cs with
  | case1 => exact nil
  | case2 c =>
      by_cases opening : c = '['
      · subst opening
        exact unclosed [] rfl nil
      · by_cases slash : c = '\\'
        · subst slash
          exact backslash [] (fun d member => (nomatch member)) nil
        · exact plain c [] opening slash nil
  | case3 c d cs both ih =>
      rw [Bool.and_eq_true, decide_eq_true_iff] at both
      obtain ⟨rfl, escapable⟩ := both
      exact escaped d cs escapable ih
  | case4 d cs content rest closed both ih => exact bracketed _ content rest closed ih
  | case5 d cs missing both ih => exact unclosed _ missing ih
  | case6 c d cs both opening ih =>
      by_cases slash : c = '\\'
      · subst slash
        apply backslash _ ?_ ih
        intro e first
        obtain rfl := Option.some.inj first
        simpa using both
      · exact plain c _ opening slash ih

theorem pieces_nil : pieces [] = [] := by
  rw [pieces_eq_lexemes, lexemes_nil, List.map_nil]

theorem pieces_escaped (escapable : isEscapable c = true) (rest : List Char) :
    pieces ('\\' :: c :: rest) = .literal c :: pieces rest := by
  rw [pieces_eq_lexemes, lexemes_escaped escapable, List.map_cons, ← pieces_eq_lexemes]

theorem pieces_plain (notOpening : c ≠ '[') (notBackslash : c ≠ '\\') (rest : List Char) :
    pieces (c :: rest) = .literal c :: pieces rest := by
  rw [pieces_eq_lexemes, lexemes_plain notOpening notBackslash, List.map_cons, ← pieces_eq_lexemes]

theorem pieces_backslash (follows : ∀ d ∈ rest.head?, isEscapable d = false) :
    pieces ('\\' :: rest) = .literal '\\' :: pieces rest := by
  rw [pieces_eq_lexemes, lexemes_backslash follows, List.map_cons, ← pieces_eq_lexemes]

theorem pieces_bracketed (closed : closeBracket false cs = some (content, rest)) :
    pieces ('[' :: cs) = .bracketed content :: pieces rest := by
  rw [pieces_eq_lexemes, lexemes_bracketed closed, List.map_cons, ← pieces_eq_lexemes]

theorem pieces_unclosed (missing : closeBracket false cs = none) :
    pieces ('[' :: cs) = .literal '[' :: pieces cs := by
  rw [pieces_eq_lexemes, lexemes_unclosed missing, List.map_cons, ← pieces_eq_lexemes]

theorem ne_of_not_isEscapable (plain : isEscapable c = false) : c ≠ '[' ∧ c ≠ ']' ∧ c ≠ '\\' := by
  refine ⟨?_, ?_, ?_⟩
  all_goals
    rintro rfl
    cases plain

/-- Escaped text is literal, whatever follows it. -/
theorem pieces_escape (cs rest : List Char) :
    pieces (escape cs ++ rest) = cs.map .literal ++ pieces rest := by
  induction cs with
  | nil => rfl
  | cons c cs ih =>
      rw [escape]
      by_cases escapable : isEscapable c = true
      · rw [if_pos escapable, List.cons_append, List.cons_append, pieces_escaped escapable, ih]
        rfl
      · have plain := ne_of_not_isEscapable (Bool.eq_false_iff.mpr escapable)
        rw [if_neg escapable, List.cons_append, pieces_plain plain.1 plain.2.2, ih]
        rfl

theorem closeBracket_append {escaped : Bool}
    (closed : closeBracket escaped cs = some (content, rest)) :
    cs = content ++ ']' :: rest ∧
      ∀ more, closeBracket escaped (content ++ ']' :: more) = some (content, more) := by
  induction cs generalizing escaped content with
  | nil => cases closed
  | cons c cs ih =>
      rw [closeBracket] at closed
      by_cases closing : (c = ']' && !escaped) = true
      · rw [if_pos closing] at closed
        obtain ⟨rfl, rfl⟩ := Prod.mk.inj (Option.some.inj closed)
        rw [Bool.and_eq_true, decide_eq_true_iff] at closing
        obtain ⟨rfl, bare⟩ := closing
        refine ⟨rfl, fun more => ?_⟩
        rw [List.nil_append, closeBracket, if_pos (by simpa using bare)]
      · rw [if_neg closing] at closed
        simp only [Option.map_eq_some_iff, Prod.mk.injEq, Prod.exists] at closed
        obtain ⟨inner, rest', found, rfl, rfl⟩ := closed
        obtain ⟨whole, again⟩ := ih found
        refine ⟨by rw [whole, List.cons_append], fun more => ?_⟩
        rw [List.cons_append, closeBracket, if_neg closing, again]
        rfl

/-- Text without brackets to close and without backslashes is closed by the next bracket. -/
theorem closeBracket_of_bare (bare : ∀ c ∈ content, c ≠ ']' ∧ c ≠ '\\') (rest : List Char) :
    closeBracket false (content ++ ']' :: rest) = some (content, rest) := by
  induction content with
  | nil => rfl
  | cons c content ih =>
      obtain ⟨first, others⟩ := List.forall_mem_cons.mp bare
      rw [List.cons_append, closeBracket, if_neg (by simp [first.1])]
      have open' : (decide (c = '\\') && !false) = false := by simp [first.2]
      rw [open', ih others]
      rfl

end Dialogue.Markup
