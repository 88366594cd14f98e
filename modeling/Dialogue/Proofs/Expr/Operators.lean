import Dialogue.Proofs.Expr.Grammar
import Dialogue.Proofs.Text.Literal
import Mathlib

set_option autoImplicit false

namespace Dialogue.Expr

open Dialogue.Text

theorem toLower_of_not_isUpper {c : Char} (other : c.isUpper = false) : c.toLower = c := by
  have notUpper : ¬(c.val ≥ 'A'.val ∧ c.val ≤ 'Z'.val) := by simpa [Char.isUpper] using other
  rw [Char.toLower, dif_neg notUpper]

theorem toLower_of_not_isNameChar {c : Char} (other : isNameChar c = false) : c.toLower = c := by
  apply toLower_of_not_isUpper
  simp only [isNameChar, Char.isAlphanum, Char.isAlpha, Bool.or_eq_false_iff] at other
  exact other.1.1.1

theorem ne_toLower_of_isNameChar {a c : Char} (inside : isNameChar a = true)
    (other : isNameChar c = false) : a ≠ c.toLower := by
  rintro rfl
  rw [toLower_of_not_isNameChar other, other] at inside
  cases inside

section

variable {word name rest : List Char}

theorem afterAnyCase?_append (spelled : name.map Char.toLower = word) (rest : List Char) :
    afterAnyCase? word (name ++ rest) = some rest := by
  subst spelled
  induction name with
  | nil => rfl
  | cons c name ih => rw [List.map_cons, List.cons_append, afterAnyCase?, if_pos rfl, ih]

theorem afterWord?_append (spelled : name.map Char.toLower = word)
    (ends : ∀ c ∈ rest.head?, isNameChar c = false) :
    afterWord? word (name ++ rest) = some rest := by
  rw [afterWord?, afterAnyCase?_append spelled]
  cases rest with
  | nil => rfl
  | cons c rest => simp [ends c rfl]

theorem afterWord?_of_none {cs : List Char} (absent : afterAnyCase? word cs = none) :
    afterWord? word cs = none := by
  rw [afterWord?, absent]

/-- A name that is not the word is not taken for it, even if it starts with it. -/
theorem afterWord?_name (letters : word.all isNameChar = true)
    (inside : ∀ c ∈ name, isNameChar c = true) (ends : ∀ c ∈ rest.head?, isNameChar c = false)
    (differ : name.map Char.toLower ≠ word) : afterWord? word (name ++ rest) = none := by
  induction word generalizing name with
  | nil =>
      cases name with
      | nil => exact absurd rfl differ
      | cons c name => simp [afterWord?, afterAnyCase?, inside c List.mem_cons_self]
  | cons a word ih =>
      rw [List.all_cons, Bool.and_eq_true] at letters
      obtain ⟨letter, letters⟩ := letters
      cases name with
      | nil =>
          cases rest with
          | nil => rfl
          | cons c rest =>
              have other := ne_toLower_of_isNameChar letter (ends c rfl)
              apply afterWord?_of_none
              rw [List.nil_append, afterAnyCase?, if_neg other]
      | cons c name =>
          obtain ⟨-, inside⟩ := List.forall_mem_cons.mp inside
          by_cases same : a = c.toLower
          · have later : name.map Char.toLower ≠ word := by
              intro equal
              apply differ
              rw [List.map_cons, equal, ← same]
            have found := ih letters inside later
            rw [afterWord?, List.cons_append, afterAnyCase?, if_pos same]
            exact found
          · apply afterWord?_of_none
            rw [List.cons_append, afterAnyCase?, if_neg same]

end

/-- Whether a text does not fit where a token in small letters stands and no character with the
given property follows. -/
def misses (barred : Char → Bool) : List Char → List Char → Bool
  | a :: text, b :: token => a ≠ b || misses barred text token
  | a :: _, [] => barred a
  | [], _ => false

section

variable {barred : Char → Bool} {text token small rest : List Char}

theorem afterAnyCase?_of_misses (spelled : token.map Char.toLower = small)
    (apart : misses barred text small = true)
    (ends : ∀ c ∈ rest.head?, barred c.toLower = false) :
    afterAnyCase? text (token ++ rest) = none := by
  subst spelled
  induction text generalizing token with
  | nil => cases token <;> cases apart
  | cons a text ih =>
      cases token with
      | nil =>
          cases rest with
          | nil => rfl
          | cons c rest =>
              have other : a ≠ c.toLower := by
                rintro rfl
                have wrong := ends c rfl
                rw [List.map_nil, misses, wrong] at apart
                cases apart
              rw [List.nil_append, afterAnyCase?, if_neg other]
      | cons c token =>
          rw [List.cons_append, afterAnyCase?]
          by_cases same : a = c.toLower
          · rw [if_pos same]
            apply ih
            rw [List.map_cons, misses, same] at apart
            simpa using apart
          · rw [if_neg same]

/-- Symbols are compared as they are. -/
theorem after?_of_misses (spelled : token.map Char.toLower = small)
    (caseless : ∀ a ∈ text, a.toLower = a) (apart : misses barred text small = true)
    (ends : ∀ c ∈ rest.head?, barred c = false) : after? text (token ++ rest) = none := by
  subst spelled
  induction text generalizing token with
  | nil => cases token <;> cases apart
  | cons a text ih =>
      obtain ⟨first, caseless⟩ := List.forall_mem_cons.mp caseless
      cases token with
      | nil =>
          cases rest with
          | nil => rfl
          | cons c rest =>
              have other : a ≠ c := by
                rintro rfl
                have wrong := ends a rfl
                rw [List.map_nil, misses, wrong] at apart
                cases apart
              rw [List.nil_append, after?, if_neg other]
      | cons c token =>
          rw [List.cons_append, after?]
          by_cases same : a = c
          · subst same
            rw [if_pos rfl]
            apply ih caseless
            rw [List.map_cons, misses, first] at apart
            simpa using apart
          · rw [if_neg same]

end

/-- The operator that a table gives a token in small letters, if it is settled by the order of the
table alone. -/
def pick {α : Type} (isWord : Bool) (small : List Char) : List (Spelling × α) → Option α
  | [] => none
  | (.symbol text, op) :: table =>
      if !isWord && text.toList = small then some op
      else if text.toList.all (fun a => a.toLower = a) && misses (· = '=') text.toList small then
        pick isWord small table
      else none
  | (.word text, op) :: table =>
      if isWord && text.toList = small then some op
      else if misses (fun a => isWord && isNameChar a) text.toList small then
        pick isWord small table
      else none

/-- The text behind a token: a word ends there, and no symbol goes on with an equals sign. -/
structure Clear (isWord : Bool) (rest : List Char) : Prop where
  ends : isWord = true → ∀ c ∈ rest.head?, isNameChar c = false
  unequal : ∀ c ∈ rest.head?, c ≠ '='

theorem operator?_of_pick {α : Type} {table : List (Spelling × α)} {op : α} {isWord : Bool}
    {token small rest : List Char} (picked : pick isWord small table = some op)
    (spelled : token.map Char.toLower = small) (verbatim : isWord = false → token = small)
    (clear : Clear isWord rest) : operator? table (token ++ rest) = some (op, rest) := by
  induction table with
  | nil => cases picked
  | cons entry table ih =>
      obtain ⟨spelling, value⟩ := entry
      rw [operator?]
      cases spelling with
      | symbol text =>
          rw [pick] at picked
          by_cases here : (!isWord && text.toList = small) = true
          · rw [if_pos here] at picked
            rw [Bool.and_eq_true, decide_eq_true_iff, Bool.not_eq_true'] at here
            obtain rfl := Option.some.inj picked
            have found : Spelling.after? (.symbol text) (token ++ rest) = some rest := by
              rw [verbatim here.1, ← here.2]
              exact after?_append text.toList rest
            rw [found]
          · rw [if_neg here] at picked
            split at picked
            · rename_i apart
              rw [Bool.and_eq_true, List.all_eq_true] at apart
              have absent : Spelling.after? (.symbol text) (token ++ rest) = none := by
                apply after?_of_misses spelled _ apart.2
                · intro c first
                  exact decide_eq_false (clear.unequal c first)
                · intro a member
                  exact of_decide_eq_true (apart.1 a member)
              rw [absent]
              exact ih picked
            · cases picked
      | word text =>
          rw [pick] at picked
          by_cases here : (isWord && text.toList = small) = true
          · rw [if_pos here] at picked
            rw [Bool.and_eq_true, decide_eq_true_iff] at here
            obtain rfl := Option.some.inj picked
            have found : Spelling.after? (.word text) (token ++ rest) = some rest :=
              afterWord?_append (spelled.trans here.2.symm) (clear.ends here.1)
            rw [found]
          · rw [if_neg here] at picked
            split at picked
            · rename_i apart
              have absent : Spelling.after? (.word text) (token ++ rest) = none := by
                apply afterWord?_of_none
                apply afterAnyCase?_of_misses spelled apart
                intro c first
                cases isWord with
                | false => rfl
                | true =>
                    have other := clear.ends rfl c first
                    rw [Bool.true_and, toLower_of_not_isNameChar other, other]
              rw [absent]
              exact ih picked
            · cases picked

/-- Every spelling is picked from a table as the operator. -/
structure Listed {α : Type} (table : List (Spelling × α)) (symbols words : List String) (op : α) :
    Prop where
  symbols : ∀ text ∈ symbols, text.toList.map Char.toLower = text.toList ∧
    pick false text.toList table = some op
  words : ∀ text ∈ words, pick true text.toList table = some op

theorem Token.operator? {α : Type} {table : List (Spelling × α)} {symbols words : List String}
    {op : α} {isWord : Bool} {token rest : List Char} (spelled : Token symbols words isWord token)
    (listed : Listed table symbols words op) (clear : Clear isWord rest) :
    operator? table (token ++ rest) = some (op, rest) := by
  cases spelled with
  | @symbol text member =>
      obtain ⟨small, picked⟩ := listed.symbols text member
      exact operator?_of_pick picked small (fun _ => rfl) clear
  | @word text token member spelled =>
      have picked := listed.words text member
      exact operator?_of_pick picked spelled (fun wrong => (nomatch wrong)) clear

def Spelling.text : Spelling → String
  | symbol text => text
  | word text => text

/-- No spelling of a table starts with the character. -/
def apart {α : Type} (c : Char) (table : List (Spelling × α)) : Bool :=
  table.all fun entry =>
    match entry.1.text.toList with
    | [] => false
    | a :: _ => a ≠ c && a.toLower = a

theorem operator?_of_apart {α : Type} {table : List (Spelling × α)} {c : Char}
    (other : apart c.toLower table = true) (rest : List Char) :
    operator? table (c :: rest) = none := by
  induction table with
  | nil => rfl
  | cons entry table ih =>
      obtain ⟨spelling, value⟩ := entry
      rw [apart, List.all_cons, Bool.and_eq_true] at other
      obtain ⟨first, later⟩ := other
      have absent : spelling.after? (c :: rest) = none := by
        split at first
        · cases first
        · rename_i a text shape
          simp only [Bool.and_eq_true, decide_eq_true_eq] at first
          cases spelling with
          | symbol symbol =>
              have differ : a ≠ c := by
                rintro rfl
                exact first.1 first.2.symm
              have shape : symbol.toList = a :: text := shape
              rw [Spelling.after?, shape, after?, if_neg differ]
          | word word =>
              have shape : word.toList = a :: text := shape
              apply afterWord?_of_none
              rw [shape, afterAnyCase?, if_neg first.1]
      rw [operator?, absent]
      exact ih later

theorem operator?_nil : ∀ table ∈ levels, operator? table [] = none := by
  decide

/-- The operators of one level. -/
def tableAt (level : Nat) : List (Spelling × BinaryOp) :=
  levels[level]?.getD []

theorem levels_drop (op : BinaryOp) :
    levels.drop op.level = tableAt op.level :: levels.drop (op.level + 1) := by
  cases op <;> rfl

theorem listed_binary (op : BinaryOp) : Listed (tableAt op.level) op.symbols op.words op where
  symbols := by cases op <;> decide
  words := by cases op <;> decide

theorem isNameChar_facts {c : Char} (inside : isNameChar c = true) :
    isGap c = false ∧ c ≠ '=' ∧ c ≠ '(' ∧ c ≠ ')' ∧ c ≠ '.' := by
  refine ⟨?_, ?_, ?_, ?_, ?_⟩
  · rw [Bool.eq_false_iff]
    intro gap
    simp only [isGap, Bool.or_eq_true, decide_eq_true_eq] at gap
    rcases gap with ((rfl | rfl) | rfl) | rfl <;> cases inside
  all_goals
    rintro rfl
    cases inside

/-- The first character of a spelling of a word. -/
theorem head_of_word {text token : List Char} {a : Char} (spelled : token.map Char.toLower = text)
    (first : text.head? = some a) (letter : isNameChar a = true) :
    ∃ c cs, token = c :: cs ∧ isNameChar c = true ∧ c.toLower = a := by
  subst spelled
  cases token with
  | nil => cases first
  | cons c cs =>
      have small : c.toLower = a := Option.some.inj first
      refine ⟨c, cs, rfl, ?_, small⟩
      by_contra other
      exact ne_toLower_of_isNameChar letter (Bool.eq_false_iff.mpr other) small.symm

/-- The first character of a binary operator: no spelling of a tighter operator starts with it. -/
structure Head (op : BinaryOp) (isWord : Bool) (c : Char) : Prop where
  solid : isGap c = false
  notCall : c ≠ '('
  symbol : isWord = false → isNameChar c = false ∧ c ≠ '.'
  tighter : ∀ table ∈ levels.drop (op.level + 1), apart c.toLower table = true

instance (op : BinaryOp) (isWord : Bool) (c : Char) : Decidable (Head op isWord c) :=
  decidable_of_iff (isGap c = false ∧ c ≠ '(' ∧ (isWord = false → isNameChar c = false ∧ c ≠ '.') ∧
      ∀ table ∈ levels.drop (op.level + 1), apart c.toLower table = true)
    ⟨fun ⟨solid, notCall, symbol, tighter⟩ => ⟨solid, notCall, symbol, tighter⟩,
      fun head => ⟨head.solid, head.notCall, head.symbol, head.tighter⟩⟩

theorem head_symbol (op : BinaryOp) : ∀ text ∈ op.symbols,
    (text.toList.head?.any fun c => Head op false c) = true := by
  cases op <;> decide

theorem word_tighter (op : BinaryOp) : ∀ text ∈ op.words,
    (text.toList.head?.any fun a =>
      isNameChar a && (levels.drop (op.level + 1)).all (apart a)) = true := by
  cases op <;> decide

theorem Token.head {op : BinaryOp} {isWord : Bool} {token : List Char}
    (spelled : Token op.symbols op.words isWord token) :
    ∃ c cs, token = c :: cs ∧ Head op isWord c := by
  cases spelled with
  | @symbol text listed =>
      obtain ⟨c, first, head⟩ := (Option.any_eq_true _ _).mp (head_symbol op text listed)
      obtain ⟨cs, shape⟩ := List.head?_eq_some_iff.mp first
      exact ⟨c, cs, shape, of_decide_eq_true head⟩
  | @word text token listed spelled =>
      obtain ⟨a, first, facts⟩ := (Option.any_eq_true _ _).mp (word_tighter op text listed)
      rw [Bool.and_eq_true, List.all_eq_true] at facts
      obtain ⟨c, cs, shape, inside, rfl⟩ := head_of_word spelled first facts.1
      have others := isNameChar_facts inside
      exact ⟨c, cs, shape, others.1, others.2.2.1, fun wrong => (nomatch wrong), facts.2⟩

theorem listed_unary (op : UnaryOp) : Listed prefixes op.symbols op.words op where
  symbols := by cases op <;> decide
  words := by cases op <;> decide

end Dialogue.Expr
