import Dialogue.Proofs.Command.Quotes
import Dialogue.Proofs.Text.Trim

set_option autoImplicit false

namespace Dialogue

namespace Command

open Dialogue.Text

inductive Form where
  | bare
  | double
  | single
  deriving DecidableEq, Repr

/-- The letters of a word as they stand in quotes. -/
def escaped (quote : Char) (letters : List Char) : List Char :=
  letters.flatMap fun c => if c = '\\' || c = quote then ['\\', c] else [c]

def inQuotes (quote : Char) (letters : List Char) : List Char :=
  quote :: (escaped quote letters ++ [quote])

/-- A word and how it is written. -/
structure Written where
  form : Form
  word : String

namespace Written

def text (w : Written) : List Char :=
  match w.form with
  | .bare => w.word.toList
  | .double => inQuotes '"' w.word.toList
  | .single => inQuotes '\'' w.word.toList

/-- A word without quotes has letters, and they are neither blank nor quotes. -/
def Suits (w : Written) : Prop :=
  w.form = .bare →
    w.word.toList ≠ [] ∧ ∀ c ∈ w.word.toList, isBlank c = false ∧ isQuote c = false

instance (w : Written) : Decidable w.Suits :=
  have := List.decidableBAll (fun c => isBlank c = false ∧ isQuote c = false) w.word.toList
  inferInstanceAs (Decidable (_ → _ ∧ _))

/-- The scanner behind a written word. -/
def state (w : Written) : WordState :=
  ⟨w.word.toList, w.form ≠ .bare⟩

end Written

/-- White space between words. -/
def IsGap (cs : List Char) : Prop :=
  cs ≠ [] ∧ ∀ c ∈ cs, isBlank c = true

instance (cs : List Char) : Decidable (IsGap cs) :=
  have := List.decidableBAll (fun c => isBlank c = true) cs
  inferInstanceAs (Decidable (_ ∧ _))

/-- Written words, each but the first behind a gap. -/
def joined (first : Written) (rest : List (List Char × Written)) : List Char :=
  first.text ++ rest.flatMap fun next => next.1 ++ next.2.text

theorem joined_cons (first : Written) (gap : List Char) (next : Written)
    (rest : List (List Char × Written)) :
    joined first ((gap, next) :: rest) = first.text ++ (gap ++ joined next rest) := by
  simp only [joined, List.flatMap_cons, List.append_assoc]

section Word

variable {cs : List Char}

theorem isQuote_of_isBlank {c : Char} (blank : isBlank c = true) : isQuote c = false := by
  rw [Bool.eq_false_iff]
  intro quote
  simp only [isQuote, Bool.or_eq_true, decide_eq_true_eq] at quote
  rcases quote with rfl | rfl <;> cases blank

theorem words?_plain {c : Char} (plain : isBlank c = false ∧ isQuote c = false) (w : WordState)
    (rest : List Char) : words? none w (c :: rest) = words? none (w.add c) rest := by
  have notQuote : (c = '"' || c = '\'') = false := plain.2
  rw [words?]
  simp only [notQuote, plain.1, Bool.false_eq_true, ↓reduceIte]

theorem words?_blank {c : Char} (blank : isBlank c = true) (w : WordState) (rest : List Char) :
    words? none w (c :: rest) = (words? none .fresh rest).map (w.words ++ ·) := by
  have notQuote : (c = '"' || c = '\'') = false := isQuote_of_isBlank blank
  rw [words?]
  simp only [notQuote, blank, Bool.false_eq_true, ↓reduceIte]

/-- Letters outside quotes are taken as they are. -/
theorem words?_bare (plain : ∀ c ∈ cs, isBlank c = false ∧ isQuote c = false) (w : WordState)
    (rest : List Char) :
    words? none w (cs ++ rest) = words? none ⟨w.letters ++ cs, w.quoted⟩ rest := by
  induction cs generalizing w with
  | nil => rw [List.nil_append, List.append_nil]
  | cons c cs ih =>
      rw [List.forall_mem_cons] at plain
      rw [List.cons_append, words?_plain plain.1, ih plain.2]
      simp only [WordState.add, List.append_assoc, List.singleton_append]

/-- Escaped letters are taken without their backslashes, and the quote behind them ends the
quotation. -/
theorem words?_escaped {quote : Char} (opening : isQuote quote = true) (w : WordState)
    (rest : List Char) :
    words? (some quote) w (escaped quote cs ++ quote :: rest) =
      words? none ⟨w.letters ++ cs, w.quoted⟩ rest := by
  have notSlash : '\\' ≠ quote := by
    rintro rfl
    cases opening
  induction cs generalizing w with
  | nil =>
      rw [escaped, List.flatMap_nil, List.nil_append, List.append_nil, words?.eq_def]
      simp only [↓reduceIte]
  | cons c cs ih =>
      have step : words? (some quote) w (escaped quote (c :: cs) ++ quote :: rest) =
          words? (some quote) (w.add c) (escaped quote cs ++ quote :: rest) := by
        by_cases marked : (c = '\\' || c = quote) = true
        · simp only [escaped, List.flatMap_cons, marked, ↓reduceIte, List.cons_append,
            List.nil_append]
          rw [words?.eq_def]
          simp only [notSlash, ↓reduceIte]
        · simp only [escaped, List.flatMap_cons, marked, Bool.false_eq_true, ↓reduceIte,
            List.cons_append, List.nil_append]
          simp only [Bool.or_eq_true, decide_eq_true_eq, not_or] at marked
          rw [words?.eq_def]
          simp only [marked, ↓reduceIte]
      rw [step, ih]
      simp only [WordState.add, List.append_assoc, List.singleton_append]

theorem words?_inQuotes {quote : Char} (opening : isQuote quote = true) (rest : List Char) :
    words? none .fresh (inQuotes quote cs ++ rest) = words? none ⟨cs, true⟩ rest := by
  have opens : (quote = '"' || quote = '\'') = true := opening
  rw [inQuotes, List.cons_append, List.append_assoc, List.singleton_append, words?]
  simp only [opens, ↓reduceIte]
  rw [words?_escaped opening]
  rfl

/-- Behind a gap the scanner starts afresh. -/
theorem words?_gap (gap : IsGap cs) (w : WordState) (rest : List Char) :
    words? none w (cs ++ rest) = (words? none .fresh rest).map (w.words ++ ·) := by
  obtain ⟨filled, blank⟩ := gap
  induction cs generalizing w with
  | nil => exact absurd rfl filled
  | cons c cs ih =>
      rw [List.forall_mem_cons] at blank
      rw [List.cons_append, words?_blank blank.1]
      cases cs with
      | nil => rfl
      | cons d cs =>
          rw [ih .fresh (List.cons_ne_nil d cs) blank.2, Option.map_map]
          rfl

variable {w : Written}

theorem Written.words?_text (suits : w.Suits) (rest : List Char) :
    words? none .fresh (w.text ++ rest) = words? none w.state rest := by
  obtain ⟨form, word⟩ := w
  cases form with
  | bare => exact words?_bare (suits rfl).2 .fresh rest
  | double => exact words?_inQuotes (by decide) rest
  | single => exact words?_inQuotes (by decide) rest

theorem Written.words_state (suits : w.Suits) : w.state.words = [w.word] := by
  obtain ⟨form, word⟩ := w
  cases form with
  | bare =>
      have filled : word.toList.isEmpty = false := by simpa using (suits rfl).1
      simp [state, WordState.words, filled, String.ofList_toList]
  | double => simp [state, WordState.words, String.ofList_toList]
  | single => simp [state, WordState.words, String.ofList_toList]

/-- A written word starts and ends with a letter or a quote. -/
theorem Written.trimmed_text (suits : w.Suits) : Trimmed w.text ∧ w.text ≠ [] := by
  have around (quote : Char) (solid : isBlank quote = false) (letters : List Char) :
      Trimmed (inQuotes quote letters) ∧ inQuotes quote letters ≠ [] := by
    refine ⟨⟨?_, ?_⟩, List.cons_ne_nil _ _⟩
    · simpa [inQuotes] using solid
    · rw [inQuotes, ← List.cons_append, List.getLast?_concat]
      simpa using solid
  obtain ⟨form, word⟩ := w
  cases form with
  | bare =>
      obtain ⟨filled, plain⟩ := suits rfl
      exact ⟨⟨fun c first => (plain c (List.mem_of_mem_head? first)).1,
        fun c last => (plain c (List.mem_of_mem_getLast? last)).1⟩, filled⟩
  | double => exact around '"' (by decide) word.toList
  | single => exact around '\'' (by decide) word.toList

end Word

section Words

variable {first : Written} {rest : List (List Char × Written)}

theorem words?_joined (suits : ∀ w ∈ first :: rest.map Prod.snd, w.Suits)
    (apart : ∀ gap ∈ rest.map Prod.fst, IsGap gap) :
    words? none .fresh (joined first rest) =
      some (first.word :: rest.map fun next => next.2.word) := by
  induction rest generalizing first with
  | nil =>
      have here : first.Suits := suits first (List.mem_cons_self ..)
      have ended : words? none first.state [] = some first.state.words := rfl
      rw [joined, List.flatMap_nil, Written.words?_text here, ended, Written.words_state here]
      rfl
  | cons next rest ih =>
      obtain ⟨gap, next⟩ := next
      rw [List.map_cons, List.forall_mem_cons] at suits apart
      rw [joined_cons, Written.words?_text suits.1, words?_gap apart.1, ih suits.2 apart.2,
        Written.words_state suits.1]
      rfl

theorem trimmed_joined (suits : ∀ w ∈ first :: rest.map Prod.snd, w.Suits) :
    Trimmed (joined first rest) ∧ joined first rest ≠ [] := by
  induction rest generalizing first with
  | nil =>
      rw [joined, List.flatMap_nil, List.append_nil]
      exact Written.trimmed_text (suits first (List.mem_cons_self ..))
  | cons next rest ih =>
      obtain ⟨gap, next⟩ := next
      rw [List.map_cons, List.forall_mem_cons] at suits
      obtain ⟨start, filled⟩ := Written.trimmed_text suits.1
      obtain ⟨trimmed, some⟩ := ih suits.2
      obtain ⟨c, cs, shape⟩ := List.exists_cons_of_ne_nil filled
      rw [joined_cons, ← List.append_assoc]
      refine ⟨trimmed_append ?_ trimmed some, List.append_ne_nil_of_right_ne_nil _ some⟩
      rw [shape] at start ⊢
      exact start.1

/-- Words are read as they were written, whatever white space is between and around them; the text
of the command is all that stands from the first word to the last. -/
theorem parse_written {lead tail : List Char} (suits : ∀ w ∈ first :: rest.map Prod.snd, w.Suits)
    (apart : ∀ gap ∈ rest.map Prod.fst, IsGap gap) (blank : ∀ c ∈ lead ++ tail, isBlank c = true) :
    let text := String.ofList (lead ++ joined first rest ++ tail)
    parse text = .ok ⟨first.word, rest.map fun next => next.2.word, Text.trimmed text⟩ ∧
      Text.trimmed text = String.ofList (joined first rest) := by
  obtain ⟨trimmed, filled⟩ := trimmed_joined suits
  have cut : trim (lead ++ joined first rest ++ tail) = joined first rest :=
    trim_surrounded trimmed filled blank
  have some : (joined first rest).isEmpty = false := by simpa using filled
  intro text
  have raw : Text.trimmed text = String.ofList (joined first rest) := by
    rw [Text.trimmed, String.toList_ofList, cut]
  refine ⟨?_, raw⟩
  simp only [parse, text, String.toList_ofList, cut, some, Bool.false_eq_true, ↓reduceIte,
    words?_joined suits apart, raw]

/-- A name without quotes, a word of quotes and backslashes, a word without letters, and a backslash
outside quotes. -/
def note : List (List Char × Written) :=
  [([' '], ⟨.double, "say \"\\\" it's"⟩), (['\t', ' '], ⟨.single, ""⟩), (['\n'], ⟨.bare, "\\n"⟩)]

theorem note_read_back :
    ((∀ w ∈ ⟨.bare, "note"⟩ :: note.map Prod.snd, w.Suits) ∧
      (∀ gap ∈ note.map Prod.fst, IsGap gap) ∧ ∀ c ∈ [' '] ++ ['\u2003'], isBlank c = true) ∧
    parse " note \"say \\\"\\\\\\\" it's\"\t ''\n\\n\u2003" =
      .ok ⟨"note", ["say \"\\\" it's", "", "\\n"], "note \"say \\\"\\\\\\\" it's\"\t ''\n\\n"⟩ := by
  have suits : ∀ w ∈ ⟨.bare, "note"⟩ :: note.map Prod.snd, w.Suits := by decide
  have apart : ∀ gap ∈ note.map Prod.fst, IsGap gap := by decide
  have blank : ∀ c ∈ [' '] ++ ['\u2003'], isBlank c = true := by simp [isBlank]
  obtain ⟨read, raw⟩ := parse_written suits apart blank
  rw [raw] at read
  exact ⟨⟨suits, apart, blank⟩, read⟩

end Words

end Command

end Dialogue
