import Dialogue.Command.Basic
import Dialogue.Proofs.Expr.Operands

set_option autoImplicit false

namespace Dialogue

namespace Command

open Dialogue.Text Dialogue.Expr

/-- The words of a text, read from outside quotes, leave no quote open. -/
def Closes (cs : List Char) : Prop :=
  ∀ w, (words? none w cs).isSome = true

def isQuote (c : Char) : Bool :=
  c = '"' || c = '\''

/-- Outside quotes before a text, the scanner is outside quotes behind what a reader took. -/
def Passes (cs rest : List Char) : Prop :=
  Closes rest → Closes cs

theorem closes_nil : Closes [] := fun _ => rfl

namespace Passes

theorem refl (cs : List Char) : Passes cs cs := id

theorem trans {cs ds rest : List Char} (first : Passes cs ds) (second : Passes ds rest) :
    Passes cs rest :=
  first ∘ second

theorem cons {c : Char} (plain : isQuote c = false) (cs : List Char) : Passes (c :: cs) cs := by
  intro closes w
  have notQuote : (c = '"' || c = '\'') = false := plain
  rw [words?]
  simp only [notQuote, Bool.false_eq_true, ↓reduceIte]
  split
  · rw [Option.isSome_map]
    exact closes _
  · exact closes _

theorem append {front : List Char} (plain : ∀ c ∈ front, isQuote c = false) (rest : List Char) :
    Passes (front ++ rest) rest := by
  induction front with
  | nil => exact refl rest
  | cons c front ih =>
      rw [List.forall_mem_cons] at plain
      exact (cons plain.1 _).trans (ih plain.2)

theorem dropWhile {p : Char → Bool} (plain : ∀ c, p c = true → isQuote c = false)
    (cs : List Char) : Passes cs (cs.dropWhile p) := by
  have taken : Passes (cs.takeWhile p ++ cs.dropWhile p) (cs.dropWhile p) :=
    append (fun c member => plain c (List.mem_takeWhile_imp member)) _
  rwa [List.takeWhile_append_dropWhile] at taken

/-- Both scanners end a quotation at the same quote. -/
theorem inside {quote : Char} (opening : isQuote quote = true) {cs inner rest : List Char}
    (found : quoted? quote cs = some (inner, rest)) (closes : Closes rest) (w : WordState) :
    (words? (some quote) w cs).isSome = true := by
  have notSlash : '\\' ≠ quote := by
    rintro rfl
    cases opening
  induction cs using quoted?.induct quote generalizing inner w with
  | case1 => cases found
  | case2 => cases found
  | case3 c cs ih =>
      rw [quoted?] at found
      obtain ⟨⟨more, behind⟩, later, same⟩ := Option.map_eq_some_iff.mp found
      cases same
      rw [words?.eq_def]
      simp only [notSlash, ↓reduceIte]
      exact ih later _
  | case4 cs notEnd notEscape =>
      rw [quoted?, if_pos rfl] at found
      · cases found
        rw [words?.eq_def]
        simp only [↓reduceIte]
        exact closes w
      · exact notEnd
      · exact notEscape
  | case5 c cs notEnd notEscape other ih =>
      rw [quoted?, if_neg other] at found
      · obtain ⟨⟨more, behind⟩, later, same⟩ := Option.map_eq_some_iff.mp found
        cases same
        have plain : c ≠ '\\' := by
          rintro rfl
          cases cs with
          | nil => exact notEnd rfl rfl
          | cons d ds => exact notEscape d ds rfl rfl
        rw [words?.eq_def]
        simp only [other, plain, ↓reduceIte]
        exact ih later _
      · exact notEnd
      · exact notEscape

/-- A quotation as a whole. -/
theorem quotation {quote : Char} (opening : isQuote quote = true) {cs rest : List Char}
    {inner : List Char} (found : quoted? quote cs = some (inner, rest)) :
    Passes (quote :: cs) rest := by
  intro closes w
  have opens : (quote = '"' || quote = '\'') = true := opening
  rw [words?.eq_def]
  simp only [opens, ↓reduceIte]
  exact inside opening found closes _

end Passes

theorem isQuote_of_isNameChar {c : Char} (inside : isNameChar c = true) : isQuote c = false := by
  rw [Bool.eq_false_iff]
  intro quote
  simp only [isQuote, Bool.or_eq_true, decide_eq_true_eq] at quote
  rcases quote with rfl | rfl <;> cases inside

theorem isQuote_of_isGap {c : Char} (gap : isGap c = true) : isQuote c = false := by
  simp only [isGap, Bool.or_eq_true, decide_eq_true_eq] at gap
  rcases gap with ((rfl | rfl) | rfl) | rfl <;> decide

theorem isQuote_of_isDigit {c : Char} (digit : c.isDigit = true) : isQuote c = false := by
  rw [Bool.eq_false_iff]
  intro quote
  simp only [isQuote, Bool.or_eq_true, decide_eq_true_eq] at quote
  rcases quote with rfl | rfl <;> cases digit

/-- A quote is the same in small letters. -/
theorem isQuote_toLower (c : Char) (quote : isQuote c = true) : isQuote c.toLower = true := by
  simp only [isQuote, Bool.or_eq_true, decide_eq_true_eq] at quote
  rcases quote with rfl | rfl <;> decide

theorem passes_skip (cs : List Char) : Passes cs (skip cs) :=
  .dropWhile (fun _ => isQuote_of_isGap) cs

theorem passes_afterAnyCase? {word cs rest : List Char}
    (plain : (word.all fun c => !isQuote c) = true) (found : afterAnyCase? word cs = some rest) :
    Passes cs rest := by
  induction word generalizing cs with
  | nil =>
      cases found
      exact .refl _
  | cons a word ih =>
      rw [List.all_cons, Bool.and_eq_true, Bool.not_eq_true'] at plain
      cases cs with
      | nil => cases found
      | cons c cs =>
          rw [afterAnyCase?, Option.ite_none_right_eq_some] at found
          obtain ⟨rfl, found⟩ := found
          have notQuote : isQuote c = false := by
            rw [Bool.eq_false_iff]
            intro quote
            rw [isQuote_toLower c quote] at plain
            cases plain.1
          exact (Passes.cons notQuote cs).trans (ih plain.2 found)

theorem passes_afterWord? {word cs rest : List Char}
    (plain : (word.all fun c => !isQuote c) = true) (found : afterWord? word cs = some rest) :
    Passes cs rest := by
  unfold afterWord? at found
  split at found
  · rename_i tried
    split at found
    · cases found
    · cases found
      exact passes_afterAnyCase? plain tried
  · exact passes_afterAnyCase? plain found

/-- Whatever the reader takes, quotes are closed behind it as they were before. -/
def PassesAll {α : Type} (reader : Reader α) : Prop :=
  ∀ cs x rest, reader cs = some (x, rest) → Passes cs rest

theorem PassesAll.orElse {α : Type} {first second : Reader α} (front : PassesAll first)
    (back : PassesAll second) : PassesAll fun cs => (first cs).orElse fun _ => second cs := by
  intro cs x rest found
  cases tried : first cs with
  | none =>
      simp only [tried, Option.orElse_none] at found
      exact back cs x rest found
  | some pair =>
      simp only [tried, Option.orElse_some, Option.some.injEq] at found
      rw [found] at tried
      exact front cs x rest tried

/-- No spelling of the table has a quote in it. -/
def unquoted {α : Type} (table : List (Spelling × α)) : Bool :=
  table.all fun entry => entry.1.text.toList.all fun c => !isQuote c

theorem passes_operator? {α : Type} {table : List (Spelling × α)}
    (plain : unquoted table = true) : PassesAll (operator? table) := by
  intro cs x rest found
  induction table with
  | nil => cases found
  | cons entry table ih =>
      obtain ⟨spelling, op⟩ := entry
      rw [unquoted, List.all_cons, Bool.and_eq_true] at plain
      obtain ⟨letters, later⟩ := plain
      rw [operator?] at found
      split at found
      · rename_i after spelled
        cases found
        cases spelling with
        | symbol text =>
            rw [eq_append_of_after? spelled]
            exact .append (fun c member => by simpa using List.all_eq_true.mp letters c member) rest
        | word text => exact passes_afterWord? letters spelled
      · exact ih later found

theorem passes_name? : PassesAll name? := by
  intro cs x rest found
  cases cs with
  | nil => cases found
  | cons c cs =>
      rw [name?, Option.ite_none_right_eq_some] at found
      obtain ⟨start, same⟩ := found
      cases same
      exact (Passes.cons (isQuote_of_isNameChar (isNameChar_of_isNameStart start)) cs).trans
        (.dropWhile (fun _ => isQuote_of_isNameChar) cs)

theorem passes_number? : PassesAll number? := by
  intro cs x rest found
  have digits := fun ds : List Char => Passes.dropWhile (fun _ => isQuote_of_isDigit) ds
  unfold number? at found
  extract_lets whole behind at found
  have front : Passes cs behind := digits cs
  clear_value whole behind
  split at found
  rename_i read left spelled
  split at found
  · cases found
  · obtain ⟨value, -, same⟩ := Option.map_eq_some_iff.mp found
    obtain ⟨-, rfl⟩ := Prod.mk.inj same
    refine front.trans ?_
    split at spelled
    · rename_i after
      dsimp only at spelled
      split at spelled
      · obtain ⟨-, rfl⟩ := Prod.mk.inj spelled
        exact .refl _
      · obtain ⟨-, rfl⟩ := Prod.mk.inj spelled
        exact (Passes.cons (by decide) after).trans (digits after)
    · obtain ⟨-, rfl⟩ := Prod.mk.inj spelled
      exact .refl _

theorem passes_string? : PassesAll string? := by
  intro cs x rest found
  unfold string? at found
  split at found
  · obtain ⟨⟨inner, behind⟩, closed, same⟩ := Option.map_eq_some_iff.mp found
    cases same
    exact .quotation (by decide) closed
  · obtain ⟨⟨inner, behind⟩, closed, same⟩ := Option.map_eq_some_iff.mp found
    cases same
    exact .quotation (by decide) closed
  · cases found

theorem passes_boolean? : PassesAll boolean? := by
  intro cs x rest found
  unfold boolean? at found
  split at found
  · rename_i spelled
    cases found
    exact passes_afterWord? (by decide) spelled
  · split at found
    · rename_i spelled
      cases found
      exact passes_afterWord? (by decide) spelled
    · cases found

theorem passes_reference? : PassesAll reference? := by
  intro cs x rest found
  unfold reference? at found
  split at found
  · obtain ⟨⟨name, behind⟩, named, same⟩ := Option.map_eq_some_iff.mp found
    cases same
    exact (Passes.cons (by decide) _).trans (passes_name? _ _ _ named)
  · obtain ⟨⟨name, behind⟩, named, same⟩ := Option.map_eq_some_iff.mp found
    cases same
    exact (Passes.cons (by decide) _).trans (passes_name? _ _ _ named)
  · split at found
    · cases found
    · rename_i name behind named
      have outer := passes_name? _ _ _ named
      split at found
      · split at found
        · rename_i case last inner
          cases found
          exact outer.trans ((Passes.cons (by decide) _).trans (passes_name? _ _ _ inner))
        · cases found
          exact outer
      · cases found
        exact outer

theorem passes_atom? : PassesAll atom? :=
  passes_number?.orElse (passes_string?.orElse (passes_boolean?.orElse passes_reference?))

section Operand

variable {operand : Reader Expr} (passes : PassesAll operand)

include passes

theorem passes_moreArgs (fuel : Nat) (cs : List Char) :
    Passes cs (moreArgs operand fuel cs).2 := by
  induction fuel generalizing cs with
  | zero => exact .refl cs
  | succ fuel ih =>
      unfold moreArgs
      split
      · rename_i after comma
        have front : Passes cs (skip after) := by
          have gap := passes_skip cs
          rw [comma] at gap
          exact gap.trans ((Passes.cons (by decide) after).trans (passes_skip after))
        split
        · rename_i arg rest found
          exact front.trans ((passes _ _ _ found).trans (ih rest))
        · exact .refl cs
      · exact .refl cs

theorem passes_args (fuel : Nat) (cs : List Char) : Passes cs (Expr.args operand fuel cs).2 := by
  unfold Expr.args
  split
  · rename_i arg rest found
    exact (passes_skip cs).trans ((passes _ _ _ found).trans (passes_moreArgs passes fuel rest))
  · exact .refl cs

omit passes in
/-- A character that is no quote, behind a gap. -/
theorem passes_mark {c : Char} (plain : isQuote c = false) {cs rest : List Char}
    (found : skip cs = c :: rest) : Passes cs rest := by
  have gap := passes_skip cs
  rw [found] at gap
  exact gap.trans (.cons plain rest)

theorem passes_call? (fuel : Nat) : PassesAll (call? operand fuel) := by
  intro cs x rest found
  unfold call? at found
  split at found
  · cases found
  · rename_i name behind named
    split at found
    · rename_i inner opened
      dsimp only at found
      split at found
      · rename_i after closed
        cases found
        exact (passes_name? _ _ _ named).trans ((passes_mark (by decide) opened).trans
          ((passes_args passes fuel inner).trans (passes_mark (by decide) closed)))
      · cases found
    · cases found

theorem passes_group? : PassesAll (group? operand) := by
  intro cs x rest found
  unfold group? at found
  split at found
  · rename_i inner
    split at found
    · rename_i e behind read
      split at found
      · rename_i after closed
        cases found
        exact (Passes.cons (by decide) inner).trans ((passes_skip inner).trans
          ((passes _ _ _ read).trans (passes_mark (by decide) closed)))
      · cases found
    · cases found
  · cases found

theorem passes_primary? (fuel : Nat) : PassesAll (primary? operand fuel) :=
  (passes_call? passes fuel).orElse ((passes_group? passes).orElse passes_atom?)

theorem passes_unary? (fuel : Nat) : PassesAll (unary? operand fuel) := by
  induction fuel with
  | zero =>
      intro cs x rest found
      cases found
  | succ fuel ih =>
      intro cs x rest found
      unfold unary? at found
      split at found
      · rename_i op behind spelled
        obtain ⟨⟨inner, last⟩, read, same⟩ := Option.map_eq_some_iff.mp found
        cases same
        exact (passes_operator? (by decide) _ _ _ spelled).trans
          ((passes_skip behind).trans (ih _ _ _ read))
      · exact passes_primary? passes fuel _ _ _ found

theorem passes_chain {table : List (Spelling × BinaryOp)} (plain : unquoted table = true)
    (fuel : Nat) (left : Expr) (cs : List Char) :
    Passes cs (chain table operand fuel left cs).2 := by
  induction fuel generalizing left cs with
  | zero => exact .refl cs
  | succ fuel ih =>
      unfold chain
      split
      · rename_i op behind spelled
        split
        · rename_i right rest read
          exact (passes_skip cs).trans ((passes_operator? plain _ _ _ spelled).trans
            ((passes_skip behind).trans ((passes _ _ _ read).trans (ih _ rest))))
        · exact .refl cs
      · exact .refl cs

theorem passes_climb (fuel : Nat) {tables : List (List (Spelling × BinaryOp))}
    (plain : ∀ table ∈ tables, unquoted table = true) : PassesAll (climb fuel operand tables) := by
  induction tables with
  | nil => exact passes
  | cons table tighter ih =>
      rw [List.forall_mem_cons] at plain
      have tight := ih plain.2
      intro cs x rest found
      unfold climb at found
      split at found
      · rename_i left behind read
        have chained := passes_chain tight plain.1 fuel left behind
        rw [Option.some.inj found] at chained
        exact (tight _ _ _ read).trans chained
      · cases found

end Operand

theorem passes_expression? (fuel : Nat) : PassesAll (expression? fuel) := by
  induction fuel with
  | zero =>
      intro cs x rest found
      cases found
  | succ fuel ih => exact passes_climb (passes_unary? ih _) _ (by decide)

/-- The text of an expression leaves no quote open. -/
theorem closes_of_parse? {source : String} {e : Expr} (read : Expr.parse? source = some e) :
    Closes source.toList := by
  unfold Expr.parse? at read
  dsimp only at read
  split at read
  · rename_i inner rest found
    split at read
    · rename_i blank
      have ended := passes_skip rest
      rw [List.isEmpty_iff.mp blank] at ended
      exact ((passes_skip _).trans ((passes_expression? _ _ _ _ found).trans ended)) closes_nil
    · cases read
  · cases read

end Command

end Dialogue
