import Dialogue.Proofs.Expr.Operators

set_option autoImplicit false

namespace Dialogue.Expr

open Dialogue.Text

theorem skip_append {gap rest : List Char} (blank : Gap gap)
    (solid : ∀ c ∈ rest.head?, isGap c = false) : skip (gap ++ rest) = rest :=
  (span_append blank solid).2

theorem skip_cons {gap : List Char} {c : Char} (blank : Gap gap) (solid : isGap c = false)
    (rest : List Char) : skip (gap ++ c :: rest) = c :: rest := by
  apply skip_append blank
  intro d first
  obtain rfl := Option.some.inj first
  exact solid

theorem Gap.append {first second : List Char} (front : Gap first) (back : Gap second) :
    Gap (first ++ second) :=
  List.forall_mem_append.mpr ⟨front, back⟩

theorem isGap_facts {c : Char} (gap : isGap c = true) :
    isNameChar c = false ∧ c ≠ '=' ∧ c ≠ '.' := by
  simp only [isGap, Bool.or_eq_true, decide_eq_true_eq] at gap
  rcases gap with ((rfl | rfl) | rfl) | rfl <;> decide

/-- What may follow an operand: no more of a name or number, and no arguments. -/
structure Boundary (rest : List Char) : Prop where
  ends : ∀ c ∈ rest.head?, isNameChar c = false
  pointless : ∀ c ∈ rest.head?, c ≠ '.'
  uncalled : ∀ c ∈ (skip rest).head?, c ≠ '('

section

variable {name rest : List Char}

theorem isNameChar_of_isNameStart {c : Char} (start : isNameStart c = true) :
    isNameChar c = true := by
  simp only [isNameStart, isNameChar, Char.isAlphanum, Bool.or_eq_true] at start ⊢
  rcases start with letter | line
  · exact .inl (.inl letter)
  · exact .inr line

theorem not_isDigit_of_not_isNameChar {c : Char} (other : isNameChar c = false) :
    c.isDigit = false := by
  simp only [isNameChar, Char.isAlphanum, Bool.or_eq_false_iff] at other
  exact other.1.2

theorem not_isDigit_of_isNameStart {c : Char} (start : isNameStart c = true) :
    c.isDigit = false := by
  rw [Bool.eq_false_iff]
  intro digit
  have code := (isDigit_iff c).mp digit
  simp only [isNameStart, Char.isAlpha, Bool.or_eq_true, isUpper_iff, isLower_iff,
    decide_eq_true_eq] at start
  rcases start with (upper | small) | rfl
  · omega
  · omega
  · cases digit

theorem head_of_identifier (named : spellsIdentifier name = true) :
    ∃ c cs, name = c :: cs ∧ isNameStart c = true := by
  cases name with
  | nil => cases named
  | cons c cs =>
      rw [spellsIdentifier, Bool.and_eq_true] at named
      exact ⟨c, cs, rfl, named.1⟩

theorem isNameChar_of_identifier (named : spellsIdentifier name = true) :
    ∀ c ∈ name, isNameChar c = true := by
  cases name with
  | nil => cases named
  | cons c cs =>
      rw [spellsIdentifier, Bool.and_eq_true, List.all_eq_true] at named
      exact List.forall_mem_cons.mpr ⟨isNameChar_of_isNameStart named.1, named.2⟩

theorem name?_append (named : spellsIdentifier name = true)
    (ends : ∀ c ∈ rest.head?, isNameChar c = false) :
    name? (name ++ rest) = some (String.ofList name, rest) := by
  have inside := isNameChar_of_identifier named
  obtain ⟨c, cs, rfl, start⟩ := head_of_identifier named
  have later : ∀ d ∈ cs, isNameChar d = true := fun d member =>
    inside d (List.mem_cons_of_mem _ member)
  obtain ⟨taken, left⟩ := span_append later ends
  rw [List.cons_append, name?, if_pos start, taken, left]

theorem name?_of_not_start {c : Char} (other : isNameStart c = false) (rest : List Char) :
    name? (c :: rest) = none := by
  rw [name?, if_neg (by simp [other])]

/-- A name that is not a word for a prefix operator is not taken for one. -/
theorem prefixes_name (named : spellsIdentifier name = true)
    (free : name.map Char.toLower ≠ "not".toList)
    (ends : ∀ c ∈ rest.head?, isNameChar c = false) : operator? prefixes (name ++ rest) = none := by
  have inside := isNameChar_of_identifier named
  have word : afterWord? "not".toList (name ++ rest) = none :=
    afterWord?_name (by decide) inside ends free
  have symbol (text : String) (a : Char) (shape : text.toList = [a])
      (other : isNameChar a = false) : after? text.toList (name ++ rest) = none := by
    obtain ⟨c, cs, rfl, start⟩ := head_of_identifier named
    have differ : a ≠ c := by
      rintro rfl
      rw [isNameChar_of_isNameStart start] at other
      cases other
    rw [shape, List.cons_append, after?, if_neg differ]
  simp only [prefixes, operator?, Spelling.after?, word, symbol "!" '!' rfl rfl,
    symbol "-" '-' rfl rfl, symbol "+" '+' rfl rfl]

end

/-- What starts with a character that is in no name and is not a parenthesis is neither a call nor
in parentheses. -/
theorem primary?_of_mark {c : Char} (other : isNameStart c = false) (notGroup : c ≠ '(')
    (operand : Reader Expr) (fuel : Nat) (rest : List Char) :
    primary? operand fuel (c :: rest) = atom? (c :: rest) := by
  have uncalled : call? operand fuel (c :: rest) = none := by
    rw [call?, name?_of_not_start other]
  have ungrouped : group? operand (c :: rest) = none := by
    unfold group?
    split
    · rename_i inner shape
      exact absurd (List.cons.inj shape).1 notGroup
    · rfl
  rw [primary?, uncalled, ungrouped]
  rfl

theorem number?_of_mark {c : Char} (notDigit : c.isDigit = false) (notPoint : c ≠ '.')
    (rest : List Char) : number? (c :: rest) = none := by
  unfold number?
  simp [notDigit, notPoint]

theorem boolean?_of_mark {c : Char} (notTrue : c.toLower ≠ 't') (notFalse : c.toLower ≠ 'f')
    (rest : List Char) : boolean? (c :: rest) = none := by
  have first (a : Char) (word : List Char) (differ : c.toLower ≠ a) :
      afterWord? (a :: word) (c :: rest) = none := by
    apply afterWord?_of_none
    rw [afterAnyCase?, if_neg (fun same => differ same.symm)]
  have yes : afterWord? "true".toList (c :: rest) = none := first 't' _ notTrue
  have no : afterWord? "false".toList (c :: rest) = none := first 'f' _ notFalse
  rw [boolean?, yes, no]

section

variable {cs rest : List Char} {value : Float}

theorem number?_append (numeral : Numeral cs) (read : Decimal.read? cs = some value)
    (boundary : Boundary rest) :
    number? (cs ++ rest) = some (.literal (.number value), rest) := by
  have ends : ∀ c ∈ rest.head?, c.isDigit = false := fun c first =>
    not_isDigit_of_not_isNameChar (boundary.ends c first)
  -- The digits behind a point, whatever the digits in front of it are.
  have fractional (whole fraction : List Char) (front : ∀ c ∈ whole, c.isDigit = true)
      (behind : Digits fraction) (read : Decimal.read? (whole ++ '.' :: fraction) = some value) :
      number? (whole ++ '.' :: fraction ++ rest) = some (.literal (.number value), rest) := by
    have point : ∀ c ∈ ('.' :: (fraction ++ rest)).head?, c.isDigit = false := by
      intro c first
      obtain rfl := Option.some.inj first
      rfl
    obtain ⟨taken, left⟩ := span_append front point
    obtain ⟨digits, after⟩ := span_append behind.2 ends
    have some' : fraction.isEmpty = false := by
      rw [List.isEmpty_eq_false_iff]
      exact behind.1
    rw [List.append_assoc, List.cons_append]
    unfold number?
    simp [taken, left, digits, after, some', read]
  cases numeral with
  | whole valid =>
      obtain ⟨taken, left⟩ := span_append valid.2 ends
      have some' : cs.isEmpty = false := by
        rw [List.isEmpty_eq_false_iff]
        exact valid.1
      unfold number?
      simp only [taken, left]
      cases rest with
      | nil => simp [some', read]
      | cons c rest => simp [some', read, boundary.pointless c rfl]
  | @fraction digits valid =>
      exact fractional [] digits (fun c member => (nomatch member)) valid read
  | @both digits fraction valid behind => exact fractional digits fraction valid.2 behind read

end

theorem quoted?_escapeText (cs rest : List Char) :
    quoted? '"' (escapeText cs ++ '"' :: rest) = some (cs, rest) := by
  induction cs with
  | nil => rfl
  | cons c cs ih =>
      rw [escapeText]
      by_cases special : (c = '\\' || c = '"') = true
      · have same : (if c = 'n' then '\n' else if c = 't' then '\t' else c) = c := by
          simp only [Bool.or_eq_true, decide_eq_true_eq] at special
          rcases special with rfl | rfl <;> rfl
        rw [if_pos special, List.cons_append, List.cons_append, quoted?, ih, same]
        rfl
      · rw [if_neg special, List.cons_append]
        simp only [Bool.or_eq_true, decide_eq_true_eq, not_or] at special
        rw [quoted?]
        · rw [if_neg special.2, ih]
          rfl
        · intro slash
          exact absurd slash special.1
        · intro d ds slash
          exact absurd slash special.1

section

variable (operand : Reader Expr) (fuel : Nat) {rest : List Char}

theorem reference?_enumCase {enum case : List Char} (outer : spellsIdentifier enum = true)
    (named : spellsIdentifier case = true) (ends : ∀ c ∈ rest.head?, isNameChar c = false) :
    reference? (enum ++ '.' :: (case ++ rest)) =
      some (.enumCase (String.ofList enum) (String.ofList case), rest) := by
  have point : ∀ c ∈ ('.' :: (case ++ rest)).head?, isNameChar c = false := by
    intro c first
    obtain rfl := Option.some.inj first
    rfl
  have read := name?_append outer point
  have behind := name?_append named ends
  obtain ⟨c, cs, rfl, start⟩ := head_of_identifier outer
  rw [List.cons_append] at read ⊢
  unfold reference?
  split
  · rename_i shape
    obtain ⟨rfl, -⟩ := List.cons.inj shape
    cases start
  · rename_i shape
    obtain ⟨rfl, -⟩ := List.cons.inj shape
    cases start
  · simp only [read, behind]

/-- A name that is not called is a truth value or a reference. -/
theorem primary?_of_name {name : List Char} (named : spellsIdentifier name = true)
    (ends : ∀ c ∈ rest.head?, isNameChar c = false)
    (uncalled : ∀ c ∈ (skip rest).head?, c ≠ '(') :
    primary? operand fuel (name ++ rest) =
      (boolean? (name ++ rest)).orElse fun _ => reference? (name ++ rest) := by
  have notCall : call? operand fuel (name ++ rest) = none := by
    rw [call?, name?_append named ends]
    simp only
    split
    · rename_i inner shape
      exact absurd rfl (uncalled '(' (by rw [shape]; rfl))
    · rfl
  obtain ⟨c, cs, rfl, start⟩ := head_of_identifier named
  rw [List.cons_append] at notCall ⊢
  have inside := isNameChar_facts (isNameChar_of_isNameStart start)
  have notDigit := not_isDigit_of_isNameStart start
  have notGroup : group? operand (c :: (cs ++ rest)) = none := by
    unfold group?
    split
    · rename_i inner shape
      exact absurd (List.cons.inj shape).1 inside.2.2.1
    · rfl
  have notText : string? (c :: (cs ++ rest)) = none := by
    unfold string?
    split
    · rename_i shape
      obtain ⟨rfl, -⟩ := List.cons.inj shape
      cases start
    · rename_i shape
      obtain ⟨rfl, -⟩ := List.cons.inj shape
      cases start
    · rfl
  rw [primary?, notCall, notGroup, atom?, number?_of_mark notDigit inside.2.2.2.2, notText]
  rfl

/-- A name with a point behind it is neither a call nor a truth value. -/
theorem primary?_enumCase {enum case : List Char} (outer : spellsIdentifier enum = true)
    (named : spellsIdentifier case = true)
    (free : enum.map Char.toLower ≠ "true".toList ∧ enum.map Char.toLower ≠ "false".toList)
    (ends : ∀ c ∈ rest.head?, isNameChar c = false) :
    primary? operand fuel (enum ++ '.' :: (case ++ rest)) =
      some (.enumCase (String.ofList enum) (String.ofList case), rest) := by
  have point : ∀ c ∈ ('.' :: (case ++ rest)).head?, isNameChar c = false := by
    intro c first
    obtain rfl := Option.some.inj first
    rfl
  have uncalled : ∀ c ∈ (skip ('.' :: (case ++ rest))).head?, c ≠ '(' := by
    intro c first
    obtain rfl := Option.some.inj first
    decide
  have inside := isNameChar_of_identifier outer
  have yes := afterWord?_name (by decide) inside point free.1
  have no := afterWord?_name (by decide) inside point free.2
  rw [primary?_of_name operand fuel outer point uncalled, boolean?, yes, no]
  exact reference?_enumCase outer named ends

/-- A word that is a name is one in every letter case. -/
theorem spellsIdentifier_of_word {word name : List Char} (spelled : name.map Char.toLower = word)
    (named : spellsIdentifier word = true) : spellsIdentifier name = true := by
  subst spelled
  cases name with
  | nil => cases named
  | cons c cs =>
      have inside := isNameChar_of_identifier named
      rw [List.map_cons, spellsIdentifier, Bool.and_eq_true] at named
      rw [spellsIdentifier, Bool.and_eq_true, List.all_eq_true]
      refine ⟨?_, ?_⟩
      · by_contra other
        rw [Bool.not_eq_true] at other
        have small : c.isUpper = false := by
          simp only [isNameStart, Char.isAlpha, Bool.or_eq_false_iff] at other
          exact other.1.1
        rw [toLower_of_not_isUpper small, other] at named
        cases named.1
      · intro d member
        by_contra other
        have letter := inside d.toLower
          (List.mem_cons_of_mem _ (List.mem_map_of_mem member))
        exact ne_toLower_of_isNameChar letter (Bool.eq_false_iff.mpr other) rfl

theorem primary?_bool {value : Bool} {cs : List Char}
    (spelled : cs.map Char.toLower = (if value then "true" else "false").toList)
    (boundary : Boundary rest) :
    primary? operand fuel (cs ++ rest) = some (.literal (.bool value), rest) := by
  have named : spellsIdentifier cs = true := by
    apply spellsIdentifier_of_word spelled
    cases value <;> decide
  rw [primary?_of_name operand fuel named boundary.ends boundary.uncalled, boolean?]
  cases value with
  | true =>
      have yes : afterWord? "true".toList (cs ++ rest) = some rest :=
        afterWord?_append spelled boundary.ends
      rw [yes]
      rfl
  | false =>
      have differ : cs.map Char.toLower ≠ "true".toList := by
        rw [spelled]
        decide
      have yes := afterWord?_name (by decide) (isNameChar_of_identifier named) boundary.ends differ
      have no : afterWord? "false".toList (cs ++ rest) = some rest :=
        afterWord?_append spelled boundary.ends
      rw [yes, no]
      rfl

theorem apart_prefixes_of_isDigit {c : Char} (digit : c.isDigit = true) :
    apart c.toLower prefixes = true := by
  have small : c.isUpper = false := by
    rw [Bool.eq_false_iff]
    intro upper
    have code := (isDigit_iff c).mp digit
    have code' := (isUpper_iff c).mp upper
    omega
  have other (a : Char) (notDigit : a.isDigit = false) : a ≠ c := by
    rintro rfl
    rw [digit] at notDigit
    cases notDigit
  rw [toLower_of_not_isUpper small]
  simp [apart, prefixes, Spelling.text, other '!' rfl, other '-' rfl, other '+' rfl, other 'n' rfl]

theorem head_of_numeral {cs : List Char} (numeral : Numeral cs) :
    ∃ c rest, cs = c :: rest ∧ (c.isDigit = true ∨ c = '.') := by
  have digits {ds : List Char} (valid : Digits ds) :
      ∃ c rest, ds = c :: rest ∧ c.isDigit = true := by
    obtain ⟨c, rest, rfl⟩ := List.exists_cons_of_ne_nil valid.1
    exact ⟨c, rest, rfl, valid.2 c List.mem_cons_self⟩
  cases numeral with
  | whole valid =>
      obtain ⟨c, rest, shape, digit⟩ := digits valid
      exact ⟨c, rest, shape, .inl digit⟩
  | fraction valid => exact ⟨'.', _, rfl, .inr rfl⟩
  | @both front fraction valid behind =>
      obtain ⟨c, rest, rfl, digit⟩ := digits valid
      exact ⟨c, _, rfl, .inl digit⟩

/-- A written leaf is no prefix operator and is read as its expression. -/
theorem Leaf.read {e : Expr} {cs : List Char} (leaf : Leaf e cs) (valid : Admissible e)
    (boundary : Boundary rest) :
    operator? prefixes (cs ++ rest) = none ∧
      primary? operand fuel (cs ++ rest) = some (e, rest) := by
  cases leaf with
  | @bool value cs spelled =>
      refine ⟨?_, primary?_bool operand fuel spelled boundary⟩
      apply prefixes_name _ _ boundary.ends
      · apply spellsIdentifier_of_word spelled
        cases value <;> decide
      · rw [spelled]
        cases value <;> decide
  | @number cs value numeral read =>
      obtain ⟨c, tail, rfl, first⟩ := head_of_numeral numeral
      have number := number?_append numeral read boundary
      have mark : apart c.toLower prefixes = true ∧ isNameStart c = false ∧ c ≠ '(' := by
        rcases first with digit | rfl
        · refine ⟨apart_prefixes_of_isDigit digit, ?_, ?_⟩
          · by_contra start
            rw [Bool.not_eq_false] at start
            rw [not_isDigit_of_isNameStart start] at digit
            cases digit
          · rintro rfl
            cases digit
        · decide
      refine ⟨operator?_of_apart mark.1 _, ?_⟩
      rw [List.cons_append] at number ⊢
      rw [primary?_of_mark mark.2.1 mark.2.2, atom?, number]
      rfl
  | text value =>
      refine ⟨operator?_of_apart (by decide) _, ?_⟩
      have quoted := quoted?_escapeText value.toList rest
      have shape : '"' :: (escapeText value.toList ++ ['"']) ++ rest =
          '"' :: (escapeText value.toList ++ '"' :: rest) := by simp
      rw [shape, primary?_of_mark (by decide) (by decide), atom?,
        number?_of_mark (by decide) (by decide), string?, textIn?, quoted]
      simp
  | var name =>
      cases valid with
      | var named =>
          refine ⟨operator?_of_apart (by decide) _, ?_⟩
          rw [List.cons_append, primary?_of_mark (by decide) (by decide), atom?,
            number?_of_mark (by decide) (by decide), boolean?_of_mark (by decide) (by decide),
            reference?, name?_append named boundary.ends]
          simp [string?]
  | enumCase enum case =>
      rw [List.append_assoc, List.cons_append]
      cases valid with
      | shorthand named =>
          refine ⟨operator?_of_apart (by decide) _, ?_⟩
          have start : ∀ c ∈ (case.toList ++ rest).head?, c.isDigit = false := by
            obtain ⟨c, cs, shape, start⟩ := head_of_identifier named
            rw [shape]
            intro d first
            obtain rfl := Option.some.inj first
            exact not_isDigit_of_isNameStart start
          have notNumber : number? ('.' :: (case.toList ++ rest)) = none := by
            have none : ∀ c ∈ ([] : List Char), c.isDigit = true := fun c member => (nomatch member)
            obtain ⟨taken, -⟩ := span_append none start
            rw [List.nil_append] at taken
            unfold number?
            simp [taken]
          have shape : "".toList ++ '.' :: (case.toList ++ rest) = '.' :: (case.toList ++ rest) :=
            rfl
          rw [shape, primary?_of_mark (by decide) (by decide), atom?, notNumber,
            boolean?_of_mark (by decide) (by decide), reference?, name?_append named boundary.ends]
          simp [string?]
      | enumCase outer named free =>
          have point : ∀ c ∈ ('.' :: (case.toList ++ rest)).head?, isNameChar c = false := by
            intro c first
            obtain rfl := Option.some.inj first
            rfl
          refine ⟨prefixes_name outer free.1 point, ?_⟩
          have read := primary?_enumCase operand fuel outer named free.2 boundary.ends
          rw [String.ofList_toList, String.ofList_toList] at read
          exact read

end

end Dialogue.Expr
