import Dialogue.Proofs.Command.Effect
import Dialogue.Proofs.Command.Quotes
import Dialogue.Proofs.Expr.RoundTrip

set_option autoImplicit false

namespace Dialogue

namespace Command

open Dialogue.Text Dialogue.Expr

theorem ne_nil_of_parse? {source : String} {e : Expr} (read : Expr.parse? source = some e) :
    source.toList ≠ [] := by
  intro empty
  unfold Expr.parse? at read
  rw [empty] at read
  cases read

/-- An expression does not start like the second half of an equality. -/
theorem head_of_parse? {source : String} {e : Expr} (read : Expr.parse? source = some e) :
    source.toList.head? ≠ some '=' := by
  intro equals
  obtain ⟨rest, shape⟩ := List.head?_eq_some_iff.mp equals
  have solid : skip ('=' :: rest) = '=' :: rest := rfl
  unfold Expr.parse? at read
  simp only [shape, solid, expression?_of_startsNone (show startsNone '=' = true by decide)] at read
  cases read

/-- A text without outer white space is evaluated as it is. -/
theorem evaluate_of_parse? {source : String} {e : Expr} (trimmed : Trimmed source.toList)
    (read : Expr.parse? source = some e) (s : Store) :
    s.evaluate source = s.eval s.access (s.readWithin s.access Store.smartDepth) s.draws e := by
  have same : Text.trimmed source = source := by
    rw [Text.trimmed, trimmed.trim, String.ofList_toList]
  have spelled : Store.parseExpr source = .ok e := by
    unfold Store.parseExpr
    rw [same]
    dsimp only
    split
    · rename_i found
      rw [read] at found
      rw [Option.some.inj found]
    · rename_i found
      rw [read] at found
      cases found
  rw [Store.evaluate, Store.evaluateText, spelled]
  rfl

section Name

theorem isNameChar_plain {c : Char} (inside : isNameChar c = true) :
    isBlank c = false ∧ c ≠ '=' ∧ c ≠ '$' := by
  refine ⟨?_, (isNameChar_facts inside).2.1, ?_⟩
  · simp only [isNameChar, Char.isAlphanum, Char.isAlpha, Bool.or_eq_true, isUpper_iff, isLower_iff,
      isDigit_iff, decide_eq_true_eq] at inside
    rcases inside with letter | rfl
    · simp only [isBlank, Bool.or_eq_false_iff, Bool.and_eq_false_iff, decide_eq_false_iff_not,
        beq_eq_false_iff_ne]
      omega
    · decide
  · rintro rfl
    cases inside

variable {name : String}

theorem trimmed_of_identifier (named : IsIdentifier name) : Trimmed name.toList := by
  have inside := isNameChar_of_identifier named
  exact ⟨fun c first => (isNameChar_plain (inside c (List.mem_of_mem_head? first))).1,
    fun c last => (isNameChar_plain (inside c (List.mem_of_mem_getLast? last))).1⟩

/-- The mark of a variable is no part of its name. -/
theorem bareName_of_identifier (named : IsIdentifier name) :
    Store.bareName name = name ∧ Store.bareName ("$" ++ name) = name := by
  obtain ⟨c, cs, shape, start⟩ := head_of_identifier named
  have bare : name.toList.dropWhile (· = '$') = name.toList := by
    have other := (isNameChar_plain (isNameChar_of_isNameStart start)).2.2
    rw [shape, List.dropWhile_cons_of_neg (by simpa using other)]
  have trimmed := trimmed_of_identifier named
  have marked : Trimmed (['$'] ++ name.toList) :=
    trimmed_append (by simp [isBlank]) trimmed (by simp [shape])
  constructor
  · rw [Store.bareName, trimmed.trim, bare, String.ofList_toList]
  · have spelled : ("$" ++ name).toList = ['$'] ++ name.toList := String.toList_append
    rw [Store.bareName, spelled, marked.trim, List.singleton_append,
      List.dropWhile_cons_of_pos (by simp), bare, String.ofList_toList]

end Name

/-- What may stand between a variable and its value. -/
def joints : List String :=
  [" to ", " = ", "="]

/-- A command that sets a variable to the value of an expression. -/
def setText (name joint source : String) : String :=
  "set $" ++ name ++ joint ++ source

section Written

variable {name joint source : String}

theorem toList_setText (name joint source : String) :
    (setText name joint source).toList =
      's' :: 'e' :: 't' :: ' ' :: '$' :: (name.toList ++ (joint.toList ++ source.toList)) := by
  simp [setText]

theorem parse_setText (named : IsIdentifier name) (joins : joint ∈ joints)
    (trimmed : Trimmed source.toList) (filled : source.toList ≠ [])
    (closes : Closes source.toList) :
    ∃ args, parse (setText name joint source) = .ok ⟨"set", args, setText name joint source⟩ := by
  have inside := isNameChar_of_identifier named
  have whole : trim (setText name joint source).toList = (setText name joint source).toList := by
    rw [toList_setText]
    have front : Trimmed (('s' :: 'e' :: 't' :: ' ' :: '$' :: (name.toList ++ joint.toList)) ++
        source.toList) := trimmed_append (by simp [isBlank]) trimmed filled
    simpa using front.trim
  have rest : Closes ('$' :: (name.toList ++ (joint.toList ++ source.toList))) := by
    have joined : ∀ c ∈ joint.toList, isQuote c = false := by
      simp only [joints, List.mem_cons, List.not_mem_nil, or_false] at joins
      rcases joins with rfl | rfl | rfl <;> simp [isQuote]
    have front : Passes (name.toList ++ (joint.toList ++ source.toList)) source.toList :=
      (Passes.append (fun c member => isQuote_of_isNameChar (inside c member)) _).trans
        (.append joined _)
    exact (Passes.cons (by decide) _).trans front closes
  obtain ⟨args, found⟩ := Option.isSome_iff_exists.mp (rest .fresh)
  have words : words? none .fresh (setText name joint source).toList = some ("set" :: args) := by
    rw [toList_setText]
    have first (cs : List Char) : words? none .fresh ('s' :: 'e' :: 't' :: ' ' :: cs) =
        (words? none .fresh cs).map (["set"] ++ ·) := rfl
    rw [first, found]
    rfl
  refine ⟨args, ?_⟩
  have some : (setText name joint source).toList.isEmpty = false := by
    rw [toList_setText]
    rfl
  simp only [parse, whole, words, some, Bool.false_eq_true, ↓reduceIte, String.ofList_toList]

/-- Every joint ends the name of a variable. -/
theorem joint_head (joins : joint ∈ joints) :
    ∃ c cs, joint.toList = c :: cs ∧ endsVariable c = true := by
  simp only [joints, List.mem_cons, List.not_mem_nil, or_false] at joins
  rcases joins with rfl | rfl | rfl
  · exact ⟨' ', ['t', 'o', ' '], rfl, by decide⟩
  · exact ⟨' ', ['=', ' '], rfl, by decide⟩
  · exact ⟨'=', [], rfl, by decide⟩

/-- Behind the variable, every joint is found and the expression is left. -/
theorem trim_dropConnector (joins : joint ∈ joints) (trimmed : Trimmed source.toList)
    (apart : source.toList.head? ≠ some '=') :
    trim (dropConnector (trimStart (joint.toList ++ source.toList))) = source.toList := by
  have spaced : trim (' ' :: source.toList) = source.toList := trimmed.trim
  simp only [joints, List.mem_cons, List.not_mem_nil, or_false] at joins
  rcases joins with rfl | rfl | rfl
  · exact spaced
  · exact spaced
  · have equals : trimStart ("=".toList ++ source.toList) = '=' :: source.toList := rfl
    have joined : dropConnector ('=' :: source.toList) = source.toList := by
      rw [dropConnector]
      intro rest shape
      rw [shape] at apart
      exact apart rfl
    rw [equals, joined, trimmed.trim]

theorem assignment_setText (named : IsIdentifier name) (joins : joint ∈ joints)
    (trimmed : Trimmed source.toList) (filled : source.toList ≠ [])
    (apart : source.toList.head? ≠ some '=') (args : List String) :
    assignment ⟨"set", args, setText name joint source⟩ = .ok ("$" ++ name, source) := by
  have inside := isNameChar_of_identifier named
  have behind : after? "set".toList (setText name joint source).toList =
      some (' ' :: '$' :: (name.toList ++ (joint.toList ++ source.toList))) := by
    rw [toList_setText]
    rfl
  have letters : ∀ c ∈ '$' :: name.toList, (!endsVariable c) = true := by
    rw [List.forall_mem_cons]
    refine ⟨by decide, fun c member => ?_⟩
    obtain ⟨solid, other, -⟩ := isNameChar_plain (inside c member)
    simp [endsVariable, solid, other]
  have ends : ∀ c ∈ (joint.toList ++ source.toList).head?, (!endsVariable c) = false := by
    obtain ⟨c, cs, shape, ending⟩ := joint_head joins
    rw [shape, List.cons_append, List.head?_cons]
    rintro other ⟨⟩
    rw [ending]
    rfl
  obtain ⟨target, rest⟩ := span_append letters ends
  have marked : ('$' :: name.toList).all (· = '$') = false := by
    obtain ⟨c, cs, shape, start⟩ := head_of_identifier named
    have other := (isNameChar_plain (isNameChar_of_isNameStart start)).2.2
    simp [shape, other]
  have start : trimStart (' ' :: '$' :: (name.toList ++ (joint.toList ++ source.toList))) =
      '$' :: name.toList ++ (joint.toList ++ source.toList) := rfl
  have spelled : String.ofList ('$' :: name.toList) = "$" ++ name := by
    rw [← String.toList_inj, String.toList_ofList, String.toList_append]
    rfl
  unfold assignment
  simp only [behind, Option.getD_some, start, target, rest, marked,
    trim_dropConnector joins trimmed apart, List.isEmpty_iff, filled, spelled,
    String.ofList_toList, Bool.false_eq_true, ↓reduceIte]

end Written

/-- A variable is set to a value that names its enumeration, or the command fails as the expression
or the name of the enumeration does. -/
theorem set_of_assignment {c : Command} {name source : String} (named : IsIdentifier name)
    (assigns : c.assignment = .ok ("$" ++ name, source)) (s : Store) :
    set c s = match (s.drawing 0).evaluate source with
      | .error cause => (s, .error (.eval cause))
      | .ok found =>
          match qualify s (currentEnum? (s.drawing 1) name) found with
          | .error cause => (s, .error (.eval cause))
          | .ok value => (s.setVariable name value, .ok ()) := by
  obtain ⟨bare, marked⟩ := bareName_of_identifier named
  have current : currentEnum? (s.drawing 1) ("$" ++ name) = currentEnum? (s.drawing 1) name := by
    rw [currentEnum?, currentEnum?, Store.valueOf, Store.valueOf, marked, bare]
  have stored (value : Value) : s.setVariable ("$" ++ name) value = s.setVariable name value := by
    rw [Store.setVariable, Store.setVariable, marked, bare]
  simp only [set, assigns, current]
  generalize (s.drawing 0).evaluate source = given
  cases given with
  | error cause => rfl
  | ok found =>
      dsimp only
      generalize qualify s (currentEnum? (s.drawing 1) name) found = settled
      cases settled with
      | error cause => rfl
      | ok value => simp only [store, stored]

end Command

namespace Store

theorem setVariable_plain (s : Store) (name : String) (value : Value) :
    (s.setVariable name value).plain? name = some value ∧
      (s.setVariable name value).isSmart name = false := by
  constructor
  · rw [plain?, setVariable, Table.get?_insert_self]
  · rw [isSmart, setVariable, Table.contains, Table.get?_erase_self]
    rfl

end Store

namespace Command

open Dialogue.Text Dialogue.Expr

/-- An assignment is read as it is written: the command has words, its expression is the one that
the text spells, and the variable gets the value of it, with the enumeration named. -/
theorem assignment_carriedOut {name joint source : String} {e : Expr} (named : IsIdentifier name)
    (joins : joint ∈ joints) (trimmed : Trimmed source.toList)
    (spelled : Expr.parse? source = some e) (s : Store) :
    ∃ c, parse (setText name joint source) = .ok c ∧
      c.assignment = .ok ("$" ++ name, source) ∧
      (∀ t : Store, t.evaluate source =
        t.eval t.access (t.readWithin t.access Store.smartDepth) t.draws e) ∧
      (∀ found value, (s.drawing 0).evaluate source = .ok found →
        qualify s (currentEnum? (s.drawing 1) name) found = .ok value →
        Handlers.default.execute c s = (s.setVariable name value, .handled) ∧
          (s.setVariable name value).plain? name = some value ∧
          (s.setVariable name value).isSmart name = false) ∧
      (∀ cause, (s.drawing 0).evaluate source = .error cause →
        Handlers.default.execute c s = (s, .failed (.eval cause))) ∧
      ∀ found cause, (s.drawing 0).evaluate source = .ok found →
        qualify s (currentEnum? (s.drawing 1) name) found = .error cause →
        Handlers.default.execute c s = (s, .failed (.eval cause)) := by
  have filled := ne_nil_of_parse? spelled
  obtain ⟨args, read⟩ := parse_setText named joins trimmed filled (closes_of_parse? spelled)
  have assigns := assignment_setText named joins trimmed filled (head_of_parse? spelled) args
  have evaluates := evaluate_of_parse? trimmed spelled
  have sets := set_of_assignment named assigns s
  have executed : Handlers.default.execute ⟨"set", args, setText name joint source⟩ s =
      ((set ⟨"set", args, setText name joint source⟩ s).1,
        outcome (set ⟨"set", args, setText name joint source⟩ s).2) :=
    Handlers.execute_set (congrArg Text.lower rfl) s
  rw [sets] at executed
  refine ⟨_, read, assigns, evaluates, ?_, ?_, ?_⟩
  · intro found value given qualifies
    rw [executed, given]
    simp only [qualifies]
    exact ⟨rfl, s.setVariable_plain name value⟩
  · intro cause fails
    rw [executed, fails]
    rfl
  · intro found cause given fails
    rw [executed, given]
    simp only [fails]
    rfl

/-- A text with a joint, an escape and a quote in it. -/
def quotation : String :=
  "'it\\'s = to \"'"

theorem quotation_carriedOut :
    IsIdentifier "line" ∧ "=" ∈ joints ∧ Trimmed quotation.toList ∧
      Expr.parse? quotation = some (.literal (.text "it's = to \"")) ∧
      ∃ c after, parse "set $line='it\\'s = to \"'" = .ok c ∧
        Handlers.default.execute c (.withEnums .empty) = (after, .handled) ∧
        after.plain? "line" = some (.text "it's = to \"") := by
  have named : IsIdentifier "line" := by decide
  have joins : "=" ∈ joints := by decide
  have trimmed : Trimmed quotation.toList := by decide
  have spelled : Expr.parse? quotation = some (.literal (.text "it's = to \"")) := by rfl
  obtain ⟨c, read, -, evaluates, handled, -⟩ :=
    assignment_carriedOut named joins trimmed spelled (Store.withEnums .empty)
  obtain ⟨executed, plain, -⟩ := handled _ _ (evaluates _) rfl
  exact ⟨named, joins, trimmed, spelled, c, _, read, executed, plain⟩

end Command

end Dialogue
