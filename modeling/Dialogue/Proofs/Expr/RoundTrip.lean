import Dialogue.Proofs.Expr.Operands

set_option autoImplicit false

namespace Dialogue.Expr

open Dialogue.Text

/-- What may follow an operand at a level: nothing that the readers of that level and of tighter
ones would take. -/
structure Follow (level : Nat) (rest : List Char) : Prop extends Boundary rest where
  done : ∀ table ∈ levels.drop level, operator? table (skip rest) = none

theorem Follow.mono {j k : Nat} {rest : List Char} (follow : Follow k rest) (tighter : k ≤ j) :
    Follow j rest := by
  refine ⟨follow.toBoundary, fun table member => follow.done table ?_⟩
  have shape : levels.drop j = (levels.drop k).drop (j - k) := by
    rw [List.drop_drop, Nat.add_sub_cancel' tighter]
  rw [shape] at member
  exact List.mem_of_mem_drop member

/-- Behind a gap comes the end of the text. -/
theorem follow_end {gap : List Char} (blank : Gap gap) : Follow 0 gap := by
  have skipped : skip gap = [] := by
    rw [skip, List.dropWhile_eq_nil_iff]
    exact blank
  refine ⟨⟨?_, ?_, ?_⟩, ?_⟩
  · intro c first
    exact (isGap_facts (blank c (List.mem_of_mem_head? first))).1
  · intro c first
    exact (isGap_facts (blank c (List.mem_of_mem_head? first))).2.2
  · intro c first
    rw [skipped] at first
    cases first
  · intro table member
    rw [skipped]
    exact operator?_nil table member

/-- Behind a gap comes a character that is not a gap. -/
theorem follow_cons {gap : List Char} {c : Char} {level : Nat} (blank : Gap gap) (rest : List Char)
    (solid : isGap c = false) (uncalled : c ≠ '(')
    (direct : gap = [] → isNameChar c = false ∧ c ≠ '.')
    (other : ∀ table ∈ levels.drop level, apart c.toLower table = true) :
    Follow level (gap ++ c :: rest) := by
  have skipped := skip_cons blank solid rest
  have head : ∀ d ∈ (gap ++ c :: rest).head?, isNameChar d = false ∧ d ≠ '.' := by
    intro d first
    cases gap with
    | nil =>
        obtain rfl := Option.some.inj first
        exact direct rfl
    | cons e gap =>
        obtain rfl := Option.some.inj first
        have facts := isGap_facts (blank e List.mem_cons_self)
        exact ⟨facts.1, facts.2.2⟩
  refine ⟨⟨fun d first => (head d first).1, fun d first => (head d first).2, ?_⟩, ?_⟩
  · intro d first
    rw [skipped] at first
    obtain rfl := Option.some.inj first
    exact uncalled
  · intro table member
    rw [skipped]
    exact operator?_of_apart (other table member) rest

theorem follow_close {gap : List Char} (blank : Gap gap) (rest : List Char) :
    Follow 0 (gap ++ ')' :: rest) :=
  follow_cons blank rest (by decide) (by decide) (fun _ => by decide) (by decide)

theorem follow_comma {gap : List Char} (blank : Gap gap) (rest : List Char) :
    Follow 0 (gap ++ ',' :: rest) :=
  follow_cons blank rest (by decide) (by decide) (fun _ => by decide) (by decide)

/-- A left operand is followed by the operator. -/
theorem Token.follow {op : BinaryOp} {isWord : Bool} {token gap : List Char}
    (spelled : Token op.symbols op.words isWord token) (front : Spaced isWord gap)
    (rest : List Char) : Follow (op.level + 1) (gap ++ (token ++ rest)) := by
  obtain ⟨c, cs, rfl, head⟩ := spelled.head
  rw [List.cons_append]
  refine follow_cons front.1 _ head.solid head.notCall ?_ head.tighter
  intro none
  cases isWord with
  | false => exact head.symbol rfl
  | true => exact absurd none (front.2 rfl)

/-- The first character is neither a gap nor part of a longer symbol. -/
def Begins (cs : List Char) : Prop :=
  ∃ c rest, cs = c :: rest ∧ isGap c = false ∧ c ≠ '='

theorem Begins.append {cs : List Char} (begins : Begins cs) (more : List Char) :
    Begins (cs ++ more) := by
  obtain ⟨c, rest, rfl, facts⟩ := begins
  exact ⟨c, rest ++ more, rfl, facts⟩

theorem Begins.skip {cs gap : List Char} (begins : Begins cs) (blank : Gap gap) :
    skip (gap ++ cs) = cs := by
  obtain ⟨c, rest, rfl, solid, -⟩ := begins
  exact skip_cons blank solid rest

/-- An operator ends where its operand begins. -/
theorem Begins.clear {cs gap : List Char} {isWord : Bool} (begins : Begins cs)
    (back : Spaced isWord gap) : Clear isWord (gap ++ cs) := by
  obtain ⟨c, rest, rfl, solid, unequal⟩ := begins
  cases gap with
  | nil =>
      refine ⟨fun word => absurd rfl (back.2 word), ?_⟩
      intro d first
      obtain rfl := Option.some.inj first
      exact unequal
  | cons e gap =>
      have facts := isGap_facts (back.1 e List.mem_cons_self)
      refine ⟨fun _ d first => ?_, fun d first => ?_⟩
      · obtain rfl := Option.some.inj first
        exact facts.1
      · obtain rfl := Option.some.inj first
        exact facts.2.1

theorem begins_of_isNameChar {c : Char} (inside : isNameChar c = true) (rest : List Char) :
    Begins (c :: rest) := by
  have facts := isNameChar_facts inside
  exact ⟨c, rest, rfl, facts.1, facts.2.1⟩

theorem begins_identifier {name : List Char} (named : spellsIdentifier name = true) :
    Begins name := by
  obtain ⟨c, cs, rfl, start⟩ := head_of_identifier named
  exact begins_of_isNameChar (isNameChar_of_isNameStart start) cs

theorem begins_unary {op : UnaryOp} {isWord : Bool} {token : List Char}
    (spelled : Token op.symbols op.words isWord token) : Begins token := by
  cases spelled with
  | @symbol text listed =>
      have first : ∀ text ∈ op.symbols,
          (text.toList.head?.any fun c => isGap c = false ∧ c ≠ '=') = true := by
        cases op <;> decide
      obtain ⟨c, head, facts⟩ := (Option.any_eq_true _ _).mp (first text listed)
      obtain ⟨cs, shape⟩ := List.head?_eq_some_iff.mp head
      exact ⟨c, cs, shape, of_decide_eq_true facts⟩
  | @word text token listed spelled =>
      have named : ∀ text ∈ op.words, spellsIdentifier text.toList = true := by
        cases op <;> decide
      exact begins_identifier (spellsIdentifier_of_word spelled (named text listed))

theorem Leaf.begins {e : Expr} {cs : List Char} (leaf : Leaf e cs) (valid : Admissible e) :
    Begins cs := by
  cases leaf with
  | @bool value cs spelled =>
      apply begins_identifier
      apply spellsIdentifier_of_word spelled
      cases value <;> decide
  | number numeral read =>
      obtain ⟨c, rest, rfl, digit | rfl⟩ := head_of_numeral numeral
      · apply begins_of_isNameChar
        simp [isNameChar, Char.isAlphanum, digit]
      · exact ⟨'.', rest, rfl, by decide, by decide⟩
  | text value => exact ⟨'"', _, rfl, by decide, by decide⟩
  | var name => exact ⟨'$', _, rfl, by decide, by decide⟩
  | enumCase enum case =>
      cases valid with
      | shorthand named => exact ⟨'.', _, rfl, by decide, by decide⟩
      | enumCase outer named free => exact (begins_identifier outer).append _

theorem Written.begins {k : Nat} {e : Expr} {cs : List Char} (written : Written k e cs)
    (valid : Admissible e) : Begins cs := by
  induction written with
  | leaf leaf => exact leaf.begins valid
  | call written gaps before after ih =>
      cases valid with
      | call named free inside => exact (begins_identifier named).append _
  | unary fits spelled after written ih => exact (begins_unary spelled).append _
  | binary fits spelled front back first second ihFirst ihSecond =>
      cases valid with
      | binary left right => exact (ihFirst left).append _
  | group loose front back written ih => exact ⟨'(', _, rfl, by decide, by decide⟩

theorem chain_done {table : List (Spelling × BinaryOp)} {rest : List Char}
    (done : operator? table (skip rest) = none) (operand : Reader Expr) (fuel : Nat) (left : Expr) :
    chain table operand fuel left rest = (left, rest) := by
  cases fuel with
  | zero => rfl
  | succ fuel => rw [chain, done]

/-- What a reader of some levels returns when it has read `e`, and has taken `used` operators of the
loosest of them on the way. -/
def resume (fuel : Nat) (tightest : Reader Expr) (used : Nat) (e : Expr) (rest : List Char) :
    List (List (Spelling × BinaryOp)) → Option (Expr × List Char)
  | [] => some (e, rest)
  | table :: tighter => some (chain table (climb fuel tightest tighter) (fuel - used) e rest)

theorem resume_done {level : Nat} {rest : List Char} (follow : Follow level rest) (fuel : Nat)
    (tightest : Reader Expr) (used : Nat) (e : Expr) :
    resume fuel tightest used e rest (levels.drop level) = some (e, rest) := by
  have done := follow.done
  cases shape : levels.drop level with
  | nil => rfl
  | cons table tighter =>
      rw [shape] at done
      rw [resume, chain_done (done table List.mem_cons_self)]

/-- The bounds that the readers keep: how deep expressions nest, how many operators of one level
follow each other, and how many prefixes do. -/
structure Bounds where
  depth : Nat
  operators : Nat
  prefixes : Nat

namespace Bounds

def tight (b : Bounds) : Reader Expr :=
  unary? (expression? b.depth) b.prefixes

def climb (b : Bounds) (level : Nat) : Reader Expr :=
  Expr.climb b.operators b.tight (levels.drop level)

structure Admit (b : Bounds) (cs : List Char) : Prop where
  depth : cs.length ≤ b.depth
  operators : cs.length ≤ b.operators
  prefixes : cs.length ≤ b.prefixes

theorem Admit.part {b : Bounds} {cs part : List Char} (room : b.Admit cs)
    (shorter : part.length ≤ cs.length) : b.Admit part :=
  ⟨Nat.le_trans shorter room.depth, Nat.le_trans shorter room.operators,
    Nat.le_trans shorter room.prefixes⟩

end Bounds

/-- The reader of a level reads the expression and stands behind it. -/
def Reads (level : Nat) (e : Expr) (cs : List Char) : Prop :=
  ∀ (b : Bounds) (rest : List Char), b.Admit cs → Follow level rest →
    b.climb level (cs ++ rest) = some (e, rest)

/-- The reader of a level reads the expression and goes on with the operators of that level. -/
def Continues (level : Nat) (e : Expr) (cs : List Char) : Prop :=
  ∃ used, used < cs.length ∧ ∀ (b : Bounds) (rest : List Char), b.Admit cs →
    Follow (level + 1) rest →
      b.climb level (cs ++ rest) = resume b.operators b.tight used e rest (levels.drop level)

section

variable {e : Expr} {cs : List Char} {j k : Nat}

theorem Continues.reads (continues : Continues k e cs) : Reads k e cs := by
  obtain ⟨used, -, read⟩ := continues
  intro b rest room follow
  rw [read b rest room (follow.mono (Nat.le_succ k))]
  exact resume_done follow ..

/-- An operand of the next tighter level is one of this level. -/
theorem Reads.continues (reads : Reads (k + 1) e cs) (begins : Begins cs) : Continues k e cs := by
  have positive : 0 < cs.length := by
    obtain ⟨c, rest, rfl, -⟩ := begins
    exact Nat.succ_pos _
  refine ⟨0, positive, ?_⟩
  intro b rest room follow
  have read := reads b rest room follow
  unfold Bounds.climb at read ⊢
  cases shape : levels.drop k with
  | nil =>
      have next : levels.drop (k + 1) = [] := by rw [← List.drop_drop, shape, List.drop_nil]
      rw [next] at read
      exact read
  | cons table tighter =>
      have next : levels.drop (k + 1) = tighter := by
        rw [← List.drop_drop, shape]
        rfl
      rw [next] at read
      rw [climb, read]
      rfl

theorem Reads.mono (reads : Reads j e cs) (begins : Begins cs) (looser : k ≤ j) : Reads k e cs := by
  induction looser with
  | refl => exact reads
  | step _ ih => exact ih (reads.continues begins).reads

theorem Reads.continues_of_lt (reads : Reads j e cs) (begins : Begins cs) (looser : k < j) :
    Continues k e cs :=
  (reads.mono begins looser).continues begins

/-- What the reader of the tightest operands reads is read at every level. -/
theorem continues_of_tight (begins : Begins cs)
    (read : ∀ (b : Bounds) (rest : List Char), b.Admit cs → Boundary rest →
      b.tight (cs ++ rest) = some (e, rest)) (k : Nat) : Continues k e cs := by
  have reads : Reads (k + 1 + levels.length) e cs := by
    intro b rest room follow
    have shape : levels.drop (k + 1 + levels.length) = [] :=
      List.drop_eq_nil_of_le (Nat.le_add_left ..)
    rw [Bounds.climb, shape]
    exact read b rest room follow.toBoundary
  exact reads.continues_of_lt begins (by omega)

end

section

variable {e : Expr} {cs rest : List Char}

theorem Reads.expression? (reads : Reads 0 e cs) {depth : Nat} (enough : cs.length < depth)
    (follow : Follow 0 rest) : expression? depth (cs ++ rest) = some (e, rest) := by
  cases depth with
  | zero => omega
  | succ depth =>
      have small : cs.length ≤ depth := by omega
      have room : Bounds.Admit ⟨depth, depth + 1, depth + 1⟩ cs :=
        ⟨small, Nat.le_succ_of_le small, Nat.le_succ_of_le small⟩
      exact reads _ rest room follow

theorem group?_append (reads : Reads 0 e cs) (begins : Begins cs) {before after : List Char}
    (front : Gap before) (back : Gap after) {depth : Nat} (enough : cs.length < depth)
    (rest : List Char) :
    group? (expression? depth) ('(' :: (before ++ (cs ++ (after ++ ')' :: rest)))) =
      some (e, rest) := by
  have inner : expression? depth (skip (before ++ (cs ++ (after ++ ')' :: rest)))) =
      some (e, after ++ ')' :: rest) := by
    rw [(begins.append _).skip front]
    exact reads.expression? enough (follow_close back rest)
  have close : skip (after ++ ')' :: rest) = ')' :: rest := skip_cons back (by decide) rest
  simp only [group?, inner, close]

/-- A unary operator in front of an operand. -/
theorem tight_unary {op : UnaryOp} {isWord : Bool} {token gap : List Char}
    (spelled : Token op.symbols op.words isWord token) (after : Spaced isWord gap)
    (reads : Reads prefixLevel e cs) (begins : Begins cs) {b : Bounds}
    (room : b.Admit (token ++ (gap ++ cs))) (follow : Boundary rest) :
    b.tight (token ++ (gap ++ cs) ++ rest) = some (.unary op e, rest) := by
  obtain ⟨depth, operators, prefixes⟩ := b
  have longer : cs.length < (token ++ (gap ++ cs)).length := by
    obtain ⟨c, more, rfl, -⟩ := begins_unary spelled
    simp only [List.length_append, List.length_cons]
    omega
  cases prefixes with
  | zero =>
      have := room.prefixes
      simp only at this
      omega
  | succ prefixes =>
      have inner : Bounds.Admit ⟨depth, operators, prefixes⟩ cs := by
        have := room.prefixes
        refine ⟨?_, ?_, ?_⟩
        · exact Nat.le_trans (Nat.le_of_lt longer) room.depth
        · exact Nat.le_trans (Nat.le_of_lt longer) room.operators
        · simp only at this ⊢
          omega
      have operand := reads ⟨depth, operators, prefixes⟩ rest inner
        ⟨follow, fun table member => (nomatch member)⟩
      have sign := spelled.operator? (listed_unary op) ((begins.append rest).clear after)
      have shape : token ++ (gap ++ cs) ++ rest = token ++ (gap ++ (cs ++ rest)) := by simp
      rw [shape]
      unfold Bounds.tight unary?
      simp only [sign, (begins.append rest).skip after.1]
      have same : unary? (expression? depth) prefixes (cs ++ rest) = some (e, rest) := operand
      rw [same]
      rfl

theorem tight_of_primary {b : Bounds} (room : b.Admit cs) (begins : Begins cs)
    (unsigned : operator? Expr.prefixes (cs ++ rest) = none)
    (read : ∀ fuel, cs.length ≤ fuel + 1 →
      primary? (expression? b.depth) fuel (cs ++ rest) = some (e, rest)) :
    b.tight (cs ++ rest) = some (e, rest) := by
  obtain ⟨depth, operators, prefixes⟩ := b
  have enough := room.prefixes
  simp only at enough
  cases prefixes with
  | zero =>
      obtain ⟨c, more, rfl, -⟩ := begins
      cases enough
  | succ prefixes =>
      unfold Bounds.tight unary?
      rw [unsigned]
      exact read prefixes enough

end

theorem climb_of_none {fuel : Nat} {tightest : Reader Expr} {cs : List Char}
    (absent : tightest cs = none) (tables : List (List (Spelling × BinaryOp))) :
    climb fuel tightest tables cs = none := by
  induction tables with
  | nil => exact absent
  | cons table tighter ih => rw [climb, ih]

/-- Whether a character is none that an expression starts with. -/
def startsNone (c : Char) : Bool :=
  apart c.toLower prefixes && !isNameStart c && !c.isDigit && c.toLower ≠ 't' && c.toLower ≠ 'f' &&
    !"(.$\"'".toList.contains c

theorem expression?_of_startsNone {c : Char} (none : startsNone c = true) (depth : Nat)
    (rest : List Char) : expression? depth (c :: rest) = .none := by
  cases depth with
  | zero => rfl
  | succ depth =>
      simp only [startsNone, Bool.and_eq_true, Bool.not_eq_true', decide_eq_true_eq] at none
      obtain ⟨⟨⟨⟨⟨signs, unnamed⟩, notDigit⟩, notTrue⟩, notFalse⟩, marks⟩ := none
      have others : c ≠ '(' ∧ c ≠ '.' ∧ c ≠ '$' ∧ c ≠ '"' ∧ c ≠ '\'' := by
        refine ⟨?_, ?_, ?_, ?_, ?_⟩ <;> rintro rfl <;> cases marks
      have notText : string? (c :: rest) = .none := by
        unfold string?
        split
        · rename_i shape
          exact absurd (List.cons.inj shape).1 others.2.2.2.1
        · rename_i shape
          exact absurd (List.cons.inj shape).1 others.2.2.2.2
        · rfl
      have absent : atom? (c :: rest) = .none := by
        rw [atom?, number?_of_mark notDigit others.2.1, boolean?_of_mark notTrue notFalse,
          reference?, notText]
        · simp [name?_of_not_start unnamed]
        · intro cs wrong
          exact others.2.1 (List.cons.inj wrong).1
        · intro cs wrong
          exact others.2.2.1 (List.cons.inj wrong).1
      apply climb_of_none
      rw [unary?, operator?_of_apart signs]
      exact (primary?_of_mark unnamed others.1 ..).trans absent

/-- No expression starts with a closing parenthesis. -/
theorem expression?_close (depth : Nat) (rest : List Char) :
    expression? depth (')' :: rest) = none :=
  expression?_of_startsNone (by decide) depth rest

/-- The arguments of a call can be read. -/
structure ReadableArgs (depth : Nat) (args : List Arg) : Prop where
  reads : ∀ a ∈ args, Reads 0 a.expr a.text
  begins : ∀ a ∈ args, Begins a.text
  gaps : ∀ a ∈ args, Gap a.before ∧ Gap a.after
  short : ∀ a ∈ args, a.text.length < depth

namespace ReadableArgs

variable {depth : Nat} {a : Arg} {args : List Arg}

theorem tail (readable : ReadableArgs depth (a :: args)) : ReadableArgs depth args where
  reads := fun b member => readable.reads b (List.mem_cons_of_mem _ member)
  begins := fun b member => readable.begins b (List.mem_cons_of_mem _ member)
  gaps := fun b member => readable.gaps b (List.mem_cons_of_mem _ member)
  short := fun b member => readable.short b (List.mem_cons_of_mem _ member)

theorem first (readable : ReadableArgs depth (a :: args)) {rest : List Char}
    (follow : Follow 0 (a.after ++ rest)) :
    expression? depth (skip (a.chars ++ rest)) = some (a.expr, a.after ++ rest) := by
  have begins := readable.begins a List.mem_cons_self
  have shape : a.chars ++ rest = a.before ++ (a.text ++ (a.after ++ rest)) := by simp [Arg.chars]
  rw [shape, (begins.append _).skip (readable.gaps a List.mem_cons_self).1]
  exact (readable.reads a List.mem_cons_self).expression?
    (readable.short a List.mem_cons_self) follow

end ReadableArgs

theorem follow_moreArgs {gap inside : List Char} (blank : Gap gap) (back : Gap inside)
    (args : List Arg) (rest : List Char) :
    Follow 0 (gap ++ (moreArgsText args ++ (inside ++ ')' :: rest))) := by
  cases args with
  | nil =>
      rw [moreArgsText, List.nil_append, ← List.append_assoc]
      exact follow_close (blank.append back) rest
  | cons a args => exact follow_comma blank _

section

variable {depth : Nat} {inside : List Char}

theorem moreArgs_append {args : List Arg} (readable : ReadableArgs depth args) {gap : List Char}
    (blank : Gap gap) (back : Gap inside) {fuel : Nat} (enough : args.length ≤ fuel)
    (rest : List Char) :
    ∃ last, Gap last ∧
      moreArgs (expression? depth) fuel
        (gap ++ (moreArgsText args ++ (inside ++ ')' :: rest))) =
          (args.map Arg.expr, last ++ ')' :: rest) := by
  induction args generalizing gap fuel with
  | nil =>
      have both := blank.append back
      have close : skip (gap ++ inside ++ ')' :: rest) = ')' :: rest :=
        skip_cons both (by decide) rest
      refine ⟨gap ++ inside, both, ?_⟩
      rw [moreArgsText, List.nil_append, ← List.append_assoc]
      cases fuel with
      | zero => rfl
      | succ fuel =>
          rw [moreArgs, close]
          rfl
  | cons a args ih =>
      cases fuel with
      | zero => cases enough
      | succ fuel =>
          have after := (readable.gaps a List.mem_cons_self).2
          have read := readable.first (follow_moreArgs after back args rest)
          obtain ⟨last, blank', later⟩ := ih readable.tail after (Nat.le_of_succ_le_succ enough)
          have comma : skip (gap ++ (moreArgsText (a :: args) ++ (inside ++ ')' :: rest))) =
              ',' :: (a.chars ++ (moreArgsText args ++ (inside ++ ')' :: rest))) := by
            rw [moreArgsText, List.cons_append, List.append_assoc]
            exact skip_cons blank (by decide) _
          refine ⟨last, blank', ?_⟩
          rw [moreArgs, comma]
          simp only [read, later, List.map_cons]

theorem args_append {args : List Arg} (readable : ReadableArgs depth args) (back : Gap inside)
    {fuel : Nat} (enough : args.length ≤ fuel) (rest : List Char) :
    ∃ last, Gap last ∧
      Expr.args (expression? depth) fuel (argsText args ++ (inside ++ ')' :: rest)) =
        (args.map Arg.expr, last ++ ')' :: rest) := by
  cases args with
  | nil =>
      have close : skip (inside ++ ')' :: rest) = ')' :: rest := skip_cons back (by decide) rest
      refine ⟨inside, back, ?_⟩
      rw [argsText, List.nil_append, Expr.args, close, expression?_close]
      rfl
  | cons a args =>
      have after := (readable.gaps a List.mem_cons_self).2
      have read := readable.first (follow_moreArgs after back args rest)
      rw [List.length_cons] at enough
      obtain ⟨last, blank, later⟩ :=
        moreArgs_append readable.tail after back (Nat.le_of_succ_le enough) rest
      refine ⟨last, blank, ?_⟩
      rw [argsText, List.append_assoc, Expr.args]
      simp only [read, later, List.map_cons]

/-- A name ends before its arguments. -/
theorem name_ends {gap : List Char} (blank : Gap gap) (rest : List Char) :
    ∀ c ∈ (gap ++ '(' :: rest).head?, isNameChar c = false := by
  intro c first
  cases gap with
  | nil =>
      obtain rfl := Option.some.inj first
      decide
  | cons d gap =>
      obtain rfl := Option.some.inj first
      exact (isGap_facts (blank d List.mem_cons_self)).1

theorem call?_append {function : String} (named : IsIdentifier function) {args : List Arg}
    (readable : ReadableArgs depth args) {gap : List Char} (blank : Gap gap) (back : Gap inside)
    {fuel : Nat} (enough : args.length ≤ fuel) (rest : List Char) :
    call? (expression? depth) fuel
        (function.toList ++ (gap ++ '(' :: (argsText args ++ (inside ++ ')' :: rest)))) =
      some (.call function (args.map Arg.expr), rest) := by
  have ends := name_ends blank (argsText args ++ (inside ++ ')' :: rest))
  obtain ⟨last, blank', read⟩ := args_append readable back enough rest
  have close : skip (last ++ ')' :: rest) = ')' :: rest := skip_cons blank' (by decide) rest
  have parenthesis :=
    skip_cons blank (c := '(') (by decide) (argsText args ++ (inside ++ ')' :: rest))
  rw [call?, name?_append named ends]
  simp only [parenthesis, read, close, String.ofList_toList]

end

theorem length_le_moreArgsText {args : List Arg} :
    ∀ a ∈ args, a.text.length < (moreArgsText args).length := by
  induction args with
  | nil => exact fun a member => (nomatch member)
  | cons b args ih =>
      intro a member
      simp only [moreArgsText, Arg.chars, List.length_cons, List.length_append]
      rcases List.mem_cons.mp member with rfl | later
      · omega
      · have := ih a later
        omega

theorem length_moreArgsText (args : List Arg) : args.length ≤ (moreArgsText args).length := by
  induction args with
  | nil => exact Nat.le_refl _
  | cons a args ih =>
      simp only [moreArgsText, List.length_cons, List.length_append]
      omega

theorem length_le_argsText {args : List Arg} :
    ∀ a ∈ args, a.text.length ≤ (argsText args).length := by
  cases args with
  | nil => exact fun a member => (nomatch member)
  | cons b args =>
      intro a member
      simp only [argsText, Arg.chars, List.length_append]
      rcases List.mem_cons.mp member with rfl | later
      · omega
      · have := length_le_moreArgsText a later
        omega

theorem length_argsText (args : List Arg) : args.length ≤ (argsText args).length + 1 := by
  cases args with
  | nil => exact Nat.zero_le _
  | cons a args =>
      have := length_moreArgsText args
      simp only [argsText, List.length_cons, List.length_append]
      omega

section

variable {e left right : Expr} {cs : List Char} {k : Nat}

/-- An operator goes on from its left operand and takes its right one. -/
theorem continues_binary {op : BinaryOp} {isWord : Bool}
    {first before token after second : List Char}
    (spelled : Token op.symbols op.words isWord token) (front : Spaced isWord before)
    (back : Spaced isWord after) (continues : Continues op.level left first)
    (reads : Reads (op.level + 1) right second) (begins : Begins second) :
    Continues op.level (.binary op left right)
      (first ++ (before ++ (token ++ (after ++ second)))) := by
  obtain ⟨used, within, read⟩ := continues
  have lengths : (first ++ (before ++ (token ++ (after ++ second)))).length =
      first.length + (before.length + (token.length + (after.length + second.length))) := by
    simp only [List.length_append]
  have solid : 0 < token.length := by
    obtain ⟨c, rest, rfl, -⟩ := spelled.head
    exact Nat.succ_pos _
  refine ⟨used + 1, by omega, ?_⟩
  intro b rest room follow
  have shape : first ++ (before ++ (token ++ (after ++ second))) ++ rest =
      first ++ (before ++ (token ++ (after ++ (second ++ rest)))) := by simp
  -- The left operand is read first, and the operator is what follows it.
  have start := read b (before ++ (token ++ (after ++ (second ++ rest)))) (room.part (by omega))
    (spelled.follow front _)
  have sign := spelled.operator? (listed_binary op) ((begins.append rest).clear back)
  have operand := reads b rest (room.part (by omega)) follow
  rw [Bounds.climb] at operand
  have fuel : b.operators - used = b.operators - (used + 1) + 1 := by
    have := room.operators
    omega
  obtain ⟨c, cs, token', head⟩ := spelled.head
  have skipped : skip (before ++ (token ++ (after ++ (second ++ rest)))) =
      token ++ (after ++ (second ++ rest)) := by
    rw [token']
    exact skip_cons front.1 head.solid _
  rw [shape, start, levels_drop, resume, resume, fuel, chain, skipped, sign]
  simp only [(begins.append rest).skip back.1, operand]

theorem Written.continues (written : Written k e cs) (valid : Admissible e) : Continues k e cs := by
  have begins := written.begins valid
  -- Everything but a binary operator is read whole at the tightest level; a binary operator goes on
  -- from its left operand, at the level of both.
  induction written with
  | leaf leaf =>
      apply continues_of_tight begins
      intro b rest room boundary
      apply tight_of_primary room begins
      · exact (leaf.read (expression? b.depth) 0 valid boundary).1
      · exact fun fuel _ => (leaf.read _ fuel valid boundary).2
  | @call k function args gap inside written gaps before after ih =>
      cases valid with
      | call named free admissible =>
          have listed (a : Arg) (member : a ∈ args) : Admissible a.expr :=
            admissible a.expr (List.mem_map_of_mem member)
          have inner (a : Arg) (member : a ∈ args) : Begins a.text :=
            (written a member).begins (listed a member)
          apply continues_of_tight begins
          intro b rest room boundary
          have depth := room.depth
          simp only [List.length_append, List.length_cons] at depth
          have readable : ReadableArgs b.depth args := by
            refine ⟨fun a member => ?_, inner, gaps, fun a member => ?_⟩
            · exact (ih a member (listed a member) (inner a member)).reads
            · have := length_le_argsText a member
              omega
          have shape :
              function.toList ++ (gap ++ '(' :: (argsText args ++ (inside ++ [')']))) ++ rest =
                function.toList ++ (gap ++ '(' :: (argsText args ++ (inside ++ ')' :: rest))) := by
            simp
          apply tight_of_primary room begins
          · rw [shape]
            exact prefixes_name named free (name_ends before _)
          · intro fuel enough
            simp only [List.length_append, List.length_cons] at enough
            have count := length_argsText args
            rw [shape, primary?, call?_append named readable before after (by omega)]
            rfl
  | @unary k op operand isWord token gap cs fits spelled after written ih =>
      cases valid with
      | unary inside =>
          have inner := written.begins inside
          apply continues_of_tight begins
          intro b rest room boundary
          exact tight_unary spelled after (ih inside inner).reads inner room boundary
  | @binary k op left right isWord first before token after second fits spelled front back
      writtenLeft writtenRight ihLeft ihRight =>
      cases valid with
      | binary validLeft validRight =>
          have beginsLeft := writtenLeft.begins validLeft
          have beginsRight := writtenRight.begins validRight
          have here := continues_binary spelled front back (ihLeft validLeft beginsLeft)
            (ihRight validRight beginsRight).reads beginsRight
          rcases Nat.lt_or_eq_of_le fits with looser | rfl
          · exact here.reads.continues_of_lt begins looser
          · exact here
  | @group k e before cs after loose front back written ih =>
      have inner := written.begins valid
      apply continues_of_tight begins
      intro b rest room boundary
      have depth := room.depth
      simp only [List.length_append, List.length_cons] at depth
      have shape : '(' :: (before ++ (cs ++ (after ++ [')']))) ++ rest =
          '(' :: (before ++ (cs ++ (after ++ ')' :: rest))) := by simp
      have short : cs.length < b.depth := by omega
      have read := group?_append (ih valid inner).reads inner front back short rest
      apply tight_of_primary room begins
      · exact operator?_of_apart (by decide) _
      · intro fuel _
        rw [shape, primary?, call?, name?_of_not_start (by decide), read]
        rfl

theorem gap_nil : Gap [] :=
  fun _ member => (nomatch member)

theorem spaced_nil : Spaced false [] :=
  ⟨gap_nil, fun wrong => (nomatch wrong)⟩

/-- An expression that binds too loosely is put in parentheses. -/
theorem written_of_fits (fits : ∀ k ≤ e.level, ∃ cs, Written k e cs) (k : Nat) :
    ∃ cs, Written k e cs := by
  by_cases loose : e.level < k
  · obtain ⟨cs, inner⟩ := fits 0 (Nat.zero_le _)
    exact ⟨_, .group loose gap_nil gap_nil inner⟩
  · exact fits k (Nat.le_of_not_lt loose)

theorem written_args {args : List Expr} (written : ∀ e ∈ args, ∃ cs, Written 0 e cs) :
    ∃ listed : List Arg, listed.map Arg.expr = args ∧
      (∀ a ∈ listed, Written 0 a.expr a.text) ∧ ∀ a ∈ listed, Gap a.before ∧ Gap a.after := by
  induction args with
  | nil => exact ⟨[], rfl, fun a member => (nomatch member), fun a member => (nomatch member)⟩
  | cons e args ih =>
      obtain ⟨⟨cs, first⟩, others⟩ := List.forall_mem_cons.mp written
      obtain ⟨listed, rfl, texts, gaps⟩ := ih others
      refine ⟨⟨e, [], cs, []⟩ :: listed, rfl, ?_, ?_⟩
      · exact List.forall_mem_cons.mpr ⟨first, texts⟩
      · exact List.forall_mem_cons.mpr ⟨⟨gap_nil, gap_nil⟩, gaps⟩

/-- Every expression that can be written is written in some way at each level. -/
theorem Admissible.written (valid : Admissible e) (k : Nat) : ∃ cs, Written k e cs := by
  induction valid generalizing k with
  | bool value =>
      refine ⟨(if value then "true" else "false").toList, .leaf (.bool ?_)⟩
      cases value <;> decide
  | number numeral read => exact ⟨_, .leaf (.number numeral read)⟩
  | text value => exact ⟨_, .leaf (.text value)⟩
  | @var name named => exact ⟨_, .leaf (.var name)⟩
  | @shorthand case named => exact ⟨_, .leaf (.enumCase "" case)⟩
  | @enumCase enum case outer named free => exact ⟨_, .leaf (.enumCase enum case)⟩
  | call named free inside ih =>
      obtain ⟨listed, rfl, texts, gaps⟩ := written_args fun e member => ih e member 0
      exact ⟨_, .call texts gaps gap_nil gap_nil⟩
  | @unary op operand inside ih =>
      apply written_of_fits
      intro k fits
      have sign : ∃ text, text ∈ op.symbols := by cases op <;> exact ⟨_, List.mem_cons_self⟩
      obtain ⟨text, listed⟩ := sign
      obtain ⟨cs, inner⟩ := ih prefixLevel
      exact ⟨_, .unary fits (.symbol listed) spaced_nil inner⟩
  | @binary op left right first second ihLeft ihRight =>
      apply written_of_fits
      intro k fits
      have sign : ∃ text, text ∈ op.symbols := by cases op <;> exact ⟨_, List.mem_cons_self⟩
      obtain ⟨text, listed⟩ := sign
      obtain ⟨cs, writtenLeft⟩ := ihLeft op.level
      obtain ⟨ds, writtenRight⟩ := ihRight (op.level + 1)
      exact ⟨_, .binary fits (.symbol listed) spaced_nil spaced_nil writtenLeft writtenRight⟩

end

/-- An expression has a spelling, and each of its spellings is read as the expression. -/
theorem parse?_spells {e : Expr} (valid : Admissible e) :
    (∃ source, Spells e source) ∧ ∀ source, Spells e source → parse? source = some e := by
  refine ⟨?_, ?_⟩
  · obtain ⟨cs, written⟩ := valid.written 0
    exact ⟨String.ofList cs, [], cs, [], gap_nil, gap_nil, written, by simp⟩
  · rintro source ⟨before, cs, after, front, back, written, shape⟩
    have begins := written.begins valid
    have short : cs.length < source.toList.length + 1 := by
      rw [shape]
      simp only [List.length_append]
      omega
    have read := (written.continues valid).reads.expression? short (follow_end back)
    have start : skip source.toList = cs ++ after := by
      rw [shape]
      exact (begins.append after).skip front
    have finish : skip after = [] := by
      rw [skip, List.dropWhile_eq_nil_iff]
      exact back
    unfold parse?
    simp only [start, read, finish]
    rfl

/-- A prefix around parentheses, words in mixed case, a call and literals. -/
def sampleExpr : Expr :=
  .binary .and (.unary .not (.binary .or (.var "a") (.enumCase "Mood" "Calm")))
    (.binary .ge (.call "max" [.var "b", .literal (.text "q\"")])
      (.literal (.number (Decimal.scaled 25 (-1)))))

def sampleSource : String :=
  "NOT ($a||Mood.Calm) aNd max( $b, \"q\\\"\") >= 2.5"

theorem numeral_sample : Numeral ("2".toList ++ '.' :: "5".toList) := by
  have digits (cs : List Char) (spelled : cs ≠ []) (all : cs.all Char.isDigit = true) : Digits cs :=
    ⟨spelled, List.all_eq_true.mp all⟩
  exact .both (digits _ (by decide) (by decide)) (digits _ (by decide) (by decide))

theorem admissible_sample : Admissible sampleExpr := by
  have arguments : ∀ e ∈ [.var "b", .literal (.text "q\"")], Admissible e := by
    intro e member
    simp only [List.mem_cons, List.not_mem_nil, or_false] at member
    rcases member with rfl | rfl
    · exact .var (by decide)
    · exact .text _
  have call : Admissible (.call "max" [.var "b", .literal (.text "q\"")]) :=
    .call (by decide) (by decide) arguments
  have choice : Admissible (.binary .or (.var "a") (.enumCase "Mood" "Calm")) :=
    .binary (.var (by decide)) (.enumCase (by decide) (by decide) (by decide))
  exact .binary (.unary choice) (.binary call (.number numeral_sample rfl))

theorem spells_sample : Spells sampleExpr sampleSource := by
  have blank : Gap [' '] := by simp [Gap, isGap]
  have spaced (isWord : Bool) : Spaced isWord [' '] := ⟨blank, fun _ => by decide⟩
  have choice : Written 0 (.binary .or (.var "a") (.enumCase "Mood" "Calm")) _ :=
    .binary (Nat.le_refl _) (.symbol List.mem_cons_self) spaced_nil spaced_nil (.leaf (.var "a"))
      (.leaf (.enumCase "Mood" "Calm"))
  have negation : Token UnaryOp.not.symbols UnaryOp.not.words true "NOT".toList :=
    .word List.mem_cons_self (by decide)
  have negated : Written 2 (.unary .not _) _ :=
    .unary (by decide) negation (spaced true) (.group (by decide) gap_nil gap_nil choice)
  have arguments : ∀ a ∈ [⟨.var "b", [' '], "$b".toList, []⟩,
      (⟨.literal (.text "q\""), [' '], "\"q\\\"\"".toList, []⟩ : Arg)],
      Written 0 a.expr a.text ∧ Gap a.before ∧ Gap a.after := by
    intro a member
    simp only [List.mem_cons, List.not_mem_nil, or_false] at member
    rcases member with rfl | rfl
    · exact ⟨.leaf (.var "b"), blank, gap_nil⟩
    · exact ⟨.leaf (.text "q\""), blank, gap_nil⟩
  have called : Written 4 (.call "max" _) _ :=
    .call (fun a member => (arguments a member).1) (fun a member => (arguments a member).2) gap_nil
      gap_nil
  have compared : Written 3 (.binary .ge _ _) _ :=
    .binary (by decide) (.symbol List.mem_cons_self) (spaced false) (spaced false) called
      (.leaf (.number numeral_sample rfl))
  have conjunction : Token BinaryOp.and.symbols BinaryOp.and.words true "aNd".toList :=
    .word List.mem_cons_self (by decide)
  have whole : Written 0 sampleExpr _ :=
    .binary (Nat.zero_le _) conjunction (spaced true) (spaced true) negated compared
  exact ⟨[], _, [], gap_nil, gap_nil, whole, by decide⟩

theorem parse?_sample :
    Admissible sampleExpr ∧ Spells sampleExpr sampleSource ∧
      parse? sampleSource = some sampleExpr :=
  ⟨admissible_sample, spells_sample, (parse?_spells admissible_sample).2 _ spells_sample⟩

end Dialogue.Expr
