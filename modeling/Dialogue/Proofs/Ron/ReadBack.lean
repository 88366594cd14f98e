import Dialogue.Proofs.Ron.Bracket
import Dialogue.Proofs.Ron.Scalar

set_option autoImplicit false

namespace Dialogue.Ron

open Dialogue.Text

/-- A value is read back from its text, before whatever may follow it. -/
structure Reads (v : Ron) : Prop where
  begins : ∀ layout, Begins (v.write layout)
  back : ∀ layout fuel rest, Ends rest → (v.write layout).length < fuel →
    value? fuel (v.write layout ++ rest) = some (v, rest)

/-- A name that needs no mark. -/
def isName (name : List Char) : Bool :=
  name.all isIdentifierChar && name.head?.any fun c =>
    isIdentifierStart c && !isGap c && !(['/', ')', ']', '\x7d'].contains c)

/-- Whether a value that starts with a character can only be a name. -/
def leadsName (c : Char) : Bool :=
  !startsNumber c && !(['"', '\'', '(', '[', '\x7b', 'r', 'b'].contains c)

/-- A name that starts no other value. -/
def isWord (name : List Char) : Bool :=
  isName name && name.head?.any leadsName

/-- A word without a meaning of its own. -/
def isVariant (name : List Char) : Bool :=
  isWord name && !(["true", "false", "None", "Some"].contains (String.ofList name)) &&
    (special? name).isNone

/-- No name goes on with what follows. -/
def Stops (rest : List Char) : Prop :=
  ∀ c ∈ rest.head?, isIdentifierChar c = false ∧ c ≠ '#'

theorem Ends.stops {rest : List Char} (ends : Ends rest) : Stops rest := by
  intro c first
  rcases mem_marks (ends c first) with rfl | rfl | rfl | rfl
  · decide +kernel
  · decide +kernel
  · decide +kernel
  · decide +kernel

theorem stops_cons {c : Char} (mark : c ∈ ['(', ':']) (rest : List Char) : Stops (c :: rest) := by
  intro d first
  rw [← Option.some.inj first]
  rcases List.mem_pair.mp mark with rfl | rfl
  · decide +kernel
  · decide +kernel

section Names

variable {name rest : List Char}

theorem isName_of_isWord (word : isWord name) : isName name :=
  ((Bool.and_eq_true _ _).mp word).1

theorem isName_of_isVariant (variant : isVariant name) : isName name := by
  unfold isVariant at variant
  simp only [Bool.and_eq_true] at variant
  exact isName_of_isWord variant.1.1

theorem begins_of_isName (named : isName name) : Begins name := by
  cases name with
  | nil => cases named
  | cons c cs =>
      simp only [isName, Bool.and_eq_true, List.head?_cons, Option.any_some, Bool.not_eq_true',
        List.contains_eq_mem, decide_eq_false_iff_not] at named
      exact ⟨c, cs, rfl, named.2.1.2, named.2.2⟩

/-- The mark that lets a name be any name does not come about by chance. -/
theorem not_free (named : isName name) (stops : Stops rest) (tail : List Char) :
    name ++ rest ≠ 'r' :: '#' :: tail := by
  intro same
  have hash : isIdentifierChar '#' = false := by decide +kernel
  simp only [isName, Bool.and_eq_true, List.all_eq_true] at named
  cases name with
  | nil => cases named.2
  | cons c cs =>
      obtain ⟨-, same⟩ := List.cons.inj same
      cases cs with
      | nil =>
          have hash : rest = '#' :: tail := same
          rw [hash] at stops
          exact (stops '#' rfl).2 rfl
      | cons d ds =>
          obtain ⟨rfl, -⟩ := List.cons.inj same
          have inside := named.1 '#' (by simp)
          rw [hash] at inside
          cases inside

theorem name?_append (named : isName name) (stops : Stops rest) :
    name? (name ++ rest) = some (name, rest) := by
  unfold name?
  split
  · rename_i tail free
    exact absurd free (not_free named stops tail)
  · rename_i c tail first
    simp only [isName, Bool.and_eq_true, List.all_eq_true] at named
    have run := span_append named.1 fun c first => (stops c first).1
    cases name with
    | nil => cases named.2
    | cons d cs =>
        obtain ⟨rfl, -⟩ := List.cons.inj first
        simp only [List.head?_cons, Option.any_some, Bool.and_eq_true] at named
        rw [if_pos named.2.1.1, run.1, run.2]
  · rename_i empty
    obtain ⟨c, cs, rfl, -⟩ := begins_of_isName named
    cases empty

theorem isFree_append (named : isName name) (stops : Stops rest) :
    isFree (name ++ rest) = false := by
  unfold isFree
  split
  · rename_i tail free
    exact absurd free (not_free named stops tail)
  · rfl

/-- Without a quote or a mark in front, a value without brackets is a number. -/
theorem scalar?_eq_numeric? {c : Char} (plain : c ∉ ['"', '\'', 'r', 'b']) (cs : List Char) :
    scalar? (c :: cs) = numeric? (c :: cs) := by
  simp only [List.mem_cons, List.not_mem_nil, or_false, not_or] at plain
  obtain ⟨quote, apostrophe, raw, byte⟩ := plain
  simp [scalar?, text?, bytes?, char?, quote, apostrophe, raw, byte]

/-- A value that starts with a word is what the word starts. -/
theorem value?_word (word : isWord name) (fuel : Nat) :
    value? (fuel + 1) (name ++ rest) = worded? (value? fuel) (fuel + 1) (name ++ rest) := by
  obtain ⟨c, cs, rfl, -⟩ := begins_of_isName (isName_of_isWord word)
  have leads : leadsName c = true := ((Bool.and_eq_true _ _).mp word).2
  simp only [leadsName, Bool.and_eq_true, Bool.not_eq_true', List.contains_eq_mem,
    decide_eq_false_iff_not, List.mem_cons, List.not_mem_nil, or_false, not_or] at leads
  obtain ⟨number, quote, apostrophe, parenthesis, bracket, brace, raw, byte⟩ := leads
  have none : scalar? (c :: (cs ++ rest)) = none := by
    rw [scalar?_eq_numeric? (by simp [quote, apostrophe, raw, byte])]
    simp [numeric?, byteChar?, number, byte]
  rw [List.cons_append, value?.eq_7, none]
  · rintro ⟨⟩
  · rintro tail ⟨⟩
    exact parenthesis rfl
  · rintro tail ⟨⟩
    exact bracket rfl
  · rintro tail ⟨⟩
    exact brace rfl

/-- What a word starts, given the text behind it. -/
theorem worded?_append (named : isName name) (stops : Stops rest)
    (value : List Char → Option (Ron × List Char)) (fuel : Nat) :
    worded? value fuel (name ++ rest) =
      match String.ofList name with
      | "true" => some (.bool true, rest)
      | "false" => some (.bool false, rest)
      | "None" => some (.absent, rest)
      | "Some" => present? value fuel rest
      | _ =>
          if (special? name).isSome then some (.number name, rest)
          else named? value fuel name rest := by
  rw [worded?, name?_append named stops, isFree_append named stops]
  rfl

/-- A word without a meaning of its own stands alone or before parentheses. -/
theorem value?_variant (variant : isVariant name) (stops : Stops rest) (fuel : Nat) :
    value? (fuel + 1) (name ++ rest) = named? (value? fuel) (fuel + 1) name rest := by
  simp only [isVariant, Bool.and_eq_true, Bool.not_eq_true', List.contains_eq_mem,
    decide_eq_false_iff_not, List.mem_cons, List.not_mem_nil, or_false, not_or,
    Option.isNone_iff_eq_none] at variant
  obtain ⟨⟨word, truth, falsity, absent, there⟩, special⟩ := variant
  rw [value?_word word, worded?_append (isName_of_isWord word) stops]
  simp [special]

end Names

theorem value?_quote (cs : List Char) (fuel : Nat) (rest : List Char) :
    value? (fuel + 1) (quote cs ++ rest) = some (.text cs, rest) := by
  have text := text?_quote cs rest
  rw [value?.eq_7 _ _ (by rintro ⟨⟩) (by rintro tail ⟨⟩) (by rintro tail ⟨⟩) (by rintro tail ⟨⟩),
    scalar?, text]
  rfl

theorem begins_quote (cs : List Char) : Begins (quote cs) :=
  ⟨'"', _, rfl, by decide, by decide⟩

theorem reads_text (cs : List Char) : Reads (.text cs) where
  begins layout := begins_quote cs
  back layout fuel rest ends room := by
    obtain ⟨fuel, rfl⟩ : ∃ less, fuel = less + 1 := ⟨fuel - 1, by omega⟩
    exact value?_quote cs fuel rest

/-- A value that is written as a word is read back if the word starts it. -/
theorem reads_of_word {v : Ron} (name : List Char) (word : isWord name)
    (shape : ∀ layout, v.write layout = name)
    (starts : ∀ value fuel rest, Ends rest → worded? value fuel (name ++ rest) = some (v, rest)) :
    Reads v where
  begins layout := by
    rw [shape]
    exact begins_of_isName (isName_of_isWord word)
  back layout fuel rest ends room := by
    obtain ⟨fuel, rfl⟩ : ∃ less, fuel = less + 1 := ⟨fuel - 1, by omega⟩
    rw [shape, value?_word word]
    exact starts _ _ rest ends

theorem reads_bool (b : Bool) : Reads (.bool b) := by
  cases b with
  | false =>
      apply reads_of_word "false".toList (by decide +kernel) fun layout => rfl
      intro value fuel rest ends
      rw [worded?_append (by decide +kernel) ends.stops]
      rfl
  | true =>
      apply reads_of_word "true".toList (by decide +kernel) fun layout => rfl
      intro value fuel rest ends
      rw [worded?_append (by decide +kernel) ends.stops]
      rfl

theorem reads_absent : Reads .absent := by
  apply reads_of_word "None".toList (by decide +kernel) fun layout => rfl
  intro value fuel rest ends
  rw [worded?_append (by decide +kernel) ends.stops]
  rfl

theorem reads_word {name : List Char} (variant : isVariant name) : Reads (.word name) where
  begins layout := begins_of_isName (isName_of_isVariant variant)
  back layout fuel rest ends room := by
    obtain ⟨fuel, rfl⟩ : ∃ less, fuel = less + 1 := ⟨fuel - 1, by omega⟩
    show value? (fuel + 1) (name ++ rest) = some (.word name, rest)
    rw [value?_variant variant ends.stops, named?, ends.skip]
    cases rest with
    | nil => rfl
    | cons c rest =>
        have mark := ends c rfl
        have other : c ≠ '(' := by
          rintro rfl
          exact absurd mark (by decide)
        simp [other]

/-- A literal that is read as a number wherever it stands. -/
inductive Numeral : List Char → Prop
  | digits {literal : List Char} (shape : InDigits literal) (known : (number? literal).isSome) :
      Numeral literal
  | infinity : Numeral "inf".toList
  | noNumber : Numeral "NaN".toList

/-- A character that starts a number starts nothing else. -/
theorem not_mem_of_startsNumber {c : Char} (number : startsNumber c = true) {others : List Char}
    (apart : others.any startsNumber = false) : c ∉ others := by
  intro listed
  exact List.any_eq_false.mp apart c listed number

theorem isGap_of_startsNumber {c : Char} (number : startsNumber c = true) : isGap c = false := by
  simp only [startsNumber, Bool.or_eq_true, decide_eq_true_eq, isDigit_iff] at number
  rcases number with ((digit | rfl) | rfl) | rfl
  · simp [isGap]
    omega
  · decide
  · decide
  · decide

theorem reads_digits {literal : List Char} (shape : InDigits literal)
    (known : (number? literal).isSome) : Reads (.number literal) := by
  obtain ⟨starts, inside⟩ := shape
  cases literal with
  | nil => cases starts
  | cons c cs =>
      have number : startsNumber c = true := starts
      have opens : c ∉ ['/', ')', ']', '\x7d'] := not_mem_of_startsNumber number (by decide)
      have plain : c ∉ ['"', '\'', 'r', 'b'] := not_mem_of_startsNumber number (by decide)
      refine ⟨fun layout => ⟨c, cs, rfl, isGap_of_startsNumber number, opens⟩, ?_⟩
      intro layout fuel rest ends room
      obtain ⟨fuel, rfl⟩ : ∃ less, fuel = less + 1 := ⟨fuel - 1, by omega⟩
      have apart : ∀ d ∈ rest.head?, isNumberChar d = false := by
        intro d first
        rcases mem_marks (ends d first) with rfl | rfl | rfl | rfl <;> rfl
      have run := span_append inside apart
      obtain ⟨n, spelled⟩ := Option.isSome_iff_exists.mp known
      rw [List.cons_append] at run
      have found : numeric? (c :: (cs ++ rest)) = some (.number (c :: cs), rest) := by
        simp [numeric?, number, run, spelled]
      show value? (fuel + 1) (c :: cs ++ rest) = some (.number (c :: cs), rest)
      rw [List.cons_append, value?.eq_7, scalar?_eq_numeric? plain, found]
      · rintro ⟨⟩
      · rintro tail ⟨⟩
        exact absurd number (by decide)
      · rintro tail ⟨⟩
        exact absurd number (by decide)
      · rintro tail ⟨⟩
        exact absurd number (by decide)

theorem reads_number {literal : List Char} (numeral : Numeral literal) :
    Reads (.number literal) := by
  cases numeral with
  | digits shape known => exact reads_digits shape known
  | infinity =>
      apply reads_of_word "inf".toList (by decide +kernel) fun layout => rfl
      intro value fuel rest ends
      rw [worded?_append (by decide +kernel) ends.stops]
      rfl
  | noNumber =>
      apply reads_of_word "NaN".toList (by decide +kernel) fun layout => rfl
      intro value fuel rest ends
      rw [worded?_append (by decide +kernel) ends.stops]
      rfl

theorem writeItems_eq (layout : Layout) (items : List Ron) :
    writeItems layout items = items.map (write layout) := by
  induction items with
  | nil => rfl
  | cons item rest ih =>
      show write layout item :: writeItems layout rest = _
      rw [ih]
      rfl

/-- An entry of a map as it is written. -/
def entryText (layout : Layout) (entry : Ron × Ron) : List Char :=
  entry.1.write layout ++ layout.colon ++ entry.2.write layout

theorem writeEntries_eq (layout : Layout) (entries : List (Ron × Ron)) :
    writeEntries layout entries = entries.map (entryText layout) := by
  induction entries with
  | nil => rfl
  | cons entry rest ih =>
      show entryText layout entry :: writeEntries layout rest = _
      rw [ih]
      rfl

/-- A field as it is written. -/
def fieldText (layout : Layout) (field : List Char × Ron) : List Char :=
  field.1 ++ layout.colon ++ field.2.write layout

theorem writeFields_eq (layout : Layout) (fields : List (List Char × Ron)) :
    writeFields layout fields = fields.map (fieldText layout) := by
  induction fields with
  | nil => rfl
  | cons field rest ih =>
      show fieldText layout field :: writeFields layout rest = _
      rw [ih]
      rfl

theorem enclose_starts (layout : Layout) (opening closing : Char) (entries : List (List Char)) :
    ∃ inner, layout.enclose opening closing entries = opening :: inner := by
  cases entries <;> exact ⟨_, rfl⟩

section Brackets

variable {v : Ron} {name : List Char} {layout : Layout} {fuel : Nat} {rest : List Char}

theorem reads_present (reads : Reads v) : Reads (.present v) where
  begins layout := ⟨'S', _, rfl, by decide, by decide⟩
  back layout fuel rest ends room := by
    obtain ⟨fuel, rfl⟩ : ∃ less, fuel = less + 1 := ⟨fuel - 1, by omega⟩
    have shape : write layout (.present v) = "Some".toList ++ '(' :: (v.write layout ++ [')']) :=
      rfl
    have short : (v.write layout).length < fuel := by
      rw [shape] at room
      simp only [List.length_append, List.length_cons] at room
      omega
    have inner := reads.back layout fuel (')' :: rest) (ends_cons (by decide) rest) short
    have only : entries? skip true (value? fuel) ')' (fuel + 1)
        ([] ++ (v.write layout ++ ')' :: rest)) = some ([v], rest) :=
      entries?_last (by decide) (List.forall_mem_nil _) (reads.begins layout) inner fuel
    rw [shape, List.append_assoc, value?_word (by decide +kernel), List.cons_append,
      worded?_append (by decide +kernel) (stops_cons (by decide) _)]
    show present? (value? fuel) (fuel + 1) ('(' :: (v.write layout ++ [')'] ++ rest)) = _
    rw [present?, skip_solid (by decide) (by decide), List.append_assoc]
    simp only [List.nil_append] at only
    simp [only]

/-- Brackets are read back if each entry is, and if nothing but the opening bracket decides that
entries come next. -/
theorem reads_enclosed {α : Type} {written : Layout → α → List Char}
    {entry : Nat → List Char → Option (α × List Char)} {items : List α} {opening closing : Char}
    (opens : isGap opening = false ∧ opening ∉ ['/', ')', ']', '\x7d'])
    (closes : closing ∈ [')', ']', '\x7d'])
    (shape : ∀ layout, write layout v =
      layout.enclose opening closing (items.map (written layout.deeper)))
    (begins : ∀ layout, ∀ item ∈ items, Begins (written layout item))
    (back : ∀ layout fuel, ∀ item ∈ items, ∀ rest, Ends rest →
      (written layout item).length < fuel →
      entry fuel (written layout item ++ rest) = some (item, rest))
    (starts : ∀ fuel cs rest,
      entries? skip true (entry fuel) closing (fuel + 1) cs = some (items, rest) →
      value? (fuel + 1) (opening :: cs) = some (v, rest)) : Reads v := by
  constructor
  · intro layout
    obtain ⟨inner, first⟩ :=
      enclose_starts layout opening closing (items.map (written layout.deeper))
    exact ⟨opening, inner, (shape layout).trans first, opens.1, opens.2⟩
  · intro layout fuel rest ends room
    obtain ⟨fuel, rfl⟩ : ∃ less, fuel = less + 1 := ⟨fuel - 1, by omega⟩
    rw [shape] at room ⊢
    obtain ⟨inner, first, entries⟩ := layout.entries?_enclose closes (begins layout.deeper)
      (back layout.deeper fuel) opening (by omega)
    rw [first, List.cons_append]
    exact starts fuel _ rest (entries rest)

theorem reads_list {items : List Ron} (all : ∀ item ∈ items, Reads item) :
    Reads (.list items) := by
  have shape : ∀ layout, write layout (.list items) =
      layout.enclose '[' ']' (items.map (write layout.deeper)) := by
    intro layout
    show layout.enclose '[' ']' (writeItems layout.deeper items) = _
    rw [writeItems_eq]
  apply reads_enclosed ⟨by decide, by decide⟩ (by decide) shape
  · exact fun layout item listed => (all item listed).begins layout
  · exact fun layout fuel item listed => (all item listed).back layout fuel
  · intro fuel cs rest entries
    rw [value?.eq_5, entries]
    rfl

/-- A value stands behind its colon. -/
theorem skip_colon (reads : Reads v) (layout : Layout) (rest : List Char) :
    ∃ tail, layout.colon ++ (v.write layout ++ rest) = ':' :: tail ∧
      skip tail = v.write layout ++ rest := by
  cases layout with
  | compact =>
      refine ⟨_, rfl, ?_⟩
      have plain := (reads.begins .compact).skip_append (List.forall_mem_nil _) rest
      exact plain
  | lines depth =>
      refine ⟨_, rfl, ?_⟩
      have blank : ∀ c ∈ [' '], isGap c = true := List.all_eq_true.mp (by decide)
      exact (reads.begins (.lines depth)).skip_append blank rest

theorem length_entryText (layout : Layout) (key v : Ron) :
    (v.write layout).length ≤ (entryText layout (key, v)).length := by
  simp only [entryText, List.length_append]
  omega

theorem keyed?_entryText {cs : List Char} (reads : Reads v) (ends : Ends rest)
    (room : (entryText layout (.text cs, v)).length < fuel) :
    keyed? (value? fuel) (entryText layout (.text cs, v) ++ rest) = some ((.text cs, v), rest) := by
  obtain ⟨fuel, rfl⟩ : ∃ less, fuel = less + 1 := ⟨fuel - 1, by omega⟩
  have short := length_entryText layout (.text cs) v
  have back := reads.back layout (fuel + 1) rest ends (by omega)
  obtain ⟨tail, colon, behind⟩ := skip_colon reads layout rest
  have shape : entryText layout (.text cs, v) ++ rest = quote cs ++ ':' :: tail := by
    rw [← colon]
    simp only [entryText, List.append_assoc]
    rfl
  rw [shape, keyed?, value?_quote]
  simp only [Option.bind_eq_bind, Option.bind_some]
  rw [skip_solid (by decide) (by decide)]
  simp only [behind, back, Option.bind_some]

theorem reads_map {entries : List (Ron × Ron)}
    (all : ∀ entry ∈ entries, (∃ cs, entry.1 = .text cs) ∧ Reads entry.2) :
    Reads (.map entries) := by
  have shape : ∀ layout, write layout (.map entries) =
      layout.enclose '\x7b' '\x7d' (entries.map (entryText layout.deeper)) := by
    intro layout
    show layout.enclose '\x7b' '\x7d' (writeEntries layout.deeper entries) = _
    rw [writeEntries_eq]
  apply reads_enclosed ⟨by decide, by decide⟩ (by decide) shape
  · rintro layout ⟨key, v⟩ listed
    obtain ⟨⟨cs, rfl⟩, -⟩ := all _ listed
    exact ((begins_quote cs).append _).append _
  · rintro layout fuel ⟨key, v⟩ listed rest ends short
    obtain ⟨⟨cs, rfl⟩, reads⟩ := all _ listed
    exact keyed?_entryText reads ends short
  · intro fuel cs rest found
    rw [value?.eq_6, found]
    rfl

theorem length_fieldText (layout : Layout) (name : List Char) (v : Ron) :
    (v.write layout).length ≤ (fieldText layout (name, v)).length := by
  simp only [fieldText, List.length_append]
  omega

/-- A field stands as its name and a colon, with its value behind them. -/
theorem fieldText_append (reads : Reads v) (layout : Layout) (name rest : List Char) :
    ∃ tail, fieldText layout (name, v) ++ rest = name ++ ':' :: tail ∧
      skip tail = v.write layout ++ rest := by
  obtain ⟨tail, colon, behind⟩ := skip_colon reads layout rest
  refine ⟨tail, ?_, behind⟩
  rw [← colon]
  simp only [fieldText, List.append_assoc]

theorem field?_fieldText (named : isName name) (reads : Reads v) (ends : Ends rest)
    (room : (fieldText layout (name, v)).length < fuel) :
    field? (value? fuel) (fieldText layout (name, v) ++ rest) = some ((name, v), rest) := by
  have short := length_fieldText layout name v
  have back := reads.back layout fuel rest ends (by omega)
  obtain ⟨tail, shape, behind⟩ := fieldText_append reads layout name rest
  rw [shape, field?, name?_append named (stops_cons (by decide) _)]
  simp only [Option.bind_eq_bind, Option.bind_some]
  rw [skip_solid (by decide) (by decide)]
  simp only [behind, back, Option.bind_some]

/-- No field starts with a parenthesis. -/
theorem startsField_parenthesis {c : Char} (mark : c ∈ ['(', ')']) (cs : List Char) :
    startsField (c :: cs) = false := by
  rcases List.mem_pair.mp mark with rfl | rfl
  · rw [startsField, skip_solid (by decide) (by decide)]
    rfl
  · rw [startsField, skip_solid (by decide) (by decide)]
    rfl

/-- What can be told to be fields: there is one, and all have names. -/
structure ReadsFields (fields : List (List Char × Ron)) : Prop where
  nonempty : fields ≠ []
  named : ∀ field ∈ fields, isName field.1 = true
  reads : ∀ field ∈ fields, Reads field.2

theorem startsField_fields {fields : List (List Char × Ron)} (reads : ReadsFields fields)
    {inner : List Char}
    (starts : layout.enclose '(' ')' (fields.map (fieldText layout.deeper)) = '(' :: inner)
    (rest : List Char) : startsField (inner ++ rest) = true := by
  obtain ⟨⟨name, v⟩, others, rfl⟩ := List.exists_cons_of_ne_nil reads.nonempty
  have named := reads.named (name, v) (List.mem_cons_self ..)
  obtain ⟨gap, more, blank, shape⟩ := layout.enclose_cons '(' ')'
    (fieldText layout.deeper (name, v)) (others.map (fieldText layout.deeper))
  obtain ⟨-, rfl⟩ := List.cons.inj (starts.symm.trans shape)
  obtain ⟨tail, colon, -⟩ := fieldText_append (reads.reads (name, v) (List.mem_cons_self ..))
    layout.deeper name (more ++ rest)
  have text : gap ++ (fieldText layout.deeper (name, v) ++ more) ++ rest =
      gap ++ (name ++ ':' :: tail) := by
    rw [← colon]
    simp only [List.append_assoc]
  rw [text, startsField, (begins_of_isName named).skip_append blank,
    name?_append named (stops_cons (by decide) _)]
  simp only
  rw [skip_solid (by decide) (by decide)]
  rfl

theorem parenthesized?_fields {fields : List (List Char × Ron)} (reads : ReadsFields fields)
    (room : (layout.enclose '(' ')' (fields.map (fieldText layout.deeper))).length ≤ fuel) :
    ∃ inner, layout.enclose '(' ')' (fields.map (fieldText layout.deeper)) = '(' :: inner ∧
      ∀ name rest, startsField (inner ++ rest) = true ∧
        parenthesized? (value? fuel) (fuel + 1) name (inner ++ rest) =
          some (.record name fields, rest) := by
  have closes : ')' ∈ [')', ']', '\x7d'] := by decide
  have begins : ∀ field ∈ fields, Begins (fieldText layout.deeper field) :=
    fun field listed => ((begins_of_isName (reads.named field listed)).append _).append _
  have entries : ∀ field ∈ fields, ∀ rest, Ends rest →
      (fieldText layout.deeper field).length < fuel →
      field? (value? fuel) (fieldText layout.deeper field ++ rest) = some (field, rest) :=
    fun field listed rest ends short =>
      field?_fieldText (reads.named field listed) (reads.reads field listed) ends short
  obtain ⟨inner, starts, back⟩ := layout.entries?_enclose closes begins entries '(' room
  refine ⟨inner, starts, ?_⟩
  intro name rest
  have fields_first := startsField_fields reads starts rest
  refine ⟨fields_first, ?_⟩
  rw [parenthesized?, if_pos fields_first, back]
  rfl

theorem write_record (layout : Layout) (name : List Char) (fields : List (List Char × Ron)) :
    write layout (.record name fields) =
      name ++ layout.enclose '(' ')' (fields.map (fieldText layout.deeper)) := by
  show name ++ layout.enclose '(' ')' (writeFields layout.deeper fields) = _
  rw [writeFields_eq]

theorem write_struct (layout : Layout) (fields : List (List Char × Ron)) :
    ∃ inner, write layout (.record [] fields) = '(' :: inner := by
  obtain ⟨inner, starts⟩ := enclose_starts layout '(' ')' (fields.map (fieldText layout.deeper))
  exact ⟨inner, (write_record layout [] fields).trans starts⟩

theorem reads_struct {fields : List (List Char × Ron)} (reads : ReadsFields fields) :
    Reads (.record [] fields) := by
  constructor
  · intro layout
    obtain ⟨inner, starts⟩ := write_struct layout fields
    exact ⟨'(', inner, starts, by decide, by decide⟩
  · intro layout fuel rest ends room
    obtain ⟨fuel, rfl⟩ : ∃ less, fuel = less + 1 := ⟨fuel - 1, by omega⟩
    rw [write_record, List.nil_append] at room ⊢
    obtain ⟨inner, starts, back⟩ := parenthesized?_fields reads (Nat.le_of_lt_succ room)
    obtain ⟨first, fields_back⟩ := back [] rest
    rw [starts, List.cons_append, value?.eq_4, fields_back]
    -- A closing bracket would leave no field.
    intro tail same
    rw [same, startsField_parenthesis (by decide)] at first
    cases first

/-- A variant with fields of its own. -/
theorem reads_variant (variant : isVariant name) {fields : List (List Char × Ron)}
    (reads : ReadsFields fields) : Reads (.record name fields) := by
  constructor
  · intro layout
    rw [write_record]
    exact (begins_of_isName (isName_of_isVariant variant)).append _
  · intro layout fuel rest ends room
    obtain ⟨fuel, rfl⟩ : ∃ less, fuel = less + 1 := ⟨fuel - 1, by omega⟩
    rw [write_record] at room ⊢
    rw [List.length_append] at room
    have short : (layout.enclose '(' ')' (fields.map (fieldText layout.deeper))).length ≤ fuel := by
      omega
    obtain ⟨inner, starts, back⟩ := parenthesized?_fields reads short
    rw [starts, List.append_assoc, List.cons_append,
      value?_variant variant (stops_cons (by decide) _), named?, skip_solid (by decide) (by decide)]
    exact (back name rest).2

/-- A variant that holds a structure. -/
theorem reads_holding (variant : isVariant name) {fields : List (List Char × Ron)}
    (held : Reads (.record [] fields)) : Reads (.tuple name [.record [] fields]) := by
  have shape : ∀ layout, write layout (.tuple name [.record [] fields]) =
      name ++ '(' :: (write layout (.record [] fields) ++ [')']) := by
    intro layout
    show name ++ '(' :: write layout (.record [] fields) ++ [')'] = _
    rw [List.append_assoc, List.cons_append]
  constructor
  · intro layout
    rw [shape]
    exact (begins_of_isName (isName_of_isVariant variant)).append _
  · intro layout fuel rest ends room
    obtain ⟨fuel, rfl⟩ : ∃ less, fuel = less + 1 := ⟨fuel - 1, by omega⟩
    rw [shape] at room ⊢
    simp only [List.length_append, List.length_cons] at room
    have inner := held.back layout fuel (')' :: rest) (ends_cons (by decide) rest) (by omega)
    have only : entries? skip true (value? fuel) ')' (fuel + 1)
        ([] ++ (write layout (.record [] fields) ++ ')' :: rest)) =
          some ([.record [] fields], rest) :=
      entries?_last (by decide) (List.forall_mem_nil _) (held.begins layout) inner fuel
    have no_field : startsField (write layout (.record [] fields) ++ ')' :: rest) = false := by
      obtain ⟨inner, starts⟩ := write_struct layout fields
      rw [starts, List.cons_append]
      exact startsField_parenthesis (by decide) _
    rw [List.append_assoc, List.cons_append, value?_variant variant (stops_cons (by decide) _),
      named?, skip_solid (by decide) (by decide), List.append_assoc]
    simp only [List.nil_append] at only
    simp [parenthesized?, no_field, only]

end Brackets

/-- A text that holds one value is read as that value, and enables nothing. -/
theorem read?_write {v : Ron} (reads : Reads v) (layout : Layout)
    (plain : (v.write layout).head? ≠ some '#') :
    read? (v.write layout) = some (.initial, v) := by
  have begins := (reads.begins layout).skip_append (List.forall_mem_nil _) []
  rw [List.append_nil, List.nil_append] at begins
  have back := reads.back layout ((v.write layout).length + 1) [] ends_nil (by omega)
  rw [List.append_nil] at back
  have attributes : attributes? .initial ((v.write layout).length + 1) (v.write layout) =
      some (.initial, v.write layout) := by
    rw [attributes?, if_neg plain]
  rw [read?, begins, attributes]
  simp only [Option.bind_eq_bind, Option.bind_some]
  rw [back]
  simp only [Option.bind_some, ends_nil.skip]
  rfl

end Dialogue.Ron
