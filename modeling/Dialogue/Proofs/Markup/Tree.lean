import Dialogue.Proofs.Markup.Content
import Dialogue.Proofs.Markup.Pieces
import Dialogue.Proofs.Text.Literal

set_option autoImplicit false

namespace Dialogue.Markup

open Dialogue.Text

def isLowerStart (c : Char) : Bool :=
  c.isLower || c = '_'

def isLowerChar (c : Char) : Bool :=
  c.isLower || c.isDigit || c = '_' || c = '-'

/-- A name in small letters. -/
def spellsName : List Char → Bool
  | [] => false
  | c :: cs => isLowerStart c && cs.all isLowerChar

def IsName (name : String) : Prop :=
  spellsName name.toList = true

instance (name : String) : Decidable (IsName name) :=
  inferInstanceAs (Decidable (_ = true))

/-- A text that can be written between quotation marks in a tag, and that is read as a text. -/
structure IsValue (value : String) : Prop where
  trimmed : Trimmed value.toList
  bare : '"' ∉ value.toList ∧ ']' ∉ value.toList ∧ '\\' ∉ value.toList
  /-- It is not a truth value in any letter case. -/
  notFlag : value.toList.map Char.toLower ≠ "true".toList ∧
    value.toList.map Char.toLower ≠ "false".toList
  /-- It is not digits with an optional sign and an optional fraction. -/
  notNumber : isPlainNumber value.toList = false

instance (value : String) : Decidable (IsValue value) :=
  decidable_of_iff (Trimmed value.toList ∧
      ('"' ∉ value.toList ∧ ']' ∉ value.toList ∧ '\\' ∉ value.toList) ∧
      (value.toList.map Char.toLower ≠ "true".toList ∧
        value.toList.map Char.toLower ≠ "false".toList) ∧ isPlainNumber value.toList = false)
    ⟨fun ⟨trimmed, bare, notFlag, notNumber⟩ => ⟨trimmed, bare, notFlag, notNumber⟩,
      fun value => ⟨value.trimmed, value.bare, value.notFlag, value.notNumber⟩⟩

/-- A name and the properties that are written behind it, in order. -/
structure Head where
  name : String
  properties : List (String × String)

namespace Head

structure WellFormed (h : Head) : Prop where
  name : IsName h.name
  properties : ∀ p ∈ h.properties, IsName p.1 ∧ IsValue p.2

instance (h : Head) : Decidable h.WellFormed :=
  decidable_of_iff (IsName h.name ∧ ∀ p ∈ h.properties, IsName p.1 ∧ IsValue p.2)
    ⟨fun ⟨name, properties⟩ => ⟨name, properties⟩, fun head => ⟨head.name, head.properties⟩⟩

/-- The properties, each a text; of two with the same name the later one counts. -/
def table (h : Head) : Table PropertyValue :=
  .ofList (h.properties.map fun p => (p.1, .text p.2))

def wrapper (h : Head) : Wrapper :=
  .named h.name h.table

end Head

def propertiesText : List (String × String) → List Char
  | [] => []
  | p :: properties =>
      ' ' :: (p.1.toList ++ '=' :: '"' :: (p.2.toList ++ '"' :: propertiesText properties))

def Head.text (h : Head) : List Char :=
  h.name.toList ++ propertiesText h.properties

inductive Tree where
  | text (content : String)
  | element (head : Head) (children : List Tree)
  | marker (head : Head)

mutual

/-- Elements are neither the tag that turns tags into text nor one that never wraps text. -/
def Tree.WellFormed : Tree → Prop
  | .text _ => True
  | .element head children =>
      head.WellFormed ∧ head.name ≠ "nomarkup" ∧ head.name ≠ "br" ∧ WellFormedForest children
  | .marker head => head.WellFormed ∧ head.name ≠ "nomarkup"

def WellFormedForest : List Tree → Prop
  | [] => True
  | tree :: forest => tree.WellFormed ∧ WellFormedForest forest

end

mutual

def Tree.render : Tree → List Char
  | .text content => escape content.toList
  | .element head children =>
      '[' :: (head.text ++ ']' ::
        (renderForest children ++ '[' :: '/' :: (head.name.toList ++ [']'])))
  | .marker head => '[' :: (head.text ++ ['/', ']'])

def renderForest : List Tree → List Char
  | [] => []
  | tree :: forest => tree.render ++ renderForest forest

end

mutual

def Tree.leaves : Tree → List String
  | .text content => [content]
  | .element _ children => forestLeaves children
  | .marker _ => []

def forestLeaves : List Tree → List String
  | [] => []
  | tree :: forest => tree.leaves ++ forestLeaves forest

end

mutual

/-- What a tree shows inside the given wrappers, outermost first: its characters, each with the
wrappers of the elements around it, and its markers. -/
def Tree.items (around : List Wrapper) : Tree → List Item
  | .text content => Item.literal around content.toList
  | .element head children => forestItems (around ++ [head.wrapper]) children
  | .marker head => [.marker head.wrapper]

def forestItems (around : List Wrapper) : List Tree → List Item
  | [] => []
  | tree :: forest => tree.items around ++ forestItems around forest

end

/-- The code of a character of a name. -/
theorem code_of_isLowerChar {c : Char} (small : isLowerChar c = true) :
    97 ≤ c.toNat ∧ c.toNat ≤ 122 ∨ 48 ≤ c.toNat ∧ c.toNat ≤ 57 ∨ c.toNat = 95 ∨ c.toNat = 45 := by
  simp only [isLowerChar, Bool.or_eq_true, decide_eq_true_eq, isLower_iff, isDigit_iff] at small
  rcases small with ((letter | digit) | rfl) | rfl
  · exact .inl letter
  · exact .inr (.inl digit)
  · exact .inr (.inr (.inl rfl))
  · exact .inr (.inr (.inr rfl))

theorem isLowerChar_of_isLowerStart {c : Char} (small : isLowerStart c = true) :
    isLowerChar c = true := by
  simp only [isLowerStart, isLowerChar, Bool.or_eq_true, decide_eq_true_eq] at small ⊢
  tauto

theorem isNameStart_of_isLowerStart {c : Char} (small : isLowerStart c = true) :
    isNameStart c = true := by
  simp only [isLowerStart, isNameStart, Char.isAlpha, Bool.or_eq_true, decide_eq_true_eq] at small ⊢
  tauto

theorem isTagNameChar_of_isLowerChar {c : Char} (small : isLowerChar c = true) :
    isTagNameChar c = true := by
  simp only [isLowerChar, isTagNameChar, isNameChar, Char.isAlphanum, Char.isAlpha,
    Bool.or_eq_true, decide_eq_true_eq] at small ⊢
  tauto

theorem not_isBlank_of_isLowerChar {c : Char} (small : isLowerChar c = true) :
    isBlank c = false := by
  have code := code_of_isLowerChar small
  simp only [isBlank, Bool.or_eq_false_iff, Bool.and_eq_false_iff, decide_eq_false_iff_not,
    beq_eq_false_iff_ne]
  omega

theorem toLower_of_isLowerChar {c : Char} (small : isLowerChar c = true) : c.toLower = c := by
  have code := code_of_isLowerChar small
  have upper : ¬(c.val ≥ 'A'.val ∧ c.val ≤ 'Z'.val) := by
    simp only [ge_iff_le, UInt32.le_iff_toNat_le]
    intro range
    have low : 65 ≤ c.toNat := range.1
    have high : c.toNat ≤ 90 := range.2
    omega
  rw [Char.toLower, dif_neg upper]

theorem lowerFrom_of_isLowerChar {cs : List Char} (small : ∀ c ∈ cs, isLowerChar c = true)
    (before : List Char) : lowerFrom before cs = cs := by
  induction cs generalizing before with
  | nil => rfl
  | cons c cs ih =>
      obtain ⟨first, others⟩ := List.forall_mem_cons.mp small
      have code := code_of_isLowerChar first
      have sigma : c ≠ '\u03a3' := toNat_ne (by
        have : '\u03a3'.toNat = 931 := rfl
        omega)
      have dotted : c ≠ '\u0130' := toNat_ne (by
        have : '\u0130'.toNat = 304 := rfl
        omega)
      have lowered : lowerChar c = c := by
        rw [lowerChar, if_pos (by omega), toLower_of_isLowerChar first]
      rw [lowerFrom, if_neg sigma, if_neg dotted, lowered, ih others]
      rfl

section

variable {name : String} {rest : List Char}

theorem isLowerChar_of_isName (named : IsName name) : ∀ c ∈ name.toList, isLowerChar c = true := by
  unfold IsName at named
  cases shape : name.toList with
  | nil => exact fun c member => (nomatch member)
  | cons d cs =>
      rw [shape, spellsName, Bool.and_eq_true, List.all_eq_true] at named
      exact List.forall_mem_cons.mpr ⟨isLowerChar_of_isLowerStart named.1, named.2⟩

theorem lower_of_isName (named : IsName name) : lower (String.ofList name.toList) = name := by
  rw [lower, String.toList_ofList, lowerFrom_of_isLowerChar (isLowerChar_of_isName named),
    String.ofList_toList]

/-- A name ends at the first character that cannot stand in it. -/
theorem identifier?_of_isName (named : IsName name)
    (ends : ∀ c ∈ rest.head?, isTagNameChar c = false) :
    identifier? (name.toList ++ rest) = some (name.toList, rest) := by
  have small := isLowerChar_of_isName named
  unfold IsName at named
  cases shape : name.toList with
  | nil =>
      rw [shape] at named
      cases named
  | cons c cs =>
      rw [shape, spellsName, Bool.and_eq_true] at named
      rw [shape] at small
      have inside : ∀ d ∈ cs, isTagNameChar d = true := fun d member =>
        isTagNameChar_of_isLowerChar (small d (List.mem_cons_of_mem _ member))
      obtain ⟨taken, left⟩ := span_append inside ends
      rw [List.cons_append, identifier?, if_pos (isNameStart_of_isLowerStart named.1), taken, left]

theorem head_of_isName (named : IsName name) :
    ∃ c cs, name.toList = c :: cs ∧ isLowerChar c = true := by
  have small := isLowerChar_of_isName named
  unfold IsName at named
  cases shape : name.toList with
  | nil =>
      rw [shape] at named
      cases named
  | cons c cs => exact ⟨c, cs, rfl, small c (by rw [shape]; exact List.mem_cons_self ..)⟩

/-- White space before a name is skipped, and nothing of the name. -/
theorem trimStart_name (named : IsName name) :
    trimStart (name.toList ++ rest) = name.toList ++ rest := by
  obtain ⟨c, cs, shape, small⟩ := head_of_isName named
  rw [shape, List.cons_append, trimStart, List.dropWhile_cons_of_neg]
  simp [not_isBlank_of_isLowerChar small]

end

theorem propertyValue_of_isValue {value : String} (valid : IsValue value) :
    propertyValue value.toList = .text value := by
  have word (text : String) (differ : value.toList.map Char.toLower ≠ text.toList) :
      ¬String.ofList (value.toList.map Char.toLower) = text := by
    rintro rfl
    exact differ (String.toList_ofList ..).symm
  rw [propertyValue, valid.trimmed.trim, if_neg (word "true" valid.notFlag.1),
    if_neg (word "false" valid.notFlag.2), if_neg (by simp [valid.notNumber]), String.ofList_toList]

theorem assignment?_quoted {value : String} (valid : IsValue value) (after : List Char) :
    assignment? ('=' :: '"' :: (value.toList ++ '"' :: after)) = some (.text value, after) := by
  have equals (cs : List Char) : trimStart ('=' :: cs) = '=' :: cs := rfl
  have quote (cs : List Char) : trimStart ('"' :: cs) = '"' :: cs := rfl
  rw [assignment?, equals]
  simp only [quote, decide_true, Bool.true_or, ↓reduceIte, splitOnce_append valid.bare.1,
    Option.map_some, propertyValue_of_isValue valid]

theorem assignment?_eq_none {cs : List Char} (other : (trimStart cs).head? ≠ some '=') :
    assignment? cs = none := by
  unfold assignment?
  split
  · rename_i rest shape
    rw [shape] at other
    exact absurd rfl other
  · rfl

theorem propertyList_nil : propertyList [] = [] := by
  rw [propertyList]
  rfl

theorem propertyList_assigned {cs key rest after : List Char} {value : PropertyValue}
    (named : identifier? cs = some (key, rest))
    (assigned : assignment? rest = some (value, after)) :
    propertyList cs = (lower (String.ofList key), value) :: propertyList (trimStart after) := by
  rw [propertyList]
  split
  · rename_i missing
    rw [named] at missing
    cases missing
  · rename_i key' rest' found
    obtain ⟨rfl, rfl⟩ := Prod.mk.inj (Option.some.inj (found.symm.trans named))
    simp only
    split
    · rename_i value' after' found'
      obtain ⟨rfl, rfl⟩ := Prod.mk.inj (Option.some.inj (found'.symm.trans assigned))
      rfl
    · rename_i missing
      rw [missing] at assigned
      cases assigned

theorem trimStart_propertiesText (p : String × String) (properties : List (String × String))
    (named : IsName p.1) :
    trimStart (propertiesText (p :: properties)) =
      p.1.toList ++ '=' :: '"' :: (p.2.toList ++ '"' :: propertiesText properties) :=
  trimStart_name named

theorem propertyList_propertiesText {properties : List (String × String)}
    (valid : ∀ p ∈ properties, IsName p.1 ∧ IsValue p.2) :
    propertyList (trimStart (propertiesText properties)) =
      properties.map fun p => (p.1, .text p.2) := by
  induction properties with
  | nil => exact propertyList_nil
  | cons p properties ih =>
      obtain ⟨⟨named, value⟩, others⟩ := List.forall_mem_cons.mp valid
      have key : identifier? (p.1.toList ++
          '=' :: '"' :: (p.2.toList ++ '"' :: propertiesText properties)) =
            some (p.1.toList, '=' :: '"' :: (p.2.toList ++ '"' :: propertiesText properties)) := by
        apply identifier?_of_isName named
        intro c first
        obtain rfl := Option.some.inj first
        decide
      rw [trimStart_propertiesText p properties named,
        propertyList_assigned key (assignment?_quoted value _), ih others, lower_of_isName named]
      rfl

namespace Head

variable {h : Head}

theorem WellFormed.ofBody? (valid : h.WellFormed) (kind : TagKind) :
    Tag.ofBody? kind h.text =
      some ⟨if markerNames.contains h.name then .marker else kind, h.name, h.table⟩ := by
  have named : identifier? h.text = some (h.name.toList, propertiesText h.properties) := by
    apply identifier?_of_isName valid.name
    intro c first
    cases shape : h.properties with
    | nil =>
        rw [shape] at first
        cases first
    | cons p properties =>
        rw [shape] at first
        obtain rfl := Option.some.inj first
        decide
  have unassigned : assignment? (trimStart (propertiesText h.properties)) = none := by
    apply assignment?_eq_none
    rw [trimStart_trimStart]
    cases shape : h.properties with
    | nil => exact fun first => (nomatch first)
    | cons p properties =>
        have key := (valid.properties p (by rw [shape]; exact List.mem_cons_self ..)).1
        obtain ⟨c, cs, letters, small⟩ := head_of_isName key
        have code := code_of_isLowerChar small
        rw [trimStart_propertiesText p properties key, letters, List.cons_append, List.head?_cons]
        intro first
        have equal : c.toNat = 61 := congrArg Char.toNat (Option.some.inj first)
        omega
  rw [Tag.ofBody?, named]
  simp only [Option.map_some, lower_of_isName valid.name, unassigned,
    propertyList_propertiesText valid.properties]
  rfl

theorem propertiesText_end (p : String × String) (properties : List (String × String)) :
    ∃ front, propertiesText (p :: properties) = front ++ ['"'] := by
  induction properties generalizing p with
  | nil =>
      refine ⟨' ' :: (p.1.toList ++ '=' :: '"' :: p.2.toList), ?_⟩
      simp [propertiesText]
  | cons q properties ih =>
      obtain ⟨front, shape⟩ := ih q
      refine ⟨' ' :: (p.1.toList ++ '=' :: '"' :: (p.2.toList ++ '"' :: front)), ?_⟩
      rw [propertiesText, shape]
      simp

/-- A tag's text ends with a character of a name or a quotation mark. -/
theorem WellFormed.text_end (valid : h.WellFormed) :
    ∃ front last, h.text = front ++ [last] ∧ (isLowerChar last = true ∨ last = '"') := by
  cases shape : h.properties with
  | nil =>
      obtain ⟨c, cs, letters, -⟩ := head_of_isName valid.name
      have spelled : h.name.toList ≠ [] := by rw [letters]; exact List.cons_ne_nil c cs
      refine ⟨h.name.toList.dropLast, h.name.toList.getLast spelled, ?_, .inl ?_⟩
      · rw [List.dropLast_append_getLast, text, shape]
        exact List.append_nil _
      · exact isLowerChar_of_isName valid.name _ (List.getLast_mem spelled)
  | cons p properties =>
      obtain ⟨front, ending⟩ := propertiesText_end p properties
      refine ⟨h.name.toList ++ front, '"', ?_, .inr rfl⟩
      rw [text, shape, ending, List.append_assoc]

theorem WellFormed.text_bare (valid : h.WellFormed) : ∀ c ∈ h.text, c ≠ ']' ∧ c ≠ '\\' := by
  have letters {name : String} (named : IsName name) : ∀ c ∈ name.toList, c ≠ ']' ∧ c ≠ '\\' := by
    intro c member
    have code := code_of_isLowerChar (isLowerChar_of_isName named c member)
    refine ⟨toNat_ne ?_, toNat_ne ?_⟩
    · have : ']'.toNat = 93 := rfl
      omega
    · have : '\\'.toNat = 92 := rfl
      omega
  have written : ∀ properties : List (String × String),
      (∀ p ∈ properties, IsName p.1 ∧ IsValue p.2) →
        ∀ c ∈ propertiesText properties, c ≠ ']' ∧ c ≠ '\\' := by
    intro properties
    induction properties with
    | nil => exact fun _ c member => (nomatch member)
    | cons p properties ih =>
        intro valid
        obtain ⟨⟨named, value⟩, others⟩ := List.forall_mem_cons.mp valid
        have quoted : ∀ c ∈ p.2.toList, c ≠ ']' ∧ c ≠ '\\' := fun c member =>
          ⟨ne_of_mem_of_not_mem member value.bare.2.1, ne_of_mem_of_not_mem member value.bare.2.2⟩
        simp only [propertiesText, List.forall_mem_cons, List.forall_mem_append]
        exact ⟨by decide, letters named, by decide, by decide, quoted, by decide, ih others⟩
  exact List.forall_mem_append.mpr ⟨letters valid.name, written _ valid.properties⟩

theorem WellFormed.text_trimmed (valid : h.WellFormed) : Trimmed h.text := by
  refine ⟨?_, ?_⟩
  · obtain ⟨c, cs, letters, small⟩ := head_of_isName valid.name
    intro d first
    rw [text, letters, List.cons_append, List.head?_cons] at first
    rw [← Option.some.inj first]
    exact not_isBlank_of_isLowerChar small
  · obtain ⟨front, last, shape, ending⟩ := valid.text_end
    intro d final
    rw [shape, List.getLast?_concat] at final
    rw [← Option.some.inj final]
    rcases ending with small | rfl
    · exact not_isBlank_of_isLowerChar small
    · decide

theorem text_ne_slash (valid : h.WellFormed) (rest : List Char) :
    ∃ c cs, h.text ++ rest = c :: cs ∧ c ≠ '/' := by
  obtain ⟨c, cs, letters, small⟩ := head_of_isName valid.name
  have code := code_of_isLowerChar small
  refine ⟨c, cs ++ propertiesText h.properties ++ rest, ?_, toNat_ne ?_⟩
  · rw [text, letters, List.cons_append, List.cons_append]
  · have : '/'.toNat = 47 := rfl
    omega

end Head

theorem ofContent?_of_start {content : List Char} {c : Char} {cs : List Char}
    (trimmed : Trimmed content) (shape : content = c :: cs) (other : c ≠ '/') :
    Tag.ofContent? content =
      match content.reverse with
      | '/' :: body => Tag.ofBody? .marker (trimEnd body.reverse)
      | _ => Tag.ofBody? .opening content := by
  subst shape
  unfold Tag.ofContent?
  rw [trimmed.trim]
  split
  · rename_i empty
    cases empty
  · rename_i rest slash
    exact absurd (List.cons.inj slash).1 other
  · rfl

namespace Head

variable {h : Head}

theorem WellFormed.ofContent?_opening (valid : h.WellFormed) :
    Tag.ofContent? h.text =
      some ⟨if markerNames.contains h.name then .marker else .opening, h.name, h.table⟩ := by
  obtain ⟨c, cs, shape, other⟩ := text_ne_slash valid []
  rw [List.append_nil] at shape
  rw [ofContent?_of_start valid.text_trimmed shape other]
  obtain ⟨front, last, ending, final⟩ := valid.text_end
  split
  · rename_i body slash
    rw [ending, List.reverse_concat] at slash
    obtain ⟨rfl, -⟩ := List.cons.inj slash
    rcases final with small | quote
    · cases small
    · cases quote
  · exact valid.ofBody? .opening

theorem WellFormed.ofContent?_marker (valid : h.WellFormed) :
    Tag.ofContent? (h.text ++ ['/']) = some ⟨.marker, h.name, h.table⟩ := by
  obtain ⟨c, cs, shape, other⟩ := text_ne_slash valid ['/']
  have trimmed : Trimmed (h.text ++ ['/']) := by
    refine ⟨?_, ?_⟩
    · obtain ⟨d, ds, start, -⟩ := text_ne_slash valid []
      rw [List.append_nil] at start
      have front := valid.text_trimmed.1
      rw [start] at front ⊢
      exact front
    · intro d final
      rw [List.getLast?_concat] at final
      rw [← Option.some.inj final]
      decide
  rw [ofContent?_of_start trimmed shape other, List.reverse_concat]
  simp only [List.reverse_reverse, valid.text_trimmed.trimEnd, valid.ofBody? .marker, ite_self]

theorem ofContent?_closing {name : String} (named : IsName name) :
    Tag.ofContent? ('/' :: name.toList) = some ⟨.closing, name, .empty⟩ := by
  have small := isLowerChar_of_isName named
  have inside : Trimmed name.toList := by
    refine ⟨fun c first => ?_, fun c last => ?_⟩
    · exact not_isBlank_of_isLowerChar (small c (List.mem_of_mem_head? first))
    · exact not_isBlank_of_isLowerChar (small c (List.mem_of_mem_getLast? last))
  have whole : trim ('/' :: name.toList) = '/' :: name.toList := by
    obtain ⟨c, cs, letters, -⟩ := head_of_isName named
    refine Trimmed.trim ⟨?_, ?_⟩
    · intro c first
      obtain rfl := Option.some.inj first
      decide
    · rw [letters, List.getLast?_cons_cons, ← letters]
      exact inside.2
  have spelled : name.isEmpty = false := by
    obtain ⟨c, cs, letters, -⟩ := head_of_isName named
    rw [Bool.eq_false_iff]
    intro empty
    rw [String.isEmpty_iff] at empty
    rw [empty] at letters
    cases letters
  unfold Tag.ofContent?
  rw [whole]
  simp only [inside.trim, lower_of_isName named, spelled, Bool.false_eq_true, ↓reduceIte]

end Head

end Dialogue.Markup
