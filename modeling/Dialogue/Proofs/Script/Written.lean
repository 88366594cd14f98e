import Dialogue.Proofs.Script.Render
import Dialogue.Proofs.Text.Literal

set_option autoImplicit false

namespace Dialogue.Script

open Dialogue.Text

theorem IsSingle.append {text more : String} (first : IsSingle text) (second : IsSingle more) :
    IsSingle (text ++ more) := by
  unfold IsSingle
  simp only [String.toList_append, List.mem_append, not_or]
  exact ⟨⟨first.1, second.1⟩, first.2, second.2⟩

theorem toList_tagText_cons (tag : String) (tags : List String) :
    (tagText (tag :: tags)).toList = ' ' :: '#' :: (tag.toList ++ (tagText tags).toList) := by
  rw [tagText, String.toList_append, String.toList_append]
  rfl

/-- Behind a text, tags start with a space. -/
theorem head?_tagText (tags : List String) : ∀ c ∈ (tagText tags).toList.head?, c = ' ' := by
  cases tags with
  | nil => simp [tagText]
  | cons tag tags => simp [toList_tagText_cons]

theorem isTag_cases {tag : String} (wellFormed : IsTag tag) :
    ∃ first others, tag.toList = first :: others ∧ isNameStart first = true ∧
      ∀ c ∈ others, isTagChar c = true := by
  unfold IsTag at wellFormed
  cases spelled : tag.toList with
  | nil => simp [spelled, spellsTag] at wellFormed
  | cons first others =>
      rw [spelled, spellsTag, Bool.and_eq_true, List.all_eq_true] at wellFormed
      exact ⟨first, others, rfl, wellFormed⟩

theorem isTagChar_of_isTag {tag : String} (wellFormed : IsTag tag) :
    ∀ c ∈ tag.toList, isTagChar c = true := by
  obtain ⟨first, others, spelled, start, rest⟩ := isTag_cases wellFormed
  rw [spelled, List.forall_mem_cons]
  refine ⟨?_, rest⟩
  simp only [isNameStart, Bool.or_eq_true, decide_eq_true_eq] at start
  rcases start with letter | underscore
  · simp [isTagChar, isNameChar, Char.isAlphanum, letter]
  · simp [isTagChar, isNameChar, underscore]

theorem mem_tagText {tags : List String} (wellFormed : ∀ tag ∈ tags, IsTag tag) :
    ∀ c ∈ (tagText tags).toList, c = ' ' ∨ c = '#' ∨ isTagChar c = true := by
  induction tags with
  | nil => simp [tagText]
  | cons tag tags ih =>
      obtain ⟨first, others⟩ := List.forall_mem_cons.mp wellFormed
      rw [toList_tagText_cons]
      simp only [List.mem_cons, List.mem_append]
      rintro c (space | mark | inside | later)
      · exact .inl space
      · exact .inr (.inl mark)
      · exact .inr (.inr (isTagChar_of_isTag first c inside))
      · exact ih others c later

/-- A character that is no part of a tag is not among tags. -/
theorem not_mem_tagText {tags : List String} (wellFormed : ∀ tag ∈ tags, IsTag tag) {c : Char}
    (other : c ≠ ' ' ∧ c ≠ '#' ∧ isTagChar c = false) : c ∉ (tagText tags).toList := by
  intro inside
  rcases mem_tagText wellFormed c inside with space | mark | letter
  · exact other.1 space
  · exact other.2.1 mark
  · rw [other.2.2] at letter
    cases letter

theorem isSingle_tagText {tags : List String} (wellFormed : ∀ tag ∈ tags, IsTag tag) :
    IsSingle (tagText tags) :=
  ⟨not_mem_tagText wellFormed (by decide), not_mem_tagText wellFormed (by decide)⟩

theorem isTag_ne_nil {tag : String} (wellFormed : IsTag tag) : tag.toList ≠ [] := by
  obtain ⟨first, others, spelled, -, -⟩ := isTag_cases wellFormed
  simp [spelled]

theorem getLast?_tagText {tags : List String} (wellFormed : ∀ tag ∈ tags, IsTag tag) :
    ∀ c ∈ (tagText tags).toList.getLast?, isTagChar c = true := by
  induction tags with
  | nil => simp [tagText]
  | cons tag tags ih =>
      obtain ⟨first, others⟩ := List.forall_mem_cons.mp wellFormed
      intro c last
      rw [toList_tagText_cons, ← List.singleton_append, ← List.singleton_append (x := '#'),
        ← List.append_assoc, ← List.append_assoc, List.getLast?_append] at last
      cases later : (tagText tags).toList.getLast? with
      | some d =>
          rw [later] at last
          exact ih others c (later.trans last)
      | none =>
          rw [later, Option.none_or, List.getLast?_append] at last
          cases ending : tag.toList.getLast? with
          | some d =>
              rw [ending] at last
              exact isTagChar_of_isTag first c (List.mem_of_getLast? (ending.trans last))
          | none => exact absurd (List.getLast?_eq_none_iff.mp ending) (isTag_ne_nil first)

theorem scanTags_outside_cons (c : Char) (cs : List Char) :
    scanTags .outside (c :: cs) =
      if startsTag (c :: cs) then scanTags .mark cs
      else (c :: (scanTags .outside cs).1, (scanTags .outside cs).2) := by
  conv => lhs; unfold scanTags
  rfl

/-- Behind a tag a scan goes on as outside of tags. -/
theorem scanTags_inside_cons (letters : List Char) (c : Char) (cs : List Char) :
    scanTags (.inside letters) (c :: cs) =
      if isTagChar c then scanTags (.inside (letters ++ [c])) cs
      else ((scanTags .outside (c :: cs)).1, letters :: (scanTags .outside (c :: cs)).2) := by
  rw [scanTags_outside_cons]
  conv => lhs; unfold scanTags
  simp only [startsTag]
  split
  · rfl
  · split <;>
    · rename_i starts
      simp only [starts]
      rfl

theorem scanTags_inside_append {cs : List Char} (letters more : List Char)
    (tag : ∀ c ∈ cs, isTagChar c = true) :
    scanTags (.inside letters) (cs ++ more) = scanTags (.inside (letters ++ cs)) more := by
  induction cs generalizing letters with
  | nil => rw [List.nil_append, List.append_nil]
  | cons c cs ih =>
      obtain ⟨first, others⟩ := List.forall_mem_cons.mp tag
      rw [List.cons_append, scanTags_inside_cons, if_pos first, ih _ others, List.append_assoc]
      rfl

theorem startsTag_tagText {tag : String} (wellFormed : IsTag tag) (more : List Char) :
    startsTag (' ' :: '#' :: (tag.toList ++ more)) = true := by
  obtain ⟨first, others, spelled, start, -⟩ := isTag_cases wellFormed
  rw [spelled]
  simp only [List.cons_append, startsTag, opensTag, start, Bool.and_true]
  decide

/-- A scan finds tags that were written, one after another. -/
theorem scanTags_tagText {tags : List String} (wellFormed : ∀ tag ∈ tags, IsTag tag) :
    scanTags .outside (tagText tags).toList = ([], tags.map String.toList) ∧
      ∀ letters, scanTags (.inside letters) (tagText tags).toList =
        ([], letters :: tags.map String.toList) := by
  induction tags with
  | nil => exact ⟨rfl, fun _ => rfl⟩
  | cons tag tags ih =>
      obtain ⟨first, others⟩ := List.forall_mem_cons.mp wellFormed
      have outside : scanTags .outside (tagText (tag :: tags)).toList =
          ([], (tag :: tags).map String.toList) := by
        rw [toList_tagText_cons, scanTags_outside_cons, if_pos (startsTag_tagText first _)]
        change scanTags (.inside []) (tag.toList ++ (tagText tags).toList) = _
        rw [scanTags_inside_append _ _ (isTagChar_of_isTag first), (ih others).2]
        rfl
      refine ⟨outside, fun letters => ?_⟩
      rw [toList_tagText_cons] at outside ⊢
      rw [scanTags_inside_cons, if_neg (by decide), outside]

theorem opensTag_cons {c : Char} (other : c ≠ '#') (cs : List Char) :
    opensTag (c :: cs) = false := by
  unfold opensTag
  split
  · rename_i same
    exact absurd (List.cons.inj same).1 other
  · rfl

theorem opensTag_append {cs more : List Char} (apart : ∀ c ∈ more.head?, c = ' ') :
    opensTag (cs ++ more) = opensTag cs := by
  cases more with
  | nil => rw [List.append_nil]
  | cons space more =>
      obtain rfl := apart space rfl
      cases cs with
      | nil => exact opensTag_cons (by decide) more
      | cons c cs =>
          by_cases mark : c = '#'
          · subst mark
            cases cs <;> rfl
          · rw [List.cons_append, opensTag_cons mark, opensTag_cons mark]

/-- A scan passes over text without tags. -/
theorem scanTags_append {head more : List Char}
    (untagged : ∀ rest ∈ head.tails, startsTag rest = false)
    (apart : ∀ c ∈ more.head?, c = ' ') :
    scanTags .outside (head ++ more) =
      (head ++ (scanTags .outside more).1, (scanTags .outside more).2) := by
  induction head with
  | nil => rfl
  | cons c head ih =>
      rw [List.tails, List.forall_mem_cons] at untagged
      have starts : startsTag (c :: (head ++ more)) = false := by
        rw [startsTag, opensTag_append apart]
        exact untagged.1
      rw [List.cons_append, scanTags_outside_cons, starts, ih untagged.2]
      rfl

theorem extractTags_append {head : List Char} {tags : List String}
    (untagged : ∀ rest ∈ head.tails, startsTag rest = false)
    (wellFormed : ∀ tag ∈ tags, IsTag tag) :
    extractTags (head ++ (tagText tags).toList) =
      (if tags.isEmpty then head else trimEnd head, tags) := by
  unfold extractTags
  rw [scanTags_append untagged (head?_tagText tags), (scanTags_tagText wellFormed).1,
    List.append_nil]
  cases tags with
  | nil => simp [tagText]
  | cons tag tags => simp

theorem splitAtLiteral_append {literal head more : List Char}
    (absent : ∀ rest ∈ head.tails, after? literal rest = none)
    (apart : ∀ c ∈ more.head?, c ∉ literal) (later : splitAtLiteral literal more = none) :
    splitAtLiteral literal (head ++ more) = none := by
  induction head with
  | nil => exact later
  | cons c head ih =>
      rw [List.tails, List.forall_mem_cons] at absent
      have here := after?_append_eq_none absent.1 apart
      rw [List.cons_append] at here ⊢
      rw [splitAtLiteral, here, ih absent.2]
      rfl

theorem splitAtLiteral_eq_none {p : Char} {literal cs : List Char} (absent : p ∉ cs) :
    splitAtLiteral (p :: literal) cs = none := by
  induction cs with
  | nil => rfl
  | cons c cs ih =>
      obtain ⟨other, absent⟩ := not_or.mp (mt List.mem_cons.mpr absent)
      rw [splitAtLiteral, after?, if_neg other, ih absent]
      rfl

theorem extractCss_append {head : List Char} {tags : List String}
    (unstyled : ∀ rest ∈ head.tails, after? cssOpen rest = none)
    (wellFormed : ∀ tag ∈ tags, IsTag tag) :
    extractCss (head ++ (tagText tags).toList) = (head ++ (tagText tags).toList, none) := by
  have absent : splitAtLiteral cssOpen (head ++ (tagText tags).toList) = none := by
    refine splitAtLiteral_append unstyled ?_ ?_
    · intro c first
      rw [head?_tagText tags c first]
      decide
    · exact splitAtLiteral_eq_none (not_mem_tagText wellFormed (by decide))
  rw [extractCss, absent]

theorem speaker?_append {speaker : String} (phrase : IsPhrase speaker) (named : speaker ≠ "")
    (colon : ':' ∉ speaker.toList) (rest : List Char) :
    speaker? (speaker.toList ++ ':' :: rest) = some (speaker.toList, trimStart rest) := by
  unfold speaker?
  rw [splitOnce_append colon]
  have trimmed := phrase.trimmed
  cases spelled : speaker.toList with
  | nil => exact absurd (String.toList_eq_nil_iff.mp spelled) named
  | cons c cs =>
      rw [spelled] at trimmed
      simp only [trimmed.1 c rfl, trimmed.trim, Bool.false_eq_true, if_false]

theorem trimStart_space {text : List Char} (trimmed : Trimmed text) :
    trimStart (' ' :: text) = text := by
  rw [← trimmed.trimStart, trimStart, List.dropWhile_cons, if_pos (by decide)]
  exact trimStart_trimStart text

theorem trimEnd_space (cs : List Char) : trimEnd (cs ++ [' ']) = trimEnd cs := by
  rw [trimEnd, List.reverse_append]
  rfl

theorem trimEnd_append {cs more : List Char} (last : trimEnd more = more) (ends : more ≠ []) :
    trimEnd (cs ++ more) = cs ++ more := by
  rw [trimEnd_eq_self_iff] at last ⊢
  intro c inside
  refine last c ?_
  rwa [List.getLast?_append_of_ne_nil _ ends] at inside

namespace Line

variable {l : Line}

theorem toList_head_some {speaker : String} (spoken : l.speaker = some speaker) :
    l.head.toList = speaker.toList ++ ':' :: ' ' :: l.text.toList := by
  simp only [head, spoken, String.toList_append, List.append_assoc]
  rfl

theorem head_none (unspoken : l.speaker = none) : l.head = l.text := by
  simp only [head, unspoken]

/-- The speaker and the words of a line are found again, also where the space behind a speaker who
says nothing is cut. -/
theorem WellFormed.speaker? (wellFormed : l.WellFormed) {plain : List Char}
    (cut : plain = l.head.toList ∨ plain = trimEnd l.head.toList) :
    (∃ speaker, l.speaker = some speaker ∧
      speaker? plain = some (speaker.toList, l.text.toList)) ∨
    (l.speaker = none ∧ speaker? plain = none ∧ plain = l.text.toList) := by
  have trimmed := wellFormed.text.trimmed
  cases spoken : l.speaker with
  | some speaker =>
      obtain ⟨phrase, named, colon⟩ := wellFormed.speaker speaker spoken
      refine .inl ⟨speaker, rfl, ?_⟩
      obtain ⟨rest, spelled, words⟩ : ∃ rest, plain = speaker.toList ++ ':' :: rest ∧
          trimStart rest = l.text.toList := by
        rw [toList_head_some spoken] at cut
        rcases cut with rfl | rfl
        · exact ⟨_, rfl, trimStart_space trimmed⟩
        by_cases silent : l.text.toList = []
        · refine ⟨[], ?_, by rw [silent]; rfl⟩
          rw [silent, ← List.singleton_append, ← List.append_assoc, trimEnd_space]
          exact trimEnd_append (by decide) (by simp)
        · refine ⟨_, ?_, trimStart_space trimmed⟩
          rw [← List.singleton_append, ← List.singleton_append (x := ' '), ← List.append_assoc,
            ← List.append_assoc]
          exact trimEnd_append trimmed.trimEnd silent
      rw [spelled, speaker?_append phrase named colon, words]
  | none =>
      have same : plain = l.text.toList := by
        rw [head_none spoken, trimmed.trimEnd, or_self] at cut
        exact cut
      refine .inr ⟨rfl, ?_, same⟩
      rw [same, Script.speaker?, splitOnce_eq_none (wellFormed.spoken spoken).2]

theorem WellFormed.lineOf_written (wellFormed : l.WellFormed) : lineOf l.written = l := by
  unfold lineOf
  rw [written, String.toList_append, extractCss_append wellFormed.bare.unstyled wellFormed.tags]
  simp only [extractTags_append wellFormed.bare.untagged wellFormed.tags]
  have cut : (if l.tags.isEmpty then l.head.toList else trimEnd l.head.toList) = l.head.toList ∨
      (if l.tags.isEmpty then l.head.toList else trimEnd l.head.toList) =
        trimEnd l.head.toList := by
    split
    · exact .inl rfl
    · exact .inr rfl
  have unstyled := wellFormed.unstyled
  rcases wellFormed.speaker? cut with ⟨speaker, spoken, found⟩ | ⟨unspoken, found, plain⟩
  · simp only [found, String.ofList_toList, Option.map_none, ← spoken, ← unstyled]
  · rw [plain] at found ⊢
    simp only [found, String.ofList_toList, Option.map_none]
    change (⟨none, l.text, l.tags, none⟩ : Line) = ⟨l.speaker, l.text, l.tags, l.css⟩
    rw [unspoken, unstyled]

theorem WellFormed.head_start (wellFormed : l.WellFormed) :
    ∃ c cs, l.head.toList = c :: cs ∧ isBlank c = false := by
  have start : ∀ {text : String}, IsPhrase text → text ≠ "" →
      ∃ c cs, text.toList = c :: cs ∧ isBlank c = false := by
    intro text phrase named
    cases spelled : text.toList with
    | nil => exact absurd (String.toList_eq_nil_iff.mp spelled) named
    | cons c cs => exact ⟨c, cs, rfl, phrase.trimmed.1 c (by rw [spelled]; rfl)⟩
  cases spoken : l.speaker with
  | some speaker =>
      obtain ⟨phrase, named, -⟩ := wellFormed.speaker speaker spoken
      obtain ⟨c, cs, spelled, nonblank⟩ := start phrase named
      exact ⟨c, _, by rw [toList_head_some spoken, spelled, List.cons_append], nonblank⟩
  | none =>
      rw [head_none spoken]
      exact start wellFormed.text (wellFormed.spoken spoken).1

theorem WellFormed.isSingle (wellFormed : l.WellFormed) : IsSingle l.written := by
  refine .append ?_ (isSingle_tagText wellFormed.tags)
  cases spoken : l.speaker with
  | some speaker =>
      obtain ⟨phrase, -⟩ := wellFormed.speaker speaker spoken
      simp only [head, spoken]
      exact (phrase.single.append (by decide)).append wellFormed.text.single
  | none =>
      rw [head_none spoken]
      exact wellFormed.text.single

end Line

theorem isBlank_of_isTagChar {c : Char} (tag : isTagChar c = true) : isBlank c = false := by
  have range : 48 ≤ c.toNat ∧ c.toNat ≤ 122 := by
    have spelled : isTagChar c =
        (decide (65 ≤ c.toNat ∧ c.toNat ≤ 90) ||
          decide (97 ≤ c.toNat) && decide (c.toNat ≤ 122) ||
          decide (48 ≤ c.toNat) && decide (c.toNat ≤ 57) ||
          decide (c = '_') || decide (c = ':')) := rfl
    simp only [spelled, Bool.or_eq_true, Bool.and_eq_true, decide_eq_true_eq] at tag
    rcases tag with (((upper | lower) | digit) | rfl) | rfl
    · omega
    · omega
    · omega
    · decide
    · decide
  unfold isBlank
  simp
  omega

theorem getLast?_of_suffix {cs text : List Char} (suffix : cs <:+ text) :
    ∀ c ∈ cs.getLast?, c ∈ text.getLast? := by
  obtain ⟨front, rfl⟩ := suffix
  intro c last
  rw [List.getLast?_append, Option.mem_def.mp last]
  rfl

theorem command?_eq_none {text : List Char} (ended : trimEnd text = text)
    (last : ∀ c ∈ text.getLast?, c ≠ '>') : command? text = none := by
  unfold command?
  rw [ended]
  cases found : after? ['<', '<'] text with
  | none => rfl
  | some inner =>
      have suffix : inner <:+ text := ⟨_, (eq_append_of_after? found).symm⟩
      have reversed : after? ['>', '>'] inner.reverse = none := by
        refine after?_eq_none_of_head? (List.cons_ne_nil _ _) ?_
        rw [List.head?_reverse]
        exact fun ends => last _ (getLast?_of_suffix suffix _ ends) rfl
      simp [reversed]

theorem bracedCondition?_eq_none {keyword text : List Char}
    (last : ∀ c ∈ text.getLast?, c ≠ '\x7d') : bracedCondition? keyword text = none := by
  unfold bracedCondition?
  cases found : after? keyword text with
  | none => rfl
  | some inner =>
      have suffix : inner <:+ text := ⟨_, (eq_append_of_after? found).symm⟩
      have reversed : after? ['\x7d'] inner.reverse = none := by
        refine after?_eq_none_of_head? (List.cons_ne_nil _ _) ?_
        rw [List.head?_reverse]
        exact fun ends => last _ (getLast?_of_suffix suffix _ ends) rfl
      simp [reversed]

/-- A text with a mark that no brace ends is not a marker. -/
theorem marker?_eq_none {text : List Char} (trimmed : Trimmed text) (mark : '#' ∈ text)
    (last : ∀ c ∈ text.getLast?, c ≠ '\x7d') : marker? (String.ofList text) = none := by
  have unlike : ∀ {word : List Char}, '#' ∉ word → text ≠ word := by
    rintro word absent rfl
    exact absent mark
  have unbraced : ∀ keyword {rest : List Char}, rest <:+ text →
      bracedCondition? keyword rest = none := fun keyword rest suffix =>
    bracedCondition?_eq_none fun c inside => last c (getLast?_of_suffix suffix c inside)
  unfold marker?
  simp only [String.toList_ofList, trimmed.trim]
  rw [if_neg (unlike (by decide)), if_neg (unlike (by decide)),
    unbraced _ (List.suffix_refl text)]
  cases found : after? "\x7belse".toList text with
  | none => rfl
  | some rest =>
      have suffix : trimStart rest <:+ text :=
        (List.dropWhile_suffix isBlank).trans ⟨_, (eq_append_of_after? found).symm⟩
      cases rest.head?.any isBlank <;> simp [unbraced _ suffix]

theorem trimmed_append_tagText {head : List Char} {tags : List String} (trimmed : Trimmed head)
    (start : head = [] → tags = []) (wellFormed : ∀ tag ∈ tags, IsTag tag) :
    Trimmed (head ++ (tagText tags).toList) := by
  constructor
  · intro c first
    cases head with
    | nil => simp [start rfl, tagText] at first
    | cons d head => exact trimmed.1 c first
  · intro c last
    rw [List.getLast?_append] at last
    cases later : (tagText tags).toList.getLast? with
    | none =>
        rw [later] at last
        exact trimmed.2 c last
    | some d =>
        rw [later] at last
        exact isBlank_of_isTagChar (getLast?_tagText wellFormed c (later.trans last))

/-- Tags do not make markup of a text that is none. -/
theorem IsProse.append_tagText {head : List Char} {tags : List String} (prose : IsProse head)
    (start : ∃ c cs, head = c :: cs ∧ isBlank c = false)
    (wellFormed : ∀ tag ∈ tags, IsTag tag) : IsProse (head ++ (tagText tags).toList) := by
  cases tags with
  | nil => simpa [tagText] using prose
  | cons tag tags =>
      -- With tags a line has a mark in it and ends in a tag, which no other kind of line does.
      have mark : '#' ∈ head ++ (tagText (tag :: tags)).toList := by
        simp [toList_tagText_cons]
      have last : ∀ c ∈ (head ++ (tagText (tag :: tags)).toList).getLast?, isTagChar c = true := by
        rw [List.getLast?_append_of_ne_nil _ (by simp [toList_tagText_cons])]
        exact getLast?_tagText wellFormed
      have trimmed : Trimmed (head ++ (tagText (tag :: tags)).toList) := by
        obtain ⟨c, cs, rfl, nonblank⟩ := start
        refine ⟨?_, fun d inside => isBlank_of_isTagChar (last d inside)⟩
        rintro d ⟨⟩
        exact nonblank
      have other : ∀ {d}, isTagChar d = false →
          ∀ c ∈ (head ++ (tagText (tag :: tags)).toList).getLast?, c ≠ d := by
        rintro d noTag c inside rfl
        rw [last c inside] at noTag
        cases noTag
      refine ⟨?_, ?_, command?_eq_none trimmed.trimEnd (other (by decide)),
        marker?_eq_none trimmed mark (other (by decide))⟩
      · rw [trimmed.trimEnd]
        constructor <;>
        · intro bound
          rw [bound] at mark
          exact absurd mark (by decide)
      · refine after?_append_eq_none prose.option ?_
        rw [toList_tagText_cons]
        rintro c ⟨⟩
        decide

namespace Line

variable {l : Line}

theorem WellFormed.prose_written (wellFormed : l.WellFormed) : IsProse l.written.toList := by
  rw [written, String.toList_append]
  exact wellFormed.prose.append_tagText wellFormed.head_start wellFormed.tags

theorem WellFormed.written_start (wellFormed : l.WellFormed) :
    ∃ c cs, l.written.toList = c :: cs ∧ isBlank c = false := by
  obtain ⟨c, cs, spelled, nonblank⟩ := wellFormed.head_start
  exact ⟨c, _, by rw [written, String.toList_append, spelled, List.cons_append], nonblank⟩

end Line

/-- A condition follows white space. -/
theorem condition?_eq_none {c : Char} {text : List Char} (nonblank : isBlank c = false)
    (start : ∀ d ∈ text.head?, d = c) : condition? text = none := by
  unfold condition?
  split
  · rename_i first second rest
    rw [start first rfl, nonblank]
    rfl
  · rfl

/-- A text that starts no guard starts none with more behind a space either. -/
theorem guard?_append_eq_none {text more : List Char} (unguarded : startsGuard text = false)
    (apart : ∀ c ∈ more.head?, c = ' ') : guard? (text ++ more) = none := by
  unfold guard?
  cases found : after? ['<', '<', 'i', 'f'] text with
  | none =>
      rw [after?_append_eq_none found]
      · rfl
      · intro c first
        rw [apart c first]
        decide
  | some rest =>
      rw [startsGuard, found] at unguarded
      cases rest with
      | nil => cases unguarded
      | cons c rest =>
          have inner : after? ['<', '<', 'i', 'f'] (text ++ more) = some (c :: rest ++ more) := by
            rw [eq_append_of_after? found, List.append_assoc, after?_append]
          rw [inner]
          change Option.bind (after? ['>', '>'] (trimEnd (c :: rest ++ more)).reverse) _ = none
          cases closed : after? ['>', '>'] (trimEnd (c :: rest ++ more)).reverse with
          | none => rfl
          | some reversed =>
              -- Cutting off the closer keeps the first character, which is not white space.
              refine condition?_eq_none unguarded ?_
              have front : reversed.reverse <+: c :: rest ++ more := by
                have whole := congrArg List.reverse (eq_append_of_after? closed)
                rw [List.reverse_reverse, List.reverse_append] at whole
                have kept : trimEnd (c :: rest ++ more) <+: c :: rest ++ more :=
                  List.rdropWhile_prefix isBlank _
                rw [whole] at kept
                exact (List.prefix_append _ _).trans kept
              obtain ⟨tail, parts⟩ := front
              intro d first
              have heads := congrArg List.head? parts
              rw [List.head?_append, Option.mem_def.mp first] at heads
              exact Option.some.inj heads

/-- A guard is looked for behind text in which none starts. -/
theorem splitGuard_append {text more : List Char}
    (absent : ∀ rest ∈ text.tails, rest ≠ [] → guard? (rest ++ more) = none) :
    splitGuard (text ++ more) =
      (splitGuard more).map fun (before, condition) => (text ++ before, condition) := by
  induction text with
  | nil =>
      rw [List.nil_append]
      cases splitGuard more <;> rfl
  | cons c text ih =>
      rw [List.tails, List.forall_mem_cons] at absent
      have here := absent.1 (List.cons_ne_nil c text)
      rw [List.cons_append] at here ⊢
      rw [splitGuard, here, ih absent.2]
      cases splitGuard more <;> rfl

theorem guard?_eq_none {c : Char} (other : c ≠ '<') (cs : List Char) : guard? (c :: cs) = none := by
  rw [guard?, after?, if_neg (Ne.symm other)]
  rfl

theorem splitGuard_of_guard {c : Char} {cs condition : List Char}
    (found : guard? (c :: cs) = some condition) : splitGuard (c :: cs) = some ([], condition) := by
  rw [splitGuard, found]

theorem splitGuard_written {condition : String} (argument : IsArgument condition) :
    splitGuard ("<<if ".toList ++ condition.toList ++ ">>".toList) =
      some ([], condition.toList) := by
  have trimmed := argument.1.trimmed
  have guarded : guard? ("<<if ".toList ++ condition.toList ++ ">>".toList) =
      some condition.toList := by
    change guard? (['<', '<', 'i', 'f'] ++ ((' ' :: condition.toList) ++ ['>', '>'])) = _
    have ended : trimEnd ((' ' :: condition.toList) ++ ['>', '>']) =
        (' ' :: condition.toList) ++ ['>', '>'] := trimEnd_append (by decide) (by simp)
    rw [guard?, after?_append]
    simp only [Option.bind_eq_bind, Option.bind_some, ended, List.reverse_append]
    change Option.bind (after? ['>', '>'] (['>', '>'] ++ _)) _ = _
    rw [after?_append]
    simp only [Option.bind_some, List.reverse_reverse]
    cases spelled : condition.toList with
    | nil => exact absurd (String.toList_eq_nil_iff.mp spelled) argument.2
    | cons c cs =>
        rw [spelled] at trimmed
        rw [condition?, if_pos (by decide), trimmed.trim]
  exact splitGuard_of_guard guarded

namespace Choice

variable {c : Choice}

theorem toList_label (c : Choice) : c.label.toList = c.text.toList ++ (tagText c.tags).toList :=
  String.toList_append ..

theorem WellFormed.label_trimmed (wellFormed : c.WellFormed) : Trimmed c.label.toList := by
  rw [toList_label]
  refine trimmed_append_tagText wellFormed.text.trimmed (fun empty => ?_) wellFormed.tags
  exact wellFormed.named (String.toList_eq_nil_iff.mp empty)

/-- No guard starts in the label of an option. -/
theorem WellFormed.splitGuard_label (wellFormed : c.WellFormed) {more : List Char}
    (apart : ∀ d ∈ more.head?, d = ' ') :
    splitGuard (c.label.toList ++ more) =
      (splitGuard more).map fun (before, condition) => (c.label.toList ++ before, condition) := by
  have tags : ∀ rest ∈ (tagText c.tags).toList.tails, rest ≠ [] → guard? (rest ++ more) = none := by
    intro rest suffix
    cases rest with
    | nil => exact fun empty => absurd rfl empty
    | cons d rest =>
        have inside := (List.mem_tails _ _).mp suffix |>.subset (List.mem_cons_self ..)
        refine fun _ => guard?_eq_none ?_ _
        rintro rfl
        exact not_mem_tagText wellFormed.tags (by decide) inside
  have text : ∀ rest ∈ c.text.toList.tails, rest ≠ [] →
      guard? (rest ++ ((tagText c.tags).toList ++ more)) = none := by
    intro rest suffix _
    refine guard?_append_eq_none (wellFormed.unguarded rest suffix) fun d first => ?_
    rw [List.head?_append] at first
    cases start : (tagText c.tags).toList.head? with
    | none =>
        rw [start] at first
        exact apart d first
    | some e =>
        rw [start] at first
        exact head?_tagText c.tags d (start.trans first)
  rw [toList_label, List.append_assoc, splitGuard_append text, splitGuard_append tags]
  cases splitGuard more with
  | none => rfl
  | some found => simp

/-- The label and the condition of an option are found again. -/
theorem WellFormed.splitGuard_some (wellFormed : c.WellFormed) {condition : String}
    (guarded : c.condition = some condition) :
    ∃ before, splitGuard c.written.toList = some (before, condition.toList) ∧
      trimEnd before = c.label.toList := by
  have found := splitGuard_written (wellFormed.condition condition guarded)
  have trimmed := wellFormed.label_trimmed
  simp only [written, guarded]
  split
  · rename_i empty
    rw [String.isEmpty_iff] at empty
    refine ⟨[], ?_, by rw [empty]; rfl⟩
    simpa only [String.toList_append, String.toList_empty, List.nil_append] using found
  · refine ⟨c.label.toList ++ [' '], ?_, by rw [trimEnd_space, trimmed.trimEnd]⟩
    have spaced : splitGuard (' ' :: ("<<if ".toList ++ condition.toList ++ ">>".toList)) =
        some ([' '], condition.toList) := by
      rw [splitGuard, guard?_eq_none (by decide), found]
      rfl
    simp only [String.toList_append, List.append_assoc] at spaced ⊢
    rw [wellFormed.splitGuard_label]
    · exact congrArg _ spaced
    · rintro d ⟨⟩
      rfl

theorem WellFormed.splitGuard_none (wellFormed : c.WellFormed) (unguarded : c.condition = none) :
    splitGuard c.written.toList = none := by
  have label : splitGuard (c.label.toList ++ []) = none := wellFormed.splitGuard_label (by simp)
  rw [List.append_nil] at label
  simp only [written, unguarded, label]

/-- The text and the tags of an option are found again in its label. -/
theorem WellFormed.extractTags_label (wellFormed : c.WellFormed) :
    ∃ plain, extractTags c.label.toList = (plain, c.tags) ∧ trim plain = c.text.toList := by
  rw [toList_label, extractTags_append wellFormed.bare.untagged wellFormed.tags]
  refine ⟨_, rfl, ?_⟩
  have trimmed := wellFormed.text.trimmed
  split
  · exact trimmed.trim
  · rw [trimmed.trimEnd, trimmed.trim]

theorem WellFormed.choiceOf_written (wellFormed : c.WellFormed) : choiceOf c.written = c := by
  have unstyled : extractCss c.label.toList = (c.label.toList, none) := by
    rw [toList_label]
    exact extractCss_append wellFormed.bare.unstyled wellFormed.tags
  obtain ⟨plain, tags, text⟩ := wellFormed.extractTags_label
  unfold choiceOf
  cases guarded : c.condition with
  | none =>
      have unguarded := wellFormed.splitGuard_none guarded
      have label : c.written = c.label := by simp only [written, guarded]
      rw [label] at unguarded ⊢
      simp only [unguarded, unstyled, tags, text, String.ofList_toList, Option.map_none]
      change (⟨c.text, c.tags, none, none⟩ : Choice) = ⟨c.text, c.tags, c.css, c.condition⟩
      rw [guarded, wellFormed.unstyled]
  | some condition =>
      obtain ⟨before, found, label⟩ := wellFormed.splitGuard_some guarded
      simp only [found, label, unstyled, tags, text, String.ofList_toList, Option.map_none,
        Option.map_some]
      change (⟨c.text, c.tags, none, some condition⟩ : Choice) =
        ⟨c.text, c.tags, c.css, c.condition⟩
      rw [guarded, wellFormed.unstyled]

/-- The text of an option as a token has it. -/
theorem WellFormed.isPhrase (wellFormed : c.WellFormed) : IsPhrase c.written := by
  have single : IsSingle c.label :=
    wellFormed.text.single.append (isSingle_tagText wellFormed.tags)
  cases guarded : c.condition with
  | none =>
      simp only [written, guarded]
      exact ⟨wellFormed.label_trimmed, single⟩
  | some condition =>
      obtain ⟨phrase, -⟩ := wellFormed.condition condition guarded
      have front : IsSingle (if c.label.isEmpty then "" else c.label ++ " ") ∧
          ∀ d ∈ (if c.label.isEmpty then "" else c.label ++ " ").toList.head?,
            isBlank d = false := by
        split
        · exact ⟨by decide, by simp⟩
        · rename_i visible
          refine ⟨single.append (by decide), fun d first => ?_⟩
          rw [String.toList_append, List.head?_append_of_ne_nil _ (by simpa using visible)] at first
          exact wellFormed.label_trimmed.1 d first
      simp only [written, guarded]
      refine ⟨⟨?_, ?_⟩, ((front.1.append (by decide)).append phrase.single).append (by decide)⟩
      · intro d first
        simp only [String.toList_append, List.append_assoc] at first
        rw [List.head?_append] at first
        cases start : (if c.label.isEmpty then "" else c.label ++ " ").toList.head? with
        | some e =>
            rw [start] at first
            exact front.2 d (start.trans first)
        | none =>
            rw [start] at first
            obtain rfl : '<' = d := Option.some.inj first
            decide
      · intro d last
        rw [String.toList_append, List.getLast?_append_of_ne_nil _ (by decide)] at last
        obtain rfl : '>' = d := Option.some.inj last
        decide

end Choice

end Dialogue.Script
