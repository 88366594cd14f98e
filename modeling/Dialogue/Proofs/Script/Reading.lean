import Dialogue.Proofs.Script.Transition

set_option autoImplicit false

namespace Dialogue.Script

/-- The tokens from the start of a conditional to the head of its current branch. -/
inductive BranchHead (spelling : Spelling) :
    List Token → List (Option String × Body) → Option String → Prop
  | first {t : Token} {condition : String} (opens : Opens spelling condition t) :
      BranchHead spelling [t] [] (some condition)
  | next {tokens : List Token} {t : Token} {done : List (Option String × Body)}
      {condition : Option String} (before : SpellsBranches spelling tokens done)
      (continues : Continues spelling condition t) :
      BranchHead spelling (tokens ++ [t]) done condition

theorem BranchHead.branches {spelling : Spelling} {head tokens : List Token}
    {done : List (Option String × Body)} {condition : Option String} {body : Body}
    (open_ : BranchHead spelling head done condition) (inside : Spells tokens body) :
    SpellsBranches spelling (head ++ tokens) (done ++ [(condition, body)]) := by
  cases open_ with
  | first opens => exact .first opens inside
  | next before continues =>
      rw [List.append_assoc]
      exact .next before continues inside

/-- The tokens before the innermost open block: for each block around it, the statements before it
and its head. -/
inductive Before : List Frame → List Token → Prop
  | nil : Before [] []
  | indented {frames : List Frame} {before tokens : List Token} {outer : Body}
      (around : Before frames before) (spelled : Spells tokens outer) :
      Before (.indented outer :: frames) (before ++ tokens)
  | choice {frames : List Frame} {before tokens choices : List Token} {t : Token} {outer : Body}
      {done : List (Choice × Body)} (around : Before frames before)
      (spelled : Spells tokens outer) (each : SpellsChoices choices done)
      (kind : t.kind = .option) :
      Before (.choice outer done (choiceOf t.text) :: frames)
        (before ++ (tokens ++ (choices ++ [t])))
  | branch {frames : List Frame} {before tokens head : List Token} {start : Token} {outer : Body}
      {spelling : Spelling} {done : List (Option String × Body)} {condition : Option String}
      (around : Before frames before) (spelled : Spells tokens outer)
      (open_ : BranchHead spelling head done condition) :
      Before (.branch outer spelling start done condition :: frames) (before ++ (tokens ++ head))
  | onceIndented {frames : List Frame} {before tokens : List Token} {t : Token} {outer : Body}
      (around : Before frames before) (spelled : Spells tokens outer)
      (opens : IsCommand "once" t) :
      Before (.onceIndented outer :: frames) (before ++ (tokens ++ [t]))
  | once {frames : List Frame} {before tokens : List Token} {t : Token} {outer : Body}
      (around : Before frames before) (spelled : Spells tokens outer)
      (opens : IsCommand "once" t) :
      Before (.once outer :: frames) (before ++ (tokens ++ [t]))

/-- The tokens of the innermost block: its statements, and what the mode holds. -/
inductive Within (here : Body) : Mode → List Token → Prop
  | plain {tokens : List Token} (spelled : Spells tokens here) : Within here .plain tokens
  | choiceHead {tokens choices : List Token} {t : Token} {done : List (Choice × Body)}
      (spelled : Spells tokens here) (each : SpellsChoices choices done)
      (kind : t.kind = .option) :
      Within here (.choiceHead done (choiceOf t.text)) (tokens ++ (choices ++ [t]))
  | choices {tokens choices : List Token} {done : List (Choice × Body)}
      (spelled : Spells tokens here) (each : SpellsChoices choices done) (nonempty : done ≠ []) :
      Within here (.choices done) (tokens ++ choices)
  | onceHead {tokens : List Token} {t : Token} (spelled : Spells tokens here)
      (opens : IsCommand "once" t) : Within here .onceHead (tokens ++ [t])
  | onceEnd {tokens inner : List Token} {t : Token} {body : Body} (spelled : Spells tokens here)
      (opens : IsCommand "once" t) (inside : Spells inner body) :
      Within here (.onceEnd body) (tokens ++ t :: inner)
  | enumeration {tokens cases : List Token} {t : Token} {e : OpenEnum}
      (spelled : Spells tokens here) (opens : HasArgument "enum" e.name t) (named : e.name ≠ "")
      (each : List.Forall₂ (HasArgument "case") e.cases cases) :
      Within here (.enumeration e) (tokens ++ t :: cases)
  | enumerationEnd {tokens last : List Token} {enum : Enumeration} {depth : Nat}
      (spelled : Spells tokens here) (one : SpellsOne last (.enumeration enum)) :
      Within here (.enumerationEnd enum depth) (tokens ++ last)

/-- The tokens spell what the state holds. -/
def Reads (s : BlockState) (tokens : List Token) : Prop :=
  ∃ before inside, Before s.frames before ∧ Within s.here s.mode inside ∧ tokens = before ++ inside

section

variable {s after : BlockState} {t : Token} {tokens : List Token}

theorem reads_add {before inside last : List Token} {statement : Statement}
    (around : Before s.frames before) (spelled : Spells inside s.here)
    (one : SpellsOne last statement) : Reads (s.add statement) (before ++ (inside ++ last)) :=
  ⟨before, inside ++ last, around, .plain (spelled.snoc one), rfl⟩

theorem reads_enter {frame : Frame} (around : Before (frame :: s.frames) tokens) :
    Reads (s.enter frame) tokens :=
  ⟨tokens, [], around, .plain .nil, by simp⟩

/-- A group of options that ends is a statement. -/
theorem settleChoices_reads {before inside choices : List Token} {done : List (Choice × Body)}
    (around : Before s.frames before) (spelled : Spells inside s.here)
    (each : SpellsChoices choices done) (nonempty : done ≠ []) :
    Reads (s.settleChoices t done) (before ++ (inside ++ choices)) := by
  unfold BlockState.settleChoices
  split
  · exact ⟨before, inside ++ choices, around, .choices spelled each nonempty, rfl⟩
  · exact reads_add around spelled (.options nonempty each)

theorem settleMode_reads (reads : Reads s tokens) : Reads (s.settleMode t) tokens := by
  obtain ⟨before, inside, around, within, rfl⟩ := reads
  unfold BlockState.settleMode
  generalize mode_eq : s.mode = mode at within
  have same : Reads s (before ++ inside) := ⟨before, inside, around, mode_eq ▸ within, rfl⟩
  cases within with
  | plain spelled => exact same
  | choiceHead spelled each kind =>
      simp only
      split
      · exact same
      · refine settleChoices_reads around spelled ?_ (by simp)
        exact each.snoc kind .nil
  | choices spelled each nonempty => exact settleChoices_reads around spelled each nonempty
  | onceHead spelled opens =>
      simp only
      split
      · exact same
      · exact reads_enter (.once around spelled opens)
  | onceEnd spelled opens inner =>
      simp only
      split
      · exact same
      · refine reads_add around spelled ?_
        simpa using SpellsOne.once opens inner (.inl rfl)
  | enumeration spelled opens named each => exact same
  | enumerationEnd spelled one =>
      simp only
      split
      · exact same
      · exact reads_add around spelled one

theorem closeOnces_reads (frames : List Frame) {before inside : List Token} {here : Body}
    (around : Before frames before) (spelled : Spells inside here) :
    ∃ outside own, Before (closeOnces frames here).1 outside ∧
      Spells own (closeOnces frames here).2 ∧ before ++ inside = outside ++ own := by
  induction frames generalizing before inside here with
  | nil => exact ⟨before, inside, around, spelled, rfl⟩
  | cons frame frames ih =>
      cases around with
      | @once _ outside outer t body around outerSpelled opens =>
          have block : SpellsOne (t :: inside) (.once here) := by
            simpa using SpellsOne.once opens spelled (.inl rfl)
          obtain ⟨a, b, rest, own, same⟩ := ih around (outerSpelled.snoc block)
          exact ⟨a, b, rest, own, by simpa using same⟩
      | indented around spelled' => exact ⟨_, inside, .indented around spelled', spelled, rfl⟩
      | choice around spelled' each kind =>
          exact ⟨_, inside, .choice around spelled' each kind, spelled, rfl⟩
      | branch around spelled' open_ =>
          exact ⟨_, inside, .branch around spelled' open_, spelled, rfl⟩
      | onceIndented around spelled' opens =>
          exact ⟨_, inside, .onceIndented around spelled' opens, spelled, rfl⟩

theorem settle_reads (reads : Reads s tokens) : Reads (s.settle t) tokens := by
  obtain ⟨before, inside, around, within, rfl⟩ := settleMode_reads (t := t) reads
  unfold BlockState.settle
  generalize s.settleMode t = settled at around within ⊢
  have same : Reads settled (before ++ inside) := ⟨before, inside, around, within, rfl⟩
  simp only
  split
  · rename_i plain
    split
    · rw [plain] at within
      cases within with
      | plain spelled =>
          obtain ⟨a, b, outside, own, split⟩ := closeOnces_reads settled.frames around spelled
          exact ⟨a, b, outside, by simpa [plain] using Within.plain own, split⟩
    · exact same
  · exact same

theorem takeItem_reads {before inside : List Token} (tidy : t.Tidy)
    (around : Before s.frames before) (spelled : Spells inside s.here)
    (ok : s.takeItem t = .ok after) : Reads after (before ++ inside ++ t.content) := by
  rw [List.append_assoc]
  unfold BlockState.takeItem at ok
  split at ok
  · rename_i kind
    obtain rfl := Except.ok.inj ok
    refine ⟨before, _, around, ?_, rfl⟩
    simpa [Token.content, Token.isContent, kind] using Within.choiceHead spelled .nil kind
  · rename_i kind
    obtain rfl := Except.ok.inj ok
    simpa [Token.content, Token.isContent, kind] using reads_enter (.indented around spelled)
  · rename_i kind
    have single : t.content = [t] := by simp [Token.content, Token.isContent, kind]
    rw [single]
    rcases takeCommand_ok tidy kind ok with
      ⟨statement, one, -, rfl⟩ | ⟨condition, opens, rfl⟩ | ⟨opens, rfl⟩ | ⟨name, opens, named, rfl⟩
    · exact reads_add around spelled one
    · exact reads_enter (.branch around spelled (.first opens))
    · exact ⟨before, _, around, .onceHead spelled opens, rfl⟩
    · exact ⟨before, _, around, .enumeration spelled opens named .nil, rfl⟩
  · rename_i kind
    have single : t.content = [t] := by simp [Token.content, Token.isContent, kind]
    rw [single]
    unfold BlockState.takeText at ok
    split at ok
    · rename_i condition reads
      obtain rfl := Except.ok.inj ok
      exact reads_enter (.branch around spelled (.first (.marker kind reads)))
    · cases ok
    · rename_i unmarked
      obtain rfl := Except.ok.inj ok
      exact reads_add around spelled (.line kind unmarked)
  · cases ok

theorem closing_reads {before inside : List Token} (plain : s.mode = .plain)
    (around : Before s.frames before) (spelled : Spells inside s.here)
    (closing : Closing s t after) : Reads after (before ++ inside ++ t.content) := by
  have layout : t.kind = .dedent → t.content = [] := by
    intro kind
    simp [Token.content, Token.isContent, kind]
  cases closing with
  | indented stack kind =>
      rw [stack] at around
      cases around with
      | @indented _ outside tokens _ around outerSpelled =>
          refine ⟨outside, tokens ++ inside, around, ?_, by simp [layout kind]⟩
          simpa [plain] using Within.plain (outerSpelled.append spelled)
  | choice stack kind =>
      rw [stack] at around
      cases around with
      | @choice _ outside tokens choices head _ _ around outerSpelled each option =>
          exact ⟨outside, _, around, .choices outerSpelled (each.snoc option spelled) (by simp),
            by simp [layout kind]⟩
  | onceIndented stack kind =>
      rw [stack] at around
      cases around with
      | @onceIndented _ outside tokens head _ around outerSpelled opens =>
          exact ⟨outside, _, around, .onceEnd outerSpelled opens spelled, by simp [layout kind]⟩
  | once stack closer =>
      rw [stack] at around
      cases around with
      | @once _ outside tokens head _ around outerSpelled opens =>
          have block := SpellsOne.once opens spelled (.inr ⟨t, rfl, closer⟩)
          refine ⟨outside, tokens ++ (head :: inside ++ [t]), around, ?_, ?_⟩
          · simpa [plain] using Within.plain (outerSpelled.snoc block)
          · simp [content_of_kind (.inr (.inr closer.1))]
  | @next _ _ start _ _ _ _ stack continues =>
      rw [stack] at around
      cases around with
      | @branch _ outside tokens head _ _ _ _ _ around outerSpelled open_ =>
          have next : Before (.branch _ _ start _ _ :: _) _ :=
            .branch around outerSpelled (.next (open_.branches spelled) continues)
          refine ⟨_, [], next, ?_, by simp [continues.content]⟩
          simpa [plain] using Within.plain .nil
  | conditional stack closes =>
      rw [stack] at around
      cases around with
      | @branch _ outside tokens head _ _ _ _ _ around outerSpelled open_ =>
          have block := SpellsOne.conditional (open_.branches spelled) closes
          refine ⟨outside, tokens ++ (head ++ inside ++ [t]), around, ?_, by simp [closes.content]⟩
          simpa [plain] using Within.plain (outerSpelled.snoc block)

theorem takePlain_reads {before inside : List Token} (tidy : t.Tidy) (plain : s.mode = .plain)
    (around : Before s.frames before) (spelled : Spells inside s.here)
    (ok : s.takePlain t = .ok after) : Reads after (before ++ inside ++ t.content) := by
  rcases takePlain_ok ok with ⟨kind, rfl⟩ | item | closing
  · refine ⟨before, inside, around, ?_, by simp [Token.content, Token.isContent, kind]⟩
    simpa [plain] using Within.plain spelled
  · exact takeItem_reads tidy around spelled item
  · exact closing_reads plain around spelled closing

theorem endEnum_reads {before inside last : List Token} {enum : Enumeration} (depth : Nat)
    (around : Before s.frames before) (spelled : Spells inside s.here)
    (one : SpellsOne last (.enumeration enum)) :
    Reads (s.endEnum enum depth) (before ++ (inside ++ last)) := by
  unfold BlockState.endEnum
  split
  · exact reads_add around spelled one
  · exact ⟨before, inside ++ last, around, .enumerationEnd spelled one, rfl⟩

/-- A token that suits the mode is taken up. -/
theorem take_reads (tidy : t.Tidy) (suits : s.mode.Suits t) (reads : Reads s tokens)
    (ok : s.take t = .ok after) : Reads after (tokens ++ t.content) := by
  obtain ⟨before, inside, around, within, rfl⟩ := reads
  unfold BlockState.take at ok
  generalize mode_eq : s.mode = mode at within suits ok
  cases within with
  | plain spelled => exact takePlain_reads tidy mode_eq around spelled ok
  | @choiceHead _ choices head done spelled each kind =>
      obtain rfl := Except.ok.inj ok
      have layout : t.kind = .indent := suits
      rw [Token.content, if_neg (by simp [Token.isContent, layout]), List.append_nil]
      exact reads_enter (.choice around spelled each kind)
  | choices spelled each nonempty =>
      simp only at ok
      split at ok
      · rename_i kind
        obtain rfl := Except.ok.inj ok
        refine ⟨before, _, around, .choiceHead spelled each kind, ?_⟩
        simp [content_of_kind (.inr (.inl kind))]
      · rename_i other
        obtain rfl := Except.ok.inj ok
        have kind : t.kind = .empty := suits.resolve_left other
        have within := Within.choices spelled each nonempty
        refine ⟨before, _, around, by simpa [mode_eq] using within, ?_⟩
        simp [Token.content, Token.isContent, kind]
  | onceHead spelled opens =>
      obtain rfl := Except.ok.inj ok
      have layout : t.kind = .indent := suits
      rw [Token.content, if_neg (by simp [Token.isContent, layout]), List.append_nil]
      exact reads_enter (.onceIndented around spelled opens)
  | onceEnd spelled opens inner =>
      simp only at ok
      split at ok
      · rename_i kind
        obtain rfl := Except.ok.inj ok
        refine ⟨before, _, around, by simpa [mode_eq] using Within.onceEnd spelled opens inner, ?_⟩
        simp [Token.content, Token.isContent, kind]
      · rename_i other
        obtain rfl := Except.ok.inj ok
        have closer : IsCommand "endonce" t := suits.resolve_left other
        rw [content_of_kind (.inr (.inr closer.1)), List.append_assoc, List.append_assoc]
        exact reads_add around spelled (.once opens inner (.inr ⟨t, rfl, closer⟩))
  | @enumeration _ cases head e spelled opens named each =>
      obtain ⟨progress, taken, ok⟩ := bind_ok ok
      rcases enum_take_ok taken with ⟨depth, layout, rfl⟩ | ⟨case, reads, rfl⟩ | ⟨closer, rfl⟩
      · obtain rfl := Except.ok.inj ok
        rw [layout, List.append_nil]
        exact ⟨before, _, around, .enumeration spelled opens named each, rfl⟩
      · obtain rfl := Except.ok.inj ok
        have more := List.rel_append (R := HasArgument "case") each (.cons reads .nil)
        refine ⟨before, _, around, .enumeration spelled opens named more, ?_⟩
        simp [content_of_kind (.inr (.inr reads.1))]
      · obtain rfl := Except.ok.inj ok
        rw [content_of_kind (.inr (.inr closer.1)), List.append_assoc, List.append_assoc]
        have one : SpellsOne (head :: cases ++ [t]) (.enumeration e.definition) :=
          .enumeration opens named each closer
        exact endEnum_reads e.depth around spelled one
  | enumerationEnd spelled one =>
      have layout : t.content = [] := by
        rcases suits with kind | kind <;> simp [Token.content, Token.isContent, kind]
      rw [layout, List.append_nil]
      simp only at ok
      split at ok
      · obtain rfl := Except.ok.inj ok
        exact ⟨before, _, around, by simpa [mode_eq] using Within.enumerationEnd spelled one, rfl⟩
      · obtain rfl := Except.ok.inj ok
        exact endEnum_reads _ around spelled one

/-- Every step adds the content of its token to what has been read. -/
theorem step_reads (tidy : t.Tidy) (reads : Reads s tokens) (ok : s.step t = .ok after) :
    Reads after (tokens ++ t.content) :=
  take_reads tidy (settle_suits s t) (settle_reads reads) ok

/-- A body that is complete is spelled by what has been read. -/
theorem finish_spells {body : Body} {enums : List Enumeration} (reads : Reads s tokens)
    (ok : s.finish t = .ok (body, enums)) : Spells tokens body := by
  obtain ⟨before, inside, around, within, rfl⟩ := settle_reads (t := t) reads
  rw [(finish_ok ok).2] at around within
  cases around with
  | nil =>
      cases within with
      | plain spelled => exact spelled

end

end Dialogue.Script
