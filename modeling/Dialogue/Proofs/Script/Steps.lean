import Dialogue.Proofs.Script.Rows
import Dialogue.Proofs.Script.Transition

set_option autoImplicit false

namespace Dialogue.Script

open Dialogue.Text

theorem argument?_append {text : String} (argument : IsArgument text) (keyword : String) :
    argument? keyword (keyword.toList ++ ' ' :: text.toList) = some text.toList := by
  have trimmed := argument.1.trimmed
  rw [argument?, after?_append]
  simp only
  rw [if_pos (by decide), trim, trimStart_space trimmed, trimmed.trimEnd]

/-- A keyword is told by its first character. -/
theorem argument?_eq_none {keyword : String} {text : List Char} (named : keyword ≠ "")
    (differ : text.head? ≠ keyword.toList.head?) : argument? keyword text = none := by
  rw [argument?, after?_eq_none_of_head? (by simpa using named) differ]

theorem ne_of_head? {text word : List Char} (differ : text.head? ≠ word.head?) : text ≠ word :=
  fun same => differ (congrArg List.head? same)

section

variable {s : BlockState} {t : Token}

theorem takeCommand_command (tidy : trim t.text.toList = t.text.toList)
    (plain : IsPlain t.text.toList) : s.takeCommand t = .ok (s.add (.command t.text)) := by
  have bare := plain.bare
  have argument := plain.argument
  simp only [bareKeywords, argumentKeywords, List.forall_mem_cons] at bare argument
  obtain ⟨jump, detour, if_, once, else_, endif, endonce, endenum, -⟩ := bare
  obtain ⟨jumpTo, detourTo, ifThen, enum, elseif, case_, -⟩ := argument
  unfold BlockState.takeCommand
  simp only [tidy, jumpTo, detourTo, ifThen, enum, case_, jump, detour, if_, once, else_, endif,
    endonce, endenum, plain.branch, isBranchCommand, decide_false, Bool.or_self, Option.isSome_none,
    Bool.false_eq_true, if_false, String.ofList_toList]

theorem takeCommand_once (text : t.text = "once") :
    s.takeCommand t = .ok { s with mode := .onceHead } := by
  unfold BlockState.takeCommand
  rw [text]
  rfl

variable {argument : String} (wellFormed : IsArgument argument)

include wellFormed

theorem tidy_append {lead : String} (leads : IsKeyword lead) (text : t.text = lead ++ argument) :
    trim t.text.toList = t.text.toList := by
  rw [text]
  exact (isArgument_append leads wellFormed).1.trimmed.trim

theorem argument?_lead {lead keyword : String} (spaced : lead.toList = keyword.toList ++ [' '])
    (text : t.text = lead ++ argument) :
    argument? keyword t.text.toList = some argument.toList := by
  rw [text, String.toList_append, spaced, List.append_assoc]
  exact argument?_append wellFormed keyword

omit wellFormed in
theorem head?_lead {lead : String} (named : lead ≠ "") (text : t.text = lead ++ argument) :
    t.text.toList.head? = lead.toList.head? := by
  rw [text, String.toList_append, List.head?_append_of_ne_nil _ (by simpa using named)]

theorem takeCommand_jump (text : t.text = "jump " ++ argument) :
    s.takeCommand t = .ok (s.add (.jump argument)) := by
  have tidy := tidy_append wellFormed (by decide) text
  have found : argument? "jump" t.text.toList = _ := argument?_lead wellFormed (by decide) text
  unfold BlockState.takeCommand
  simp only [tidy, found, String.ofList_toList]

theorem takeCommand_detour (text : t.text = "detour " ++ argument) :
    s.takeCommand t = .ok (s.add (.detour argument)) := by
  have tidy := tidy_append wellFormed (by decide) text
  have found : argument? "detour" t.text.toList = _ := argument?_lead wellFormed (by decide) text
  have start := head?_lead (by decide) text
  have noJump : argument? "jump" t.text.toList = none :=
    argument?_eq_none (by decide) (by rw [start]; decide)
  unfold BlockState.takeCommand
  simp only [tidy, noJump, found, String.ofList_toList]

theorem takeCommand_if (text : t.text = "if " ++ argument) :
    s.takeCommand t = .ok (s.enter (.branch s.here .command t [] (some argument))) := by
  have tidy := tidy_append wellFormed (by decide) text
  have found : argument? "if" t.text.toList = _ := argument?_lead wellFormed (by decide) text
  have start := head?_lead (by decide) text
  have noJump : argument? "jump" t.text.toList = none :=
    argument?_eq_none (by decide) (by rw [start]; decide)
  have noDetour : argument? "detour" t.text.toList = none :=
    argument?_eq_none (by decide) (by rw [start]; decide)
  have notJump : t.text.toList ≠ "jump".toList := ne_of_head? (by rw [start]; decide)
  have notDetour : t.text.toList ≠ "detour".toList := ne_of_head? (by rw [start]; decide)
  unfold BlockState.takeCommand
  simp only [tidy, noJump, noDetour, notJump, notDetour, found, decide_false, Bool.or_self,
    Bool.false_eq_true, if_false, String.ofList_toList]

theorem takeCommand_enum (text : t.text = "enum " ++ argument) :
    s.takeCommand t = .ok { s with mode := .enumeration ⟨t, argument, [], 0⟩ } := by
  have tidy := tidy_append wellFormed (by decide) text
  have found : argument? "enum" t.text.toList = _ := argument?_lead wellFormed (by decide) text
  have start := head?_lead (by decide) text
  have noArgument : ∀ word ∈ ["jump", "detour", "if"], argument? word t.text.toList = none := by
    simp only [List.forall_mem_cons]
    refine ⟨?_, ?_, ?_, by simp⟩ <;> exact argument?_eq_none (by decide) (by rw [start]; decide)
  have notWord : ∀ word ∈ ["jump", "detour", "if", "once"], t.text.toList ≠ word.toList := by
    simp only [List.forall_mem_cons]
    refine ⟨?_, ?_, ?_, ?_, by simp⟩ <;> exact ne_of_head? (by rw [start]; decide)
  simp only [List.forall_mem_cons] at noArgument notWord
  have named : argument.toList.isEmpty = false := by simpa using wellFormed.2
  unfold BlockState.takeCommand
  simp only [tidy, noArgument, notWord, found, OpenEnum.begin, named, decide_false, Bool.or_self,
    Bool.false_eq_true, if_false, String.ofList_toList]
  rfl

end

/-- The innermost block is not a branch between markers, which options would end. -/
def Unmarked : List Frame → Prop
  | .branch _ .marker _ _ _ :: _ => False
  | _ => True

section

variable {frames : List Frame} {here : Body} {enums : List Enumeration} {t : Token}

theorem commandEffect_inside (last : Bool) (scope : endsScope t = false)
    (apart : t.kind = .command → isBranchCommand t.text.toList = false) :
    commandEffect last t = .inside := by
  unfold commandEffect
  split
  · rename_i kind
    have other := apart kind
    simp only [isBranchCommand, Bool.or_eq_false_iff, decide_eq_false_iff_not,
      Option.isSome_eq_false_iff, Option.isNone_iff_eq_none] at other
    have notEnd : t.text ≠ "endif" := fun same => other.1.2 (congrArg String.toList same)
    have notElse : t.text ≠ "else" := fun same => other.1.1 (congrArg String.toList same)
    rw [if_neg notEnd, if_neg notElse, other.2]
  · rw [if_neg (by simp [scope])]

/-- A token that belongs to the head of no block starts a statement. -/
theorem step_item (top : Unmarked frames)
    (kind : t.kind = .text ∨ t.kind = .option ∨ t.kind = .command)
    (apart : t.kind = .command → t.text ≠ "endonce" ∧ isBranchCommand t.text.toList = false) :
    (⟨frames, here, .plain, enums⟩ : BlockState).step t =
      (⟨frames, here, .plain, enums⟩ : BlockState).takeItem t := by
  have notEmpty : t.kind ≠ .empty := by rcases kind with kind | kind | kind <;> simp [kind]
  have notDedent : t.kind ≠ .dedent := by rcases kind with kind | kind | kind <;> simp [kind]
  have scope : endsScope t = false := by
    rcases kind with kind | kind | kind <;> simp [endsScope, kind]
  have notOnceEnd : isOnceEnd t = false := by
    by_cases command : t.kind = .command
    · simp [isOnceEnd, (apart command).1]
    · simp [isOnceEnd, command]
  have settled : (⟨frames, here, .plain, enums⟩ : BlockState).settle t =
      ⟨frames, here, .plain, enums⟩ := by
    simp [BlockState.settle, BlockState.settleMode, scope]
  rw [BlockState.step, settled]
  change BlockState.takePlain _ t = _
  unfold BlockState.takePlain
  rw [if_neg notEmpty]
  cases frames with
  | nil => rfl
  | cons frame frames =>
      cases frame with
      | branch outer spelling start done condition =>
          cases spelling with
          | marker => exact top.elim
          | command =>
              have effect := commandEffect_inside condition.isNone scope fun command =>
                (apart command).2
              simp only [Spelling.effect, effect]
      | once outer => simp only [notOnceEnd, Bool.false_eq_true, if_false]
      | _ => exact if_neg notDedent

end

theorem after?_eq_none_of_take {literal text : List Char} (long : 3 ≤ literal.length)
    (differ : text.take 3 ≠ literal.take 3) : after? literal text = none := by
  cases found : after? literal text with
  | none => rfl
  | some rest =>
      refine absurd ?_ differ
      rw [eq_append_of_after? found, List.take_append_of_le_length long]

/-- The commands that continue or end a block are told by three letters. -/
theorem apart_of_take {t : Token} (notElse : t.text.toList.take 3 ≠ ['e', 'l', 's'])
    (notEnd : t.text.toList.take 3 ≠ ['e', 'n', 'd']) :
    t.text ≠ "endonce" ∧ isBranchCommand t.text.toList = false := by
  have unlike : ∀ {word : String}, t.text.toList.take 3 ≠ word.toList.take 3 → t.text ≠ word := by
    rintro word differ rfl
    exact differ rfl
  have noElseIf : argument? "elseif" t.text.toList = none := by
    rw [argument?, after?_eq_none_of_take (by decide) notElse]
  have noElse : argument? "else" t.text.toList = none := by
    rw [argument?, after?_eq_none_of_take (by decide) notElse]
  have elseWord : t.text ≠ "else" := unlike notElse
  have endifWord : t.text ≠ "endif" := unlike notEnd
  refine ⟨unlike notEnd, ?_⟩
  simp only [isBranchCommand, elseIf?, noElseIf, noElse, String.toList_inj, elseWord, endifWord]
  rfl

theorem take_lead {t : Token} {lead argument : String} (text : t.text = lead ++ argument)
    (long : 3 ≤ lead.toList.length) : t.text.toList.take 3 = lead.toList.take 3 := by
  rw [text, String.toList_append, List.take_append_of_le_length long]

theorem IsPlain.apart {t : Token} (plain : IsPlain t.text.toList) :
    t.text ≠ "endonce" ∧ isBranchCommand t.text.toList = false := by
  have bare : ∀ word ∈ bareKeywords, t.text ≠ word := fun word member same =>
    plain.bare word member (congrArg String.toList same)
  refine ⟨bare _ (by decide), ?_⟩
  simp only [isBranchCommand, plain.branch, String.toList_inj, bare "else" (by decide),
    bare "endif" (by decide)]
  rfl

section

variable {frames : List Frame} {outer here : Body} {enums : List Enumeration} {start t : Token}
variable {done : List (Option String × Body)} {condition following : Option String}

theorem settle_command (kind : t.kind = .command) :
    (⟨frames, here, .plain, enums⟩ : BlockState).settle t = ⟨frames, here, .plain, enums⟩ := by
  simp [BlockState.settle, BlockState.settleMode, endsScope, kind]

theorem step_next (kind : t.kind = .command)
    (effect : commandEffect condition.isNone t = .next following) :
    (⟨.branch outer .command start done condition :: frames, here, .plain, enums⟩ :
        BlockState).step t =
      .ok ⟨.branch outer .command start (done ++ [(condition, here)]) following :: frames, [],
        .plain, enums⟩ := by
  rw [BlockState.step, settle_command kind]
  simp [BlockState.take, BlockState.takePlain, Spelling.effect, kind, effect]

theorem step_endif (kind : t.kind = .command) (text : t.text = "endif") :
    (⟨.branch outer .command start done condition :: frames, here, .plain, enums⟩ :
        BlockState).step t =
      .ok ⟨frames, outer ++ [.conditional (done ++ [(condition, here)])], .plain, enums⟩ := by
  rw [BlockState.step, settle_command kind]
  simp [BlockState.take, BlockState.takePlain, Spelling.effect, commandEffect, kind, text]

theorem step_endonce (kind : t.kind = .command) (text : t.text = "endonce") :
    (⟨.once outer :: frames, here, .plain, enums⟩ : BlockState).step t =
      .ok ⟨frames, outer ++ [.once here], .plain, enums⟩ := by
  rw [BlockState.step, settle_command kind]
  simp [BlockState.take, BlockState.takePlain, isOnceEnd, kind, text]

theorem commandEffect_branchText (kind : t.kind = .command)
    (text : t.text = branchText "elseif" following)
    (arguments : ∀ text ∈ following, IsArgument text) :
    commandEffect false t = .next following := by
  cases following with
  | none =>
      unfold commandEffect
      rw [if_pos kind, text]
      rfl
  | some condition =>
      have argument := arguments condition rfl
      have found : argument? "elseif" t.text.toList = some condition.toList :=
        argument?_lead argument (by decide) text
      have long : 6 < t.text.toList.length := by
        rw [text, branchText, String.toList_append, String.toList_append, List.length_append,
          List.length_append]
        exact Nat.le_add_right 7 _
      have notWord : ∀ word : String, word.toList.length ≤ 6 → t.text ≠ word := by
        rintro word short rfl
        exact absurd long (Nat.not_lt.mpr short)
      simp [commandEffect, kind, notWord, elseIf?, found]

theorem step_choice_indent {choices : List (Choice × Body)} {choice : Choice}
    (kind : t.kind = .indent) :
    (⟨frames, here, .choiceHead choices choice, enums⟩ : BlockState).step t =
      .ok ⟨.choice here choices choice :: frames, [], .plain, enums⟩ := by
  simp [BlockState.step, BlockState.settle, BlockState.settleMode, BlockState.take,
    BlockState.enter, kind]

theorem step_choice_dedent {choices : List (Choice × Body)} {choice : Choice}
    (kind : t.kind = .dedent) :
    (⟨.choice outer choices choice :: frames, here, .plain, enums⟩ : BlockState).step t =
      .ok ⟨frames, outer, .choices (choices ++ [(choice, here)]), enums⟩ := by
  simp [BlockState.step, BlockState.settle, BlockState.settleMode, BlockState.take,
    BlockState.takePlain, closeOnces, endsScope, kind]

theorem step_case {e : OpenEnum} {case : String} (argument : IsArgument case)
    (kind : t.kind = .command) (text : t.text = "case " ++ case) :
    (⟨frames, here, .enumeration e, enums⟩ : BlockState).step t =
      .ok ⟨frames, here, .enumeration { e with cases := e.cases ++ [case] }, enums⟩ := by
  have found : argument? "case" t.text.toList = some case.toList :=
    argument?_lead argument (by decide) text
  have notEnd : t.text ≠ "endenum" := by
    intro same
    have start := head?_lead (by decide) text
    rw [same] at start
    exact absurd start (by decide)
  simp [BlockState.step, BlockState.settle, BlockState.settleMode, BlockState.take, OpenEnum.take,
    kind, notEnd, found, bind, Except.bind]

theorem step_endenum {e : OpenEnum} (flat : e.depth = 0) (kind : t.kind = .command)
    (text : t.text = "endenum") :
    (⟨frames, here, .enumeration e, enums⟩ : BlockState).step t =
      .ok ⟨frames, here ++ [.enumeration e.definition], .plain, enums ++ [e.definition]⟩ := by
  simp [BlockState.step, BlockState.settle, BlockState.settleMode, BlockState.take, OpenEnum.take,
    BlockState.endEnum, BlockState.add, kind, text, flat, bind, Except.bind]

end

end Dialogue.Script
