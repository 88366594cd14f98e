import Dialogue.Proofs.Script.Transition

set_option autoImplicit false

namespace Dialogue.Script

/-- The enumerations before and in the head of an open block. -/
@[simp] def Frame.definitions : Frame → List Enumeration
  | .indented outer | .onceIndented outer | .once outer => bodyDefinitions outer
  | .choice outer done _ => bodyDefinitions outer ++ choicesDefinitions done
  | .branch outer _ _ done _ => bodyDefinitions outer ++ branchesDefinitions done

@[simp] def Mode.definitions : Mode → List Enumeration
  | .choiceHead done _ | .choices done => choicesDefinitions done
  | .onceEnd body => bodyDefinitions body
  | .enumerationEnd enum _ => [enum]
  | .plain | .onceHead | .enumeration _ => []

@[simp] def framesDefinitions : List Frame → List Enumeration
  | [] => []
  | frame :: around => framesDefinitions around ++ frame.definitions

/-- The enumerations in the statements that have been read, in order. -/
def BlockState.definitions (s : BlockState) : List Enumeration :=
  framesDefinitions s.frames ++ (bodyDefinitions s.here ++ s.mode.definitions)

/-- The later state has the same new enumerations among its statements and in its list. -/
def BlockState.Defines (s after : BlockState) : Prop :=
  ∃ new, after.definitions = s.definitions ++ new ∧ after.enums = s.enums ++ new

namespace BlockState

variable {s after later : BlockState} {t : Token}

theorem Defines.of_same (statements : after.definitions = s.definitions)
    (listed : after.enums = s.enums) : s.Defines after :=
  ⟨[], by simpa using statements, by simpa using listed⟩

theorem Defines.trans (first : s.Defines after) (second : after.Defines later) :
    s.Defines later := by
  obtain ⟨new, statements, listed⟩ := first
  obtain ⟨newer, moreStatements, moreListed⟩ := second
  refine ⟨new ++ newer, ?_, ?_⟩
  · rw [moreStatements, statements, List.append_assoc]
  · rw [moreListed, listed, List.append_assoc]

theorem definitions_add (s : BlockState) (statement : Statement) :
    (s.add statement).definitions =
      framesDefinitions s.frames ++ (bodyDefinitions s.here ++ statement.definitions) := by
  simp [definitions, add]

theorem definitions_enter (s : BlockState) (frame : Frame) :
    (s.enter frame).definitions = framesDefinitions s.frames ++ frame.definitions := by
  simp [definitions, enter]

theorem settleMode_definitions (s : BlockState) (t : Token) :
    (s.settleMode t).definitions = s.definitions ∧ (s.settleMode t).enums = s.enums := by
  unfold settleMode settleChoices
  cases mode_eq : s.mode with
  | plain => exact ⟨rfl, rfl⟩
  | enumeration e => exact ⟨rfl, rfl⟩
  | choiceHead done choice =>
      simp only
      split
      · exact ⟨rfl, rfl⟩
      · split
        · exact ⟨by simp [definitions, mode_eq], rfl⟩
        · exact ⟨by rw [definitions_add]; simp [definitions, mode_eq], rfl⟩
  | choices done =>
      simp only
      split
      · exact ⟨by simp [definitions, mode_eq], rfl⟩
      · exact ⟨by rw [definitions_add]; simp [definitions, mode_eq], rfl⟩
  | onceHead =>
      simp only
      split
      · exact ⟨rfl, rfl⟩
      · exact ⟨by rw [definitions_enter]; simp [definitions, mode_eq], rfl⟩
  | onceEnd body =>
      simp only
      split
      · exact ⟨rfl, rfl⟩
      · exact ⟨by rw [definitions_add]; simp [definitions, mode_eq], rfl⟩
  | enumerationEnd enum depth =>
      simp only
      split
      · exact ⟨rfl, rfl⟩
      · exact ⟨by rw [definitions_add]; simp [definitions, mode_eq], rfl⟩

theorem closeOnces_definitions (frames : List Frame) (here : Body) :
    framesDefinitions (closeOnces frames here).1 ++ bodyDefinitions (closeOnces frames here).2 =
      framesDefinitions frames ++ bodyDefinitions here := by
  fun_induction closeOnces frames here with
  | case1 outer frames here ih => simpa using ih
  | case2 frames here other => rfl

theorem settle_definitions (s : BlockState) (t : Token) :
    (s.settle t).definitions = s.definitions ∧ (s.settle t).enums = s.enums := by
  obtain ⟨statements, listed⟩ := s.settleMode_definitions t
  rw [← statements, ← listed]
  unfold settle
  generalize s.settleMode t = settled
  simp only
  split
  · rename_i plain
    split
    · have closed := closeOnces_definitions settled.frames settled.here
      exact ⟨by simpa [definitions, plain] using closed, rfl⟩
    · exact ⟨rfl, rfl⟩
  · exact ⟨rfl, rfl⟩

theorem takeItem_definitions (tidy : t.Tidy) (plain : s.mode = .plain)
    (ok : s.takeItem t = .ok after) :
    after.definitions = s.definitions ∧ after.enums = s.enums := by
  unfold takeItem at ok
  split at ok
  · obtain rfl := Except.ok.inj ok
    exact ⟨by simp [definitions, plain], rfl⟩
  · obtain rfl := Except.ok.inj ok
    exact ⟨by rw [definitions_enter]; simp [definitions, plain], rfl⟩
  · rename_i kind
    rcases takeCommand_ok tidy kind ok with
      ⟨statement, -, none, rfl⟩ | ⟨condition, -, rfl⟩ | ⟨-, rfl⟩ | ⟨name, -, -, rfl⟩
    · exact ⟨by rw [definitions_add]; simp [definitions, plain, none], rfl⟩
    · exact ⟨by rw [definitions_enter]; simp [definitions, plain], rfl⟩
    · exact ⟨by simp [definitions, plain], rfl⟩
    · exact ⟨by simp [definitions, plain], rfl⟩
  · unfold takeText at ok
    split at ok
    · obtain rfl := Except.ok.inj ok
      exact ⟨by rw [definitions_enter]; simp [definitions, plain], rfl⟩
    · cases ok
    · obtain rfl := Except.ok.inj ok
      exact ⟨by rw [definitions_add]; simp [definitions, plain], rfl⟩
  · cases ok

theorem takePlain_definitions (tidy : t.Tidy) (plain : s.mode = .plain)
    (ok : s.takePlain t = .ok after) :
    after.definitions = s.definitions ∧ after.enums = s.enums := by
  rcases takePlain_ok ok with ⟨-, rfl⟩ | item | closing
  · exact ⟨rfl, rfl⟩
  · exact takeItem_definitions tidy plain item
  · cases closing with
    | _ stack _ => exact ⟨by simp [definitions, plain, stack], rfl⟩

theorem endEnum_definitions (s : BlockState) (enum : Enumeration) (depth : Nat) :
    (s.endEnum enum depth).definitions =
      framesDefinitions s.frames ++ (bodyDefinitions s.here ++ [enum]) := by
  unfold endEnum
  split
  · simp [definitions_add]
  · rfl

theorem endEnum_enums (s : BlockState) (enum : Enumeration) (depth : Nat) :
    (s.endEnum enum depth).enums = s.enums := by
  unfold endEnum
  split <;> rfl

theorem take_defines (tidy : t.Tidy) (ok : s.take t = .ok after) : s.Defines after := by
  unfold take at ok
  cases mode_eq : s.mode with
  | plain =>
      rw [mode_eq] at ok
      obtain ⟨statements, listed⟩ := takePlain_definitions tidy mode_eq ok
      exact .of_same statements listed
  | choiceHead done choice =>
      rw [mode_eq] at ok
      obtain rfl := Except.ok.inj ok
      exact .of_same (by rw [definitions_enter]; simp [definitions, mode_eq]) rfl
  | choices done =>
      rw [mode_eq] at ok
      simp only at ok
      split at ok
      · obtain rfl := Except.ok.inj ok
        exact .of_same (by simp [definitions, mode_eq]) rfl
      · obtain rfl := Except.ok.inj ok
        exact .of_same rfl rfl
  | onceHead =>
      rw [mode_eq] at ok
      obtain rfl := Except.ok.inj ok
      exact .of_same (by rw [definitions_enter]; simp [definitions, mode_eq]) rfl
  | onceEnd body =>
      rw [mode_eq] at ok
      simp only at ok
      split at ok
      · obtain rfl := Except.ok.inj ok
        exact .of_same rfl rfl
      · obtain rfl := Except.ok.inj ok
        exact .of_same (by rw [definitions_add]; simp [definitions, mode_eq]) rfl
  | enumeration e =>
      rw [mode_eq] at ok
      obtain ⟨progress, taken, ok⟩ := bind_ok ok
      rcases enum_take_ok taken with ⟨depth, -, rfl⟩ | ⟨case, -, rfl⟩ | ⟨-, rfl⟩
      · obtain rfl := Except.ok.inj ok
        exact .of_same (by simp [definitions, mode_eq]) rfl
      · obtain rfl := Except.ok.inj ok
        exact .of_same (by simp [definitions, mode_eq]) rfl
      · obtain rfl := Except.ok.inj ok
        refine ⟨[e.definition], ?_, endEnum_enums _ _ _⟩
        rw [endEnum_definitions]
        simp [definitions, mode_eq]
  | enumerationEnd enum depth =>
      rw [mode_eq] at ok
      simp only at ok
      split at ok
      · obtain rfl := Except.ok.inj ok
        exact .of_same rfl rfl
      · obtain rfl := Except.ok.inj ok
        refine .of_same ?_ (endEnum_enums _ _ _)
        rw [endEnum_definitions]
        simp [definitions, mode_eq]

/-- Every step adds the same enumerations to the statements and to the list. -/
theorem step_defines (tidy : t.Tidy) (ok : s.step t = .ok after) : s.Defines after := by
  obtain ⟨statements, listed⟩ := s.settle_definitions t
  exact (Defines.of_same statements listed).trans (take_defines tidy ok)

theorem finish_definitions {body : Body} {enums : List Enumeration}
    (same : s.definitions = s.enums) (ok : s.finish t = .ok (body, enums)) :
    bodyDefinitions body = enums := by
  obtain ⟨statements, listed⟩ := s.settle_definitions t
  rw [same, ← listed, (finish_ok ok).2] at statements
  simpa [definitions] using statements

end BlockState

end Dialogue.Script
