import Dialogue.Proofs.Except
import Dialogue.Runner.Stage

set_option autoImplicit false

namespace Dialogue

namespace Command

/-- The commands of the default table, by what they do. -/
inductive Effect (c : Command) (s : Store) : Store → Outcome → Prop
  /-- Nothing is stored. -/
  | idle {outcome : Outcome} : Effect c s s outcome
  /-- A variable gets the value of an expression. -/
  | plain {target text : String} {enum : Option String} {found value : Value}
      (assigns : c.assignment = .ok (target, text)) (named : ∀ name ∈ enum, name ≠ "")
      (evaluates : (s.drawing 0).evaluate text = .ok found)
      (qualifies : qualify s enum found = .ok value) :
      Effect c s (s.setVariable target value) .handled
  /-- A variable becomes smart, and has a value at once. -/
  | smart {target text : String} {value : Value} (assigns : c.assignment = .ok (target, text))
      (reads : (s.setSmart target text).valueOf target = .ok value) :
      Effect c s (s.setSmart target text) .handled
  /-- A variable becomes smart, although it has no value yet. -/
  | vain {target text : String} {cause : EvalError}
      (declares : Text.lower c.name = Text.lower "declare")
      (assigns : c.assignment = .ok (target, text)) (smart : isSmartText text.toList = true)
      (fails : (s.setSmart target text).valueOf target = .error cause) :
      Effect c s (s.setSmart target text) (.failed (.eval cause))

/-- Visits are none of a command's business. -/
theorem Effect.visits {c : Command} {s after : Store} {outcome : Outcome}
    (effect : Effect c s after outcome) : after.visits = s.visits := by
  cases effect <;> rfl

/-- What is reported of a handler's result. -/
def outcome : Except CommandError Unit → Outcome
  | .ok () => .handled
  | .error cause => .failed cause

theorem currentEnum?_ne_empty {s : Store} {target name : String}
    (current : currentEnum? s target = some name) : name ≠ "" := by
  unfold currentEnum? at current
  split at current
  · split at current
    · cases current
    · rename_i named
      cases current
      intro empty
      exact named (by rw [empty]; rfl)
  · cases current

theorem assigned_ok {s : Store} {enum : Option String} {text : String} {value : Value}
    (assigned : assigned s enum text = .ok value) :
    ∃ found, (s.drawing 0).evaluate text = .ok found ∧ qualify s enum found = .ok value := by
  unfold Command.assigned at assigned
  exact bind_ok assigned

theorem set_effect (c : Command) (s : Store) : Effect c s (set c s).1 (outcome (set c s).2) := by
  unfold set
  split
  · exact .idle
  · rename_i target text assigns
    split
    · exact .idle
    · rename_i found evaluates
      cases qualifies : qualify s (currentEnum? (s.drawing 1) target) found with
      | error cause => exact .idle
      | ok value =>
          exact .plain assigns (fun name current => currentEnum?_ne_empty current) evaluates
            qualifies

theorem declare_effect {c : Command} (declares : Text.lower c.name = Text.lower "declare")
    (s : Store) : Effect c s (declare c s).1 (outcome (declare c s).2) := by
  unfold declare
  split
  · exact .idle
  · rename_i target text assigns
    split
    · rename_i smart
      cases reads : (s.setSmart target text).valueOf target with
      | ok value =>
          simp only [reads]
          exact .smart assigns reads
      | error cause =>
          simp only [reads]
          exact .vain declares assigns smart reads
    · cases value : assigned s none text with
      | error cause => exact .idle
      | ok value =>
          obtain ⟨found, evaluates, qualifies⟩ := assigned_ok value
          refine .plain assigns ?_ evaluates qualifies
          intro name none
          cases none

end Command

namespace Handlers

open Command (Effect outcome)

theorem get?_register (h : Handlers) (name query : String) (handler : Handler) :
    (h.register name handler).get? query =
      if query = Text.lower name then some handler else h.get? query := by
  unfold register
  by_cases same : query = Text.lower name
  · rw [if_pos same, same, Table.get?_insert_self]
  · rw [if_neg same, Table.get?_insert_of_ne _ _ same]

theorem default_get? (name : String) :
    Handlers.default.get? name =
      if name = Text.lower "stop" then some Command.stop
      else if name = Text.lower "declare" then some Command.declare
      else if name = Text.lower "set" then some Command.set
      else none := by
  unfold Handlers.default
  rw [get?_register, get?_register, get?_register]
  rfl

theorem execute_of_get? {h : Handlers} {c : Command} {handler : Handler}
    (found : h.get? (Text.lower c.name) = some handler) (s : Store) :
    h.execute c s = ((handler c s).1, outcome (handler c s).2) := by
  unfold execute
  rw [found]
  dsimp only
  obtain ⟨after, result⟩ := handler c s
  cases result <;> rfl

/-- Whatever the default table does with a command is on the list. -/
theorem execute_effect (c : Command) (s : Store) :
    Effect c s (Handlers.default.execute c s).1 (Handlers.default.execute c s).2 := by
  have located := default_get? (Text.lower c.name)
  split at located
  · rw [execute_of_get? located]
    exact .idle
  · split at located
    · rename_i declares
      rw [execute_of_get? located]
      exact Command.declare_effect declares s
    · split at located
      · rw [execute_of_get? located]
        exact Command.set_effect c s
      · have ignored : Handlers.default.execute c s = (s, .ignored) := by
          unfold execute
          rw [located]
        rw [ignored]
        exact .idle

theorem execute_declare {c : Command} (declares : Text.lower c.name = Text.lower "declare")
    (s : Store) : Handlers.default.execute c s =
      ((Command.declare c s).1, outcome (Command.declare c s).2) := by
  apply execute_of_get?
  have apart : Text.lower "declare" ≠ Text.lower "stop" := by decide +kernel
  rw [default_get?, declares, if_neg apart, if_pos rfl]

theorem execute_set {c : Command} (sets : Text.lower c.name = Text.lower "set") (s : Store) :
    Handlers.default.execute c s = ((Command.set c s).1, outcome (Command.set c s).2) := by
  apply execute_of_get?
  have apart : Text.lower "set" ≠ Text.lower "stop" ∧ Text.lower "set" ≠ Text.lower "declare" := by
    decide +kernel
  rw [default_get?, sets, if_neg apart.1, if_neg apart.2, if_pos rfl]

/-- Carries out the command that a text spells; a text that spells none fails. -/
def perform (h : Handlers) (text : String) (s : Store) : Store × Outcome :=
  match Command.parse text with
  | .ok c => h.execute c s
  | .error e => (s, .failed e)

/-- A text declares a smart variable that cannot be read. -/
def DeclaresInVain (text : String) (s : Store) (target source : String) (cause : EvalError) :
    Prop :=
  ∃ c, Command.parse text = .ok c ∧ Text.lower c.name = Text.lower "declare" ∧
    c.assignment = .ok (target, source) ∧ Command.isSmartText source.toList = true ∧
    (s.setSmart target source).valueOf target = .error cause

/-- A command that is not carried out leaves the store as it was, unless it is the declaration of a
smart variable that cannot be read; that variable is smart from then on, and its value is gone. -/
theorem perform_unhandled (text : String) (s : Store)
    (unhandled : (Handlers.default.perform text s).2 ≠ .handled) :
    ((¬∃ target source cause, DeclaresInVain text s target source cause) →
        (Handlers.default.perform text s).1 = s) ∧
      (∀ target source cause, DeclaresInVain text s target source cause →
        Handlers.default.perform text s =
          (s.setSmart target source, .failed (.eval cause))) ∧
      (Handlers.default.perform text s).1.visits = s.visits := by
  unfold perform at unhandled ⊢
  cases read : Command.parse text with
  | error e =>
      refine ⟨fun _ => rfl, ?_, rfl⟩
      rintro target source cause ⟨c, spelled, -⟩
      rw [read] at spelled
      cases spelled
  | ok c =>
      rw [read] at unhandled
      dsimp only at unhandled ⊢
      have effect := execute_effect c s
      refine ⟨?_, ?_, effect.visits⟩
      · intro sound
        -- Of the ways to change the store, only the vain one is not reported as carried out.
        generalize Handlers.default.execute c s = result at effect unhandled
        obtain ⟨after, outcome⟩ := result
        cases effect with
        | idle => rfl
        | plain => exact absurd rfl unhandled
        | smart => exact absurd rfl unhandled
        | vain declares assigns smart fails =>
            exact absurd ⟨_, _, _, c, read, declares, assigns, smart, fails⟩ sound
      · rintro target source cause ⟨other, spelled, declares, assigns, smart, fails⟩
        obtain rfl : c = other := Except.ok.inj (read.symm.trans spelled)
        rw [execute_declare declares]
        simp only [Command.declare, assigns, smart, fails, if_true, outcome]

/-- A store in which one variable has a value. -/
def lit : Store :=
  (Store.withEnums .empty).setVariable "lamp" (.bool true)

theorem perform_unhandled_lit :
    (Handlers.default.perform "set $lamp to $moon" lit).2 ≠ .handled ∧
      (Handlers.default.perform "set $lamp to $moon" lit).1 = lit := by
  have unhandled : (Handlers.default.perform "set $lamp to $moon" lit).2 ≠ .handled := by
    decide +kernel
  refine ⟨unhandled, (perform_unhandled _ _ unhandled).1 ?_⟩
  rintro ⟨target, source, cause, c, read, declares, -⟩
  have name : (Command.parse "set $lamp to $moon").toOption.map (·.name) = some "set" := by
    decide +kernel
  rw [read] at name
  rw [show c.name = "set" from Option.some.inj name] at declares
  exact absurd declares (by decide +kernel)

/-- The declaration fails, and the variable has lost its value to it. -/
theorem vain_declaration_forgets :
    (Handlers.default.perform "declare $lamp = $moon" lit).2 =
        .failed (.eval (.unknownVariable "moon")) ∧
      lit.plain? "lamp" = some (.bool true) ∧
      (Handlers.default.perform "declare $lamp = $moon" lit).1.plain? "lamp" = none ∧
      (Handlers.default.perform "declare $lamp = $moon" lit).1.isSmart "lamp" = true := by
  have gone : ((Handlers.default.perform "declare $lamp = $moon" lit).1.plain? "lamp").isNone := by
    decide +kernel
  refine ⟨by decide +kernel, rfl, Option.isNone_iff_eq_none.mp gone, by decide +kernel⟩

end Handlers

end Dialogue
