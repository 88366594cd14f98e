import Dialogue.Proofs.Command.Effect
import Dialogue.Proofs.Except
import Dialogue.Proofs.Expr.Literals
import Mathlib.Tactic.FinCases

set_option autoImplicit false

namespace Dialogue

/-- The cases of the value's enumeration, if it is declared, have the value among them. -/
def Value.DeclaredIn (enums : EnumTable) : Value → Prop
  | .enumCase enum case => ∀ cases, enums.get? enum = some cases → case ∈ cases
  | .bool _ | .number _ | .text _ => True

theorem Value.Plain.declaredIn {v : Value} (plain : v.Plain) (enums : EnumTable) :
    v.DeclaredIn enums := by
  cases v with
  | enumCase => exact plain.elim
  | bool | number | text => trivial

namespace Store

theorem enumCase_ok {s : Store} {enum case : String} {v : Value}
    (checked : s.enumCase enum case = .ok v) :
    v = .enumCase enum case ∧ v.DeclaredIn s.enums := by
  unfold enumCase at checked
  split at checked
  · rename_i cases known
    split at checked
    · rename_i listed
      cases checked
      refine ⟨rfl, ?_⟩
      intro others found
      obtain rfl := Option.some.inj (known.symm.trans found)
      exact List.contains_iff_mem.mp listed
    · cases checked
  · rename_i unknown
    cases checked
    refine ⟨rfl, ?_⟩
    intro others found
    rw [unknown] at found
    cases found

/-- No function that every store starts with gives a case of an enumeration. -/
theorem builtins_plain {name : String} {f : Function} (found : builtins.get? name = some f)
    {access : Access} {args : List Value} {v : Value} (gives : f access args = .ok v) :
    v.Plain := by
  have listed := Table.mem_of_mem_ofList (Table.mem_of_get? found)
  fin_cases listed <;> cases gives <;> trivial

theorem applyUnary_plain {op : UnaryOp} {operand v : Value}
    (applied : applyUnary op operand = .ok v) : v.Plain := by
  unfold applyUnary at applied
  split at applied
  · cases applied
    trivial
  · obtain ⟨x, -, rfl⟩ := map_ok applied
    trivial
  · obtain ⟨x, -, rfl⟩ := map_ok applied
    trivial

theorem arithmetic_plain {op : BinaryOp} {f : Float → Float → Float} {left right v : Value}
    (computed : arithmetic op f left right = .ok v) : v.Plain := by
  unfold arithmetic at computed
  obtain ⟨x, -, computed⟩ := bind_ok computed
  obtain ⟨y, -, computed⟩ := bind_ok computed
  cases computed
  trivial

theorem applyBinary_plain {op : BinaryOp} {left right v : Value}
    (applied : applyBinary op left right = .ok v) : v.Plain := by
  cases op <;> first
    | exact arithmetic_plain applied
    | (cases applied; trivial)

theorem shortCircuit?_plain {op : BinaryOp} {left v : Value}
    (decided : shortCircuit? op left = some v) : v.Plain := by
  cases op <;> simp only [shortCircuit?] at decided <;> (try split at decided) <;>
    cases decided <;> trivial

/-- Only a variable and a case give a value that need not be plain, so what an expression gives is
declared if what its variables hold is. -/
theorem eval_declared {s : Store} (basic : s.functions = builtins) (access : Draws → Access)
    {read : Draws → String → Except EvalError Value}
    (reads : ∀ draws name v, read draws name = .ok v → v.DeclaredIn s.enums) {draws : Draws}
    {e : Expr} (literal : e.Literal) {v : Value} (gives : s.eval access read draws e = .ok v) :
    v.DeclaredIn s.enums := by
  cases literal with
  | literal plain =>
      rw [eval] at gives
      cases gives
      exact plain.declaredIn _
  | var name =>
      rw [eval] at gives
      exact reads draws name v gives
  | enumCase enum case =>
      rw [eval] at gives
      exact (enumCase_ok gives).2
  | @call function args inside =>
      rw [eval, basic] at gives
      split at gives
      · cases gives
      · rename_i f found
        obtain ⟨values, -, gives⟩ := bind_ok gives
        exact (builtins_plain found gives).declaredIn _
  | @unary op operand inside =>
      rw [eval] at gives
      obtain ⟨value, -, gives⟩ := bind_ok gives
      exact (applyUnary_plain gives).declaredIn _
  | @binary op left right first second =>
      rw [eval] at gives
      obtain ⟨one, -, gives⟩ := bind_ok gives
      split at gives
      · rename_i result decided
        cases gives
        exact (shortCircuit?_plain decided).declaredIn _
      · obtain ⟨other, -, gives⟩ := bind_ok gives
        exact (applyBinary_plain gives).declaredIn _

theorem parseExpr_literal {text : String} {e : Expr} (read : parseExpr text = .ok e) :
    e.Literal := by
  unfold parseExpr at read
  dsimp only at read
  split at read
  · rename_i spelled
    cases read
    exact Expr.literal_of_parse? spelled
  · cases read

theorem readWithin_declared {s : Store} (basic : s.functions = builtins)
    (held : ∀ name v, s.vars.get? name = some v → v.DeclaredIn s.enums) (access : Draws → Access)
    (room : Nat) {draws : Draws} {name : String} {v : Value}
    (gives : s.readWithin access room draws name = .ok v) : v.DeclaredIn s.enums := by
  induction room generalizing draws name v with
  | zero =>
      unfold readWithin at gives
      split at gives
      · cases gives
      · split at gives <;> cases gives
        rename_i stored
        exact held name v stored
  | succ room ih =>
      unfold readWithin at gives
      split at gives
      · rename_i text smart
        obtain ⟨e, spelled, gives⟩ := bind_ok gives
        exact eval_declared basic access (fun draws other w given => ih given)
          (parseExpr_literal spelled) gives
      · split at gives <;> cases gives
        rename_i stored
        exact held name v stored

/-- No variable is both plain and smart, and what variables hold is declared as far as it can be:
a case of a declared enumeration is one of its cases, and a case without an enumeration is a case of
none that is declared. -/
structure Consistent (s : Store) : Prop where
  apart : ∀ name, s.vars.contains name = true → s.smart.contains name = false
  declared : ∀ name v, s.vars.get? name = some v → v.DeclaredIn s.enums
  unclaimed : ∀ name case, s.vars.get? name = some (.enumCase "" case) →
    ∀ entry ∈ s.enums.entries, case ∉ entry.2

theorem Consistent.evaluate {s : Store} (consistent : s.Consistent)
    (basic : s.functions = builtins) {text : String} {v : Value}
    (gives : s.evaluate text = .ok v) : v.DeclaredIn s.enums := by
  unfold Store.evaluate evaluateText at gives
  obtain ⟨e, spelled, gives⟩ := bind_ok gives
  refine eval_declared basic _ ?_ (parseExpr_literal spelled) gives
  intro draws name w given
  exact readWithin_declared basic consistent.declared _ _ given

/-- A value that a variable may hold in a consistent store. -/
structure Settled (enums : EnumTable) (v : Value) : Prop where
  declared : v.DeclaredIn enums
  unclaimed : ∀ case, v = .enumCase "" case → ∀ entry ∈ enums.entries, case ∉ entry.2

theorem settled_of_plain {v : Value} (plain : v.Plain) (enums : EnumTable) : Settled enums v where
  declared := plain.declaredIn enums
  unclaimed := by
    rintro case rfl
    exact plain.elim

theorem enumForCase?_eq_none {s : Store} {case : String} (unknown : s.enumForCase? case = none) :
    ∀ entry ∈ s.enums.entries, case ∉ entry.2 := by
  intro entry member listed
  unfold enumForCase? at unknown
  rw [Option.map_eq_none_iff, List.find?_eq_none] at unknown
  exact unknown entry member (List.contains_iff_mem.mpr listed)

theorem enumForCase?_ne_empty {s : Store} (nameless : s.enums.get? "" = none) {case enum : String}
    (found : s.enumForCase? case = some enum) : enum ≠ "" := by
  rintro rfl
  obtain ⟨entry, located, named⟩ := Option.map_eq_some_iff.mp found
  have known := Table.get?_of_mem (List.mem_of_find?_eq_some located)
  rw [named, nameless] at known
  cases known

/-- Qualifying gives a case its enumeration, if any declares it. -/
theorem settled_of_qualify {s : Store} (nameless : s.enums.get? "" = none)
    {enum : Option String} (named : ∀ name ∈ enum, name ≠ "") {found value : Value}
    (declared : found.DeclaredIn s.enums) (qualifies : Command.qualify s enum found = .ok value) :
    Settled s.enums value := by
  unfold Command.qualify at qualifies
  split at qualifies
  · rename_i case
    split at qualifies
    · rename_i name chosen
      obtain ⟨rfl, fits⟩ := enumCase_ok qualifies
      refine ⟨fits, ?_⟩
      intro other same
      cases same
      -- The enumeration that is chosen has a name, whichever of the two it is.
      cases enum with
      | some name => exact absurd (Option.some.inj chosen) (named name rfl)
      | none => exact absurd rfl (enumForCase?_ne_empty nameless chosen)
    · rename_i chosen
      cases qualifies
      refine ⟨declared, ?_⟩
      intro other same
      cases same
      cases enum with
      | some name => cases chosen
      | none => exact enumForCase?_eq_none chosen
  · rename_i other
    cases qualifies
    refine ⟨declared, ?_⟩
    rintro case rfl
    exact absurd rfl (other case)

theorem Consistent.setVariable {s : Store} (consistent : s.Consistent) (target : String)
    {value : Value} (settled : Settled s.enums value) :
    (s.setVariable target value).Consistent := by
  have held : ∀ name v, (s.setVariable target value).vars.get? name = some v →
      v = value ∨ s.vars.get? name = some v := by
    intro name v stored
    by_cases same : name = bareName target
    · subst same
      rw [Store.setVariable, Table.get?_insert_self] at stored
      exact .inl (Option.some.inj stored).symm
    · rw [Store.setVariable, Table.get?_insert_of_ne _ _ same] at stored
      exact .inr stored
  refine ⟨?_, ?_, ?_⟩
  · intro name plain
    unfold Store.setVariable Table.contains at plain ⊢
    by_cases same : name = bareName target
    · subst same
      rw [Table.get?_erase_self]
      rfl
    · rw [Table.get?_insert_of_ne _ _ same] at plain
      rw [Table.get?_erase_of_ne _ same]
      exact consistent.apart name plain
  · intro name v stored
    rcases held name v stored with rfl | kept
    · exact settled.declared
    · exact consistent.declared name v kept
  · intro name case stored
    rcases held name _ stored with same | kept
    · exact settled.unclaimed case same.symm
    · exact consistent.unclaimed name case kept

theorem Consistent.setSmart {s : Store} (consistent : s.Consistent) (target text : String) :
    (s.setSmart target text).Consistent := by
  have held : ∀ name v, (s.setSmart target text).vars.get? name = some v →
      name ≠ bareName target ∧ s.vars.get? name = some v := by
    intro name v stored
    by_cases same : name = bareName target
    · subst same
      rw [Store.setSmart, Table.get?_erase_self] at stored
      cases stored
    · rw [Store.setSmart, Table.get?_erase_of_ne _ same] at stored
      exact ⟨same, stored⟩
  refine ⟨?_, ?_, ?_⟩
  · intro name plain
    obtain ⟨v, stored⟩ := Option.isSome_iff_exists.mp plain
    obtain ⟨other, kept⟩ := held name v stored
    unfold Store.setSmart Table.contains
    rw [Table.get?_insert_of_ne _ _ other]
    exact consistent.apart name (Option.isSome_iff_exists.mpr ⟨v, kept⟩)
  · intro name v stored
    exact consistent.declared name v (held name v stored).2
  · intro name case stored
    exact consistent.unclaimed name case (held name _ stored).2

/-- Random functions draw anew, which no variable notices. -/
theorem Consistent.draw {s : Store} (consistent : s.Consistent) (chance : Nat → Draws) :
    { s with chance := chance }.Consistent where
  apart := consistent.apart
  declared := consistent.declared
  unclaimed := consistent.unclaimed

theorem Consistent.drawing {s : Store} (consistent : s.Consistent) (n : Nat) :
    (s.drawing n).Consistent :=
  consistent.draw _

/-- A store with the given enumerations and the functions that every store starts with, in which
some variables have been given values. -/
def seeded (enums : EnumTable) (seeds : List (String × Value)) : Store :=
  seeds.foldl (fun s seed => s.setVariable seed.1 seed.2) (.withEnums enums)

/-- The store after commands, each with draws of its own. -/
def afterCommands (s : Store) (commands : List ((Nat → Draws) × String)) : Store :=
  commands.foldl (fun s command =>
    (Handlers.default.perform command.2 { s with chance := command.1 }).1) s

end Store

theorem Command.Effect.enums {c : Command} {s after : Store} {outcome : Outcome}
    (effect : Effect c s after outcome) : after.enums = s.enums := by
  cases effect <;> rfl

theorem Command.Effect.functions {c : Command} {s after : Store} {outcome : Outcome}
    (effect : Effect c s after outcome) : after.functions = s.functions := by
  cases effect <;> rfl

theorem Command.Effect.consistent {c : Command} {s after : Store} {outcome : Outcome}
    (effect : Effect c s after outcome) (nameless : s.enums.get? "" = none)
    (basic : s.functions = Store.builtins) (consistent : s.Consistent) : after.Consistent := by
  cases effect with
  | idle => exact consistent
  | plain assigns named evaluates qualifies =>
      have declared := (consistent.drawing 0).evaluate basic evaluates
      exact consistent.setVariable _ (Store.settled_of_qualify nameless named declared qualifies)
  | smart => exact consistent.setSmart _ _
  | vain => exact consistent.setSmart _ _

namespace Store

/-- A consistent store with the given enumerations and the functions that every store starts
with. -/
structure Orderly (enums : EnumTable) (s : Store) : Prop where
  enums_eq : s.enums = enums
  basic : s.functions = builtins
  consistent : s.Consistent

theorem orderly_withEnums (enums : EnumTable) : Orderly enums (.withEnums enums) where
  enums_eq := rfl
  basic := rfl
  consistent := ⟨fun _ plain => (nomatch plain), fun _ _ stored => (nomatch stored),
    fun _ _ stored => (nomatch stored)⟩

theorem orderly_seeded (enums : EnumTable) {seeds : List (String × Value)}
    (plain : ∀ seed ∈ seeds, seed.2.Plain) : Orderly enums (seeded enums seeds) := by
  have kept : ∀ s, Orderly enums s →
      Orderly enums (seeds.foldl (fun s seed => s.setVariable seed.1 seed.2) s) := by
    induction seeds with
    | nil => exact fun s orderly => orderly
    | cons seed rest ih =>
        obtain ⟨first, later⟩ := List.forall_mem_cons.mp plain
        intro s orderly
        apply ih later
        exact ⟨orderly.enums_eq, orderly.basic,
          orderly.consistent.setVariable _ (settled_of_plain first _)⟩
  exact kept _ (orderly_withEnums enums)

theorem Orderly.perform {enums : EnumTable} (nameless : enums.get? "" = none) {s : Store}
    (orderly : Orderly enums s) (text : String) :
    Orderly enums (Handlers.default.perform text s).1 := by
  unfold Handlers.perform
  split
  · rename_i c read
    have effect := Handlers.execute_effect c s
    rw [← orderly.enums_eq] at nameless
    exact ⟨effect.enums.trans orderly.enums_eq, effect.functions.trans orderly.basic,
      effect.consistent nameless orderly.basic orderly.consistent⟩
  · exact orderly

/-- Whatever commands are carried out on a store that was seeded with plain values, and whether they
succeed or not, no variable is ever both plain and smart, and none holds a case that is not
declared. -/
theorem commands_consistent {enums : EnumTable} (nameless : enums.get? "" = none)
    {seeds : List (String × Value)} (plain : ∀ seed ∈ seeds, seed.2.Plain)
    (commands : List ((Nat → Draws) × String)) :
    ((seeded enums seeds).afterCommands commands).enums = enums ∧
      ((seeded enums seeds).afterCommands commands).Consistent := by
  have kept : ∀ s, Orderly enums s → Orderly enums (s.afterCommands commands) := by
    unfold afterCommands
    induction commands with
    | nil => exact fun s orderly => orderly
    | cons command rest ih =>
        intro s orderly
        apply ih
        apply Orderly.perform nameless
        exact ⟨orderly.enums_eq, orderly.basic, orderly.consistent.draw _⟩
  have orderly := kept _ (orderly_seeded enums plain)
  exact ⟨orderly.enums_eq, orderly.consistent⟩

/-- Two enumerations that share a case. -/
def moods : EnumTable :=
  .ofList [("Mood", ["Calm", "Angry"]), ("Weather", ["Calm", "Windy"])]

/-- The variable takes a case of the enumeration whose case it holds, a case that is not declared is
refused, and a case of no enumeration stays one. -/
theorem commands_consistent_moods :
    moods.get? "" = none ∧
      (∀ seed ∈ [("lamp", Value.bool true)], seed.2.Plain) ∧
      ((seeded moods [("lamp", .bool true)]).afterCommands
        (List.map (fun text => (fun _ _ => 0.5, text))
          ["set $sky to Weather.Windy", "set $sky to .Calm", "set $sky to Weather.Sad",
            "set $pet to .Cat", "declare $lamp = $sky == .Calm"])).Consistent := by
  have nameless : (moods.get? "").isNone := by decide +kernel
  have nameless := Option.isNone_iff_eq_none.mp nameless
  have plain : ∀ seed ∈ [("lamp", Value.bool true)], seed.2.Plain := by decide
  exact ⟨nameless, plain, (commands_consistent nameless plain _).2⟩

end Store

end Dialogue
