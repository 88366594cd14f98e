import Dialogue.Interpolation
import Dialogue.Ledger.Basic
import Dialogue.Runner.Result

set_option autoImplicit false

namespace Dialogue

/-- What a machine that executes a program works with, save the place that it has reached. -/
structure Stage where
  program : Program
  store : Store
  handlers : Handlers
  ledger : Ledger
  current : Option RunResult
  /-- Every result so far, oldest first. -/
  history : List RunResult
  finished : Bool
  /-- Every command met so far, oldest first. -/
  events : List CommandEvent

/-- What a run starts from. -/
structure Setup where
  start : String
  vars : Table Value
  functions : List (String × Function)
  handlers : Handlers
  ledger : Ledger
  /-- How deep functions that ask the store may call each other. -/
  calls : Nat
  /-- The draws of each step. -/
  chance : Nat → Draws

namespace Setup

/-- A setup without variables or functions, with the default handlers and a fresh ledger. -/
def starting (start : String) : Setup where
  start := start
  vars := .empty
  functions := []
  handlers := .default
  ledger := .empty
  calls := 0
  chance := fun _ _ => 0.5

/-- Seeds a variable, whose name may carry its mark. -/
def setVariable (s : Setup) (name : String) (value : Value) : Setup :=
  { s with vars := s.vars.insert (String.ofList (name.toList.dropWhile (· = '$'))) value }

/-- The store of a run that has not begun. -/
def store (s : Setup) (p : Program) : Store :=
  let fresh := { Store.withEnums p.enums with calls := s.calls, chance := s.chance }
  let seeded := s.vars.entries.foldl (fun store e => store.setVariable e.1 e.2) fresh
  s.functions.foldl (fun store f => store.register f.1 f.2) seeded

/-- The stage of a run that has not begun. -/
def stage (s : Setup) (p : Program) : Stage where
  program := p
  store := s.store p
  handlers := s.handlers
  ledger := s.ledger
  current := none
  history := []
  finished := false
  events := []

end Setup

namespace Stage

/-- The stage in the evaluation `n` of several, which draw apart from each other. -/
def drawing (g : Stage) (n : Nat) : Stage :=
  { g with store := g.store.drawing n }

/-- The stage in the next step. -/
def renewed (g : Stage) : Stage :=
  { g with store := g.store.renewed }

@[simp] theorem renewed_program (g : Stage) : g.renewed.program = g.program := rfl

@[simp] theorem renewed_handlers (g : Stage) : g.renewed.handlers = g.handlers := rfl

@[simp] theorem renewed_ledger (g : Stage) : g.renewed.ledger = g.ledger := rfl

@[simp] theorem renewed_current (g : Stage) : g.renewed.current = g.current := rfl

@[simp] theorem renewed_history (g : Stage) : g.renewed.history = g.history := rfl

@[simp] theorem renewed_finished (g : Stage) : g.renewed.finished = g.finished := rfl

@[simp] theorem renewed_events (g : Stage) : g.renewed.events = g.events := rfl

def isWord (word condition : String) : Bool :=
  (Text.trim condition.toList).map Char.toLower == word.toList

/-- Whether a condition asks that the node has not been selected before. -/
def isOnce (condition : String) : Bool :=
  isWord "once" condition

def conditionHolds (g : Stage) (title : String) (index : Nat) (condition : String) : Bool :=
  if isOnce condition then !g.ledger.nodeSeen title index
  else isWord "always" condition || g.store.holds condition

def admits (g : Stage) (title : String) (index : Nat) (node : Node) : Bool :=
  node.conditions.zipIdx.all fun (condition, place) =>
    ((g.drawing index).drawing place).conditionHolds title index condition

/-- The ledger after a node was selected from its group. -/
def ledgerAfter (g : Stage) (title : String) (index : Nat) (node : Node) : Ledger :=
  if node.conditions.any isOnce then g.ledger.markNode title index else g.ledger

/-- Selects a node of a title. A node that is alone under its title is taken without conditions;
of several, the first whose conditions hold. -/
def select (g : Stage) (title : String) : Except RuntimeError (Nat × Node × Stage) :=
  match g.program.group? title with
  | none => .error (.unknownNode title)
  | some [node] => .ok (0, node, g)
  | some group =>
      match group.zipIdx.find? fun (node, index) => g.admits title index node with
      | none => .error (.noMatchingNode title)
      | some (node, index) => .ok (index, node, { g with ledger := g.ledgerAfter title index node })

/-- A selection leads to a node of the program and changes nothing but the ledger. -/
theorem select_ok {g stage : Stage} {title : String} {member : Nat} {node : Node}
    (selected : g.select title = .ok (member, node, stage)) :
    g.program.nodeAt? title member = some node ∧ stage = { g with ledger := stage.ledger } := by
  unfold select at selected
  unfold Program.nodeAt?
  split at selected
  · cases selected
  · rename_i only found
    cases selected
    simp [found]
  · rename_i group _ found
    split at selected
    · cases selected
    · rename_i chosen index first
      cases selected
      have member := List.mem_of_find?_eq_some first
      rw [List.mem_zipIdx_iff_getElem?] at member
      exact ⟨by simpa [found] using member, rfl⟩

/-- A selection fails only for an unknown title or a group of which no node is admitted. -/
theorem select_error {g : Stage} {title : String} {cause : RuntimeError}
    (refused : g.select title = .error cause) :
    (g.program.group? title = none ∧ cause = .unknownNode title) ∨
      ∃ group, g.program.group? title = some group ∧ group.length ≠ 1 ∧
        (∀ node index, group[index]? = some node → g.admits title index node = false) ∧
        cause = .noMatchingNode title := by
  unfold select at refused
  split at refused
  · rename_i missing
    exact .inl ⟨missing, (Except.error.inj refused).symm⟩
  · cases refused
  · rename_i group several found
    split at refused
    · rename_i nobody
      refine .inr ⟨group, found, ?_, ?_, (Except.error.inj refused).symm⟩
      · intro single
        obtain ⟨node, same⟩ := List.length_eq_one_iff.mp single
        exact several node same
      · intro node index placed
        have listed : (node, index) ∈ group.zipIdx :=
          List.mem_zipIdx_iff_getElem?.mpr placed
        simpa using List.find?_eq_none.mp nobody (node, index) listed
    · cases refused

/-- Shows a result. -/
def present (g : Stage) (result : RunResult) : Stage :=
  { g with history := g.history ++ [result], current := some result }

/-- Notes that the node of a title has been left. -/
def recordVisit (g : Stage) (title : String) : Stage :=
  { g with store := g.store.recordVisit title }

@[simp] theorem recordVisit_program (g : Stage) (title : String) :
    (g.recordVisit title).program = g.program := rfl

@[simp] theorem recordVisit_handlers (g : Stage) (title : String) :
    (g.recordVisit title).handlers = g.handlers := rfl

@[simp] theorem recordVisit_finished (g : Stage) (title : String) :
    (g.recordVisit title).finished = g.finished := rfl

/-- Leaves a node that has no more instructions; after the last one the dialogue is over. -/
def leave (g : Stage) (title : String) (last : Bool) : Stage :=
  { g.recordVisit title with finished := g.finished || last }

@[simp] theorem leave_program (g : Stage) (title : String) (last : Bool) :
    (g.leave title last).program = g.program := rfl

@[simp] theorem leave_handlers (g : Stage) (title : String) (last : Bool) :
    (g.leave title last).handlers = g.handlers := rfl

@[simp] theorem leave_finished (g : Stage) (title : String) (last : Bool) :
    (g.leave title last).finished = (g.finished || last) := rfl

/-- Carries out a command and notes what became of it. -/
def dispatch (g : Stage) (content : String) : Stage :=
  match Command.parse content with
  | .ok c =>
      let (store, outcome) := g.handlers.execute c g.store
      { g with store := store, events := g.events ++ [⟨content, some c, outcome⟩] }
  | .error e => { g with events := g.events ++ [⟨content, none, .failed e⟩] }

@[simp] theorem dispatch_program (g : Stage) (content : String) :
    (g.dispatch content).program = g.program := by
  unfold dispatch
  split <;> rfl

@[simp] theorem dispatch_handlers (g : Stage) (content : String) :
    (g.dispatch content).handlers = g.handlers := by
  unfold dispatch
  split <;> rfl

@[simp] theorem dispatch_finished (g : Stage) (content : String) :
    (g.dispatch content).finished = g.finished := by
  unfold dispatch
  split <;> rfl

@[simp] theorem dispatch_history (g : Stage) (content : String) :
    (g.dispatch content).history = g.history := by
  unfold dispatch
  split <;> rfl

/-- Whether the option at `place` is offered, or the branch there taken. -/
def meets (g : Stage) (place : Nat) : Option String → Bool
  | some condition => ((g.store.drawing 0).drawing place).holds condition
  | none => true

/-- How the option at `place` is shown. -/
def optionView (g : Stage) (place : Nat) (c : Choice) : OptionView :=
  let store := (g.store.drawing 1).drawing place
  let (text, markup) := Interpolation.interpolate store c.text c.markup
  ⟨text, c.tags, c.style, markup⟩

def textResult (g : Stage) (node : Node) (l : Line) (atEnd : Bool) : TextResult :=
  let (text, markup) := Interpolation.interpolate g.store l.text l.markup
  ⟨text, l.speaker, l.tags, l.style, markup, node.style, node.scene, atEnd⟩

@[simp] theorem textResult_endsNode (g : Stage) (node : Node) (l : Line) (atEnd : Bool) :
    (g.textResult node l atEnd).endsNode = atEnd := rfl

end Stage

end Dialogue
