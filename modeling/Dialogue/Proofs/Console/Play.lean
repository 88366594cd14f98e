import Dialogue.Console.Play
import Dialogue.Proofs.Runner.Choice

set_option autoImplicit false

namespace Dialogue.Console

open Dialogue.Terminal

/-- A single thing that a task does, with what it is told in return. -/
inductive Move where
  | printed (text : String)
  | complained (text : String)
  | fetched (path : String) (found : Except Fault String)
  | stored (path text : String) (done : Except Fault Unit)
  | heard (line : Except Fault (Option String))
  | drew (chance : Nat → Draws)

namespace Move

/-- What the move adds to the output. -/
def output? : Move → Option String
  | printed text => some text
  | _ => none

/-- What the move adds where errors go. -/
def complaint? : Move → Option String
  | complained text => some text
  | _ => none

end Move

/-- The task makes these moves, in surroundings that may tell it anything, and exits. -/
inductive Task.Performs : Task → List Move → Nat → Prop
  | exit (code : Nat) : Task.Performs (.exit code) [] code
  | print {text : String} {next : Unit → Task} {moves : List Move} {code : Nat}
      (rest : (next ()).Performs moves code) :
      Task.Performs (.print text next) (.printed text :: moves) code
  | complain {text : String} {next : Unit → Task} {moves : List Move} {code : Nat}
      (rest : (next ()).Performs moves code) :
      Task.Performs (.complain text next) (.complained text :: moves) code
  | read {path : String} {next : Except Fault String → Task} {moves : List Move} {code : Nat}
      (found : Except Fault String) (rest : (next found).Performs moves code) :
      Task.Performs (.read path next) (.fetched path found :: moves) code
  | write {path text : String} {next : Except Fault Unit → Task} {moves : List Move} {code : Nat}
      (done : Except Fault Unit) (rest : (next done).Performs moves code) :
      Task.Performs (.write path text next) (.stored path text done :: moves) code
  | line {next : Except Fault (Option String) → Task} {moves : List Move} {code : Nat}
      (line : Except Fault (Option String)) (rest : (next line).Performs moves code) :
      Task.Performs (.line next) (.heard line :: moves) code
  | draw {next : (Nat → Draws) → Task} {moves : List Move} {code : Nat} (chance : Nat → Draws)
      (rest : (next chance).Performs moves code) :
      Task.Performs (.draw next) (.drew chance :: moves) code

/-- A task that is carried out makes the moves, and prints and complains as they say. -/
structure Task.Leaves (task : Task) (w : World) (moves : List Move) : Prop where
  performs : task.Performs moves (task.run w).1
  printed : (task.run w).2.printed = w.printed ++ moves.filterMap Move.output?
  complained : (task.run w).2.complained = w.complained ++ moves.filterMap Move.complaint?

/-- A move is made in front of others. -/
theorem Task.Leaves.behind {task next : Task} {w after : World} {move : Move} {moves : List Move}
    (rest : next.Leaves after moves) (runs : task.run w = next.run after)
    (moved : ∀ {code}, next.Performs moves code → task.Performs (move :: moves) code)
    (printed : after.printed = w.printed ++ move.output?.toList)
    (complained : after.complained = w.complained ++ move.complaint?.toList) :
    task.Leaves w (move :: moves) where
  performs := runs ▸ moved rest.performs
  printed := by
    rw [runs, rest.printed, printed, List.append_assoc]
    cases move <;> rfl
  complained := by
    rw [runs, rest.complained, complained, List.append_assoc]
    cases move <;> rfl

/-- Carrying out a task on a folder and bytes is one way to perform it. -/
theorem Task.run_performs (task : Task) (w : World) : ∃ moves, task.Leaves w moves := by
  induction task generalizing w with
  | exit code => exact ⟨[], .exit code, (List.append_nil _).symm, (List.append_nil _).symm⟩
  | print text next ih =>
      obtain ⟨moves, rest⟩ := ih () { w with printed := w.printed ++ [text] }
      exact ⟨_, rest.behind rfl .print rfl (List.append_nil _).symm⟩
  | complain text next ih =>
      obtain ⟨moves, rest⟩ := ih () { w with complained := w.complained ++ [text] }
      exact ⟨_, rest.behind rfl .complain (List.append_nil _).symm rfl⟩
  | read path next ih =>
      obtain ⟨moves, rest⟩ := ih (w.folder.read path) w
      exact ⟨_, rest.behind rfl (.read _) (List.append_nil _).symm (List.append_nil _).symm⟩
  | write path text next ih =>
      cases written : w.folder.write path text with
      | ok folder =>
          obtain ⟨moves, rest⟩ := ih (.ok ()) { w with folder := folder }
          exact ⟨_, rest.behind (by rw [run, written]) (.write _) (List.append_nil _).symm
            (List.append_nil _).symm⟩
      | error fault =>
          obtain ⟨moves, rest⟩ := ih (.error fault) w
          exact ⟨_, rest.behind (by rw [run, written]) (.write _) (List.append_nil _).symm
            (List.append_nil _).symm⟩
  | line next ih =>
      obtain ⟨moves, rest⟩ := ih w.takeLine.1 w.takeLine.2
      exact ⟨_, rest.behind rfl (.line _) (List.append_nil _).symm (List.append_nil _).symm⟩
  | draw next ih =>
      obtain ⟨moves, rest⟩ := ih evenDraws w
      exact ⟨_, rest.behind rfl (.draw _) (List.append_nil _).symm (List.append_nil _).symm⟩

/-- How a dialogue goes on behind a result. -/
inductive Answer where
  | goesOn (choice : Option Nat)
  /-- The dialogue ends, badly if the input could not be read. -/
  | ends (outcome : Except Fault Unit)

def Answer.task (next : Option Nat → Task) (finish : Except Fault Unit → Task) : Answer → Task
  | goesOn choice => next choice
  | ends outcome => finish outcome

/-- What happens behind a result that has been shown, and how the dialogue goes on; it does not go
on when the input has ended or cannot be read, or after so many lines that name no option. -/
inductive Answers (colored : Bool) : Nat → RunResult → List Move → Answer → Prop
  | command {patience : Nat} {shown : CommandResult} :
      Answers colored patience (.command shown) [] (.goesOn none)
  | marker {patience : Nat} {shown : TextResult} (empty : shown.text.isEmpty = true) :
      Answers colored patience (.text shown) [] (.goesOn none)
  | text {patience : Nat} {shown : TextResult} (nonempty : shown.text.isEmpty = false)
      (line : String) :
      Answers colored patience (.text shown) [.heard (.ok (some line))] (.goesOn none)
  | textEnded {patience : Nat} {shown : TextResult} (nonempty : shown.text.isEmpty = false) :
      Answers colored patience (.text shown) [.heard (.ok none)] (.ends (.ok ()))
  | textUnread {patience : Nat} {shown : TextResult} (nonempty : shown.text.isEmpty = false)
      (fault : Fault) :
      Answers colored patience (.text shown) [.heard (.error fault)] (.ends (.error fault))
  | chosen {patience : Nat} {shown : OptionsResult} {line : String} {index : Nat}
      (names : Player.pick? line shown.options.length = some index)
      (below : index < shown.options.length) :
      Answers colored (patience + 1) (.options shown)
        [.printed "> ", .heard (.ok (some line))] (.goesOn (some index))
  | rejected {patience : Nat} {shown : OptionsResult} {line : String} {moves : List Move}
      {answer : Answer} (names : Player.pick? line shown.options.length = none)
      (again : Answers colored patience (.options shown) moves answer) :
      Answers colored (patience + 1) (.options shown)
        (.printed "> " :: .heard (.ok (some line)) ::
          .printed (Player.invalidChoice colored shown.options.length ++ "\n") :: moves) answer
  | optionsEnded {patience : Nat} {shown : OptionsResult} :
      Answers colored (patience + 1) (.options shown) [.printed "> ", .heard (.ok none)]
        (.ends (.ok ()))
  | optionsUnread {patience : Nat} {shown : OptionsResult} (fault : Fault) :
      Answers colored (patience + 1) (.options shown) [.printed "> ", .heard (.error fault)]
        (.ends (.error fault))
  | weary {shown : OptionsResult} : Answers colored 0 (.options shown) [] (.ends (.ok ()))

section Answers

variable {colored : Bool} {patience : Nat} {result : RunResult} {moves : List Move} {code : Nat}
  {ended : Except Fault Unit → Task}

/-- An input names no option beyond the last. -/
theorem pick?_lt {input : String} {count index : Nat}
    (names : Player.pick? input count = some index) : index < count := by
  unfold Player.pick? at names
  simp only [Option.ite_none_left_eq_some, Option.ite_none_right_eq_some, Option.some.injEq,
    Bool.and_eq_true, decide_eq_true_eq] at names
  obtain ⟨-, within, rfl⟩ := names
  omega

/-- Moves that answer a result, and the moves behind them. -/
structure Answered (colored : Bool) (patience : Nat) (result : RunResult)
    (ended : Except Fault Unit → Task) (next : Option Nat → Task) (moves : List Move) (code : Nat)
    (asked rest : List Move) (answer : Answer) : Prop where
  parts : moves = asked ++ rest
  answers : Answers colored patience result asked answer
  onward : (answer.task next ended).Performs rest code

/-- Behind options the task asks for a number until it gets one. -/
theorem askChoice_performs {shown : OptionsResult} {next : Option Nat → Task}
    (performed : (askChoice colored ended shown.options.length (fun choice => next (some choice))
      patience).Performs moves code) :
    ∃ asked rest answer,
      Answered colored patience (.options shown) ended next moves code asked rest answer := by
  induction patience generalizing moves with
  | zero => exact ⟨[], moves, _, rfl, .weary, performed⟩
  | succ patience ih =>
      cases performed with
      | print prompted =>
      cases prompted with
      | @line _ behind _ line onward =>
      cases line with
      | error fault => exact ⟨_, behind, _, rfl, .optionsUnread fault, onward⟩
      | ok line =>
      cases line with
      | none => exact ⟨_, behind, _, rfl, .optionsEnded, onward⟩
      | some line =>
          cases names : Player.pick? line shown.options.length with
          | some index =>
              simp only [names] at onward
              exact ⟨_, behind, _, rfl, .chosen names (pick?_lt names), onward⟩
          | none =>
              simp only [names] at onward
              cases onward with
              | print again =>
              obtain ⟨asked, rest, answer, rfl, answers, onward⟩ := ih again
              exact ⟨_, rest, answer, rfl, .rejected names answers, onward⟩

/-- Behind every result the task asks for what the result demands. -/
theorem meet_performs {next : Option Nat → Task}
    (performed : ((Demand.ofResult result).meet colored ended patience next).Performs moves code) :
    ∃ asked rest answer,
      Answered colored patience result ended next moves code asked rest answer := by
  cases result with
  | command shown => exact ⟨[], moves, _, rfl, .command, performed⟩
  | options shown => exact askChoice_performs performed
  | text shown =>
      cases empty : shown.text.isEmpty with
      | true =>
          simp only [Demand.ofResult, empty, if_true, Demand.meet] at performed
          exact ⟨[], moves, _, rfl, .marker empty, performed⟩
      | false =>
          simp only [Demand.ofResult, empty, Bool.false_eq_true, if_false, Demand.meet] at performed
          cases performed with
          | @line _ behind _ line onward =>
          cases line with
          | error fault => exact ⟨_, behind, _, rfl, .textUnread empty fault, onward⟩
          | ok line =>
          cases line with
          | none => exact ⟨_, behind, _, rfl, .textEnded empty, onward⟩
          | some line => exact ⟨_, behind, _, rfl, .text empty line, onward⟩

/-- The dialogue goes on behind options only with the number of one of them. -/
theorem Answers.index_lt {asked : List Move} {choice : Option Nat} {shown : OptionsResult}
    (answers : Answers colored patience (.options shown) asked (.goesOn choice)) :
    ∃ index, choice = some index ∧ index < shown.options.length := by
  generalize same : Answer.goesOn choice = answer at answers
  generalize whose : RunResult.options shown = result at answers
  induction answers with
  | chosen names below =>
      cases same
      cases whose
      exact ⟨_, rfl, below⟩
  | rejected names again ih => exact ih same whose
  | optionsEnded => cases same
  | optionsUnread fault => cases same
  | weary => cases same
  | command => cases whose
  | marker empty => cases whose
  | text nonempty line => cases whose
  | textEnded nonempty => cases whose
  | textUnread nonempty fault => cases whose

end Answers

namespace Session

/-- The session whose player has seen the result. -/
def seen (s : Session) (result : RunResult) : Session :=
  { s with player := (s.player.present result).1 }

/-- What is printed to show the result. -/
def showing (s : Session) (result : RunResult) : Move :=
  .printed (lines (s.player.present result).2)

/-- The result that a session shows is answered, and the runner is called with the choice. -/
structure Turn (patience : Nat) (s : Session) (result : RunResult) (asked : List Move)
    (after : Session) (signal : Runner.Signal) : Prop where
  current : s.runner.current = some result
  unfinished : s.runner.finished = false
  called : ∃ choice, Answers (s.seen result).player.colored patience result asked (.goesOn choice) ∧
    (s.seen result).advance patience choice = (after, signal)

/-- What happens while a session is played, for at most `fuel` results, and how it ends. Each call
on the runner leads to a result or fails to enter a node, unless it takes more steps than it may. It
ends badly only where the input cannot be read. -/
inductive Plays (patience : Nat) : Nat → Session → List Move → Except Fault Unit → Prop
  | spent {s : Session} : Plays patience 0 s [] (.ok ())
  | farewell {fuel : Nat} {s : Session} {result : RunResult}
      (current : s.runner.current = some result) (finished : s.runner.finished = true) :
      Plays patience (fuel + 1) s
        [s.showing result, .printed (Player.farewell (s.seen result).player.colored ++ "\n")]
        (.ok ())
  | left {fuel : Nat} {s : Session} {result : RunResult} {asked : List Move}
      {outcome : Except Fault Unit}
      (current : s.runner.current = some result) (unfinished : s.runner.finished = false)
      (ended : Answers (s.seen result).player.colored patience result asked (.ends outcome)) :
      Plays patience (fuel + 1) s (s.showing result :: asked) outcome
  | goesOn {fuel : Nat} {s after : Session} {result : RunResult} {asked moves : List Move}
      {outcome : Except Fault Unit} (turn : Turn patience s result asked after .suspended)
      (onward : Plays patience fuel after moves outcome) :
      Plays patience (fuel + 1) s (s.showing result :: (asked ++ moves)) outcome
  | failed {fuel : Nat} {s after : Session} {result : RunResult} {asked : List Move}
      {cause : RuntimeError} (turn : Turn patience s result asked after (.faulted cause))
      (misses : cause.Misses) :
      Plays patience (fuel + 1) s
        (s.showing result :: (asked ++
          [.printed (Role.failure.paint (s.seen result).player.colored cause.message ++ "\n")]))
        (.ok ())
  | endless {fuel : Nat} {s after : Session} {result : RunResult} {asked : List Move}
      (turn : Turn patience s result asked after .exhausted) :
      Plays patience (fuel + 1) s (s.showing result :: asked) (.ok ())

/-- The runner has just shown a result. -/
def Ready (s : Session) : Prop :=
  ∃ before result, Runner.Presents before result s.runner

/-- The call of a turn is never turned away. -/
theorem Turn.safe {s after : Session} {result : RunResult} {patience : Nat} {asked : List Move}
    {signal : Runner.Signal} (turn : Turn patience s result asked after signal)
    (ready : s.Ready) :
    (signal = .suspended ∧ after.Ready) ∨ (∃ cause, signal = .faulted cause ∧ cause.Misses) ∨
      signal = .exhausted := by
  obtain ⟨current, unfinished, choice, answers, called⟩ := turn
  obtain ⟨before, shown, presents⟩ := ready
  obtain rfl : shown = result := Option.some.inj (presents.current_eq.symm.trans current)
  have fits : ∀ listed, shown = .options listed →
      ∃ index, choice = some index ∧ index < listed.options.length := by
    rintro listed rfl
    exact answers.index_lt
  obtain ⟨rfl, rfl⟩ := Prod.mk.inj called
  rcases presents.advance unfinished fits rfl with ⟨suspended, next, shows⟩ | others
  · exact .inl ⟨suspended, _, next, shows⟩
  · exact .inr others

/-- From a state in which the runner has just shown a result, every performance plays on, and then
does what it does at the end. -/
theorem task_performs {s : Session} {patience fuel : Nat} {ended : Except Fault Unit → Task}
    {moves : List Move} {code : Nat} (ready : s.Ready)
    (performed : (task patience ended fuel s).Performs moves code) :
    ∃ played closing outcome, moves = played ++ closing ∧ Plays patience fuel s played outcome ∧
      (ended outcome).Performs closing code := by
  induction fuel generalizing s moves with
  | zero => exact ⟨[], moves, _, rfl, .spent, performed⟩
  | succ fuel ih =>
      obtain ⟨before, result, presents⟩ := ready
      have current := presents.current_eq
      simp only [task, current] at performed
      cases performed with
      | print behind =>
      cases finished : s.runner.finished with
      | true =>
          simp only [finished, if_true] at behind
          cases behind with
          | print rest => exact ⟨_, _, _, rfl, .farewell current finished, rest⟩
      | false =>
          simp only [finished, Bool.false_eq_true, if_false] at behind
          obtain ⟨asked, rest, answer, rfl, answers, onward⟩ := meet_performs behind
          cases answer with
          | ends outcome =>
              exact ⟨_, rest, outcome, rfl, .left current finished answers, onward⟩
          | goesOn choice =>
              cases called : (s.seen result).advance patience choice with
              | mk after signal =>
              have turn : Turn patience s result asked after signal :=
                ⟨current, finished, choice, answers, called⟩
              have safe := turn.safe ⟨before, result, presents⟩
              rw [seen] at called
              simp only [Answer.task, called] at onward
              cases signal with
              | suspended =>
                  have next : after.Ready := by simpa using safe
                  obtain ⟨played, closing, outcome, rfl, plays, last⟩ := ih next onward
                  refine ⟨_, closing, outcome, ?_, .goesOn turn plays, last⟩
                  rw [List.cons_append, List.append_assoc]
                  rfl
              | faulted cause =>
                  have misses : cause.Misses := by simpa using safe
                  cases onward with
                  | @print _ _ closing _ last =>
                  refine ⟨_, closing, _, ?_, .failed turn misses, last⟩
                  rw [List.cons_append, List.append_assoc]
                  rfl
              | exhausted => exact ⟨_, rest, _, rfl, .endless turn, onward⟩

/-- What is left to do when a dialogue has ended, and the exit code. -/
inductive Closes : Except Fault Unit → List Move → Nat → Prop
  | well : Closes (.ok ()) [] 0
  | badly (fault : Fault) :
      Closes (.error fault) [.complained ("Error: " ++ fault.message ++ "\n")] 1

theorem conclude_performs {outcome : Except Fault Unit} {closing : List Move} {code : Nat}
    (performed : (conclude outcome).Performs closing code) : Closes outcome closing code := by
  cases outcome with
  | ok done =>
      cases performed
      exact .well
  | error fault =>
      cases performed with
      | complain rest =>
      cases rest
      exact .badly fault

/-- However a started dialogue is played, every call on the runner leads to a result or fails to
enter a node, and a number is asked for behind options only, until a line names one of them. Only
input that cannot be read makes the command line complain. -/
theorem playing_safe {budget patience fuel : Nat} {p : Program} {setup : Setup} {runner : Runner}
    {player : Player} {moves : List Move} {code : Nat}
    (started : Runner.start budget p setup = (runner, .suspended))
    (performed : (task patience conclude fuel ⟨runner, player⟩).Performs moves code) :
    ∃ played closing outcome, moves = played ++ closing ∧
      Plays patience fuel ⟨runner, player⟩ played outcome ∧ Closes outcome closing code := by
  obtain ⟨result, presents⟩ := Runner.presents_start started
  obtain ⟨played, closing, outcome, parts, plays, last⟩ :=
    task_performs ⟨[], result, presents⟩ performed
  exact ⟨played, closing, outcome, parts, plays, conclude_performs last⟩

/-- A number is asked for until a line names an option, and bytes that encode no text end the
command line with a complaint. -/
theorem menu_playing :
    let player : Player := .new ⟨"menu.ron", "Start", .empty, .empty, .empty⟩ false
    let session : Session := ⟨Runner.menuRun, player⟩
    (∃ moves played closing outcome, (task 8 conclude 8 session).Performs moves 0 ∧
      moves.filterMap Move.output? = ["[1] Bread\n", "> ", "please enter a number from 1 to 1\n",
        "> ", "<<bake>>\n", "<<leave>>\n", "", "[end of dialogue]\n"] ∧
      moves = played ++ closing ∧ Plays 8 8 session played outcome ∧ Closes outcome closing 0) ∧
    ∃ moves played closing outcome, (task 8 conclude 8 session).Performs moves 1 ∧
      moves.filterMap Move.complaint? = ["Error: stream did not contain valid UTF-8\n"] ∧
      moves = played ++ closing ∧ Plays 8 8 session played outcome ∧ Closes outcome closing 1 := by
  intro player session
  have begun : (Runner.start 8 Runner.menu (.starting "Start")).2 = .suspended := by decide +kernel
  have started : Runner.start 8 Runner.menu (.starting "Start") = (Runner.menuRun, .suspended) :=
    Prod.ext rfl begun
  constructor
  · let world : World := .ofFolder ⟨.empty⟩ "soup\n1\n".toUTF8.data.toList
    obtain ⟨moves, performed, printed, -⟩ := (task 8 conclude 8 session).run_performs world
    have code : ((task 8 conclude 8 session).run world).1 = 0 := by decide +kernel
    rw [code] at performed
    obtain ⟨played, closing, outcome, parts⟩ := playing_safe started performed
    refine ⟨moves, played, closing, outcome, performed, ?_, parts⟩
    rw [← List.nil_append (moves.filterMap Move.output?)]
    exact printed.symm.trans (by decide +kernel)
  · let world : World := .ofFolder ⟨.empty⟩ ("soup\n".toUTF8.data.toList ++ [255, 10])
    obtain ⟨moves, performed, -, complained⟩ := (task 8 conclude 8 session).run_performs world
    have code : ((task 8 conclude 8 session).run world).1 = 1 := by decide +kernel
    rw [code] at performed
    obtain ⟨played, closing, outcome, parts⟩ := playing_safe started performed
    refine ⟨moves, played, closing, outcome, performed, ?_, parts⟩
    rw [← List.nil_append (moves.filterMap Move.complaint?)]
    exact complained.symm.trans (by decide +kernel)

end Session

end Dialogue.Console
