import Dialogue.Proofs.Program.Labels
import Dialogue.Proofs.Runner.Progress

set_option autoImplicit false

namespace Dialogue

namespace RunResult

/-- The texts of a result: that of a line, or those of the options. -/
def labels : RunResult → List Label
  | text r => [(r.text, r.markup)]
  | options r => r.options.map fun o => (o.text, o.markup)
  | command _ => []

/-- Every text of the result has its own markup. -/
def Sound (result : RunResult) : Prop :=
  ∀ label ∈ result.labels, label.Sound

theorem sound_closing (node : Node) : (closing node).Sound := by
  intro label member m same
  rw [List.mem_singleton.mp member] at same
  cases same

end RunResult

namespace Runner

theorem sound_text (g : Stage) (node : Node) {l : Line} (atEnd : Bool)
    (sound : (Instruction.line l).Sound) : (RunResult.text (g.textResult node l atEnd)).Sound := by
  intro label member
  rw [List.mem_singleton.mp member]
  exact (sound _ (List.mem_singleton_self _)).interpolate g.store

theorem sound_options (r : Runner) {choices : List (Choice × Block)}
    {nodeStyle scene : Option String} {atEnd : Bool} (sound : (Instruction.options choices).Sound) :
    (RunResult.options ⟨(r.offered choices).map fun c => r.optionView c.2 c.1, nodeStyle, scene,
      atEnd⟩).Sound := by
  intro label member
  obtain ⟨view, shown, rfl⟩ := List.mem_map.mp member
  obtain ⟨⟨choice, index⟩, offered, rfl⟩ := List.mem_map.mp shown
  obtain ⟨numbered, -⟩ := List.mem_filter.mp offered
  obtain ⟨owner, listed, rfl⟩ := List.mem_map.mp (List.fst_mem_of_mem_zipIdx numbered)
  have own : (owner.1.text, owner.1.markup) ∈ (Instruction.options choices).labels :=
    List.mem_map.mpr ⟨owner, listed, rfl⟩
  exact (sound _ own).interpolate _

/-- A step shows nothing, or a result with the texts of its instruction. -/
theorem sound_step {r : Runner} (sound : ∀ i, r.next? = some i → i.Sound)
    (earlier : ∀ result ∈ r.history, result.Sound) :
    ∀ result ∈ r.step.state.history, result.Sound := by
  have outcome := r.transition
  have adding : ∀ {shown : Runner} {result : RunResult} {visitRecorded : Bool},
      shown.history = r.history → result.Sound →
      ∀ later ∈ (shown.emit result visitRecorded).history, later.Sound := by
    intro shown result visitRecorded same new
    rw [emit_history, same, List.forall_mem_append, List.forall_mem_singleton]
    exact ⟨earlier, new⟩
  generalize taken : r.step = step at outcome
  cases outcome with
  | lost missing => exact earlier
  | nodeDone found outside done => exact adding rfl (RunResult.sound_closing _)
  | line found next => exact adding (by simp) (sound_text _ _ _ (sound _ next))
  | command found next =>
      exact adding ((r.fetched.dispatch_history _).trans (by simp)) (List.forall_mem_nil _)
  | offer found next visible =>
      refine adding (by simp) ?_
      exact sound_options r.fetched (sound _ next)
  | jumpRefused next refused =>
      simpa [Step.state, depart, Stage.recordVisit] using earlier
  | detourRefused next refused => simpa [Step.state, save] using earlier
  | _ =>
      rw [Step.state, running_history taken]
      exact earlier

/-- In every run of a compiled script, each text is shown with its own markup. -/
theorem shown_sound {source : String} {p : Program} (compiled : Program.ofSource source = .ok p)
    {s : Setup} {trail : List Runner} {r : Runner}
    (session : Session (fun _ => True) p s trail r) : ∀ result ∈ r.history, result.Sound := by
  obtain ⟨document, -, rfl⟩ : ∃ document, Script.parse source = .ok document ∧
      Program.ofDocument Program.defaultOnceNaming document = p := by
    unfold Program.ofSource at compiled
    cases parsed : Script.parse source with
    | error cause =>
        rw [parsed] at compiled
        cases compiled
    | ok document =>
        rw [parsed] at compiled
        exact ⟨document, rfl, Except.ok.inj compiled⟩
  refine (Session.invariant
    (I := fun _ r => r.program = Program.ofDocument Program.defaultOnceNaming document ∧
      ∀ result ∈ r.history, result.Sound) ?_ ?_ ?_ session).2
  · intro first ok
    obtain ⟨member, node, ledger, -, rfl⟩ := enter_ok ok
    exact ⟨rfl, List.forall_mem_nil _⟩
  · rintro trail state ⟨program, earlier⟩ _ _ _
    refine ⟨state.step_fixed.1.trans program, sound_step ?_ earlier⟩
    intro i next
    rw [next?_place] at next
    obtain ⟨node, found, placed⟩ := Option.bind_eq_some_iff.mp next
    unfold node? at found
    rw [program] at found
    exact Program.sound_ofDocument _ document found _ _ i placed
  · rintro trail state pending index sub ⟨program, earlier⟩ _ _
    exact ⟨program, earlier⟩

/-- A program with a formatted line. -/
def greeting : Program :=
  (Program.ofSource "title: Start\n---\n[b]Hi[/b]\n===\n").toOption.getD .empty

theorem greeting_sound : ∃ trail r, Session (fun _ => True) greeting (.starting "Start") trail r ∧
    (r.history.flatMap RunResult.labels).map (fun label => label.2.isSome) = [true] ∧
    ∀ result ∈ r.history, result.Sound := by
  have accepted : (Program.ofSource "title: Start\n---\n[b]Hi[/b]\n===\n").isOk = true := by
    decide +kernel
  have compiled : Program.ofSource "title: Start\n---\n[b]Hi[/b]\n===\n" = .ok greeting := by
    unfold greeting
    generalize Program.ofSource _ = outcome at accepted ⊢
    cases outcome with
    | error cause => cases accepted
    | ok p => rfl
  have suspended : (start 8 greeting (.starting "Start")).2 = .suspended := by decide +kernel
  have session : Session (fun _ => True) greeting (.starting "Start") _ _ :=
    session_of_start suspended
  exact ⟨_, _, session, by decide +kernel, shown_sound compiled session⟩

end Runner

end Dialogue
