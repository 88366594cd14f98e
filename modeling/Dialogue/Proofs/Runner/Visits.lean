import Dialogue.Proofs.Runner.Session
import Mathlib.Data.List.Count

set_option autoImplicit false

namespace Dialogue

namespace Store

theorem visitCount_recordVisit (s : Store) (left title : String) :
    (s.recordVisit left).visitCount title = s.visitCount title + [left].count title := by
  unfold recordVisit visitCount
  by_cases same : title = left
  · subst same
    simp
  · rw [Table.get?_insert_of_ne _ _ same]
    simp [Ne.symm same]

theorem visitCount_congr {s t : Store} (same : s.visits = t.visits) (title : String) :
    s.visitCount title = t.visitCount title := by
  unfold visitCount
  rw [same]

end Store

namespace Handlers

/-- No handler of the table changes how often nodes have been left. -/
def KeepVisits (h : Handlers) : Prop :=
  ∀ name handler, h.get? name = some handler → ∀ c s, (handler c s).1.visits = s.visits

theorem KeepVisits.empty : KeepVisits empty := by
  intro name handler found
  cases found

theorem KeepVisits.register {h : Handlers} {handler : Handler} (name : String)
    (kept : h.KeepVisits) (keeps : ∀ c s, (handler c s).1.visits = s.visits) :
    (h.register name handler).KeepVisits := by
  intro query found located
  unfold Handlers.register at located
  by_cases same : query = Text.lower name
  · subst same
    rw [Table.get?_insert_self, Option.some.injEq] at located
    rw [← located]
    exact keeps
  · rw [Table.get?_insert_of_ne _ _ same] at located
    exact kept query found located

theorem KeepVisits.execute {h : Handlers} (kept : h.KeepVisits) (c : Command) (s : Store) :
    (h.execute c s).1.visits = s.visits := by
  unfold Handlers.execute
  split
  · rfl
  · rename_i handler found
    have keeps := kept _ handler found c s
    split <;> simp_all

theorem store_visits (s : Store) (target : String) (value : Except EvalError Value) :
    (Command.store s target value).1.visits = s.visits := by
  unfold Command.store
  split <;> rfl

theorem set_visits (c : Command) (s : Store) : (Command.set c s).1.visits = s.visits := by
  unfold Command.set
  split
  · rfl
  · split
    · rfl
    · exact store_visits _ _ _

theorem declare_visits (c : Command) (s : Store) : (Command.declare c s).1.visits = s.visits := by
  unfold Command.declare
  split
  · rfl
  · split
    · dsimp only
      split <;> rfl
    · exact store_visits _ _ _

theorem default_keepVisits : Handlers.default.KeepVisits := by
  have basic := KeepVisits.empty.register "set" set_visits
  exact (basic.register "declare" declare_visits).register "stop" fun _ _ => rfl

end Handlers

@[simp] theorem Stage.visitCount_renewed (g : Stage) (title : String) :
    g.renewed.store.visitCount title = g.store.visitCount title :=
  rfl

theorem Stage.dispatch_visits {g : Stage} (kept : g.handlers.KeepVisits) (content : String) :
    (g.dispatch content).store.visits = g.store.visits := by
  unfold Stage.dispatch
  split
  · exact kept.execute _ _
  · rfl

/-- A run starts without visits, whatever variables and functions it is given. -/
theorem Setup.store_visits (s : Setup) (p : Program) : (s.store p).visits = .empty := by
  have seeded : ∀ (vars : List (String × Value)) (store : Store),
      (vars.foldl (fun store e => store.setVariable e.1 e.2) store).visits = store.visits := by
    intro vars
    induction vars with
    | nil => exact fun _ => rfl
    | cons e rest ih => exact fun store => ih (store.setVariable e.1 e.2)
  have registered : ∀ (functions : List (String × Function)) (store : Store),
      (functions.foldl (fun store f => store.register f.1 f.2) store).visits = store.visits := by
    intro functions
    induction functions with
    | nil => exact fun _ => rfl
    | cons f rest ih => exact fun store => ih (store.register f.1 f.2)
  unfold Setup.store
  rw [registered, seeded]
  rfl

/-- The title of the node that a detour frame returns to. -/
def Frame.title? : Frame → Option String
  | detour title _ _ => some title
  | block _ _ => none

namespace Runner

/-- The titles of the activations that have not ended: the node that is running, unless the
dialogue is over, and the nodes that detours return to. -/
def activations (r : Runner) : List String :=
  (if r.finished then [] else [r.title]) ++ r.stack.filterMap Frame.title?

def live (r : Runner) (title : String) : Nat :=
  r.activations.count title

/-- How many activations of a title have begun: those that were left and those that are live. -/
def begun (r : Runner) (title : String) : Nat :=
  r.store.visitCount title + r.live title

/-- The title that the next step enters, if it enters one. -/
def entered? (r : Runner) : Option String :=
  match r.step with
  | .running _ => r.next?.bind Instruction.target?
  | _ => none

theorem title?_dropWhile (frames : List Frame) :
    (frames.dropWhile Frame.isBlock).filterMap Frame.title? = frames.filterMap Frame.title? :=
  Frame.filterMap_dropWhile (fun _ _ => rfl) frames

theorem title?_fetched (r : Runner) :
    r.fetched.stack.filterMap Frame.title? = r.stack.filterMap Frame.title? := by
  unfold fetched
  split
  · rename_i path index below stack
    rw [stack]
    rfl
  · rfl

/-- What has begun is told by the visits, the node that is running and the detour frames. -/
theorem begun_congr {r t : Runner} (visits : r.store.visits = t.store.visits)
    (finished : r.finished = t.finished) (here : r.title = t.title)
    (frames : r.stack.filterMap Frame.title? = t.stack.filterMap Frame.title?) (title : String) :
    r.begun title = t.begun title := by
  unfold begun live activations
  rw [Store.visitCount_congr visits, finished, here, frames]

theorem begun_fetched (r : Runner) (title : String) : r.fetched.begun title = r.begun title :=
  begun_congr (by rw [fetched_toStage]; rfl) (by simp) r.fetched_title r.title?_fetched title

theorem begun_unfinished {r : Runner} (unfinished : r.finished = false) (title : String) :
    r.begun title = r.store.visitCount title + [r.title].count title +
      (r.stack.filterMap Frame.title?).count title := by
  unfold begun live activations
  rw [unfinished, if_neg Bool.false_ne_true, List.count_append, Nat.add_assoc]

/-- A return begins nothing: the node that was running counts as left, and the one that the frame
names goes on. -/
theorem begun_return {r back : Runner} {member ip : Nat} (unfinished : r.finished = false)
    (still : back.finished = false) (left : back.store = r.store.recordVisit r.title)
    (stack : r.stack = .detour back.title member ip :: back.stack) (title : String) :
    back.begun title = r.begun title := by
  have frames : r.stack.filterMap Frame.title? =
      [back.title] ++ back.stack.filterMap Frame.title? := by
    rw [stack]
    rfl
  rw [begun_unfinished still, begun_unfinished unfinished, left, frames,
    Store.visitCount_recordVisit, List.count_append]
  omega

/-- A result that is not the end of a run begins nothing: a node that it closes counts as left. -/
theorem begun_emit {r : Runner} (unfinished : r.finished = false) (result : RunResult)
    (title : String) : (r.emit result false).begun title = r.begun title := by
  have still := (emit_finished r result false).trans unfinished
  rcases r.emit_cases result false with ⟨-, saved, member, ip, below, stack, same⟩ | ⟨-, same⟩
  · rw [same] at still ⊢
    exact begun_return unfinished still rfl stack title
  · rw [same]
    rfl

theorem begun_endNode {r : Runner} (unfinished : r.finished = false)
    (outside : r.stack.dropWhile Frame.isBlock = r.stack) (node : Node) (title : String) :
    (r.endNode node).begun title = r.begun title := by
  rcases endNode_cases outside node with ⟨stack, same⟩ | ⟨saved, member, ip, below, stack, same⟩
  · -- With the last node the dialogue is over, and no activation is live any more.
    rw [begun_unfinished unfinished, same]
    simp only [begun, live, activations, Stage.present, Stage.leave, Stage.recordVisit, stack,
      Bool.or_true, if_true, List.filterMap_nil, Store.visitCount_recordVisit, List.append_nil,
      List.count_nil]
  · rw [same]
    refine begun_return unfinished ?_ rfl stack title
    simpa [Stage.present] using unfinished

/-- A step begins one activation of the title that it enters, and no other. -/
theorem begun_step {r : Runner} (kept : r.handlers.KeepVisits) (unfinished : r.finished = false)
    (faultless : r.step.fault? = none) (title : String) :
    r.step.state.begun title = r.begun title + r.entered?.toList.count title := by
  have outcome := r.transition
  unfold entered?
  generalize r.step = taken at outcome faultless
  cases outcome with
  | lost missing => cases faultless
  | jumpRefused next refused => cases faultless
  | detourRefused next refused => cases faultless
  | @blockDone node path index below found inside done =>
      rw [done]
      change { r with stack := below }.begun title = r.begun title
      apply begun_congr
      · rfl
      · rfl
      · rfl
      · rw [inside]
        rfl
  | nodeDone found outside done => exact begun_endNode unfinished outside _ title
  | line found next =>
      refine (begun_emit ?_ _ title).trans (begun_fetched r title)
      rw [fetched_toStage]
      exact unfinished
  | @command node content found next =>
      have finished : (r.fetched.dispatch content).finished = r.finished := by simp
      refine (begun_emit (finished.trans unfinished) _ title).trans ?_
      change { r.fetched with toStage := r.fetched.dispatch content }.begun title = r.begun title
      apply begun_congr
      · have still : r.fetched.handlers.KeepVisits := by simpa using kept
        refine (Stage.dispatch_visits still content).trans ?_
        rw [fetched_toStage]
        rfl
      · exact finished
      · exact r.fetched_title
      · exact r.title?_fetched
  | jump next ok =>
      obtain ⟨member, node, ledger, -, rfl⟩ := enter_ok ok
      rw [next]
      simp only [Step.state, begun, live, activations, depart, Stage.recordVisit, fetched_toStage,
        fetched_title, title?_dropWhile, title?_fetched, Stage.renewed_finished, unfinished,
        Bool.false_eq_true, if_false, Store.visitCount_recordVisit, Stage.visitCount_renewed,
        Option.bind_some, Instruction.target?, Option.toList_some, List.count_append]
      omega
  | detour next ok =>
      obtain ⟨member, node, ledger, -, rfl⟩ := enter_ok ok
      rw [next]
      simp only [Step.state, begun, live, activations, save, fetched_toStage, fetched_title,
        title?_fetched, Stage.renewed_finished, unfinished, Bool.false_eq_true, if_false,
        Stage.visitCount_renewed, List.filterMap_cons, Frame.title?, Option.bind_some,
        Instruction.target?, Option.toList_some, List.count_append, List.count_cons,
        List.count_nil]
      omega
  | offer found next visible =>
      refine (begun_emit ?_ _ title).trans (begun_fetched r title)
      rw [fetched_toStage]
      exact unfinished
  | pass next skips =>
      rw [next, Option.bind_some, skips.target?]
      exact begun_fetched r title
  | openBlock next opens =>
      rw [next, Option.bind_some, opens.target?]
      exact begun_fetched r title

/-- The titles that a session has entered, the one it started with first. -/
def entries (start : String) (trail : List Runner) : List String :=
  start :: trail.filterMap entered?

theorem entries_snoc (start : String) (trail : List Runner) (r : Runner) :
    entries start (trail ++ [r]) = entries start trail ++ r.entered?.toList := by
  unfold entries
  rw [List.filterMap_append, ← List.cons_append]
  cases entered : r.entered? <;> simp [entered]

/-- As many activations of each title have begun as there were entries. -/
structure Balanced (start : String) (trail : List Runner) (r : Runner) : Prop where
  handlers : r.handlers = .default
  begun : ∀ title, r.begun title = (entries start trail).count title

theorem balanced_entered {p : Program} {s : Setup} (handlers : s.handlers = .default)
    {first : Runner} (ok : (initial p s).enter s.start = .ok first) :
    Balanced s.start [] first := by
  obtain ⟨member, node, ledger, -, rfl⟩ := enter_ok ok
  refine ⟨handlers, ?_⟩
  intro title
  have unvisited : (s.store p).visitCount title = 0 := by
    rw [Store.visitCount, s.store_visits]
    rfl
  change (s.store p).visitCount title + [s.start].count title = [s.start].count title
  rw [unvisited, Nat.zero_add]

theorem balanced_step {start : String} {trail : List Runner} {r : Runner}
    (valid : Balanced start trail r) (unfinished : r.finished = false)
    (faultless : r.step.fault? = none) : Balanced start (trail ++ [r]) r.step.state := by
  have kept : r.handlers.KeepVisits := by
    rw [valid.handlers]
    exact Handlers.default_keepVisits
  refine ⟨r.step_fixed.2.trans valid.handlers, ?_⟩
  intro title
  rw [begun_step kept unfinished faultless, valid.begun, entries_snoc, List.count_append]

/-- Every activation of a node is counted once, when it is left: visits and live activations add up
to entries. -/
theorem visits_conserved {p : Program} {s : Setup} (handlers : s.handlers = .default)
    {trail : List Runner} {r : Runner} (session : Session Signal.Clean p s trail r)
    (title : String) :
    r.store.visitCount title + r.live title = (entries s.start trail).count title := by
  have balanced : Balanced s.start trail r := by
    apply session.invariant
    · intro first ok
      exact balanced_entered handlers ok
    · intro before state valid _ unfinished clean
      exact balanced_step valid unfinished (fault_none_of_clean clean)
    · intro before state pending index sub valid _ _
      exact ⟨valid.handlers, valid.begun⟩
  exact balanced.begun title

theorem errand_visits : errandRun.store.visitCount "Shop" + errandRun.live "Shop" = 1 := by
  have conserved := visits_conserved rfl errand_session "Shop"
  rw [conserved]
  decide +kernel

end Runner

end Dialogue
