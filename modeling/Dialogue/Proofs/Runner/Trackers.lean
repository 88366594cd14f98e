import Dialogue.Ledger.Tracker
import Dialogue.Proofs.Runner.Sharing
import Mathlib.Data.List.Basic

set_option autoImplicit false

namespace Dialogue

open Ledger (Entry)
open Runner (startEntries trailEntries)

namespace Trackers

variable {α : Type} {t : Trackers} {cell tracker n : Nat} {owned : List (Nat × α)} {a : α}

/-- Every tracker has a ledger. -/
structure Sound (t : Trackers) : Prop where
  some_ledger : 0 < t.ledgers.length
  within : ∀ cell ∈ t.handles, cell < t.ledgers.length

theorem Sound.lt (sound : t.Sound) (held : t.handles[tracker]? = some cell) :
    cell < t.ledgers.length :=
  sound.within cell (List.mem_of_getElem? held)

theorem ledger_of_held (held : t.handles[tracker]? = some cell) :
    t.ledger tracker = (t.ledgers[cell]?).getD .empty := by
  rw [ledger, held, Option.bind_some]

theorem update_of_held (held : t.handles[tracker]? = some cell) (f : Ledger → Ledger) :
    t.update tracker f = { t with ledgers := t.ledgers.modify cell f } := by
  rw [update, held]

/-- A change of a ledger is seen by the trackers that share it, and by no others. -/
theorem ledger_update {left right cell other : Nat} (sound : t.Sound)
    (held : t.handles[left]? = some cell) (also : t.handles[right]? = some other)
    (f : Ledger → Ledger) :
    (t.update left f).ledger right = if t.shares left right then f (t.ledger right)
      else t.ledger right := by
  have below : other < t.ledgers.length := sound.lt also
  have kept : (t.update left f).handles[right]? = some other := by
    rw [update_of_held held]
    exact also
  rw [ledger_of_held kept, ledger_of_held also, update_of_held held]
  simp only [List.getElem?_modify, List.getElem?_eq_getElem below, shares, held, also]
  by_cases same : cell = other <;> simp [same]

theorem Sound.update (sound : t.Sound) (tracker : Nat) (f : Ledger → Ledger) :
    (t.update tracker f).Sound := by
  unfold Trackers.update
  split
  · exact ⟨by simpa using sound.some_ledger, by simpa using sound.within⟩
  · exact sound

theorem Sound.copy (sound : t.Sound) (tracker : Nat) : (t.copy tracker).Sound := by
  refine ⟨sound.some_ledger, ?_⟩
  unfold Trackers.copy
  rw [List.forall_mem_append, List.forall_mem_singleton]
  refine ⟨sound.within, ?_⟩
  cases held : t.handles[tracker]? with
  | none => exact sound.some_ledger
  | some cell => exact sound.lt held

theorem Sound.restore (sound : t.Sound) (tracker : Nat) : (t.restore tracker).Sound := by
  unfold Trackers.restore
  refine ⟨by simp, ?_⟩
  rw [List.forall_mem_append, List.forall_mem_singleton, List.length_append, List.length_singleton]
  exact ⟨fun cell listed => Nat.lt_succ_of_lt (sound.within cell listed), Nat.lt_succ_self _⟩

/-- What belongs to the trackers of one ledger. -/
def among (t : Trackers) (cell : Nat) (owned : List (Nat × α)) : List α :=
  owned.filterMap fun m => if t.handles[m.1]? = some cell then some m.2 else none

/-- How much belongs to the trackers of one ledger among the first `n`. -/
def rank (t : Trackers) (cell : Nat) (owned : List (Nat × α)) (n : Nat) : Nat :=
  (t.among cell (owned.take n)).length

theorem among_append (t : Trackers) (cell : Nat) (owned more : List (Nat × α)) :
    t.among cell (owned ++ more) = t.among cell owned ++ t.among cell more :=
  List.filterMap_append

theorem among_own (held : t.handles[tracker]? = some cell) (l : List α) :
    t.among cell (l.map fun a => (tracker, a)) = l := by
  unfold among
  rw [List.filterMap_map]
  simp [held]

theorem among_other (elsewhere : t.handles[tracker]? ≠ some cell) (l : List α) :
    t.among cell (l.map fun a => (tracker, a)) = [] := by
  unfold among
  rw [List.filterMap_map]
  simp [elsewhere]

/-- New trackers take over nothing. -/
theorem among_grown {later : Trackers} {more : List Nat} (grown : later.handles = t.handles ++ more)
    (cell : Nat) (known : ∀ m ∈ owned, m.1 < t.handles.length) :
    later.among cell owned = t.among cell owned := by
  unfold among
  refine List.filterMap_congr fun m listed => ?_
  rw [grown, List.getElem?_append_left (known m listed)]

theorem among_split (placed : owned[n]? = some (tracker, a))
    (held : t.handles[tracker]? = some cell) :
    t.among cell owned = t.among cell (owned.take n) ++ a :: t.among cell (owned.drop (n + 1)) := by
  obtain ⟨below, same⟩ := List.getElem?_eq_some_iff.mp placed
  have parts : owned = owned.take n ++ [(tracker, a)] ++ owned.drop (n + 1) := by
    rw [← same, List.append_assoc, List.singleton_append, ← List.drop_eq_getElem_cons below,
      List.take_append_drop]
  conv => lhs; rw [parts]
  rw [among_append, among_append, show [(tracker, a)] = [a].map fun a => (tracker, a) from rfl,
    among_own held, List.append_assoc, List.singleton_append]

theorem getElem?_among (placed : owned[n]? = some (tracker, a))
    (held : t.handles[tracker]? = some cell) :
    (t.among cell owned)[t.rank cell owned n]? = some a := by
  rw [among_split placed held, rank, List.getElem?_append_right (Nat.le_refl _), Nat.sub_self]
  rfl

theorem among_set (placed : owned[n]? = some (tracker, a)) (b : α) :
    t.among cell (owned.set n (tracker, b)) =
      if t.handles[tracker]? = some cell then (t.among cell owned).set (t.rank cell owned n) b
      else t.among cell owned := by
  obtain ⟨below, same⟩ := List.getElem?_eq_some_iff.mp placed
  have changed : (owned.set n (tracker, b))[n]? = some (tracker, b) := by
    rw [List.getElem?_set_self below]
  split
  · rename_i held
    rw [among_split changed held, among_split placed held, List.take_set_of_le (Nat.le_refl n),
      List.drop_set_of_lt (Nat.lt_succ_self n), rank,
      List.set_append_right _ _ (Nat.le_refl _), Nat.sub_self, List.set_cons_zero]
  · rename_i elsewhere
    have parts (c : α) : t.among cell (owned.set n (tracker, c)) =
        t.among cell (owned.take n) ++ t.among cell (owned.drop (n + 1)) := by
      rw [List.set_eq_take_append_cons_drop, if_pos below, ← List.singleton_append, among_append,
        among_append, show [(tracker, c)] = [c].map fun a => (tracker, a) from rfl,
        among_other elsewhere, List.nil_append]
    have unchanged : owned.set n (tracker, a) = owned := by
      rw [← same, List.set_getElem_self]
    rw [parts b, ← parts a, unchanged]

end Trackers

/-- What a host does with trackers and with the runners that it gives them to. -/
inductive Act where
  | copy (tracker : Nat)
  | restore (tracker : Nat)
  | start (fuel : Nat) (p : Program) (s : Setup) (tracker : Nat)
  | advance (fuel : Nat) (runner : Nat) (choice : Option Nat)

/-- Runners and their history, with the trackers that they were given. -/
structure Company where
  trackers : Trackers
  runners : List (Nat × Runner)
  history : List (Nat × Entry)

namespace Company

/-- One tracker, which no runner has been given. -/
def on (l : Ledger) : Company :=
  ⟨.single l, [], []⟩

/-- Notes what has become of the runners and of the ledger of a tracker. -/
def settle (c : Company) (tracker : Nat) (runners : List (Nat × Runner)) (ledger : Ledger)
    (entries : List Entry) : Company where
  trackers := c.trackers.update tracker fun _ => ledger
  runners := runners
  history := c.history ++ entries.map fun entry => (tracker, entry)

/-- Starts a program with a tracker. A start that fails gives no runner. -/
def start (c : Company) (fuel : Nat) (p : Program) (s : Setup) (tracker : Nat) : Company :=
  match c.trackers.handles[tracker]? with
  | none => c
  | some _ =>
      let s := { s with ledger := c.trackers.ledger tracker }
      let (r, signal) := Runner.start fuel p s
      let runners := match signal with
        | .faulted _ => c.runners
        | _ => c.runners ++ [(tracker, r)]
      c.settle tracker runners r.ledger (startEntries fuel p s)

def advance (c : Company) (fuel : Nat) (runner : Nat) (choice : Option Nat) : Company :=
  match c.runners[runner]? with
  | none => c
  | some (tracker, r) =>
      let r := { r with ledger := c.trackers.ledger tracker }
      let after := (r.advance fuel choice).1
      c.settle tracker (c.runners.set runner (tracker, after)) after.ledger
        (trailEntries (r.advanceTrail fuel choice))

/-- Nothing is done with a tracker or a runner that does not exist. -/
def perform (c : Company) : Act → Company
  | .copy tracker => { c with trackers := c.trackers.copy tracker }
  | .restore tracker => { c with trackers := c.trackers.restore tracker }
  | .start fuel p s tracker => c.start fuel p s tracker
  | .advance fuel runner choice => c.advance fuel runner choice

def performAll (c : Company) (acts : List Act) : Company :=
  acts.foldl perform c

/-- The runners on one ledger, with the ledger. -/
def ensemble (c : Company) (cell : Nat) : Ensemble where
  ledger := (c.trackers.ledgers[cell]?).getD .empty
  runners := c.trackers.among cell c.runners
  history := c.trackers.among cell c.history

/-- What an act comes to for the runners on one ledger. -/
def calls (c : Company) (cell : Nat) : Act → List Call
  | .copy _ => []
  | .restore _ => []
  | .start fuel p s tracker =>
      if c.trackers.handles[tracker]? = some cell then [.start fuel p s] else []
  | .advance fuel runner choice =>
      match c.runners[runner]? with
      | none => []
      | some (tracker, _) =>
          if c.trackers.handles[tracker]? = some cell then
            [.advance fuel (c.trackers.rank cell c.runners runner) choice]
          else []

def callsAll (cell : Nat) : Company → List Act → List Call
  | _, [] => []
  | c, act :: acts => c.calls cell act ++ callsAll cell (c.perform act) acts

/-- Runners and their history belong to trackers that exist. -/
structure Sound (c : Company) : Prop where
  trackers : c.trackers.Sound
  runners : ∀ m ∈ c.runners, m.1 < c.trackers.handles.length
  history : ∀ m ∈ c.history, m.1 < c.trackers.handles.length

section Steps

variable {c : Company} {cell tracker : Nat}

theorem settle_handles (c : Company) (tracker : Nat) (runners : List (Nat × Runner))
    (ledger : Ledger) (entries : List Entry) :
    (c.settle tracker runners ledger entries).trackers.handles = c.trackers.handles := by
  unfold settle Trackers.update
  split <;> rfl

theorem Sound.settle (sound : c.Sound) {home : Nat}
    (held : c.trackers.handles[tracker]? = some home) {runners : List (Nat × Runner)}
    (known : ∀ m ∈ runners, m.1 < c.trackers.handles.length) (ledger : Ledger)
    (entries : List Entry) : (c.settle tracker runners ledger entries).Sound := by
  obtain ⟨below, -⟩ := List.getElem?_eq_some_iff.mp held
  refine ⟨sound.trackers.update _ _, ?_, ?_⟩
  · rw [settle_handles]
    exact known
  · rw [settle_handles, Company.settle, List.forall_mem_append, List.forall_mem_map]
    exact ⟨sound.history, fun _ _ => below⟩

/-- New trackers take nothing from those that exist. -/
theorem Sound.grown (sound : c.Sound) {t : Trackers} (still : t.Sound) {more : List Nat}
    (handles : t.handles = c.trackers.handles ++ more) : { c with trackers := t }.Sound := by
  have longer : c.trackers.handles.length ≤ t.handles.length := by
    rw [handles, List.length_append]
    exact Nat.le_add_right _ _
  exact ⟨still, fun m listed => Nat.lt_of_lt_of_le (sound.runners m listed) longer,
    fun m listed => Nat.lt_of_lt_of_le (sound.history m listed) longer⟩

theorem Sound.start (sound : c.Sound) (fuel : Nat) (p : Program) (s : Setup) (tracker : Nat) :
    (c.start fuel p s tracker).Sound := by
  unfold Company.start
  split
  · exact sound
  · rename_i home held
    obtain ⟨below, -⟩ := List.getElem?_eq_some_iff.mp held
    refine sound.settle held ?_ _ _
    split
    · exact sound.runners
    · rw [List.forall_mem_append, List.forall_mem_singleton]
      exact ⟨sound.runners, below⟩

theorem Sound.advance (sound : c.Sound) (fuel runner : Nat) (choice : Option Nat) :
    (c.advance fuel runner choice).Sound := by
  unfold Company.advance
  split
  · exact sound
  · rename_i tracker r placed
    have below := sound.runners _ (List.mem_of_getElem? placed)
    refine sound.settle (List.getElem?_eq_getElem below) ?_ _ _
    intro m listed
    rcases List.mem_or_eq_of_mem_set listed with earlier | rfl
    · exact sound.runners m earlier
    · exact below

theorem Sound.perform (sound : c.Sound) (act : Act) : (c.perform act).Sound := by
  cases act with
  | copy tracker => exact sound.grown (sound.trackers.copy tracker) rfl
  | restore tracker => exact sound.grown (sound.trackers.restore tracker) rfl
  | start fuel p s tracker => exact sound.start fuel p s tracker
  | advance fuel runner choice => exact sound.advance fuel runner choice

theorem among_settle {α : Type} (c : Company) (tracker : Nat) (runners : List (Nat × Runner))
    (ledger : Ledger) (entries : List Entry) (owned : List (Nat × α)) :
    (c.settle tracker runners ledger entries).trackers.among cell owned =
      c.trackers.among cell owned := by
  unfold Trackers.among
  rw [settle_handles]

theorem history_settle (c : Company) (tracker : Nat) (runners : List (Nat × Runner))
    (ledger : Ledger) (entries : List Entry) :
    (c.settle tracker runners ledger entries).history =
      c.history ++ entries.map fun entry => (tracker, entry) :=
  rfl

/-- Runners on one ledger notice what is settled for a tracker of it. -/
theorem settle_ensemble_own (held : c.trackers.handles[tracker]? = some cell)
    (below : cell < c.trackers.ledgers.length) (runners : List (Nat × Runner)) (ledger : Ledger)
    (entries : List Entry) :
    (c.settle tracker runners ledger entries).ensemble cell =
      { ledger := ledger
        runners := c.trackers.among cell runners
        history := (c.ensemble cell).history ++ entries } := by
  have changed : (c.settle tracker runners ledger entries).trackers.ledgers[cell]? =
      some ledger := by
    rw [settle, Trackers.update_of_held held, List.getElem?_modify,
      List.getElem?_eq_getElem below]
    simp
  unfold ensemble
  rw [among_settle, among_settle, changed, history_settle, Trackers.among_append,
    Trackers.among_own held]
  rfl

/-- Runners on one ledger notice nothing of what is settled for another. -/
theorem settle_ensemble_other (elsewhere : c.trackers.handles[tracker]? ≠ some cell)
    (runners : List (Nat × Runner)) (ledger : Ledger) (entries : List Entry) :
    (c.settle tracker runners ledger entries).ensemble cell =
      { c.ensemble cell with runners := c.trackers.among cell runners } := by
  have kept : (c.settle tracker runners ledger entries).trackers.ledgers[cell]? =
      c.trackers.ledgers[cell]? := by
    rw [settle, Trackers.update]
    split
    · rename_i home held
      exact List.getElem?_modify_ne _ _ fun same => elsewhere (same ▸ held)
    · rfl
  unfold ensemble
  rw [among_settle, among_settle, kept, history_settle, Trackers.among_append,
    Trackers.among_other elsewhere, List.append_nil]
  rfl

theorem grown_ensemble (sound : c.Sound) {t : Trackers} {more : List Nat}
    (handles : t.handles = c.trackers.handles ++ more)
    (kept : t.ledgers[cell]? = c.trackers.ledgers[cell]?) :
    { c with trackers := t }.ensemble cell = c.ensemble cell := by
  unfold ensemble
  simp only [kept, Trackers.among_grown handles cell sound.runners,
    Trackers.among_grown handles cell sound.history]

theorem start_ensemble (below : cell < c.trackers.ledgers.length) (fuel : Nat) (p : Program)
    (s : Setup) (tracker : Nat) :
    (c.start fuel p s tracker).ensemble cell =
      if c.trackers.handles[tracker]? = some cell then
        (c.ensemble cell).perform (.start fuel p s)
      else c.ensemble cell := by
  unfold start
  by_cases own : c.trackers.handles[tracker]? = some cell
  · have single (r : Runner) : c.trackers.among cell [(tracker, r)] = [r] :=
      Trackers.among_own own [r]
    have ledger : c.trackers.ledger tracker = (c.ensemble cell).ledger :=
      Trackers.ledger_of_held own
    rw [if_pos own, own, ledger, Ensemble.perform]
    dsimp only
    rw [settle_ensemble_own own below]
    generalize Runner.start fuel p { s with ledger := (c.ensemble cell).ledger } = begun
    obtain ⟨r, signal⟩ := begun
    cases signal <;> simp [ensemble, Trackers.among_append, single]
  · have nobody (r : Runner) : c.trackers.among cell [(tracker, r)] = [] :=
      Trackers.among_other own [r]
    rw [if_neg own]
    split
    · rfl
    · dsimp only
      rw [settle_ensemble_other own]
      generalize Runner.start fuel p { s with ledger := c.trackers.ledger tracker } = begun
      obtain ⟨r, signal⟩ := begun
      cases signal <;> simp [ensemble, Trackers.among_append, nobody]

theorem advance_ensemble (below : cell < c.trackers.ledgers.length) {runner tracker : Nat}
    {r : Runner} (placed : c.runners[runner]? = some (tracker, r)) (fuel : Nat)
    (choice : Option Nat) :
    (c.advance fuel runner choice).ensemble cell =
      if c.trackers.handles[tracker]? = some cell then
        (c.ensemble cell).perform
          (.advance fuel (c.trackers.rank cell c.runners runner) choice)
      else c.ensemble cell := by
  unfold advance
  rw [placed]
  dsimp only
  by_cases own : c.trackers.handles[tracker]? = some cell
  · have ledger : c.trackers.ledger tracker = (c.ensemble cell).ledger :=
      Trackers.ledger_of_held own
    have found : (c.ensemble cell).runners[c.trackers.rank cell c.runners runner]? = some r :=
      Trackers.getElem?_among placed own
    rw [settle_ensemble_own own below, Trackers.among_set placed, if_pos own, if_pos own, ledger,
      Ensemble.perform, found]
    rfl
  · rw [settle_ensemble_other own, Trackers.among_set placed, if_neg own, if_neg own]
    rfl

/-- Whatever the host does, the runners on one ledger do what an ensemble on that ledger does. -/
theorem perform_ensemble (sound : c.Sound) (below : cell < c.trackers.ledgers.length) (act : Act) :
    (c.perform act).ensemble cell = (c.ensemble cell).performAll (c.calls cell act) := by
  cases act with
  | copy tracker => exact grown_ensemble sound rfl rfl
  | restore tracker => exact grown_ensemble sound rfl (List.getElem?_append_left below)
  | start fuel p s tracker =>
      refine (start_ensemble below fuel p s tracker).trans ?_
      rw [calls]
      split <;> rfl
  | advance fuel runner choice =>
      rw [perform, calls]
      cases placed : c.runners[runner]? with
      | none =>
          rw [advance, placed]
          rfl
      | some m =>
          rw [advance_ensemble below placed fuel choice]
          dsimp only
          split <;> rfl

end Steps

theorem ledgers_settle (c : Company) (tracker : Nat) (runners : List (Nat × Runner))
    (ledger : Ledger) (entries : List Entry) :
    (c.settle tracker runners ledger entries).trackers.ledgers.length =
      c.trackers.ledgers.length := by
  unfold settle Trackers.update
  split
  · exact List.length_modify ..
  · rfl

theorem ledgers_perform (c : Company) (act : Act) :
    c.trackers.ledgers.length ≤ (c.perform act).trackers.ledgers.length := by
  cases act with
  | copy tracker => exact Nat.le_refl _
  | restore tracker => simp [perform, Trackers.restore]
  | start fuel p s tracker =>
      rw [perform, start]
      split
      · exact Nat.le_refl _
      · exact Nat.le_of_eq (ledgers_settle ..).symm
  | advance fuel runner choice =>
      rw [perform, advance]
      split
      · exact Nat.le_refl _
      · exact Nat.le_of_eq (ledgers_settle ..).symm

/-- The runners whose trackers share a ledger are an ensemble on it, whatever other trackers there
are. -/
theorem performAll_ensemble {c : Company} (sound : c.Sound) {cell : Nat}
    (below : cell < c.trackers.ledgers.length) (acts : List Act) :
    (c.performAll acts).ensemble cell = (c.ensemble cell).performAll (c.callsAll cell acts) := by
  induction acts generalizing c with
  | nil => rfl
  | cons act acts ih =>
      have later := ih (sound.perform act) (Nat.lt_of_lt_of_le below (ledgers_perform c act))
      rw [perform_ensemble sound below act] at later
      refine later.trans ?_
      exact List.foldl_append.symm

theorem sound_on (l : Ledger) : (on l).Sound where
  trackers := ⟨Nat.one_pos, fun cell listed => by
    rw [List.mem_singleton.mp listed]
    exact Nat.one_pos⟩
  runners _ listed := nomatch listed
  history _ listed := nomatch listed

theorem Sound.performAll {c : Company} (sound : c.Sound) (acts : List Act) :
    (c.performAll acts).Sound := by
  induction acts generalizing c with
  | nil => exact sound
  | cons act acts ih => exact ih (sound.perform act)

/-- The runners of a restored tracker start from a copy of the ledger, as an ensemble of their
own. -/
theorem restore_ensemble {c : Company} (sound : c.Sound) (tracker : Nat) :
    (c.perform (.restore tracker)).ensemble c.trackers.ledgers.length =
      .on (c.trackers.ledger tracker) := by
  have fresh : ∀ m < c.trackers.handles.length,
      (c.trackers.restore tracker).handles[m]? ≠ some c.trackers.ledgers.length := by
    intro m known held
    rw [Trackers.restore, List.getElem?_append_left known] at held
    exact Nat.lt_irrefl _ (sound.trackers.lt held)
  have nobody {α : Type} {owned : List (Nat × α)}
      (known : ∀ m ∈ owned, m.1 < c.trackers.handles.length) :
      (c.trackers.restore tracker).among c.trackers.ledgers.length owned = [] :=
    List.filterMap_eq_nil_iff.mpr fun m listed => if_neg (fresh m.1 (known m listed))
  have runners := nobody sound.runners
  have history := nobody sound.history
  have ledger : (c.trackers.restore tracker).ledgers[c.trackers.ledgers.length]? =
      some (c.trackers.ledger tracker) := by
    rw [Trackers.restore, List.getElem?_append_right (Nat.le_refl _), Nat.sub_self]
    rfl
  unfold ensemble
  simp only [perform, runners, history, ledger]
  rfl

theorem shownOnce_ensemble {c : Company} (sound : c.Sound) {cell : Nat}
    (below : cell < c.trackers.ledgers.length) (fresh : (c.ensemble cell).history = [])
    (acts : List Act) :
    Ensemble.ShownOnce (c.ensemble cell).ledger ((c.performAll acts).ensemble cell).history := by
  rw [performAll_ensemble sound below]
  obtain ⟨entries, longer, replays⟩ :=
    Ensemble.performAll_extends (c.ensemble cell) (c.callsAll cell acts)
  rw [longer, fresh, List.nil_append]
  exact Ensemble.shownOnce_of_replays replays

/-- However trackers are copied and restored, the runners that share a ledger through them show
nothing twice and withhold nothing without cause: those on the first ledger, and those on the ledger
of a tracker that was restored later. -/
theorem trackers_shownOnce (l : Ledger) (earlier acts : List Act) (tracker : Nat) :
    Ensemble.ShownOnce l (((on l).performAll acts).ensemble 0).history ∧
      let c := (on l).performAll earlier
      Ensemble.ShownOnce (c.trackers.ledger tracker)
        (((c.perform (.restore tracker)).performAll acts).ensemble
          c.trackers.ledgers.length).history := by
  refine ⟨shownOnce_ensemble (sound_on l) Nat.one_pos rfl acts, ?_⟩
  intro c
  have sound : c.Sound := (sound_on l).performAll earlier
  have restored := restore_ensemble sound tracker
  have below : c.trackers.ledgers.length <
      (c.perform (.restore tracker)).trackers.ledgers.length := by
    simp [perform, Trackers.restore]
  have shown := shownOnce_ensemble (sound.perform (.restore tracker)) below
    (congrArg Ensemble.history restored) acts
  rw [restored] at shown
  exact shown

end Company

end Dialogue
