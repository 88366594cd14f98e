import Dialogue.Ledger.Basic
import Mathlib.Data.List.Count

set_option autoImplicit false

namespace Dialogue

theorem Table.contains_insert {α : Type} (t : Table α) (name query : String) (value : α) :
    (t.insert name value).contains query = (decide (query = name) || t.contains query) := by
  unfold contains
  by_cases same : query = name
  · subst same
    simp
  · rw [get?_insert_of_ne t value same]
    simp [same]

namespace Ledger

theorem mark_notMem_number (n : Nat) : '#' ∉ (toString n).toList := by
  intro mark
  have listed : '#' ∈ Nat.toDigits 10 n := by simpa [Nat.repr] using mark
  have digit := Nat.isDigit_of_mem_toDigits (by decide) (by decide) listed
  exact absurd digit (by decide)

/-- What stands behind the last `#` of a key is its number. -/
theorem nodeKey_number (title : String) (index : Nat) :
    (nodeKey title index).toList.reverse.takeWhile (· ≠ '#') =
      (toString index).toList.reverse := by
  have letters : (nodeKey title index).toList =
      title.toList ++ '#' :: (toString index).toList := by simp [nodeKey]
  have digits : ∀ c ∈ (toString index).toList.reverse, decide (c ≠ '#') = true := by
    intro c member
    rw [decide_eq_true_eq]
    rintro rfl
    exact mark_notMem_number index (List.mem_reverse.mp member)
  rw [letters, List.reverse_append, List.reverse_cons, List.append_assoc,
    List.takeWhile_append_of_pos digits]
  simp

theorem nodeKey_inj {title other : String} {index place : Nat}
    (same : nodeKey title index = nodeKey other place) : title = other ∧ index = place := by
  have numbers := nodeKey_number title index
  rw [same, nodeKey_number, List.reverse_inj] at numbers
  have digits : Nat.toDigits 10 place = Nat.toDigits 10 index := by simpa [Nat.repr] using numbers
  have values := congrArg (Nat.ofDigitChars 10 · 0) digits
  simp only [Nat.ofDigitChars_toDigits (b := 10) (by decide) (by decide)] at values
  subst values
  refine ⟨String.toList_inj.mp ?_, rfl⟩
  simpa [nodeKey] using congrArg String.toList same

end Ledger

/-- What is shown only once: the body of a once block, or a node of a group. -/
inductive Item where
  | block (id : String)
  | node (title : String) (index : Nat)
  deriving DecidableEq, Repr

namespace Ledger

def seen (l : Ledger) : Item → Bool
  | .block id => l.blockSeen id
  | .node title index => l.nodeSeen title index

def mark (l : Ledger) : Item → Ledger
  | .block id => l.markBlock id
  | .node title index => l.markNode title index

/-- Marking an item shows in no other item. -/
theorem seen_mark (l : Ledger) (marked item : Item) :
    (l.mark marked).seen item = (decide (item = marked) || l.seen item) := by
  cases marked with
  | block id =>
      cases item with
      | block other => simp [mark, seen, markBlock, blockSeen, Table.contains_insert]
      | node title index => simp [mark, seen, markBlock, nodeSeen]
  | node title index =>
      cases item with
      | block id => simp [mark, seen, markNode, blockSeen]
      | node other place =>
          have keys : nodeKey other place = nodeKey title index ↔
              other = title ∧ place = index := by
            constructor
            · exact nodeKey_inj
            · rintro ⟨rfl, rfl⟩
              rfl
          simp [mark, seen, markNode, nodeSeen, Table.contains_insert, keys]

/-- Every name that the one ledger holds, the other holds as well. -/
structure Within (l later : Ledger) : Prop where
  blocks : ∀ id, l.blocks.contains id = true → later.blocks.contains id = true
  nodes : ∀ key, l.nodes.contains key = true → later.nodes.contains key = true

theorem Within.refl (l : Ledger) : l.Within l :=
  ⟨fun _ held => held, fun _ held => held⟩

theorem Within.trans {a b c : Ledger} (first : a.Within b) (second : b.Within c) : a.Within c :=
  ⟨fun id held => second.blocks id (first.blocks id held),
    fun key held => second.nodes key (first.nodes key held)⟩

theorem within_mark (l : Ledger) (item : Item) : l.Within (l.mark item) := by
  cases item with
  | block id =>
      refine ⟨?_, fun _ held => held⟩
      intro other held
      simp [mark, markBlock, Table.contains_insert, held]
  | node title index =>
      refine ⟨fun _ held => held, ?_⟩
      intro key held
      simp [mark, markNode, Table.contains_insert, held]

/-- What became of an item. -/
inductive Entry where
  | shown (item : Item)
  | withheld (item : Item)
  deriving DecidableEq, Repr

/-- A ledger goes through a history: what it shows it has not seen and marks, and what it
withholds it has seen. -/
inductive Replays : Ledger → List Entry → Ledger → Prop
  | nil (l : Ledger) : Replays l [] l
  | shown {l later : Ledger} {item : Item} {rest : List Entry} (fresh : l.seen item = false)
      (tail : Replays (l.mark item) rest later) : Replays l (.shown item :: rest) later
  | withheld {l later : Ledger} {item : Item} {rest : List Entry} (known : l.seen item = true)
      (tail : Replays l rest later) : Replays l (.withheld item :: rest) later

namespace Replays

variable {l middle later : Ledger} {history : List Entry}

theorem append {rest : List Entry} (first : Replays l history middle)
    (second : Replays middle rest later) : Replays l (history ++ rest) later := by
  induction first with
  | nil l => exact second
  | shown fresh _ ih => exact .shown fresh (ih second)
  | withheld known _ ih => exact .withheld known (ih second)

/-- A history withholds what the ledger has seen, as often as it likes. -/
theorem of_withheld {items : List Item} (known : ∀ item ∈ items, l.seen item = true) :
    Replays l (items.map .withheld) l := by
  induction items with
  | nil => exact .nil l
  | cons item items ih =>
      obtain ⟨first, others⟩ := List.forall_mem_cons.mp known
      exact .withheld first (ih others)

theorem within (replays : Replays l history later) : l.Within later := by
  induction replays with
  | nil l => exact .refl l
  | @shown l later item rest fresh _ ih => exact (within_mark l item).trans ih
  | withheld known _ ih => exact ih

/-- An item that the ledger has seen is not shown again. -/
theorem not_shown_of_seen (replays : Replays l history later) {item : Item}
    (known : l.seen item = true) : .shown item ∉ history := by
  induction replays with
  | nil l => simp
  | @shown l later marked rest fresh _ ih =>
      have differ : item ≠ marked := by
        rintro rfl
        rw [fresh] at known
        cases known
      have still : (l.mark marked).seen item = true := by rw [seen_mark, known, Bool.or_true]
      simpa [differ] using ih still
  | withheld _ _ ih => simpa using ih known

theorem count_shown (replays : Replays l history later) (item : Item) :
    history.count (.shown item) ≤ 1 := by
  induction replays with
  | nil l => simp
  | @shown l later marked rest fresh tail ih =>
      by_cases same : marked = item
      · subst same
        have marking : (l.mark marked).seen marked = true := by simp [seen_mark]
        have absent := List.count_eq_zero.mpr (tail.not_shown_of_seen marking)
        simp [absent]
      · simpa [same] using ih
  | withheld _ _ ih => simpa using ih

/-- An item is withheld only if the ledger had seen it at first or it was shown before. -/
theorem withheld_cause (replays : Replays l history later) {item : Item}
    {before after : List Entry} (split : history = before ++ .withheld item :: after) :
    l.seen item = true ∨ .shown item ∈ before := by
  induction replays generalizing before with
  | nil l => simp at split
  | @shown l later marked rest fresh _ ih =>
      cases before with
      | nil => simp at split
      | cons entry before =>
          obtain ⟨rfl, same⟩ := List.cons.inj split
          have earlier := ih same
          rw [seen_mark] at earlier
          simp only [Bool.or_eq_true, decide_eq_true_eq, List.mem_cons,
            Entry.shown.injEq] at earlier ⊢
          tauto
  | @withheld l later marked rest known _ ih =>
      cases before with
      | nil =>
          obtain ⟨same, -⟩ := List.cons.inj split
          cases same
          exact .inl known
      | cons entry before =>
          obtain ⟨rfl, same⟩ := List.cons.inj split
          simpa using ih same

end Replays

end Ledger

end Dialogue
