import Dialogue.Proofs.Ledger.History
import Dialogue.Proofs.Program.Marks
import Dialogue.Proofs.Text.Digits

set_option autoImplicit false

namespace Dialogue.Program

open Script (Mark)

theorem numberTag_toList (number : Nat) :
    (numberTag number).toList = lineIdMark.toList ++ Nat.toDigits 16 number := by
  simp [numberTag]

theorem numberTag_inj {m n : Nat} (same : numberTag m = numberTag n) : m = n := by
  have letters := congrArg String.toList same
  rw [numberTag_toList, numberTag_toList] at letters
  exact Text.toDigits_inj (by decide) (by decide) (List.append_cancel_left letters)

theorem isLineId_numberTag (number : Nat) : isLineId (numberTag number) = true := by
  rw [isLineId, numberTag_toList, List.isPrefixOf_iff_prefix]
  exact List.prefix_append _ _

theorem defaultOnceNaming_inj {title other : String} {m n : Nat}
    (same : defaultOnceNaming title m = defaultOnceNaming other n) : title = other ∧ m = n := by
  have keys : ∀ title index,
      defaultOnceNaming title index = Ledger.nodeKey (title ++ "#once") index := by
    intro title index
    apply String.toList_inj.mp
    simp [defaultOnceNaming, Ledger.nodeKey]
  rw [keys, keys] at same
  obtain ⟨titles, numbers⟩ := Ledger.nodeKey_inj same
  refine ⟨String.toList_inj.mp ?_, numbers⟩
  simpa using congrArg String.toList titles

section Once

variable {naming : OnceNaming} {n last : Numbering} {entries : List Entry}

/-- The once blocks under a title get the numbers that follow. -/
theorem Counts.onces (counts : Counts naming n entries last) (title : String) :
    entries.filterMap (Entry.onceOf? title) =
      (List.range' (n.onceCount title) (entries.countP (Entry.isOnceOf title))).map
        (naming title) := by
  induction counts with
  | nil n => rfl
  | @cons n last entry rest gives tail ih =>
      rw [n.after_onceCount] at ih
      cases entry with
      | label given tags => exact ih
      | once other id =>
          by_cases same : other = title
          · subst same
            obtain rfl : id = naming other (n.onceCount other) := gives
            simp only [Entry.isOnceOf, List.countP_cons, List.countP_nil, beq_self_eq_true,
              if_true] at ih
            simp [Entry.onceOf?, Entry.onceId?, Entry.isOnceOf, List.range'_succ, ih]
          · simp only [Entry.isOnceOf, List.countP_cons, List.countP_nil, beq_iff_eq, same,
              if_false] at ih
            simp [Entry.onceOf?, Entry.isOnceOf, same, ih]

end Once

/-- The nodes of a title have the numbers of its once blocks, in order. -/
theorem group_onces (naming : OnceNaming) (d : Script.Document) (title : String) :
    (((ofDocument naming d).group? title).getD []).flatMap
        (fun node => ids .once (blockMentions title node.instructions)) =
      (List.range (d.onceCount title)).map (naming title) := by
  obtain ⟨entries, last, images, counts⟩ := lowerNodes_image naming .initial d.nodes
  have numbers := counts.onces title
  rw [images.onces, images.onceCount] at numbers
  rw [group?, ofDocument, groupNodes_get?, titled_getD, numbers, List.range_eq_range']
  rfl

theorem nodup_onces (d : Script.Document) :
    (ids .once (ofDocument defaultOnceNaming d).nodeMentions).Nodup := by
  have groups : ∀ entry ∈ (ofDocument defaultOnceNaming d).nodes.entries,
      entry.2.flatMap (fun node => ids .once (blockMentions entry.1 node.instructions)) =
        (List.range (d.onceCount entry.1)).map (defaultOnceNaming entry.1) := by
    intro entry member
    have found : (ofDocument defaultOnceNaming d).nodes.get? entry.1 = some entry.2 :=
      Table.get?_of_mem member
    rw [← group_onces, group?, found]
    rfl
  rw [ids_nodeMentions, List.flatMap_congr groups, List.nodup_flatMap]
  refine ⟨?_, ?_⟩
  · intro entry member
    exact List.nodup_range.map fun m n same => (defaultOnceNaming_inj same).2
  · -- Two groups have different titles, and a name tells its title.
    refine (ofDocument defaultOnceNaming d).nodes.ascending.imp ?_
    intro entry other below name own others
    obtain ⟨m, -, rfl⟩ := List.mem_map.mp own
    obtain ⟨n, -, same⟩ := List.mem_map.mp others
    exact String.ne_of_lt below (defaultOnceNaming_inj same).1.symm

/-- Whatever a script says, its once blocks have distinct identifiers, which number the once blocks
of each title in the order of the text. -/
theorem onceIds_distinct (d : Script.Document) :
    (∀ title, (((ofDocument defaultOnceNaming d).group? title).getD []).flatMap
        (fun node => ids .once (blockMentions title node.instructions)) =
      (List.range (d.onceCount title)).map fun k => title ++ "#once#" ++ toString k) ∧
    (ids .once (ofDocument defaultOnceNaming d).nodeMentions).Nodup ∧
    ∀ id, .duplicateId .once id ∉ (ofDocument defaultOnceNaming d).validate :=
  ⟨group_onces defaultOnceNaming d, nodup_onces d,
    (validate_unique_iff _ (by decide)).mpr (nodup_onces d)⟩

section Lines

variable {naming : OnceNaming} {n last : Numbering} {entries : List Entry}

/-- A line or an option has the identifier of the script, or the number that is next. -/
theorem Numbering.Gives.label {entry : Entry} (gives : n.Gives naming entry)
    (single : entry.mark.lineIds.length ≤ 1) :
    [entry].filterMap Entry.label? = (entry.mark.lineIds ++
      (List.range' n.line ([entry].countP Entry.isUnnamed)).map numberTag).map some := by
  cases entry with
  | once title id => rfl
  | label given tags =>
      obtain ⟨mark, marks, rfl⟩ := gives
      change (given.filter isLineId).length ≤ 1 at single
      have unmarked : mark.find? isLineId = none := by
        rcases marks with rfl | rfl <;> rfl
      by_cases named : given.any isLineId = true
      · obtain ⟨id, only⟩ : ∃ id, given.filter isLineId = [id] := by
          obtain ⟨tag, member, marked⟩ := List.any_eq_true.mp named
          have present : 0 < (given.filter isLineId).length :=
            List.length_pos_of_mem (List.mem_filter.mpr ⟨member, marked⟩)
          exact List.length_eq_one_iff.mp (by omega)
        have found : given.find? isLineId = some id := by
          rw [← List.head?_filter, only]
          rfl
        simp [Numbering.identify, named, Entry.label?, lineId?, Entry.mark, Mark.lineIds,
          Entry.isUnnamed, only, found]
      · have absent : given.find? isLineId = none := by simpa using named
        have nowhere : given.filter isLineId = [] := by simpa using named
        have next : isLineId n.lineTag = true := isLineId_numberTag n.line
        simp [Numbering.identify, named, Entry.label?, lineId?, Entry.mark, Mark.lineIds,
          Entry.isUnnamed, nowhere, absent, next]
        rfl

/-- The identifiers of lines and options are those of the script and the numbers that follow. -/
theorem Counts.lines (counts : Counts naming n entries last)
    (single : ∀ entry ∈ entries, entry.mark.lineIds.length ≤ 1) :
    (entries.filterMap Entry.label?).Perm
      (((entries.map Entry.mark).flatMap Mark.lineIds ++
        (List.range' n.line (entries.countP Entry.isUnnamed)).map numberTag).map some) := by
  induction counts with
  | nil n => exact .refl _
  | @cons n last entry rest gives tail ih =>
      obtain ⟨own, others⟩ := List.forall_mem_cons.mp single
      have first := gives.label own
      have later := ih others
      rw [n.after_line] at later
      have numbers : (entry :: rest).countP Entry.isUnnamed =
          [entry].countP Entry.isUnnamed + rest.countP Entry.isUnnamed := by
        rw [← List.singleton_append, List.countP_append]
      rw [← List.singleton_append, List.filterMap_append, first, List.singleton_append, numbers,
        ← List.range'_append_1, List.map_cons, List.flatMap_cons]
      refine (later.append_left _).trans ?_
      simp only [List.map_append, List.append_assoc]
      exact (List.perm_append_comm_assoc _ _ _).append_left _

/-- The identifiers of the program are those of the script and the first numbers. -/
theorem lineIds_perm (naming : OnceNaming) (d : Script.Document)
    (single : ∀ mark ∈ d.marks, mark.lineIds.length ≤ 1) :
    (ofDocument naming d).lineIds.Perm
      ((d.lineIds ++ (List.range d.unnamed).map numberTag).map some) := by
  obtain ⟨entries, last, images, counts⟩ := lowerNodes_image naming .initial d.nodes
  have marks : entries.map Entry.mark = d.marks := images.marks
  have few : ∀ entry ∈ entries, entry.mark.lineIds.length ≤ 1 := by
    intro entry member
    refine single entry.mark ?_
    rw [← marks]
    exact List.mem_map_of_mem member
  have unnamed : entries.countP Entry.isUnnamed = d.unnamed := by
    rw [Script.Document.unnamed, ← marks, List.countP_map]
    refine List.countP_congr ?_
    rintro (⟨given, tags⟩ | ⟨title, id⟩) member <;> rfl
  have numbered := counts.lines few
  rw [marks, unnamed] at numbered
  have groups : (ofDocument naming d).lineIds.Perm (entries.filterMap Entry.label?) :=
    ((groupNodes_perm _).flatMap_right _).trans images.lines.symm
  rw [List.range_eq_range']
  exact groups.trans numbered

/-- Where every line and option of a script has at most one identifier, and the identifiers are
distinct, those of the program are the identifiers of the script and a number for each other line
or option. They are distinct exactly if none of the numbers is an identifier of the script. -/
theorem lineIds_nodup_iff (naming : OnceNaming) (d : Script.Document)
    (single : ∀ mark ∈ d.marks, mark.lineIds.length ≤ 1) (distinct : d.lineIds.Nodup) :
    (ofDocument naming d).lineIds.Perm
        ((d.lineIds ++ (List.range d.unnamed).map numberTag).map some) ∧
      ((ofDocument naming d).lineIds.Nodup ↔ ∀ k < d.unnamed, numberTag k ∉ d.lineIds) ∧
      ((∀ id, .duplicateId .line id ∉ (ofDocument naming d).validate) ↔
        ∀ k < d.unnamed, numberTag k ∉ d.lineIds) := by
  have all := lineIds_perm naming d single
  have numbers : ((List.range d.unnamed).map numberTag).Nodup :=
    List.nodup_range.map fun m n same => numberTag_inj same
  have apart : (d.lineIds ++ (List.range d.unnamed).map numberTag).Nodup ↔
      ∀ k < d.unnamed, numberTag k ∉ d.lineIds := by
    rw [List.nodup_append']
    simp only [distinct, numbers, true_and, List.disjoint_right, List.mem_map, List.mem_range,
      forall_exists_index, and_imp, forall_apply_eq_imp_iff₂]
  have seen : (ids .line (ofDocument naming d).nodeMentions).Perm
      (d.lineIds ++ (List.range d.unnamed).map numberTag) := by
    rw [ids_line_nodeMentions]
    refine (all.filterMap id).trans (.of_eq ?_)
    rw [List.filterMap_map]
    exact List.filterMap_some
  refine ⟨all, ?_, ?_⟩
  · rw [all.nodup_iff, List.nodup_map_iff (Option.some_injective _), apart]
  · rw [validate_unique_iff _ (by decide), seen.nodup_iff, apart]

end Lines

/-- A node with lines that have the given tags. -/
def chat (tags : List (List String)) : Script.Document :=
  ⟨[], [⟨"A", .empty, [], [], none, tags.map fun own => .line ⟨none, "Hi", own, none⟩, 1⟩]⟩

theorem greeting_distinct :
    (ofDocument defaultOnceNaming (chat [["line:greet"], [], [], ["line:2"]])).lineIds.Nodup := by
  have all := lineIds_nodup_iff defaultOnceNaming (chat [["line:greet"], [], [], ["line:2"]])
    (by decide +kernel) (by decide +kernel)
  exact all.2.1.mpr (by decide +kernel)

/-- A line gets the number that the script itself gives to another. -/
theorem taken_clashes :
    (∀ mark ∈ (chat [["line:0"], []]).marks, mark.lineIds.length ≤ 1) ∧
    (chat [["line:0"], []]).lineIds.Nodup ∧
    ¬(ofDocument defaultOnceNaming (chat [["line:0"], []])).lineIds.Nodup ∧
    .duplicateId .line "line:0" ∈
      (ofDocument defaultOnceNaming (chat [["line:0"], []])).validate := by
  decide +kernel

end Dialogue.Program
