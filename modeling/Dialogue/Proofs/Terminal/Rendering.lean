import Dialogue.Proofs.Terminal.Painting

set_option autoImplicit false

namespace Dialogue

namespace Terminal

/-- Characters of a text from a position on, with the wrappers that they are shown under. -/
structure Run where
  start : Nat
  wrappers : List Wrapper
  text : List Char

def Run.stop (run : Run) : Nat :=
  run.start + run.text.length

/-- The runs among stretches, the first of which begins at the given position. -/
def Stretch.runs (start : Nat) : List Stretch → List Run
  | [] => []
  | .lineBreak :: rest => runs start rest
  | .run wrappers text :: rest => ⟨start, wrappers, text⟩ :: runs (start + text.length) rest

theorem Stretch.runs_lineBreaks_append (count start : Nat) (stretches : List Stretch) :
    runs start (List.replicate count .lineBreak ++ stretches) = runs start stretches := by
  induction count with
  | zero => rfl
  | succ count ih => exact ih

theorem Stretch.runs_lineBreaks (count start : Nat) :
    runs start (List.replicate count .lineBreak) = [] := by
  have none := runs_lineBreaks_append count start []
  rwa [List.append_nil] at none

end Terminal

namespace Markup

open Dialogue.Terminal

/-- How many markers at a position ask for a line break. -/
def lineBreaks (m : Markup) (index : Nat) : Nat :=
  (m.markersAt index).countP fun s => s.wrappers.any fun w => w.name = "br"

/-- A text from a position on, with so many line breaks before each of its characters and at its
end. -/
def broken (breaks : Nat → Nat) (index : Nat) : List Char → List Char
  | [] => List.replicate (breaks index) '\n'
  | c :: cs => List.replicate (breaks index) '\n' ++ c :: broken breaks (index + 1) cs

theorem breaksAt_eq (m : Markup) (index : Nat) :
    (if m.breaksAt index then [Stretch.lineBreak] else []) =
      List.replicate (min 1 (m.lineBreaks index)) Stretch.lineBreak := by
  by_cases breaks : m.breaksAt index = true
  · have some : 0 < m.lineBreaks index := List.countP_pos_iff.mpr (List.any_eq_true.mp breaks)
    rw [if_pos breaks, Nat.min_eq_left some]
    rfl
  · have none : m.lineBreaks index = 0 := by
      refine List.countP_eq_zero.mpr fun s listed asks => breaks ?_
      exact List.any_eq_true.mpr ⟨s, listed, asks⟩
    rw [if_neg breaks, none]
    rfl

/-- Markers stand inside the text or at its end. -/
theorem WellFormed.lineBreaks_beyond {m : Markup} (wellFormed : m.WellFormed) {index : Nat}
    (beyond : m.text.length < index) : m.lineBreaks index = 0 := by
  refine List.countP_eq_zero.mpr fun s listed _ => ?_
  obtain ⟨member, here⟩ := List.mem_filter.mp listed
  rw [Bool.and_eq_true, beq_iff_eq] at here
  obtain ⟨anchor, bounded, -⟩ := wellFormed.anchored s member here.1
  omega

theorem lineBreaks_of_unmarked {m : Markup} {index : Nat} (unmarked : m.markersAt index = []) :
    m.lineBreaks index = 0 := by
  rw [lineBreaks, unmarked, List.countP_nil]

/-- Where none is due, the characters stand next to each other. -/
theorem broken_skip {breaks : Nat → Nat} {index count : Nat} {cs : List Char}
    (fits : count ≤ cs.length) (none : ∀ i, index ≤ i → i < index + count → breaks i = 0) :
    broken breaks index cs = cs.take count ++ broken breaks (index + count) (cs.drop count) := by
  induction count generalizing index cs with
  | zero => rfl
  | succ count ih =>
      cases cs with
      | nil => cases fits
      | cons c cs =>
          have here : breaks index = 0 := none index (Nat.le_refl _) (by omega)
          have later : ∀ i, index + 1 ≤ i → i < index + 1 + count → breaks i = 0 :=
            fun i above below => none i (by omega) (by omega)
          rw [broken, here, ih (Nat.le_of_succ_le_succ fits) later, Nat.add_right_comm index 1]
          rfl

theorem mem_of_mem_broken {breaks : Nat → Nat} {index : Nat} {cs : List Char} {c : Char}
    (listed : c ∈ broken breaks index cs) : c = '\n' ∨ c ∈ cs := by
  induction cs generalizing index with
  | nil => exact .inl (List.eq_of_mem_replicate listed)
  | cons d cs ih =>
      rw [broken, List.mem_append, List.mem_cons] at listed
      rcases listed with due | rfl | later
      · exact .inl (List.eq_of_mem_replicate due)
      · exact .inr (List.mem_cons_self ..)
      · exact (ih later).imp_right (List.mem_cons_of_mem d)

/-- With no more line breaks at any place, a text is no longer. -/
theorem length_broken_le {breaks more : Nat → Nat} (le : ∀ i, breaks i ≤ more i) (index : Nat)
    (cs : List Char) : (broken breaks index cs).length ≤ (broken more index cs).length := by
  induction cs generalizing index with
  | nil => simpa [broken] using le index
  | cons c cs ih =>
      have here := le index
      have later := ih (index + 1)
      simp only [broken, List.length_append, List.length_replicate, List.length_cons]
      omega

theorem broken_eq_iff {breaks more : Nat → Nat} (le : ∀ i, breaks i ≤ more i) (index : Nat)
    (cs : List Char) :
    broken breaks index cs = broken more index cs ↔
      ∀ i, index ≤ i → i ≤ index + cs.length → breaks i = more i := by
  induction cs generalizing index with
  | nil =>
      rw [broken, broken, List.replicate_left_inj]
      constructor
      · intro same i above below
        obtain rfl : i = index := Nat.le_antisymm below above
        exact same
      · exact fun same => same index (Nat.le_refl _) (Nat.le_refl _)
  | cons c cs ih =>
      rw [broken, broken, List.length_cons]
      constructor
      · intro same
        -- Neither half is longer on the right, so both are as long.
        have equal : breaks index = more index := by
          have here := le index
          have later := length_broken_le le (index + 1) cs
          have lengths := congrArg List.length same
          simp only [List.length_append, List.length_replicate, List.length_cons] at lengths
          omega
        rw [equal, List.append_cancel_left_eq, List.cons_inj_right, ih] at same
        intro i above below
        by_cases here : i = index
        · rw [here, equal]
        · exact same i (by omega) (by omega)
      · intro same
        have rest := (ih (index + 1)).mpr fun i above below => same i (by omega) (by omega)
        rw [same index (Nat.le_refl _) (by omega), rest]

/-- A character under wrappers that count as equal to the given ones, with no marker before it. -/
def Joins (m : Markup) (wrappers : List Wrapper) (index : Nat) : Prop :=
  (m.wrappersAt index == wrappers) = true ∧ m.markersAt index = []

/-- A character that joins the one before it. -/
def Continues (m : Markup) (index : Nat) : Prop :=
  m.Joins (m.wrappersAt (index - 1)) index

theorem joins_congr {m : Markup} {a b : List Wrapper} (agree : Agree a b) (index : Nat) :
    m.Joins a index ↔ m.Joins b index := by
  rw [Joins, Joins, Agree.beq_congr (.inl rfl) agree]

/-- A run takes all the characters that join it, up to the first that does not. -/
theorem runLength_spec (m : Markup) (wrappers : List Wrapper) (index : Nat) (cs : List Char) :
    m.runLength wrappers index cs ≤ cs.length ∧
      (∀ i, index ≤ i → i < index + m.runLength wrappers index cs → m.Joins wrappers i) ∧
      (m.runLength wrappers index cs = cs.length ∨
        ¬m.Joins wrappers (index + m.runLength wrappers index cs)) := by
  induction cs generalizing index with
  | nil => exact ⟨Nat.le_refl 0, fun i above below => absurd below (Nat.not_lt.mpr above), .inl rfl⟩
  | cons c cs ih =>
      have joins : (m.wrappersAt index == wrappers && (m.markersAt index).isEmpty) = true ↔
          m.Joins wrappers index := by
        rw [Bool.and_eq_true, List.isEmpty_iff]
        rfl
      rw [runLength]
      by_cases here : m.Joins wrappers index
      · obtain ⟨fits, inner, last⟩ := ih (index + 1)
        rw [if_pos (joins.mpr here)]
        refine ⟨Nat.succ_le_succ fits, ?_, ?_⟩
        · intro i above below
          by_cases first : i = index
          · exact first ▸ here
          · exact inner i (by omega) (by omega)
        · rw [← Nat.add_assoc, Nat.add_right_comm]
          exact last.imp_left (congrArg (· + 1))
      · rw [if_neg (mt joins.mp here)]
        exact ⟨Nat.zero_le _, fun i above below => absurd below (Nat.not_lt.mpr above), .inr here⟩

theorem stretchesFrom_nil (m : Markup) (index : Nat) :
    m.stretchesFrom index [] = List.replicate (min 1 (m.lineBreaks index)) .lineBreak := by
  rw [stretchesFrom, breaksAt_eq]

theorem stretchesFrom_cons (m : Markup) (index : Nat) (c : Char) (cs : List Char) :
    let count := m.runLength (m.wrappersAt index) (index + 1) cs
    m.stretchesFrom index (c :: cs) =
      List.replicate (min 1 (m.lineBreaks index)) .lineBreak ++
        .run (m.wrappersAt index) (c :: cs.take count) ::
          m.stretchesFrom (index + 1 + count) (cs.drop count) := by
  rw [stretchesFrom, breaksAt_eq]

theorem render_lineBreaks (colored : Bool) (count : Nat) :
    (List.replicate count Stretch.lineBreak).flatMap (Stretch.render colored) =
      List.replicate count '\n' := by
  induction count with
  | zero => rfl
  | succ count ih => exact congrArg ('\n' :: ·) ih

theorem stretchesFrom_plain (m : Markup) (index : Nat) (cs : List Char) :
    (m.stretchesFrom index cs).flatMap (Stretch.render false) =
      broken (fun i => min 1 (m.lineBreaks i)) index cs := by
  induction index, cs using stretchesFrom.induct m with
  | case1 index => rw [stretchesFrom_nil, render_lineBreaks, broken]
  | case2 index c cs wrappers count ih =>
      obtain ⟨fits, inner, -⟩ := m.runLength_spec wrappers (index + 1) cs
      have none (i : Nat) (above : index + 1 ≤ i) (below : i < index + 1 + count) :
          min 1 (m.lineBreaks i) = 0 := by
        rw [lineBreaks_of_unmarked (inner i above below).2]
        rfl
      rw [stretchesFrom_cons, List.flatMap_append, render_lineBreaks, List.flatMap_cons, ih, broken,
        broken_skip fits none]
      rfl

theorem render_plain (m : Markup) :
    (m.render false).toList = broken (fun i => min 1 (m.lineBreaks i)) 0 m.text.toList := by
  rw [render, String.toList_ofList]
  exact m.stretchesFrom_plain 0 m.text.toList

theorem render_dressed (m : Markup) (colored : Bool) :
    Dressed (m.render false).toList (m.render colored).toList := by
  rw [render, render, String.toList_ofList, String.toList_ofList]
  induction m.stretches with
  | nil => exact .nil
  | cons stretch stretches ih =>
      rw [List.flatMap_cons, List.flatMap_cons]
      refine Dressed.append ?_ ih
      cases stretch with
      | lineBreak => exact .refl _
      | run wrappers text => exact (Style.ofWrappers wrappers).paint_dressed colored text

/-- A longest run of a formatted text: all its characters but the first continue it, and neither its
first character nor the one behind its last continues what is before. -/
structure Longest (m : Markup) (run : Run) : Prop where
  filled : run.text ≠ []
  letters : run.text <+: m.text.toList.drop run.start
  wrappers : run.wrappers = m.wrappersAt run.start
  first : run.start = 0 ∨ ¬m.Continues run.start
  inner : ∀ i, run.start < i → i < run.stop → m.Continues i
  last : run.stop = m.text.length ∨ ¬m.Continues run.stop
  styled : ∀ i, run.start ≤ i → i < run.stop →
    Style.ofWrappers (m.wrappersAt i) = Style.ofWrappers run.wrappers

theorem run_stop (m : Markup) (wrappers : List Wrapper) (index : Nat) (c : Char) (cs : List Char) :
    let count := m.runLength wrappers (index + 1) cs
    index + (c :: cs.take count).length = index + 1 + count := by
  intro count
  have fits : count ≤ cs.length := (m.runLength_spec wrappers (index + 1) cs).1
  rw [List.length_cons, List.length_take, Nat.min_eq_left fits]
  omega

/-- The run that starts at a character. -/
theorem longest_of_start {m : Markup} {index : Nat} {c : Char} {cs : List Char}
    (rest : m.text.toList.drop index = c :: cs) (first : index = 0 ∨ ¬m.Continues index) :
    m.Longest ⟨index, m.wrappersAt index,
      c :: cs.take (m.runLength (m.wrappersAt index) (index + 1) cs)⟩ := by
  obtain ⟨-, inner, last⟩ := m.runLength_spec (m.wrappersAt index) (index + 1) cs
  have stop := m.run_stop (m.wrappersAt index) index c cs
  generalize m.runLength (m.wrappersAt index) (index + 1) cs = count at inner last stop ⊢
  have agree (i : Nat) (above : index ≤ i) (below : i < index + 1 + count) :
      Agree (m.wrappersAt i) (m.wrappersAt index) := by
    by_cases start : i = index
    · exact .inl (congrArg m.wrappersAt start)
    · exact .inr (inner i (by omega) below).1
  have joins (i : Nat) (above : index < i) (below : i ≤ index + 1 + count) :
      m.Joins (m.wrappersAt index) i ↔ m.Continues i :=
    joins_congr (agree (i - 1) (by omega) (by omega)).symm i
  refine ⟨List.cons_ne_nil _ _, ?_, rfl, first, ?_, ?_, ?_⟩
  · rw [rest]
    exact (List.prefix_cons_inj c).mpr (List.take_prefix count cs)
  · rw [Run.stop, stop]
    exact fun i above below => (joins i above (by omega)).mp (inner i above below)
  · rw [Run.stop, stop]
    refine last.imp (fun all => ?_) fun differs continues => ?_
    · have lengths := congrArg List.length rest
      rw [List.length_drop, List.length_cons, String.length_toList] at lengths
      omega
    · exact differs ((joins _ (by omega) (Nat.le_refl _)).mpr continues)
  · rw [Run.stop, stop]
    exact fun i above below => Style.ofWrappers_of_agree (agree i above below)

theorem runs_longest {m : Markup} {index : Nat} {cs : List Char}
    (rest : m.text.toList.drop index = cs) (first : cs ≠ [] → index = 0 ∨ ¬m.Continues index) :
    (∀ run ∈ Stretch.runs index (m.stretchesFrom index cs), m.Longest run) ∧
      (Stretch.runs index (m.stretchesFrom index cs)).flatMap Run.text = cs := by
  induction index, cs using stretchesFrom.induct m with
  | case1 index =>
      rw [stretchesFrom_nil, Stretch.runs_lineBreaks]
      exact ⟨fun _ listed => (nomatch listed), rfl⟩
  | case2 index c cs wrappers count ih =>
      have longest := longest_of_start rest (first (List.cons_ne_nil c cs))
      have stop : index + (c :: cs.take count).length = index + 1 + count :=
        m.run_stop wrappers index c cs
      have later : m.text.toList.drop (index + 1 + count) = cs.drop count := by
        rw [← List.drop_drop, ← List.drop_drop, rest]
        rfl
      have last : index + 1 + count = m.text.length ∨ ¬m.Continues (index + 1 + count) :=
        stop ▸ longest.last
      -- Either the run ends the text, or it was cut off by what follows.
      have next (more : cs.drop count ≠ []) :
          index + 1 + count = 0 ∨ ¬m.Continues (index + 1 + count) := by
        refine .inr (last.resolve_left fun all => more ?_)
        rw [← later, all, ← String.length_toList, List.drop_length]
      obtain ⟨runs, letters⟩ := ih later next
      rw [stretchesFrom_cons, Stretch.runs_lineBreaks_append, Stretch.runs, stop]
      refine ⟨List.forall_mem_cons.mpr ⟨longest, runs⟩, ?_⟩
      rw [List.flatMap_cons, letters]
      exact congrArg (c :: ·) (List.take_append_drop count cs)

/-- A run as it is shown, behind the line break that is due before it. -/
def showRun (m : Markup) (colored : Bool) (run : Run) : List Char :=
  List.replicate (min 1 (m.lineBreaks run.start)) '\n' ++
    (Style.ofWrappers run.wrappers).paint colored run.text

theorem stretchesFrom_painted (m : Markup) (colored : Bool) (index : Nat) (cs : List Char) :
    (m.stretchesFrom index cs).flatMap (Stretch.render colored) =
      (Stretch.runs index (m.stretchesFrom index cs)).flatMap (m.showRun colored) ++
        List.replicate (min 1 (m.lineBreaks (index + cs.length))) '\n' := by
  induction index, cs using stretchesFrom.induct m with
  | case1 index =>
      rw [stretchesFrom_nil, render_lineBreaks, Stretch.runs_lineBreaks]
      rfl
  | case2 index c cs wrappers count ih =>
      have fits : count ≤ cs.length := (m.runLength_spec wrappers (index + 1) cs).1
      have stop : index + (c :: cs.take count).length = index + 1 + count :=
        m.run_stop wrappers index c cs
      have total : index + 1 + count + (cs.drop count).length = index + (c :: cs).length := by
        rw [List.length_drop, List.length_cons]
        omega
      rw [stretchesFrom_cons, Stretch.runs_lineBreaks_append, List.flatMap_append,
        render_lineBreaks, List.flatMap_cons, ih, total, Stretch.runs, stop, List.flatMap_cons, showRun,
        List.append_assoc, List.append_assoc]
      rfl

/-- A formatted text is shown run by run, each longest run in the style of its characters, which
adds nothing but sequences. Without them, it is the text with a line break wherever some marker asks
for one. That is one for each marker exactly if no two ask for one at the same place. -/
theorem render_runs {m : Markup} (wellFormed : m.WellFormed) :
    (∀ colored, (m.render colored).toList =
      (Stretch.runs 0 m.stretches).flatMap (m.showRun colored) ++
        List.replicate (min 1 (m.lineBreaks m.text.length)) '\n') ∧
    (∀ run ∈ Stretch.runs 0 m.stretches, m.Longest run) ∧
    (Stretch.runs 0 m.stretches).flatMap Run.text = m.text.toList ∧
    (∀ colored, Dressed (m.render false).toList (m.render colored).toList) ∧
    ('\x1b' ∉ m.text.toList →
      ∀ colored, undressed (m.render colored).toList = (m.render false).toList) ∧
    (m.render false).toList = broken (fun i => min 1 (m.lineBreaks i)) 0 m.text.toList ∧
    ((m.render false).toList = broken m.lineBreaks 0 m.text.toList ↔
      ∀ i, m.lineBreaks i ≤ 1) := by
  obtain ⟨longest, letters⟩ :=
    runs_longest (m := m) (List.drop_zero (l := m.text.toList)) fun _ => .inl rfl
  refine ⟨?_, longest, letters, m.render_dressed, ?_, m.render_plain, ?_⟩
  · intro colored
    have painted := m.stretchesFrom_painted colored 0 m.text.toList
    rw [Nat.zero_add, String.length_toList] at painted
    rw [render, String.toList_ofList]
    exact painted
  · intro free colored
    refine (m.render_dressed colored).undressed_eq fun listed => ?_
    rw [render_plain] at listed
    rcases mem_of_mem_broken listed with wrong | inside
    · cases wrong
    · exact free inside
  · rw [render_plain, broken_eq_iff fun i => Nat.min_le_right 1 _]
    constructor
    · intro same i
      by_cases inside : i ≤ m.text.length
      · have here := same i (Nat.zero_le i) (by rwa [Nat.zero_add, String.length_toList])
        omega
      · rw [wellFormed.lineBreaks_beyond (by omega)]
        exact Nat.zero_le 1
    · intro single i _ _
      exact Nat.min_eq_right (single i)

/-- A bold word, and a line break before the last one. -/
def warmGreeting : Markup :=
  ⟨"Hi therefriend",
    [.run 0 2 [.named "b" .empty], .run 2 8 [], .markerAt 8 [.named "br" .empty], .run 8 14 []]⟩

theorem warmGreeting_render :
    warmGreeting.WellFormed ∧ warmGreeting.render false = "Hi there\nfriend" ∧
      undressed (warmGreeting.render true).toList = "Hi there\nfriend".toList := by
  have wellFormed : warmGreeting.WellFormed := Tiled.wellFormed
    ⟨.run (by decide) (.run (by decide) (.marker (.run (by decide) .nil))), by decide⟩
  obtain ⟨-, -, -, -, stripped, plain, -⟩ := render_runs wellFormed
  have shown : (warmGreeting.render false).toList = "Hi there\nfriend".toList :=
    plain.trans (by decide)
  refine ⟨wellFormed, String.toList_injective shown, ?_⟩
  rw [stripped (by decide), shown]

/-- Two letters with two line breaks between them. -/
def doubleBreak : Markup :=
  ⟨"ab", [.run 0 1 [], .markerAt 1 [.named "br" .empty], .markerAt 1 [.named "br" .empty],
    .run 1 2 []]⟩

/-- Of two line breaks at one place, one is shown. -/
theorem doubleBreak_render :
    doubleBreak.WellFormed ∧ doubleBreak.lineBreaks 1 = 2 ∧ doubleBreak.render false = "a\nb" ∧
      broken doubleBreak.lineBreaks 0 doubleBreak.text.toList = "a\n\nb".toList := by
  have wellFormed : doubleBreak.WellFormed := Tiled.wellFormed
    ⟨.run (by decide) (.marker (.marker (.run (by decide) .nil))), by decide⟩
  have shown : (doubleBreak.render false).toList = "a\nb".toList :=
    doubleBreak.render_plain.trans (by decide)
  exact ⟨wellFormed, by decide, String.toList_injective shown, by decide⟩

end Markup

end Dialogue
