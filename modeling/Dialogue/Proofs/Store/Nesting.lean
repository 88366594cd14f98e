import Dialogue.Proofs.Command.Assignment
import Dialogue.Proofs.Store.Evaluation
import Dialogue.Proofs.Store.Following
import Dialogue.Proofs.Text.Digits

set_option autoImplicit false

namespace Dialogue

namespace Store

/-- A path on which at most `room` smart variables nest before a function asks for something, and
at most `smartDepth` behind each such question. -/
def Fits : Nat → List Reading → Prop
  | _, [] => True
  | room, .smart _ :: rest => 0 < room ∧ Fits (room - 1) rest
  | _, .asked _ :: rest => Fits smartDepth rest

namespace Fits

variable {room : Nat} {path before run after : List Reading}

theorem countP_le (fits : Fits room path) :
    path.countP Reading.isSmart ≤
      room + smartDepth * path.countP fun reading => !reading.isSmart := by
  induction path generalizing room with
  | nil => exact Nat.zero_le _
  | cons reading path ih =>
      cases reading with
      | smart name =>
          have inner := ih fits.2
          have left := fits.1
          rw [List.countP_cons_of_pos rfl, List.countP_cons_of_neg Bool.false_ne_true]
          omega
      | asked question =>
          have inner := ih fits
          rw [List.countP_cons_of_neg Bool.false_ne_true, List.countP_cons_of_pos rfl,
            Nat.mul_succ]
          omega

theorem run_le (fits : Fits room (run ++ after))
    (smart : ∀ reading ∈ run, reading.isSmart = true) : run.length ≤ room := by
  induction run generalizing room with
  | nil => exact Nat.zero_le _
  | cons reading run ih =>
      rw [List.forall_mem_cons] at smart
      cases reading with
      | smart name =>
          have inner := ih fits.2 smart.2
          have left := fits.1
          rw [List.length_cons]
          omega
      | asked question => cases smart.1

/-- What is left of a path still fits. -/
theorem behind (fits : Fits room (before ++ after)) (bounded : room ≤ smartDepth) :
    ∃ left, left ≤ smartDepth ∧ Fits left after := by
  induction before generalizing room with
  | nil => exact ⟨room, bounded, fits⟩
  | cons reading before ih =>
      cases reading with
      | smart name => exact ih fits.2 (by omega)
      | asked question => exact ih fits (Nat.le_refl _)

end Fits

section Nesting

variable {s : Store} {conducts : String → Conduct} {replies : Draws → Replies}

theorem followRead_fits (asks : ∀ draws n question room, (replies draws n question).All (Fits room))
    (room : Nat) (draws : Draws) (name : String) :
    (s.followRead conducts replies room draws name).All (Fits room) := by
  induction room generalizing draws name with
  | zero => exact followRead_zero draws name
  | succ room ih =>
      exact followRead_smart (serves_of_asks fun draws n question => asks draws n question room) ih
        (fun _ => ⟨Nat.succ_pos room, trivial⟩) (fun _ _ fits => ⟨Nat.succ_pos room, fits⟩)
        draws name

/-- A function starts at the full depth again, so its paths fit whatever room there is. -/
theorem followAsk_fits (calls : Nat) (draws : Draws) (n : Nat) (question : Question) (room : Nat) :
    (s.followAsk conducts calls draws n question).All (Fits room) := by
  induction calls generalizing draws n question room with
  | zero => exact Traced.all_plain _ _
  | succ calls ih =>
      have serves : s.Serves conducts (s.followAsk conducts calls) (Fits smartDepth) :=
        serves_of_asks fun draws n question => ih draws n question smartDepth
      have inner := followReply_all serves (followRead_fits ih smartDepth) draws n question
      exact inner.inside trivial fun _ fits => fits

/-- A path of readings arises when a variable is read or a text is evaluated. -/
def Arises (s : Store) (conducts : String → Conduct) (calls : Nat) (path : List Reading) : Prop :=
  (∃ name, path ∈ (s.followValue conducts calls name).paths) ∨
    ∃ text, path ∈ (s.followEvaluate conducts calls text).paths

/-- Whatever holds of the paths of variables, and of those of functions, holds of every path. -/
theorem Arises.of_reads {P : List Reading → Prop} {calls : Nat} {path : List Reading}
    (arises : s.Arises conducts calls path)
    (serves : s.Serves conducts (s.followAsk conducts calls) P)
    (reads : ∀ draws name,
      (s.followRead conducts (s.followAsk conducts calls) smartDepth draws name).All P) :
    P path := by
  rcases arises with ⟨name, arose⟩ | ⟨text, arose⟩
  · exact reads s.draws (bareName name) path arose
  · exact followText_all serves reads s.draws text path arose

theorem Arises.fits {calls : Nat} {path : List Reading} (arises : s.Arises conducts calls path) :
    Fits smartDepth path :=
  arises.of_reads
    (serves_of_asks fun draws n question => followAsk_fits calls draws n question smartDepth)
    (followRead_fits (followAsk_fits calls) smartDepth)

/-- Functions that ask for nothing leave no trace on a path. -/
theorem Arises.smart_of_quiet {calls : Nat} {path : List Reading}
    (arises : s.Arises conducts calls path)
    (quiet : ∀ name, s.functions.contains name = true → (conducts name).Quiet) :
    ∀ reading ∈ path, reading.isSmart = true := by
  refine arises.of_reads (P := fun path => ∀ reading ∈ path, reading.isSmart = true)
    (serves_of_quiet quiet) ?_
  generalize smartDepth = room
  induction room with
  | zero => exact fun draws name => followRead_zero draws name
  | succ room ih =>
      refine followRead_smart (serves_of_quiet quiet) ih ?_ ?_
      · exact fun name => List.forall_mem_singleton.mpr rfl
      · exact fun name path smart => List.forall_mem_cons.mpr ⟨rfl, smart⟩

/-- An expression has no value where a variable has none, and for the same cause. -/
def Leans (s : Store) (e : Expr) (name : String) : Prop :=
  ∀ read cause, (∀ draws, read draws name = .error cause) →
    ∀ draws, s.eval s.access read draws e = .error cause

theorem leans_var (s : Store) (name : String) : s.Leans (.var name) name :=
  fun _ _ limited draws => limited draws

theorem Leans.left {s : Store} {e : Expr} {name : String} (leans : s.Leans e name) (op : BinaryOp)
    (right : Expr) : s.Leans (.binary op e right) name := by
  intro read cause limited draws
  rw [eval, leans read cause limited]
  rfl

/-- Smart variables each of which needs another one of them. -/
def Circular (s : Store) (names : String → Prop) : Prop :=
  ∀ name, names name → ∃ text e next,
    s.smart.get? name = some text ∧ parseExpr text = .ok e ∧ s.Leans e next ∧ names next

/-- Whatever is drawn, the same variable of the circle is the one that nests too deep. -/
theorem Circular.readWithin {names : String → Prop} (circular : s.Circular names) (room : Nat)
    {name : String} (inside : names name) :
    ∃ last, names last ∧
      ∀ draws, s.readWithin s.access room draws name = .error (.recursionLimit last) := by
  induction room generalizing name with
  | zero =>
      obtain ⟨text, e, next, smart, -, -, -⟩ := circular name inside
      refine ⟨name, inside, fun draws => ?_⟩
      rw [Store.readWithin, smart]
  | succ room ih =>
      obtain ⟨text, e, next, smart, spelled, leans, within⟩ := circular name inside
      obtain ⟨last, member, limited⟩ := ih within
      refine ⟨last, member, fun draws => ?_⟩
      rw [Store.readWithin, smart]
      dsimp only
      rw [spelled]
      exact leans _ _ limited draws

end Nesting

section Relay

open Dialogue.Expr Dialogue.Text

def peek : Function := fun access args =>
  access.read 0 (textArg args 0)

/-- Functions that every store starts with, and one that asks. -/
def peekConduct (name : String) : Conduct :=
  if name = "peek" then fun _ _ values => .ask 0 (.read (textArg values 0)) .answer
  else .alone ((builtins.get? name).getD peek)

theorem alone_describes {name : String} {f : Function} (found : builtins.get? name = some f) :
    (Conduct.alone f).Describes f := by
  intro access values
  have alike : Alike access (.unanswered access.toView access.draw) := ⟨rfl, rfl⟩
  exact congrFun (builtins_unread found alike) values

theorem peekConduct_of_builtin {name : String} {f : Function}
    (found : builtins.get? name = some f) (other : name ≠ "peek") :
    peekConduct name = .alone f := by
  rw [peekConduct, if_neg other, found]
  rfl

/-- The text of a smart variable that passes on what a function reads. -/
def passText (next : String) : String :=
  String.ofList ("peek".toList ++ '(' :: '"' :: (escapeText next.toList ++ ['"', ')']))

theorem toList_passText (next : String) : (passText next).toList =
    "peek".toList ++ '(' :: '"' :: (escapeText next.toList ++ ['"', ')']) :=
  String.toList_ofList

def link (index : Nat) : String :=
  "v" ++ String.ofList (Nat.toDigits 10 index)

def pass (index : Nat) (s : Store) : Store :=
  s.setSmart (link index) (passText (link (index + 1)))

/-- So many smart variables, each of which passes on what a function reads from the next, where as
many functions may call each other. -/
def relay (count : Nat) : Store :=
  (List.range count).foldr pass
    { ((withEnums .empty).register "peek" peek).setVariable (link count) (.bool true) with
      calls := count }

theorem toList_link (index : Nat) : (link index).toList = 'v' :: Nat.toDigits 10 index := by
  simp [link]

theorem link_inj {i j : Nat} (same : link i = link j) : i = j := by
  have letters := congrArg String.toList same
  rw [toList_link, toList_link] at letters
  exact toDigits_inj (by decide) (by decide) (List.cons.inj letters).2

theorem bareName_link (index : Nat) : bareName (link index) = link index := by
  have named : IsIdentifier (link index) := by
    rw [IsIdentifier, toList_link, spellsIdentifier, Bool.and_eq_true, List.all_eq_true]
    refine ⟨by decide, fun c listed => ?_⟩
    have digit : c.isDigit = true := Nat.isDigit_of_mem_toDigits (by decide) (by decide) listed
    simp [isNameChar, Char.isAlphanum, digit]
  exact (Command.bareName_of_identifier named).1

/-- The call is written as a call is. -/
theorem written_passText (next : String) :
    Written 0 (.call "peek" [.literal (.text next)]) (passText next).toList := by
  let argument : Arg :=
    ⟨.literal (.text next), [], '"' :: (escapeText next.toList ++ ['"']), []⟩
  have spelled : (passText next).toList =
      "peek".toList ++ ([] ++ '(' :: (argsText [argument] ++ ([] ++ [')']))) := by
    rw [toList_passText]
    simp [argument, argsText, Arg.chars, moreArgsText]
  have inside : ∀ a ∈ [argument], Written 0 a.expr a.text :=
    List.forall_mem_singleton.mpr (.leaf (.text next))
  have gaps : ∀ a ∈ [argument], Gap a.before ∧ Gap a.after :=
    List.forall_mem_singleton.mpr ⟨gap_nil, gap_nil⟩
  rw [spelled]
  exact .call inside gaps gap_nil gap_nil

theorem trimmed_passText (next : String) : Text.trimmed (passText next) = passText next := by
  have solid : Trimmed (passText next).toList := by
    rw [toList_passText]
    refine ⟨by simp [isBlank], ?_⟩
    have ends (before : List Char) :
        (before ++ '(' :: '"' :: (escapeText next.toList ++ ['"', ')'])).getLast? = some ')' := by
      simp [List.getLast?_append, List.getLast?_cons]
    rw [ends]
    exact fun c last => Option.some.inj last ▸ (by decide)
  rw [Text.trimmed, solid.trim, String.ofList_toList]

theorem parseExpr_passText (next : String) :
    parseExpr (passText next) = .ok (.call "peek" [.literal (.text next)]) := by
  have valid : Admissible (.call "peek" [.literal (.text next)]) :=
    .call (by decide) (by decide) (List.forall_mem_singleton.mpr (.text next))
  have written := written_passText next
  have read : Expr.parse? (passText next) = some (.call "peek" [.literal (.text next)]) := by
    have reads := (written.continues valid).reads.expression? (Nat.lt_succ_self _)
      (follow_end gap_nil)
    have start := ((written.begins valid).append []).skip gap_nil
    rw [List.append_nil] at reads start
    rw [List.nil_append] at start
    unfold Expr.parse?
    simp only [start, reads]
    rfl
  unfold parseExpr
  rw [trimmed_passText]
  dsimp only
  rw [read]

theorem foldr_pass_smart (indices : List Nat) (s : Store) (index : Nat) :
    (indices.foldr pass s).smart.get? (link index) =
      if index ∈ indices then some (passText (link (index + 1)))
      else s.smart.get? (link index) := by
  induction indices with
  | nil => rfl
  | cons first indices ih =>
      have shape : ((first :: indices).foldr pass s).smart =
          (indices.foldr pass s).smart.insert (link first) (passText (link (first + 1))) := by
        rw [List.foldr_cons, pass, setSmart, bareName_link, trimmed_passText]
      rw [shape]
      by_cases here : index = first
      · rw [here, Table.get?_insert_self, if_pos (List.mem_cons_self ..)]
      · rw [Table.get?_insert_of_ne _ _ fun same => here (link_inj same), ih]
        simp only [List.mem_cons, here, false_or]

theorem foldr_pass_vars {indices : List Nat} (s : Store) {index : Nat} (other : index ∉ indices) :
    (indices.foldr pass s).vars.get? (link index) = s.vars.get? (link index) := by
  induction indices with
  | nil => rfl
  | cons first indices ih =>
      obtain ⟨differ, later⟩ := not_or.mp (mt List.mem_cons.mpr other)
      have shape : ((first :: indices).foldr pass s).vars =
          (indices.foldr pass s).vars.erase (link first) := by
        rw [List.foldr_cons, pass, setSmart, bareName_link]
      rw [shape, Table.get?_erase_of_ne _ fun same => differ (link_inj same), ih later]

theorem foldr_pass_functions (indices : List Nat) (s : Store) :
    (indices.foldr pass s).functions = s.functions := by
  induction indices with
  | nil => rfl
  | cons first indices ih => exact ih

theorem foldr_pass_calls (indices : List Nat) (s : Store) :
    (indices.foldr pass s).calls = s.calls := by
  induction indices with
  | nil => rfl
  | cons first indices ih => exact ih

theorem relay_calls (count : Nat) : (relay count).calls = count :=
  foldr_pass_calls _ _

theorem relay_smart {count index : Nat} (below : index < count) :
    (relay count).smart.get? (link index) = some (passText (link (index + 1))) := by
  rw [relay, foldr_pass_smart, if_pos (List.mem_range.mpr below)]

theorem relay_end (count : Nat) :
    (relay count).smart.get? (link count) = none ∧
      (relay count).vars.get? (link count) = some (.bool true) := by
  have outside : count ∉ List.range count := by simp
  constructor
  · rw [relay, foldr_pass_smart, if_neg outside, setVariable, bareName_link,
      Table.get?_erase_self]
  · rw [relay, foldr_pass_vars _ outside, setVariable, bareName_link, Table.get?_insert_self]

theorem relay_functions (count : Nat) :
    (relay count).functions = builtins.insert "peek" peek := by
  rw [relay, foldr_pass_functions]
  rfl

theorem relay_conducted (count : Nat) : (relay count).Conducted peekConduct := by
  intro name f found
  rw [relay_functions] at found
  by_cases asks : name = "peek"
  · subst asks
    rw [Table.get?_insert_self] at found
    obtain rfl := Option.some.inj found
    exact fun access values => rfl
  · rw [Table.get?_insert_of_ne _ _ asks] at found
    rw [peekConduct_of_builtin found asks]
    exact alone_describes found

/-- A variable that passes another one on is read inside a reading of its own, and so is the other,
with all levels left. -/
theorem followRead_pass {s : Store} {name next : String}
    (smart : s.smart.get? name = some (passText next)) (bare : bareName next = next)
    (known : s.functions.get? "peek" = some peek) (calls room : Nat) (draws : Draws) :
    ∃ later, s.followRead peekConduct (s.followAsk peekConduct (calls + 1)) (room + 1) draws name =
      .inside (.smart name) (.inside (.asked (.read next))
        (s.followRead peekConduct (s.followAsk peekConduct calls) smartDepth later next)) := by
  refine ⟨((draws.part 1).part 1).part 0, ?_⟩
  have asked : (.inside (.asked (.read next)) (s.followRead peekConduct
        (s.followAsk peekConduct calls) smartDepth (((draws.part 1).part 1).part 0) next) :
          Followed Value) =
      s.followAsk peekConduct (calls + 1) (draws.part 1) 0 (.read next) := by
    rw [followAsk, followReply, bare]
    rfl
  rw [followRead, smart]
  dsimp only
  rw [parseExpr_passText, asked]
  -- With both readings held apart, nothing is left to evaluate but the call.
  generalize s.followAsk peekConduct (calls + 1) = replies
  generalize s.followRead peekConduct replies room = read
  have called : s.follow peekConduct replies read draws (.call "peek" [.literal (.text next)]) =
      ⟨(replies (draws.part 1) 0 (.read next)).result,
        (replies (draws.part 1) 0 (.read next)).paths ++ []⟩ := by
    rw [follow, known]
    rfl
  rw [Traced.bind, Traced.plain, Traced.andThen]
  dsimp only
  rw [called, List.append_nil]
  rfl

/-- The last of the variables is reached, and all smart ones nest on the way to it. -/
theorem relay_reads {count : Nat} (left calls : Nat) (draws : Draws) (within : left ≤ count)
    (enough : left ≤ calls) :
    let reading := (relay count).followRead peekConduct ((relay count).followAsk peekConduct calls)
      smartDepth draws (link (count - left))
    reading.result = .ok (.bool true) ∧
      (0 < left → ∃ path ∈ reading.paths, path.countP Reading.isSmart = left) := by
  induction left generalizing calls draws with
  | zero =>
      obtain ⟨plain, stored⟩ := relay_end count
      refine ⟨?_, fun wrong => absurd wrong (Nat.lt_irrefl 0)⟩
      rw [Nat.sub_zero, followRead, plain]
      dsimp only
      rw [stored]
      rfl
  | succ left ih =>
      obtain ⟨calls, rfl⟩ : ∃ rest, calls = rest + 1 := ⟨calls - 1, by omega⟩
      have next : count - (left + 1) + 1 = count - left := by omega
      have smart : (relay count).smart.get? (link (count - (left + 1))) =
          some (passText (link (count - left))) := by
        rw [relay_smart (by omega), next]
      have known : (relay count).functions.get? "peek" = some peek := by
        rw [relay_functions, Table.get?_insert_self]
      -- The full depth is one level more than 31.
      obtain ⟨later, shape⟩ := followRead_pass smart (bareName_link _) known calls 31 draws
      obtain ⟨result, paths⟩ := ih calls later (by omega) (by omega)
      intro reading
      have same : reading = _ := shape
      rw [same]
      refine ⟨result, fun _ => ?_⟩
      by_cases more : 0 < left
      · obtain ⟨path, arose, counted⟩ := paths more
        refine ⟨.smart (link (count - (left + 1))) ::
          .asked (.read (link (count - left))) :: path, ?_, ?_⟩
        · exact Traced.mem_inside _ (Traced.mem_inside _ arose)
        · rw [List.countP_cons_of_pos rfl, List.countP_cons_of_neg Bool.false_ne_true, counted]
      · refine ⟨[.smart (link (count - (left + 1)))], List.mem_cons_self .., ?_⟩
        rw [List.countP_cons_of_pos rfl, List.countP_nil]
        omega

end Relay

/-- Following an evaluation does not change its result. On every path of readings, at most
`smartDepth` smart variables nest between two things that functions ask for, however deep functions
may call each other, and at most `smartDepth` in all if functions ask for nothing. Smart variables
that need each other in a circle have no value but the report that they nest too deep. -/
theorem smart_nesting {s : Store} {conducts : String → Conduct}
    (conducted : s.Conducted conducts) :
    (∀ name, (s.followValue conducts s.calls name).result = s.valueOf name) ∧
    (∀ text, (s.followEvaluate conducts s.calls text).result = s.evaluate text) ∧
    (∀ calls path, s.Arises conducts calls path →
      (∀ before run after, path = before ++ run ++ after →
        (∀ reading ∈ run, reading.isSmart = true) → run.length ≤ smartDepth) ∧
      path.countP Reading.isSmart ≤
        smartDepth * (path.countP (fun reading => !reading.isSmart) + 1)) ∧
    ((∀ name, s.functions.contains name = true → (conducts name).Quiet) →
      ∀ calls path, s.Arises conducts calls path → path.length ≤ smartDepth) ∧
    ∀ names, s.Circular names → ∀ name, names (bareName name) →
      ∃ last, names last ∧ s.valueOf name = .error (.recursionLimit last) := by
  have runs {calls : Nat} {path : List Reading} (arises : s.Arises conducts calls path)
      (before run after : List Reading) (parts : path = before ++ run ++ after)
      (smart : ∀ reading ∈ run, reading.isSmart = true) : run.length ≤ smartDepth := by
    have fits := arises.fits
    rw [parts, List.append_assoc] at fits
    obtain ⟨left, bounded, rest⟩ := fits.behind (Nat.le_refl _)
    exact Nat.le_trans (rest.run_le smart) bounded
  refine ⟨followValue_result conducted, followEvaluate_result conducted, ?_, ?_, ?_⟩
  · intro calls path arises
    refine ⟨runs arises, ?_⟩
    have counted := arises.fits.countP_le
    rw [Nat.mul_succ]
    omega
  · intro quiet calls path arises
    exact runs arises [] path [] (List.append_nil _).symm (arises.smart_of_quiet quiet)
  · intro names circular name inside
    obtain ⟨last, member, limited⟩ := circular.readWithin smartDepth inside
    exact ⟨last, member, limited s.draws⟩

theorem circle_nesting :
    circle.Conducted peekConduct ∧
      (∀ path ∈ (circle.followValue peekConduct circle.calls "$a").paths,
        path.length ≤ smartDepth) ∧
      circle.Circular (fun name => name = "a" ∨ name = "b") ∧
      ∃ last, (last = "a" ∨ last = "b") ∧ circle.valueOf "$a" = .error (.recursionLimit last) := by
  have other {name : String} (known : circle.functions.contains name = true) : name ≠ "peek" := by
    rintro rfl
    cases known
  have conducted : circle.Conducted peekConduct := by
    intro name f found
    have known : circle.functions.contains name = true := by
      rw [Table.contains, found]
      rfl
    rw [peekConduct_of_builtin found (other known)]
    exact alone_describes found
  have quiet (name : String) (known : circle.functions.contains name = true) :
      (peekConduct name).Quiet := by
    rw [peekConduct, if_neg (other known)]
    exact fun _ _ _ => ⟨_, rfl⟩
  have circular : circle.Circular (fun name => name = "a" ∨ name = "b") := by
    rintro name (rfl | rfl)
    · exact ⟨_, _, "b", rfl, rfl, (leans_var _ _).left _ _, .inr rfl⟩
    · exact ⟨_, _, "a", rfl, rfl, (leans_var _ _).left _ _, .inl rfl⟩
  obtain ⟨-, -, -, bounded, limited⟩ := smart_nesting conducted
  exact ⟨conducted, fun path arose => bounded quiet _ path (.inl ⟨"$a", arose⟩), circular,
    limited _ circular "$a" (.inl rfl)⟩

/-- Functions that ask let more smart variables nest than may: the first of so many has a value all
the same. -/
theorem relay_exceeds :
    (relay 33).Conducted peekConduct ∧ (relay 33).valueOf (link 0) = .ok (.bool true) ∧
      ∃ path, (relay 33).Arises peekConduct (relay 33).calls path ∧
        smartDepth < path.countP Reading.isSmart := by
  have conducted := relay_conducted 33
  have enough : 33 ≤ (relay 33).calls := (relay_calls 33).ge
  obtain ⟨result, paths⟩ := relay_reads 33 (relay 33).calls (relay 33).draws (Nat.le_refl 33) enough
  obtain ⟨path, arose, counted⟩ := paths (by decide)
  have start : (relay 33).followValue peekConduct (relay 33).calls (link 0) =
      (relay 33).followRead peekConduct ((relay 33).followAsk peekConduct (relay 33).calls)
        smartDepth (relay 33).draws (link (33 - 33)) := by
    rw [followValue, bareName_link]
  refine ⟨conducted, ?_, path, .inl ⟨link 0, ?_⟩, ?_⟩
  · rw [← followValue_result conducted, start]
    exact result
  · rw [start]
    exact arose
  · rw [counted]
    decide

end Store

end Dialogue
