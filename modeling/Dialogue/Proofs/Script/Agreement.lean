import Dialogue.Proofs.Script.Items
import Dialogue.Proofs.Text.Literal

set_option autoImplicit false

namespace Dialogue.Script

open Dialogue.Text

/-- The keys of headers are made of the characters of a name. -/
def Token.Keyed (t : Token) : Prop :=
  t.kind = .headerKey → ∀ c ∈ t.text.toList, isNameChar c = true

theorem keyed_of_kind {t : Token} (other : t.kind ≠ .headerKey) : t.Keyed :=
  fun key => absurd key other

theorem header?_key {content key value : List Char} {offset : Nat}
    (found : header? content = some (key, value, offset)) : ∀ c ∈ key, isNameChar c = true := by
  unfold header? at found
  split at found
  · cases found
  · split at found
    · dsimp only at found
      split at found
      · obtain ⟨rfl, -⟩ := Prod.mk.inj (Option.some.inj found)
        exact fun c member => List.mem_takeWhile_imp member
      · cases found
    · cases found

theorem contentTokens_keyed (inHeaders : Bool) (content : List Char) (line column : Nat) :
    ∀ t ∈ contentTokens inHeaders content line column, t.Keyed := by
  unfold contentTokens
  split
  · rename_i key value offset found
    have keyed : ∀ c ∈ key, isNameChar c = true := by
      split at found
      · exact header?_key found
      · cases found
    simp only [List.forall_mem_cons]
    exact ⟨fun _ => by simpa using keyed, keyed_of_kind (by simp), by simp⟩
  · split
    · simp [keyed_of_kind]
    · split <;> simp [keyed_of_kind]

theorem keyed_of_bare {t : Token}
    (bare : t.kind ∈ [.empty, .indent, .dedent, .nodeStart, .nodeEnd]) : t.Keyed :=
  keyed_of_kind fun key => by simp [key] at bare

theorem lexLines_keyed (layout : Layout) (line : Nat) (lines : List (List Char)) :
    ∀ t ∈ lexLines layout line lines, t.Keyed := by
  induction lines generalizing layout line with
  | nil =>
      rw [lexLines, List.forall_mem_append, List.forall_mem_singleton]
      exact ⟨dedents_forall (fun _ => keyed_of_bare) _ _, keyed_of_kind (by simp [Token.layout])⟩
  | cons raw rest ih =>
      rw [lexLines_cons, List.forall_mem_append]
      exact ⟨lexLine_forall (fun _ => keyed_of_bare) contentTokens_keyed _ _ _, ih _ _⟩

theorem lex_stream (source : String) : Stream (lex source) := by
  obtain ⟨tokens, last, same, eof, lines⟩ := lex_ends source
  have keyed : ∀ t ∈ tokens ++ [last], t.Keyed := same ▸ lexLines_keyed _ _ _
  rw [same]
  clear same
  induction tokens with
  | nil => exact .eof eof
  | cons t rest ih =>
      rw [List.forall_mem_cons] at lines
      rw [List.cons_append, List.forall_mem_cons] at keyed
      exact .cons lines.1.1 keyed.1 (ih lines.2 keyed.2)

theorem hosts_document (enums : List Enumeration) (nodes : List Node) :
    Descent.Hosts (fun e => ⟨.enumeration e, enums, nodes⟩) fun enum depth =>
      ⟨if depth = 0 then .between else .enumerationEnd depth, enums ++ [enum], nodes⟩ where
  more := by
    intro e further t taken
    simp [DocumentState.step, taken, bind, Except.bind]
  closes := by
    intro e closed t taken
    simp [DocumentState.step, taken, bind, Except.bind]
  refuses := by
    intro e t cause taken
    simp [DocumentState.step, taken, bind, Except.bind]
  blank := by
    intro enum depth t kind
    simp [DocumentState.step, kind]
  dedent := by
    intro enum depth t kind
    simp [DocumentState.step, kind]
  other := by
    intro enum depth t filled other
    simp [DocumentState.step, filled, other]

@[simp]
theorem record_start (head : NodeHead) (key value : String) :
    (head.record key value).start = head.start := by
  unfold NodeHead.record
  dsimp only
  split <;> rfl

theorem joinCss_single (inside : List Char) :
    joinCss [inside] = trimmed (String.ofList inside) := by
  unfold joinCss
  by_cases blank : inside.all isBlank = true
  · have gone : trimStart inside = [] := List.dropWhile_eq_nil_iff.mpr (List.all_eq_true.mp blank)
    simp only [List.filter_cons, blank, Bool.not_true, Bool.false_eq_true, if_false,
      List.filter_nil, List.map_nil, join, trimmed, trim, gone, String.toList_ofList]
    rfl
  · simp [blank, join]

/-- The state outside of bodies from which the result comes. -/
def Stands (whole : Except ParseError DocumentState) (mode : DocumentMode) (nodes : List Node)
    (c : Cursor) : Prop :=
  Reaches whole ⟨mode, c.enums, nodes⟩ c.rest

namespace Descent

section

variable {whole : Except ParseError DocumentState} {mode : DocumentMode} {nodes : List Node}
variable {head : NodeHead} {c : Cursor} {t start : Token} {rest : List Token}
variable {enums : List Enumeration} {rounds depth : Nat}

theorem cssPart_leaves {parts : List (List Char)} {line : List Char}
    (stands : Stands whole (cssLine head parts line) nodes c) :
    Round.Leaves (fun parts => Stands whole (.css head parts) nodes)
      (fun parts => Stands whole (.header { head with css := some (joinCss parts) }) nodes)
      (cssPart parts line) c := by
  unfold cssLine at stands
  unfold cssPart
  cases found : splitOnce '\x7d' line with
  | none =>
      rw [found] at stands
      exact stands
  | some halves =>
      rw [found] at stands
      exact stands

theorem splitOnce_of_keyed {key : String} (keyed : ∀ c ∈ key.toList, isNameChar c = true) :
    splitOnce '\x7d' (key ++ ": ").toList = none := by
  refine splitOnce_eq_none ?_
  rw [String.toList_append, List.mem_append]
  rintro (member | member)
  · exact absurd (keyed _ member) (by decide)
  · exact absurd member (by decide)

theorem cssRound_meets (parts : List (List Char))
    (stands : Stands whole (.css head parts) nodes c) :
    (cssRound parts c).Meets False
      (Round.Leaves (fun parts => Stands whole (.css head parts) nodes)
        fun parts => Stands whole (.header { head with css := some (joinCss parts) }) nodes)
      (Refuses whole) := by
  obtain ⟨rest, enums⟩ := c
  obtain ⟨t, rest, rfl⟩ := Reaches.exists_cons stands
  rw [cssRound, peek_bind]
  cases kind : t.kind with
  | text =>
      have taken : Stands whole (cssLine head parts t.text.toList) nodes ⟨rest, enums⟩ :=
        Reaches.step stands (by simp [kind]) (by simp [DocumentState.step, takeCss, kind])
      exact cssPart_leaves taken
  | empty =>
      exact Reaches.step stands (by simp [kind]) (by simp [DocumentState.step, takeCss, kind])
  | headerKey =>
      have taken : Stands whole (.cssValue head parts t.text) nodes ⟨rest, enums⟩ :=
        Reaches.step stands (by simp [kind]) (by simp [DocumentState.step, takeCss, kind])
      have keyed : ∀ c ∈ t.text.toList, isNameChar c = true := by
        cases stands.stream with
        | eof eof => simp [kind] at eof
        | cons _ keyed _ => exact keyed kind
      obtain ⟨value, rest, rfl⟩ := Reaches.exists_cons taken
      change Outcome.Meets _ _ _ ((next >>= _) _)
      rw [next_bind, peek_bind]
      split
      · rename_i kind
        have ended : Stands whole (cssLine head parts (t.text ++ ": " ++ value.text).toList) nodes
            ⟨rest, enums⟩ :=
          Reaches.step taken (by simp [kind]) (by simp [DocumentState.step, kind])
        exact cssPart_leaves ended
      · rename_i other
        change Round.Leaves _ _ (cssPart _ _) _
        rw [cssPart, splitOnce_of_keyed keyed]
        exact Reaches.congr taken (by simp [DocumentState.step, other])
  | _ => exact Reaches.congr stands (by simp [DocumentState.step, takeCss, kind])

/-- A descent follows the style of a header. -/
theorem styled_meets {key value : String} (enough : c.rest.length < rounds)
    (stands : Stands whole (afterHeader head key value) nodes c) :
    (styled rounds (head.record key value) (trim value.toList) c).Meets False
      (fun after left => Stands whole (.header after) nodes left ∧ after.start = head.start)
      (Refuses whole) := by
  unfold afterHeader at stands
  unfold styled
  dsimp only at stands
  cases opens : after? cssOpen (trim value.toList) with
  | none =>
      rw [opens] at stands
      exact ⟨stands, record_start _ _ _⟩
  | some first =>
      simp only [opens] at stands
      refine Outcome.meets_bind ?_
      unfold cssHeader
      unfold cssLine at stands
      cases found : splitOnce '\x7d' first with
      | some halves =>
          simp only [found, List.nil_append, joinCss_single] at stands
          exact ⟨stands, record_start _ _ _⟩
      | none =>
          rw [found] at stands
          have lines := loop_meets
            (fun parts => Stands whole (.css (head.record key value) parts) nodes)
            (allTight rounds 0).css (Nat.le_refl _) enough stands
            fun parts _ _ stands => cssRound_meets parts stands
          exact Outcome.meets_then lines fun _ _ _ stands => ⟨stands, record_start _ _ _⟩

/-- Among the headers of a node, at a token that is not blank. -/
def InHeaders (whole : Except ParseError DocumentState) (nodes : List Node) (start : Token)
    (head : NodeHead) (c : Cursor) : Prop :=
  ∃ t rest enums, c = ⟨t :: rest, enums⟩ ∧ t.kind ≠ .empty ∧ head.start = start ∧
    Stands whole (.header head) nodes c

theorem skipBlank_header {α : Type} {g : Unit → Descent α} {done : α → Cursor → Prop}
    {fault : ParseError → Prop} (stands : Stands whole (.header head) nodes c)
    (further : ∀ t rest, t.kind ≠ .empty →
      Stands whole (.header head) nodes ⟨t :: rest, c.enums⟩ →
      (g () ⟨t :: rest, c.enums⟩).Meets False done fault) :
    ((skipBlank >>= g) c).Meets False done fault :=
  skipBlank_meets stands (fun t kind => by simp [DocumentState.step, takeHeader, kind])
    fun t rest filled _ stands => further t rest filled stands

theorem nodeRound_meets (head : NodeHead) (enough : c.rest.length < rounds)
    (inHeaders : InHeaders whole nodes start head c) :
    (nodeRound rounds start head c).Meets False
      (Round.Leaves (InHeaders whole nodes start)
        fun head left => ∃ t rest enums, left = ⟨t :: rest, enums⟩ ∧ t.kind = .nodeStart ∧
          head.start = start ∧ Stands whole (.header head) nodes left)
      (Refuses whole) := by
  obtain ⟨t, rest, enums, rfl, filled, rfl, stands⟩ := inHeaders
  rw [nodeRound, peek_bind]
  split
  · rename_i kind
    exact ⟨t, rest, enums, rfl, kind, rfl, stands⟩
  rename_i notStart
  split
  · rename_i untitled
    simp only [Bool.and_eq_true, decide_eq_true_eq] at untitled
    exact Reaches.refused stands (by
      simp [DocumentState.step, takeHeader, untitled, NodeHead.missingTitle, bind, Except.bind])
  rename_i titled
  by_cases kind : t.kind = .headerKey
  · rw [expect_bind kind]
    have taken : Stands whole (.headerValue head t.text) nodes ⟨rest, enums⟩ :=
      Reaches.step stands (by simp [kind]) (by simp [DocumentState.step, takeHeader, kind])
    obtain ⟨value, rest, rfl⟩ := Reaches.exists_cons taken
    by_cases kind : value.kind = .headerValue
    · rw [expect_bind kind]
      have ended : Stands whole (afterHeader head t.text value.text) nodes ⟨rest, enums⟩ :=
        Reaches.step taken (by simp [kind]) (by simp [DocumentState.step, kind])
      have fits : rest.length < rounds := Nat.lt_of_succ_lt (Nat.lt_of_succ_lt enough)
      refine Outcome.meets_then (styled_meets fits ended) fun head left _ styled => ?_
      refine skipBlank_header styled.1 fun t rest filled stands => ?_
      exact ⟨t, rest, left.enums, rfl, filled, styled.2, stands⟩
    · rw [expect_refused kind]
      exact Reaches.refused taken (by simp [DocumentState.step, kind])
  · rw [expect_refused kind]
    have refused : takeHeader head t = .error (.unexpected "node header or '---'" t) := by
      unfold takeHeader
      cases same : t.kind with
      | empty => exact absurd same filled
      | nodeStart => exact absurd same notStart
      | headerKey => exact absurd same kind
      | eof => exact if_neg (by simpa [same] using titled)
      | _ => rfl
    exact Reaches.refused stands (by simp [DocumentState.step, refused, bind, Except.bind])

theorem takeHeader_untitled (kind : t.kind = .nodeStart)
    (untitled : (head.title.filter fun title => !title.isEmpty) = none) :
    takeHeader head t = .error head.missingTitle := by
  unfold takeHeader
  simp only [kind]
  cases title : head.title with
  | none => rfl
  | some title =>
      rw [title] at untitled
      exact if_pos (by simpa using untitled)

theorem takeHeader_titled {title : String} (kind : t.kind = .nodeStart)
    (titled : (head.title.filter fun title => !title.isEmpty) = some title) :
    takeHeader head t = .ok (.body head title .initial) := by
  obtain ⟨same, named⟩ := Option.filter_eq_some_iff.mp titled
  unfold takeHeader
  simp only [kind, same]
  exact if_neg (by simpa using named)

theorem nodeBody_meets (follows : Follows rounds depth) {title : String}
    (fits : Fits rounds depth c.rest)
    (begun : Tracks whole ⟨head, title, c.enums, nodes⟩ [] [] .plain c) :
    ((do
      let body ← statements (item rounds depth) rounds (endsAt .nodeEnd)
      let _ ← expect .nodeEnd "'==='"
      pure (head.node title body) : Descent Node) c).Meets False
      (fun node => Stands whole .between (nodes ++ [node])) (Refuses whole) := by
  refine statements_then follows fits begun fun body t rest enums filled stops _ tracks => ?_
  rw [List.nil_append] at tracks
  by_cases kind : t.kind = .nodeEnd
  · rw [expect_bind kind]
    obtain ⟨inner, held, reaches⟩ := tracks
    refine Reaches.step reaches (by simp [kind]) ?_
    simp only at held
    simp [Around.inside, DocumentState.step, BlockState.finish, BlockState.settle,
      BlockState.settleMode, closeOnces, kind, held, bind, Except.bind]
  · rw [expect_refused kind]
    have eof : t.kind = .eof := by simpa [stopOf, endsAt, kind] using stops
    refine tracks.unfinished (.inr eof) fun inner => ?_
    simp [BlockState.finish, BlockState.settle, BlockState.settleMode, closeOnces, eof]

/-- A descent follows a node from its first token on. -/
theorem node_meets (follows : Follows rounds depth) (filled : t.kind ≠ .empty)
    (fits : Fits rounds depth (t :: rest))
    (stands : Stands whole (.header (.begin t)) nodes ⟨t :: rest, enums⟩) :
    (node (item rounds depth) rounds ⟨t :: rest, enums⟩).Meets False
      (fun node => Stands whole .between (nodes ++ [node])) (Refuses whole) := by
  rw [node, peek_bind]
  have headers := loop_meets (InHeaders whole nodes t) ((allTight rounds depth).node t)
    (Nat.le_refl _) fits.rounds ⟨t, rest, enums, rfl, filled, rfl, stands⟩
    fun head left le inHeaders =>
      nodeRound_meets head (Nat.lt_of_le_of_lt le fits.rounds) inHeaders
  have careful : Careful (t :: rest) (fun _ => 0)
      (loop (nodeRound rounds t) rounds (.begin t)) ⟨t :: rest, enums⟩ :=
    .loop ((nodeRound_careful List.mem_cons_self _ _).mono fun _ => Nat.zero_le _)
      (nodeRound_careful List.mem_cons_self) rounds
  refine careful.andThen (List.suffix_refl _) headers fun head left ends takes => ?_
  obtain ⟨mark, rest, enums, rfl, kind, started, headed⟩ := ends
  cases titled : head.title.filter fun title => !title.isEmpty with
  | none =>
      have refused := takeHeader_untitled kind titled
      rw [NodeHead.missingTitle, started] at refused
      exact Reaches.refused headed (by simp [DocumentState.step, refused, bind, Except.bind])
  | some title =>
      have opens := takeHeader_titled kind titled
      have begun : Tracks whole ⟨head, title, enums, nodes⟩ [] [] .plain ⟨rest, enums⟩ := by
        refine ⟨[], (List.append_nil _).symm, Reaches.step headed (by simp [kind]) ?_⟩
        simp [DocumentState.step, opens, bind, Except.bind, pure, Except.pure, Around.inside,
          BlockState.initial]
      change Outcome.Meets _ _ _ ((expect _ _ >>= _) _)
      rw [expect_bind kind]
      exact nodeBody_meets follows (fits.of_le (Nat.le_of_succ_le takes.fewer)) begun

theorem step_between_enum {name : List Char} (found : enumName? t = some name) :
    (⟨.between, enums, nodes⟩ : DocumentState).step t = (do
      let e ← OpenEnum.begin t name
      .ok ⟨.enumeration e, enums, nodes⟩) := by
  have kind : t.kind = .command := by
    by_contra other
    simp [enumName?, other] at found
  rw [enumName?, if_pos kind] at found
  simp only [DocumentState.step, takeBetween, kind, found]
  cases OpenEnum.begin t name <;> rfl

theorem takeBetween_header (filled : t.kind ≠ .empty) (more : t.kind ≠ .eof)
    (none : enumName? t = none) : takeBetween t = takeHeader (.begin t) t := by
  unfold takeBetween
  cases kind : t.kind with
  | empty => exact absurd kind filled
  | eof => exact absurd kind more
  | command =>
      rw [enumName?, if_pos kind] at none
      simp only [none]
  | _ => rfl

theorem documentRound_meets (follows : Follows rounds depth) (nodes : List Node)
    (fits : Fits rounds depth c.rest) (stands : Stands whole .between nodes c) :
    (documentRound (item rounds depth) rounds nodes c).Meets False
      (Round.Leaves (Stands whole .between)
        fun nodes left => whole = .ok ⟨.finished, left.enums, nodes⟩)
      (Refuses whole) := by
  refine skipBlank_meets stands (fun t kind => by simp [DocumentState.step, takeBetween, kind])
    fun t rest filled le stands => ?_
  rw [peek_bind]
  split
  · rename_i eof
    exact Reaches.last stands eof (by simp [DocumentState.step, takeBetween, eof])
  rename_i more
  cases enum : enumName? t with
  | some name =>
      have step := @step_between_enum nodes t c.enums name enum
      change Outcome.Meets _ _ _ ((next >>= _) _)
      rw [next_bind]
      refine Outcome.meets_bind ?_
      cases begins : OpenEnum.begin t name with
      | error cause =>
          rw [enumBlock_refused begins]
          exact Reaches.refused stands (by rw [step, begins]; rfl)
      | ok e =>
          have taken : Reaches whole ⟨.enumeration e, c.enums, nodes⟩ rest :=
            Reaches.step stands more (by rw [step, begins]; rfl)
          refine (enumBlock_meets (hosts_document c.enums nodes) begins
            (fits.of_le (Nat.le_of_succ_le le)).rounds taken).imp
            (fun enum left ends => ?_) fun _ refused => refused
          change Reaches whole ⟨.between, left.enums ++ [enum], nodes⟩ left.rest
          rw [ends.1]
          exact ends.2
  | none =>
      have same := takeBetween_header filled more enum
      have headed : Stands whole (.header (.begin t)) nodes ⟨t :: rest, c.enums⟩ :=
        Reaches.congr stands (by simp only [DocumentState.step, same])
      exact Outcome.meets_bind (node_meets follows filled (fits.of_le le) headed)

theorem document_meets (follows : Follows rounds depth) (fits : Fits rounds depth c.rest)
    (stands : Stands whole .between [] c) :
    (document (item rounds depth) rounds c).Meets False
      (fun document _ => ∃ nodes, whole = .ok ⟨.finished, document.enums, nodes⟩ ∧
        document.nodes = nodes)
      (Refuses whole) := by
  have nodes := loop_meets (Stands whole .between) (allTight rounds depth).document
    (Nat.le_refl _) fits.rounds stands fun nodes _ le stands =>
      documentRound_meets follows nodes (fits.of_le le) stands
  exact Outcome.meets_then nodes fun nodes _ _ ends => ⟨nodes, ends, rfl⟩

end

end Descent

/-- A descent that is allowed more rounds, and as many levels, as there are tokens comes to the
document or to the fault of the reading in one pass. -/
theorem descend_eq_parse {source : String} {limit : Nat} (enough : (lex source).length < limit) :
    (descend limit source).result? = some (parse source) := by
  have read := @Descent.document_meets ((lex source).foldlM DocumentState.step .initial)
    ⟨lex source, []⟩ limit limit (Descent.item_follows limit limit)
    ⟨enough, Nat.le_of_lt enough⟩ ⟨lex_stream source, rfl⟩
  unfold parse parseTokens
  change (descend limit source).Meets _ _ _ at read
  cases same : descend limit source with
  | read document left =>
      rw [same] at read
      obtain ⟨nodes, whole, rfl⟩ := read
      rw [whole]
      rfl
  | refused cause =>
      rw [same] at read
      rw [show (lex source).foldlM DocumentState.step .initial = _ from read]
      rfl
  | astray =>
      rw [same] at read
      exact read.elim
  | unfinished =>
      rw [same] at read
      exact read.elim

/-- A fault stands at a token of the source. -/
theorem parse_standsAt {source : String} {cause : ParseError}
    (refused : parse source = .error cause) : cause.StandsAt (lex source) := by
  have enough := Nat.lt_succ_self (lex source).length
  generalize (lex source).length.succ = limit at enough
  have read := descend_eq_parse enough
  have careful : Descent.Careful (lex source) (fun _ => 0)
      (Descent.document (Descent.item limit limit) limit) ⟨lex source, []⟩ :=
    Descent.document_careful (Descent.item_careful limit limit)
  have blamed := careful (List.suffix_refl _)
  change (descend limit source).Meets _ _ _ at blamed
  cases same : descend limit source with
  | refused found =>
      rw [same] at read blamed
      rw [refused] at read
      obtain rfl : found = cause := Except.error.inj (Option.some.inj read)
      exact blamed
  | _ => simp [same, refused, Outcome.result?] at read

/-- Reading by descent comes to an end on every source, well formed or not. Its tokens end with the
end of input; a round after which a loop goes on has taken one of them; with more rounds and levels
than there are tokens, the descent never looks behind the last token, and comes to the document or
to the fault of the reading in one pass; and a fault stands at one of the tokens. -/
theorem parse_terminates (source : String) :
    (∃ tokens last, lex source = tokens ++ [last] ∧ last.kind = .eof ∧
      ∀ t ∈ tokens, t.kind ≠ .eof) ∧
    (∀ rounds depth, Descent.AllTight rounds depth) ∧
    (∀ limit, (lex source).length < limit →
      (descend limit source).result? = some (parse source)) ∧
    ∀ cause, parse source = .error cause → ∃ t ∈ lex source, cause.position = t.position := by
  refine ⟨?_, Descent.allTight, fun limit enough => descend_eq_parse enough,
    fun cause refused => parse_standsAt refused⟩
  obtain ⟨tokens, last, same, eof, lines⟩ := lex_ends source
  exact ⟨tokens, last, same, eof, fun t member => (lines t member).1⟩

/-- An option stands in a conditional between markers, which is not closed. -/
def unclosed : String :=
  "title: A\n---\n\x7bif $x\x7d\n-> Go\n===\n"

theorem unclosed_terminates : (lex unclosed).length < 10 ∧
    (descend 10 unclosed).result? = some (parse unclosed) ∧
    ∃ cause, parse unclosed = .error cause ∧
      ∃ t ∈ lex unclosed, cause.position = t.position := by
  have short : (lex unclosed).length < 10 := by decide +kernel
  have malformed : (parse unclosed).isOk = false := by decide +kernel
  refine ⟨short, (parse_terminates unclosed).2.2.1 10 short, ?_⟩
  cases refused : parse unclosed with
  | ok document => simp [refused, Except.isOk, Except.toBool] at malformed
  | error cause => exact ⟨cause, rfl, (parse_terminates unclosed).2.2.2 cause refused⟩

end Dialogue.Script
