import TypedStub.Proofs.TypeTerm.Derivation
import TypedStub.Proofs.TypeTerm.Grammar
import TypedStub.Proofs.TypeTerm.Scanning

/-! What has been read can be completed.

Whatever state the reader is in, a type and the brackets that are missing complete the text. So the tokens that the
reader accepts one after the other are the first tokens of a documented type.
-/

set_option autoImplicit false

namespace TypedStub.TypeTerm

namespace Token

/-- The tokens of a text up to one of them are the tokens of a part of the text. -/
theorem exists_of_scanFrom_eq_append {start : Nat} {text : List Char} {before after : List Token}
    (split : scanFrom start text = before ++ after) : ∃ first rest, text = first ++ rest ∧ scanFrom start first = before := by
  fun_induction scanFrom start text generalizing before with
  | case1 start =>
    obtain ⟨rfl, -⟩ := List.append_eq_nil_iff.1 split.symm
    exact ⟨[], [], rfl, scanFrom_nil⟩
  | case2 start c rest gap ih =>
    obtain ⟨first, later, rfl, scanned⟩ := ih split
    exact ⟨c :: first, later, rfl, by rw [scanFrom_gap gap, scanned]⟩
  | case3 start c rest notGap inside run =>
    rename_i ih
    cases before with
    | nil => exact ⟨[], c :: rest, rfl, scanFrom_nil⟩
    | cons head tail =>
      obtain ⟨rfl, others⟩ := List.cons.inj split
      obtain ⟨first, later, parts, scanned⟩ := ih others
      -- What follows the run begins outside of it, and so does a part of what follows.
      have ends : EndsRun first := by
        intro other tail same
        have here := List.head?_dropWhile_not isPathChar rest
        rw [parts, same] at here
        simpa using here
      refine ⟨run ++ first, later, ?_, ?_⟩
      · rw [List.append_assoc, ← parts, List.cons_append, List.takeWhile_append_dropWhile]
      · rw [scanFrom_run (List.cons_ne_nil _ _) (isPathChar_of_mem_run inside) ends, scanned]
  | case4 start c rest notGap outside ih =>
    cases before with
    | nil => exact ⟨[], c :: rest, rfl, scanFrom_nil⟩
    | cons head tail =>
      obtain ⟨rfl, others⟩ := List.cons.inj split
      obtain ⟨first, later, rfl, scanned⟩ := ih others
      exact ⟨c :: first, later, rfl, by rw [scanFrom_mark (by simpa using notGap) (by simpa using outside), scanned]⟩

theorem scanFrom_closeBrackets (start count : Nat) :
    (scanFrom start (List.replicate count ']')).length = count ∧
      ∀ token ∈ scanFrom start (List.replicate count ']'), token.kind = .closeBracket := by
  induction count generalizing start with
  | zero => simp
  | succ count ih =>
    obtain ⟨length, closing⟩ := ih (start + ']'.utf8Size)
    rw [List.replicate_succ, scanFrom_mark (by decide) (by decide)]
    refine ⟨by rw [List.length_cons, length], fun token member => ?_⟩
    rcases List.mem_cons.1 member with rfl | later
    · rfl
    · exact closing token later

end Token

namespace Reader

theorem Level.allGroups_ne_nil {level : Level} (filled : level.alternatives ≠ []) : level.allGroups ≠ [] := by
  unfold allGroups endGroup
  split
  · rename_i nothing
    exact absurd nothing filled
  · simp

/-- A type is complete, so that a text may end here once its brackets are closed. -/
structure State.IsComplete (state : State) : Prop where
  position : state.settle.position = .afterType
  filled : state.settle.level.alternatives ≠ []

theorem State.isComplete_add (state : State) (type : TypeTerm) : (state.add type).IsComplete :=
  ⟨rfl, List.cons_ne_nil _ _⟩

theorem State.isComplete_of_afterPath {state : State} {path : String} (positioned : state.position = .afterPath path) :
    state.IsComplete := by
  have settled : state.settle = state.add (.name path) := by simp only [settle, positioned]
  exact ⟨by rw [settled]; rfl, by rw [settled]; exact List.cons_ne_nil _ _⟩

theorem ofGroups?_ne_none {groups : List TypeTerm} (filled : groups ≠ []) : ∃ type, ofGroups? groups = some type := by
  match groups with
  | [] => exact absurd rfl filled
  | [type] => exact ⟨type, rfl⟩
  | first :: second :: rest => exact ⟨.tuple (first :: second :: rest), rfl⟩

theorem run_closeBrackets {state : State} {closings : List Token} (complete : state.IsComplete)
    (closing : ∀ token ∈ closings, token.kind = .closeBracket) (count : closings.length = state.settle.brackets.length)
    (stop : Span) : ∃ next type, run state closings = .ok next ∧ next.finish stop = .ok type := by
  -- Each closing bracket completes the subscript of the innermost open one, which is one less from then on.
  induction closings generalizing state with
  | nil =>
    have closed : state.settle.brackets = [] := List.length_eq_zero_iff.1 count.symm
    obtain ⟨type, made⟩ := ofGroups?_ne_none (Level.allGroups_ne_nil complete.filled)
    refine ⟨state, type, rfl, ?_⟩
    simp only [State.finish, State.groupsAtEnd_eq (.inr complete.position) closed, made]
  | cons token rest ih =>
    have isClosing := closing token List.mem_cons_self
    cases listed : state.settle.brackets with
    | nil => simp [listed] at count
    | cons bracket brackets =>
      have stepped : state.step .asWritten token = .ok
          ({ state.settle with level := bracket.around, brackets := brackets }.add
            (.subscript bracket.base state.settle.level.allGroups)) := by
        rw [State.step_closeBracket (.inr complete.position) isClosing]
        unfold State.closeBracket
        rw [listed]
        dsimp only
        split
        · rename_i nothing
          exact absurd nothing (Level.allGroups_ne_nil complete.filled)
        · rfl
      rw [run_cons stepped]
      refine ih (State.isComplete_add _ _) (fun other later => closing other (List.mem_cons_of_mem _ later)) ?_
      rw [listed] at count
      exact Nat.succ.inj count

theorem isPath_ofRun (start : Nat) : Grammar.IsPath (Token.ofRun start ['t']) := by
  have oneSegment : ¬ "" ∈ Dotted.segments (String.ofList ['t']) := by decide
  exact ⟨rfl, oneSegment⟩

theorem State.isComplete_of_explains {state : State} {tokens : List Token} (explains : state.Explains tokens)
    (follows : ¬ state.AwaitsType) : state.IsComplete := by
  cases positioned : state.position with
  | group => exact absurd (.inl positioned) follows
  | alternative => exact absurd (.inr positioned) follows
  | afterPath path => exact isComplete_of_afterPath positioned
  | afterType =>
    obtain ⟨before, inside, -, -, known⟩ := explains
    simp only [Inside, positioned] at known
    obtain ⟨_, current, -, -, alternatives⟩ := known
    rw [← settle_afterType positioned] at alternatives
    refine ⟨by rw [settle_afterType positioned, positioned], fun isEmpty => ?_⟩
    exact alternatives.ne_nil (by rw [isEmpty, List.reverse_nil])

/-- Some text completes what was read, wherever it stands. -/
theorem exists_completion {state : State} {tokens : List Token} (explains : state.Explains tokens) :
    ∃ text, Token.EndsRun text ∧ ∀ start stop, ∃ next type,
      run state (Token.scanFrom start text) = .ok next ∧ next.finish stop = .ok type := by
  by_cases awaits : state.AwaitsType
  · -- A type is missing, and then the brackets.
    refine ⟨' ' :: 't' :: List.replicate state.brackets.length ']', Token.endsRun_cons _ (by decide), fun start stop => ?_⟩
    have ends : Token.EndsRun (List.replicate state.brackets.length ']') := by
      intro c rest same
      have member : c ∈ List.replicate state.brackets.length ']' := by rw [same]; exact List.mem_cons_self
      rw [List.eq_of_mem_replicate member]
      decide
    have scanned : Token.scanFrom start (' ' :: 't' :: List.replicate state.brackets.length ']') =
        Token.ofRun (start + 1) ['t'] :: Token.scanFrom (start + 1 + 1) (List.replicate state.brackets.length ']') := by
      rw [Token.scanFrom_gap (by decide)]
      have letter : ∀ c ∈ ['t'], Token.isPathChar c = true := List.all_eq_true.1 (by decide)
      exact Token.scanFrom_run (List.cons_ne_nil _ _) letter ends
    obtain ⟨length, closing⟩ := Token.scanFrom_closeBrackets (start + 1 + 1) state.brackets.length
    let named : State := { state with position := .afterPath (Token.ofRun (start + 1) ['t']).lexeme }
    have complete : named.IsComplete := State.isComplete_of_afterPath rfl
    rw [scanned, run_cons (step_isPath awaits (isPath_ofRun _))]
    exact run_closeBrackets complete closing length stop
  · -- The blank keeps the brackets apart from a path that was read last.
    refine ⟨' ' :: List.replicate state.settle.brackets.length ']', Token.endsRun_cons _ (by decide), fun start stop => ?_⟩
    obtain ⟨length, closing⟩ := Token.scanFrom_closeBrackets (start + ' '.utf8Size) state.settle.brackets.length
    rw [Token.scanFrom_gap (by decide)]
    exact run_closeBrackets (State.isComplete_of_explains explains awaits) closing length stop

end Reader

theorem exists_parse_of_run {text : List Char} {state : Reader.State}
    (ran : Reader.run .start (Token.scanFrom 0 text) = .ok state) :
    ∃ source type, parse source = .ok type ∧ Token.scanFrom 0 text <+: Token.scan source := by
  have explains := Reader.explains_run Reader.State.explains_start ran
  obtain ⟨completion, ends, completes⟩ := Reader.exists_completion explains
  have scanned := @Token.scanFrom_append 0 text completion ends
  obtain ⟨last, type, ranLast, finished⟩ := completes (0 + Token.width text)
    (Token.ofEnd (Token.width (text ++ completion))).span
  refine ⟨String.ofList (text ++ completion), type, parse_eq_ok.2 ⟨last.imports, ?_⟩, ?_⟩
  · have whole := (Reader.run_append ran).trans ranLast
    unfold Reader.run at whole
    rw [String.toList_ofList, scanned, readTokens, whole]
    simp only [bind, Except.bind, finished, pure, Except.pure]
  · rw [Token.scan, String.toList_ofList, scanned, List.append_assoc]
    exact List.prefix_append _ _

/-! ### What the reader blames

A token that cannot follow is blamed itself, unless it closes a bracket with nothing in it or ends the text before a
bracket is closed. Then the bracket is blamed, which is the innermost open one of the tokens before.
-/

namespace Token

/-- The opening brackets without a closing one after one more token. -/
def track (opened : List Token) (token : Token) : List Token :=
  match token.kind with
  | .openBracket => token :: opened
  | .closeBracket => opened.tail
  | _ => opened

def openBrackets (tokens : List Token) : List Token := tokens.foldl track []

theorem mem_of_mem_foldl_track {tokens opened : List Token} {opening : Token}
    (member : opening ∈ tokens.foldl track opened) : opening ∈ opened ∨ opening ∈ tokens := by
  induction tokens generalizing opened with
  | nil => exact .inl member
  | cons token rest ih =>
    rw [List.foldl_cons] at member
    rcases ih member with earlier | later
    · unfold track at earlier
      split at earlier
      · rcases List.mem_cons.1 earlier with rfl | inside
        · exact .inr List.mem_cons_self
        · exact .inl inside
      · exact .inl (List.mem_of_mem_tail earlier)
      · exact .inl earlier
    · exact .inr (List.mem_cons_of_mem _ later)

theorem mem_of_mem_openBrackets {tokens : List Token} {opening : Token} (member : opening ∈ openBrackets tokens) :
    opening ∈ tokens :=
  (mem_of_mem_foldl_track member).resolve_left List.not_mem_nil

end Token

/-- What a token is blamed on that cannot follow, where the brackets at some places are open. -/
inductive Blames (opened : List Span) (token : Token) : FaultKind × Span → Prop where
  | here {kind : FaultKind} : kind ≠ .emptyBracket → kind ≠ .unclosedBracket → Blames opened token (kind, token.span)
  | emptyBracket {opening : Span} : token.kind = .closeBracket → opened.head? = some opening →
      Blames opened token (.emptyBracket, opening)
  | unclosedBracket {opening : Span} : token.kind = .endOfText → opened.head? = some opening →
      Blames opened token (.unclosedBracket, opening)

namespace Reader

/-! ### The brackets that are open -/

namespace State

def openSpans (state : State) : List Span := state.brackets.map Bracket.span

theorem openSpans_start : start.openSpans = ([] : List Token).map Token.span := rfl

section
variable {state next : State} {token : Token} {opened : List Token}

theorem brackets_of_readType (read : state.readType .asWritten token = .ok next) :
    token.kind = .path ∧ next.brackets = state.brackets := by
  unfold readType at read
  split at read
  · rename_i isPath
    refine ⟨isPath, ?_⟩
    split at read
    · cases read; rfl
    · split at read <;> cases read
      rfl
  · cases read
  · cases read

theorem brackets_of_closeBracket (read : state.closeBracket token = .ok next) :
    next.brackets = state.brackets.tail := by
  unfold closeBracket at read
  split at read
  · cases read
  · rename_i bracket brackets listed
    split at read
    · cases read
    · cases read
      rw [listed]
      rfl

theorem openSpans_of_readType (tracked : state.openSpans = opened.map Token.span)
    (read : state.readType .asWritten token = .ok next) : next.openSpans = (Token.track opened token).map Token.span := by
  obtain ⟨isPath, brackets⟩ := brackets_of_readType read
  simp only [openSpans, Token.track, isPath, brackets]
  exact tracked

theorem openSpans_of_closeBracket (tracked : state.openSpans = opened.map Token.span) (closing : token.kind = .closeBracket)
    (read : state.closeBracket token = .ok next) : next.openSpans = (Token.track opened token).map Token.span := by
  simp only [openSpans, Token.track, closing, brackets_of_closeBracket read, List.map_tail]
  exact congrArg List.tail tracked

theorem openSpans_of_readSeparator (tracked : state.openSpans = opened.map Token.span)
    (read : state.readSeparator token = .ok next) : next.openSpans = (Token.track opened token).map Token.span := by
  unfold readSeparator at read
  cases kind : token.kind <;> simp only [kind] at read
  case closeBracket => exact openSpans_of_closeBracket tracked kind read
  case or | comma =>
    cases read
    simp only [Token.track, kind]
    exact tracked
  all_goals cases read

/-- One step keeps the open brackets those of the tokens. -/
theorem openSpans_of_step (tracked : state.openSpans = opened.map Token.span)
    (read : state.step .asWritten token = .ok next) : next.openSpans = (Token.track opened token).map Token.span := by
  unfold step at read
  split at read
  · split at read
    · rename_i isComma
      cases read
      simpa only [Token.track, isComma] using tracked
    · rename_i closing
      exact openSpans_of_closeBracket tracked closing read
    · exact openSpans_of_readType tracked read
  · exact openSpans_of_readType tracked read
  · rename_i path positioned
    split at read
    · rename_i isOpening
      cases read
      simpa only [openSpans, openBracket, Token.track, isOpening, List.map_cons, List.cons.injEq, true_and] using tracked
    · exact @openSpans_of_readSeparator (state.add (.name path)) next token opened tracked read
  · exact openSpans_of_readSeparator tracked read

end

end State

theorem openSpans_of_run {state last : State} {tokens opened : List Token}
    (tracked : state.openSpans = opened.map Token.span) (ran : run state tokens = .ok last) :
    last.openSpans = (tokens.foldl Token.track opened).map Token.span := by
  induction tokens generalizing state opened with
  | nil => cases ran; exact tracked
  | cons token rest ih =>
    cases stepped : state.step .asWritten token with
    | error located =>
      rw [run, List.foldlM_cons, stepped] at ran
      cases ran
    | ok next =>
      rw [run_cons stepped] at ran
      exact ih (State.openSpans_of_step tracked stepped) ran

/-! ### What is blamed -/

theorem exists_step_of_run_error {state : State} {tokens : List Token} {located : Located}
    (ran : run state tokens = .error located) : ∃ before token after middle,
      tokens = before ++ token :: after ∧ run state before = .ok middle ∧
        middle.step .asWritten token = .error located := by
  induction tokens generalizing state with
  | nil => cases ran
  | cons token rest ih =>
    cases stepped : state.step .asWritten token with
    | error here =>
      rw [run, List.foldlM_cons, stepped] at ran
      cases ran
      exact ⟨[], token, rest, state, rfl, rfl, stepped⟩
    | ok next =>
      rw [run_cons stepped] at ran
      obtain ⟨before, later, after, middle, rfl, ranBefore, failed⟩ := ih ran
      exact ⟨token :: before, later, after, middle, rfl, (run_cons stepped).trans ranBefore, failed⟩

namespace State

/-- What a step can blame. -/
def StepBlames (state : State) (token : Token) (located : Located) : Prop :=
  Blames state.openSpans token located ∧ located.1 ≠ .emptyType

section
variable {state : State} {token : Token} {located : Located}

theorem blames_readType (read : state.readType .asWritten token = .error located) : state.StepBlames token located := by
  unfold readType at read
  split at read
  · split at read
    · cases read
    · split at read
      · cases read
        exact ⟨.here (by simp) (by simp), by simp⟩
      · cases read
  all_goals
    cases read
    exact ⟨.here (by simp) (by simp), by simp⟩

theorem blames_closeBracket (closing : token.kind = .closeBracket)
    (read : state.closeBracket token = .error located) : state.StepBlames token located := by
  unfold closeBracket at read
  split at read
  · cases read
    exact ⟨.here (by simp) (by simp), by simp⟩
  · rename_i bracket brackets listed
    split at read
    · cases read
      exact ⟨.emptyBracket closing (by simp [openSpans, listed]), by simp⟩
    · cases read

theorem blames_readSeparator (read : state.readSeparator token = .error located) : state.StepBlames token located := by
  unfold readSeparator at read
  split at read
  · cases read
  · cases read
  · rename_i closing
    exact blames_closeBracket closing read
  all_goals
    cases read
    exact ⟨.here (by simp) (by simp), by simp⟩

theorem blames_step (read : state.step .asWritten token = .error located) : state.StepBlames token located := by
  unfold step at read
  split at read
  · split at read
    · cases read
    · rename_i closing
      exact blames_closeBracket closing read
    · exact blames_readType read
  · exact blames_readType read
  · rename_i path positioned
    split at read
    · cases read
    · exact @blames_readSeparator (state.add (.name path)) token located read
  · exact blames_readSeparator read

theorem blames_finish {stop : Token} (isEnd : stop.kind = .endOfText)
    (finished : state.finish stop.span = .error located) : Blames state.openSpans stop located := by
  unfold finish groupsAtEnd at finished
  -- A bracket that is open is told of, unless an alternative is missing in it.
  cases listed : state.brackets with
  | nil =>
    cases positioned : state.position with
    | alternative =>
      simp only [positioned] at finished
      cases finished
      exact .here (by simp) (by simp)
    | group | afterPath path | afterType =>
      simp only [positioned, listed] at finished
      split at finished <;> cases finished
      exact .here (by simp) (by simp)
  | cons bracket rest =>
    cases positioned : state.position with
    | alternative =>
      simp only [positioned] at finished
      cases finished
      exact .here (by simp) (by simp)
    | group | afterPath path | afterType =>
      simp only [positioned, listed] at finished
      cases finished
      exact .unclosedBracket isEnd (by simp [openSpans, listed])

theorem groupsAtEnd_of_emptyType {stop span : Span} (finished : state.finish stop = .error (.emptyType, span)) :
    state.groupsAtEnd stop = .ok [] := by
  unfold finish at finished
  cases read : state.groupsAtEnd stop with
  | error located =>
    -- None of the faults of an unfinished text is this one.
    exfalso
    rw [read] at finished
    cases finished
    unfold groupsAtEnd at read
    split at read <;> cases read
  | ok groups =>
    match groups with
    | [] => rfl
    | [type] => rw [read] at finished; cases finished
    | first :: second :: rest => rw [read] at finished; cases finished

end

end State

end Reader

end TypedStub.TypeTerm
