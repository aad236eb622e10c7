import TypedStub.Proofs.TypeTerm.Blame
import TypedStub.Proofs.TypeTerm.Grammar
import TypedStub.Proofs.TypeTerm.Tiling

/-! The first fault of a documented type.

The reader keeps the places of tokens and brackets only to tell where a fault is. Tokens that differ in nothing but
their places are read alike, and a fault that is told of one text is told of each text with the same tokens before it.
-/

set_option autoImplicit false

namespace TypedStub.TypeTerm

/-- What a token says, wherever it stands. -/
def Token.unplaced (token : Token) : Token := { token with span := default }

@[simp] theorem Token.unplaced_kind (token : Token) : token.unplaced.kind = token.kind := rfl

@[simp] theorem Token.unplaced_lexeme (token : Token) : token.unplaced.lexeme = token.lexeme := rfl

namespace Reader

def Bracket.unplaced (bracket : Bracket) : Bracket := { bracket with span := default }

def State.unplaced (state : State) : State := { state with brackets := state.brackets.map Bracket.unplaced }

def outcome : Except Located State → Except FaultKind State
  | .ok state => .ok state.unplaced
  | .error (kind, _) => .error kind

namespace State

variable (state : State) (token : Token)

@[simp] theorem unplaced_level : state.unplaced.level = state.level := rfl

@[simp] theorem unplaced_brackets : state.unplaced.brackets = state.brackets.map Bracket.unplaced := rfl

@[simp] theorem unplaced_position : state.unplaced.position = state.position := rfl

theorem unplaced_mk (level : Level) (brackets : List Bracket) (position : Position) (imports : NameSet) :
    unplaced ⟨level, brackets.map Bracket.unplaced, position, imports⟩ =
      unplaced ⟨level, brackets, position, imports⟩ := by
  have twice : Bracket.unplaced ∘ Bracket.unplaced = Bracket.unplaced := rfl
  simp only [unplaced, List.map_map, twice]

theorem readType_unplaced (refer : String → Reference) :
    outcome (state.unplaced.readType refer token.unplaced) = outcome (state.readType refer token) := by
  simp only [readType, Token.unplaced_kind, Token.unplaced_lexeme]
  cases token.kind with
  | path =>
    by_cases dots : token.lexeme = "..."
    · simp only [dots, reduceIte, outcome]
      exact congrArg Except.ok (unplaced_mk _ _ _ _)
    · by_cases empty : "" ∈ Dotted.segments token.lexeme
      · simp only [dots, empty, reduceIte, outcome]
      · simp only [dots, empty, reduceIte, outcome]
        exact congrArg Except.ok (unplaced_mk _ _ _ _)
  | or | openBracket | closeBracket | comma | other | endOfText => rfl

theorem closeBracket_unplaced :
    outcome (state.unplaced.closeBracket token.unplaced) = outcome (state.closeBracket token) := by
  simp only [closeBracket, unplaced_brackets, unplaced_level]
  cases state.brackets with
  | nil => rfl
  | cons bracket brackets =>
    simp only [List.map_cons]
    cases state.level.allGroups with
    | nil => rfl
    | cons first rest => exact congrArg Except.ok (unplaced_mk _ _ _ _)

theorem readSeparator_unplaced :
    outcome (state.unplaced.readSeparator token.unplaced) = outcome (state.readSeparator token) := by
  simp only [readSeparator, Token.unplaced_kind]
  cases token.kind with
  | or | comma => exact congrArg Except.ok (unplaced_mk _ _ _ _)
  | closeBracket => exact closeBracket_unplaced state token
  | path | openBracket | other | endOfText => rfl

theorem step_unplaced (refer : String → Reference) :
    outcome (state.unplaced.step refer token.unplaced) = outcome (state.step refer token) := by
  simp only [step, unplaced_position, Token.unplaced_kind]
  cases state.position with
  | group =>
    cases token.kind with
    | comma => exact congrArg Except.ok (unplaced_mk _ _ _ _)
    | closeBracket => exact closeBracket_unplaced state token
    | or | path | openBracket | other | endOfText => exact readType_unplaced state token refer
  | alternative => exact readType_unplaced state token refer
  | afterPath path =>
    cases token.kind with
    | openBracket => exact congrArg Except.ok (unplaced_mk _ (state.openBracket path token).brackets _ _)
    | or | path | closeBracket | comma | other | endOfText =>
      exact readSeparator_unplaced (state.add (.name path)) token
  | afterType => exact readSeparator_unplaced state token

variable {state : State} {token : Token} {other : State} {twin : Token}

theorem step_congr (states : state.unplaced = other.unplaced) (tokens : token.unplaced = twin.unplaced) :
    outcome (state.step .asWritten token) = outcome (other.step .asWritten twin) := by
  rw [← step_unplaced, states, tokens, step_unplaced]

theorem finish_congr {stop later : Span} {type : TypeTerm} (states : state.unplaced = other.unplaced)
    (finished : state.finish stop = .ok type) : other.finish later = .ok type := by
  have level : state.level = other.level := by rw [← unplaced_level state, states, unplaced_level]
  have position : state.position = other.position := by rw [← unplaced_position state, states, unplaced_position]
  have brackets : state.brackets.map Bracket.unplaced = other.brackets.map Bracket.unplaced :=
    congrArg State.brackets states
  simp only [finish, groupsAtEnd, level, position] at finished ⊢
  cases listed : state.brackets with
  | nil =>
    have isEmpty : other.brackets = [] := by simpa [listed] using brackets.symm
    rw [isEmpty]
    rw [listed] at finished
    cases positioned : other.position with
    | alternative => simp only [positioned] at finished; cases finished
    | group | afterPath path | afterType =>
      simp only [positioned] at finished ⊢
      split at finished
      · cases finished
      · exact finished
  | cons bracket rest =>
    rw [listed] at finished
    cases positioned : other.position <;> simp only [positioned] at finished <;> cases finished

end State

variable {state other : State} {tokens twins : List Token}

theorem run_congr (states : state.unplaced = other.unplaced)
    (same : tokens.map Token.unplaced = twins.map Token.unplaced) :
    outcome (run state tokens) = outcome (run other twins) := by
  induction tokens generalizing state other twins with
  | nil =>
    obtain rfl : twins = [] := by simpa using same.symm
    exact congrArg Except.ok states
  | cons token rest ih =>
    -- Both steps fail, or both lead on to states that differ in their places alone.
    obtain ⟨twin, others, rfl, head, tail⟩ := List.map_eq_cons_iff.1 same.symm
    have stepped := State.step_congr states head.symm
    unfold run at ih ⊢
    rw [List.foldlM_cons, List.foldlM_cons]
    cases first : state.step .asWritten token with
    | error located =>
      cases second : other.step .asWritten twin with
      | error _ => rwa [first, second] at stepped
      | ok _ => rw [first, second] at stepped; cases stepped
    | ok next =>
      cases second : other.step .asWritten twin with
      | error _ => rw [first, second] at stepped; cases stepped
      | ok following =>
        rw [first, second] at stepped
        exact ih (Except.ok.inj stepped) tail.symm

/-- What can be read can be read at other places, and leads to the same. -/
theorem exists_run_of_run {last : State} (ran : run .start tokens = .ok last)
    (same : tokens.map Token.unplaced = twins.map Token.unplaced) :
    ∃ twin, run .start twins = .ok twin ∧ last.unplaced = twin.unplaced := by
  have outcomes : outcome (run .start tokens) = outcome (run .start twins) := run_congr rfl same
  rw [ran] at outcomes
  cases other : run .start twins with
  | error located => rw [other] at outcomes; cases outcomes
  | ok twin =>
    rw [other] at outcomes
    exact ⟨twin, rfl, Except.ok.inj outcomes⟩

end Reader

/-! ### The first fault of a text

A text is refused at the first token with which no documented type can go on: the tokens before it begin some documented
type, and with it none goes on, wherever its tokens stand.
-/

open Reader

theorem Token.kind_of_mem_scanFrom {start : Nat} {text : List Char} {token : Token}
    (member : token ∈ scanFrom start text) : token.kind ≠ .endOfText :=
  (isLexeme_of_mem_scanFrom member).ne_endOfText

theorem readTokens_eq_error {tokens : List Token} {stop : Span} {located : Located} :
    readTokens .asWritten tokens stop = .error located ↔ run .start tokens = .error located ∨
      ∃ last, run .start tokens = .ok last ∧ last.finish stop = .error located := by
  unfold readTokens run
  cases ran : tokens.foldlM (State.step .asWritten) .start with
  | error other => simp [bind, Except.bind]
  | ok last => cases finished : last.finish stop <;> simp [bind, Except.bind, finished, pure, Except.pure]

theorem parse_eq_error {source : String} {fault : Fault} :
    parse source = .error fault ↔ ∃ kind span, fault = ⟨kind, span, source, kind.hint?⟩ ∧
      readTokens .asWritten (Token.scanFrom 0 source.toList) (Token.ofEnd (Token.width source.toList)).span =
        .error (kind, span) := by
  unfold parse read
  dsimp only
  cases readTokens .asWritten (Token.scanFrom 0 source.toList) (Token.ofEnd (Token.width source.toList)).span with
  | ok referred => simp [Except.map]
  | error located =>
    obtain ⟨kind, span⟩ := located
    simp [Except.map, eq_comm]

theorem exists_run_of_parse {source : String} {type : TypeTerm} (parsed : parse source = .ok type) :
    ∃ last, run .start (Token.scanFrom 0 source.toList) = .ok last ∧
      last.finish (Token.ofEnd (Token.width source.toList)).span = .ok type := by
  obtain ⟨imports, read⟩ := parse_eq_ok.1 parsed
  unfold readTokens at read
  change (run .start (Token.scanFrom 0 source.toList) >>= _) = _ at read
  cases ran : run .start (Token.scanFrom 0 source.toList) with
  | error located => rw [ran] at read; cases read
  | ok last =>
    refine ⟨last, rfl, ?_⟩
    rw [ran] at read
    simp only [bind, Except.bind] at read
    split at read
    · cases read
    · rename_i finished
      cases read
      exact finished

/-! ### Tokens with which a documented type goes on -/

/-- Some documented type begins with tokens that say the same, wherever they stand. -/
def Viable (tokens : List Token) : Prop :=
  ∃ source type, parse source = .ok type ∧ tokens.map Token.unplaced <+: (Token.scan source).map Token.unplaced

section
variable {before : List Token} {token : Token} {state : State}

/-- Tokens with which a documented type goes on are all of its tokens, or they end before its end. -/
theorem Viable.exists_run (viable : Viable (before ++ [token])) :
    ∃ tokens last, run .start tokens = .ok last ∧ (∀ other ∈ tokens, other.kind ≠ .endOfText) ∧
      ((token.kind = .endOfText ∧ tokens.map Token.unplaced = before.map Token.unplaced ∧
        ∃ stop type, last.finish stop = .ok type) ∨
      (before ++ [token]).map Token.unplaced <+: tokens.map Token.unplaced) := by
  obtain ⟨source, type, parsed, isBefore⟩ := viable
  obtain ⟨last, ran, finished⟩ := exists_run_of_parse parsed
  refine ⟨_, last, ran, fun _ => Token.kind_of_mem_scanFrom, ?_⟩
  have parts : (Token.scan source).map Token.unplaced =
      (Token.scanFrom 0 source.toList).map Token.unplaced ++ [(Token.ofEnd (Token.width source.toList)).unplaced] := by
    rw [Token.scan, List.map_append, List.map_singleton]
  rw [parts, List.prefix_concat_iff] at isBefore
  rcases isBefore with whole | inside
  · rw [List.map_append, List.map_singleton] at whole
    obtain ⟨same, ends⟩ := List.append_inj' whole rfl
    exact .inl ⟨congrArg Token.kind (List.cons.inj ends).1, same.symm, _, type, finished⟩
  · exact .inr inside

theorem not_viable_of_step {located : Located} (ran : run .start before = .ok state)
    (failed : state.step .asWritten token = .error located) (notEnd : token.kind ≠ .endOfText) :
    ¬ Viable (before ++ [token]) := by
  intro viable
  obtain ⟨tokens, last, ranTokens, -, ⟨isEnd, -⟩ | ⟨rest, split⟩⟩ := viable.exists_run
  · exact notEnd isEnd
  · -- The type begins with twins of the tokens before, after which it goes on with a twin of the one refused. As the
    -- reader reads the whole type, it reads this beginning, and so it reads the tokens before with the one refused.
    obtain ⟨first, others, rfl, same, -⟩ := List.map_eq_append_iff.1 split.symm
    cases ranFirst : run .start first with
    | ok middle =>
      obtain ⟨twin, ranTwin, -⟩ := exists_run_of_run ranFirst same
      rw [run_append ran, run, List.foldlM_cons, failed] at ranTwin
      cases ranTwin
    | error located =>
      unfold run at ranTokens ranFirst
      rw [List.foldlM_append, ranFirst] at ranTokens
      cases ranTokens

theorem not_viable_of_finish {stop : Span} {located : Located} (ran : run .start before = .ok state)
    (failed : state.finish stop = .error located) (isEnd : token.kind = .endOfText) :
    ¬ Viable (before ++ [token]) := by
  intro viable
  obtain ⟨tokens, last, ranTokens, inside, ⟨-, same, _, type, finished⟩ | inner⟩ := viable.exists_run
  · -- The type has no more tokens than these, and the reader ends after them as it would have to end here.
    obtain ⟨twin, ranTwin, states⟩ := exists_run_of_run ranTokens same
    obtain rfl : state = twin := Except.ok.inj (ran.symm.trans ranTwin)
    rw [State.finish_congr states finished] at failed
    cases failed
  · -- Among the tokens before the end there is no end.
    have member : token.unplaced ∈ tokens.map Token.unplaced :=
      inner.subset (List.mem_map_of_mem (List.mem_append_right _ (List.mem_singleton_self _)))
    obtain ⟨other, among, same⟩ := List.mem_map.1 member
    exact inside other among ((congrArg Token.kind same).trans isEnd)

end

/-! ### Texts without a type -/

theorem Grammar.kind_of_groups_nil {tokens : List Token} (groups : Grammar.Groups tokens []) :
    ∀ token ∈ tokens, token.kind = .comma := by
  match groups with
  | .empty => exact fun _ member => by cases member
  | .skip isComma others =>
    intro token member
    rcases List.mem_cons.1 member with rfl | later
    · exact isComma
    · exact kind_of_groups_nil others token later

theorem run_commas {tokens : List Token} (commas : ∀ token ∈ tokens, token.kind = .comma) :
    run .start tokens = .ok .start := by
  induction tokens with
  | nil => rfl
  | cons token rest ih =>
    have stepped : State.start.step .asWritten token = .ok .start := by
      simp only [State.step, State.start, commas token List.mem_cons_self]
    rw [run_cons stepped]
    exact ih fun other later => commas other (List.mem_cons_of_mem _ later)

theorem Token.mem_blanks_iff {c : Char} : c ∈ [',', ' ', '\t', '\r', '\n'] ↔ c = ',' ∨ isGap c = true := by
  simp only [List.mem_cons, List.not_mem_nil, or_false, isGap, Bool.or_eq_true, decide_eq_true_eq, or_assoc]

theorem Token.markKind_eq_comma_iff {c : Char} : markKind c = .comma ↔ c = ',' := by
  constructor
  · intro isComma
    unfold markKind at isComma
    repeat' split at isComma
    all_goals first | assumption | cases isComma
  · rintro rfl
    rfl

theorem kind_scanFrom_iff {start : Nat} {text : List Char} :
    (∀ token ∈ Token.scanFrom start text, token.kind = .comma) ↔ ∀ c ∈ text, c ∈ [',', ' ', '\t', '\r', '\n'] := by
  -- The cases are those of the scanner: the end, a gap, a run of path characters, and any other character.
  fun_induction Token.scanFrom start text with
  | case1 start => simp
  | case2 start c rest gap ih =>
    rw [ih, List.forall_mem_cons]
    exact ⟨fun all => ⟨Token.mem_blanks_iff.2 (.inr gap), all⟩, And.right⟩
  | case3 start c rest notGap inside run ih =>
    constructor
    · intro commas
      have isComma := commas _ List.mem_cons_self
      unfold Token.ofRun at isComma
      dsimp only at isComma
      split at isComma <;> cases isComma
    · intro blank
      have among := blank c List.mem_cons_self
      simp only [List.mem_cons, List.not_mem_nil, or_false] at among
      rcases among with rfl | rfl | rfl | rfl | rfl <;> cases inside
  | case4 start c rest notGap outside ih =>
    rw [List.forall_mem_cons, ih, List.forall_mem_cons]
    refine and_congr_left fun _ => ?_
    have kind : (Token.ofMark start c).kind = .comma ↔ c = ',' := Token.markKind_eq_comma_iff
    rw [kind, Token.mem_blanks_iff]
    exact (or_iff_left notGap).symm

/-- A text names no type at all exactly if nothing but commas and gaps stand in it. -/
theorem exists_emptyType_iff {source : String} :
    (∃ fault, parse source = .error fault ∧ fault.kind = .emptyType) ↔
      ∀ c ∈ source.toList, c ∈ [',', ' ', '\t', '\r', '\n'] := by
  rw [← @kind_scanFrom_iff 0]
  constructor
  · rintro ⟨fault, parsed, isEmpty⟩
    obtain ⟨kind, span, rfl, read⟩ := parse_eq_error.1 parsed
    obtain rfl : kind = .emptyType := isEmpty
    rcases readTokens_eq_error.1 read with ran | ⟨last, ran, finished⟩
    · obtain ⟨before, token, after, middle, -, -, failed⟩ := exists_step_of_run_error ran
      exact absurd rfl (State.blames_step failed).2
    · have explains := explains_run State.explains_start ran
      exact Grammar.kind_of_groups_nil
        (State.groups_of_groupsAtEnd explains (State.groupsAtEnd_of_emptyType finished))
  · intro commas
    exact ⟨_, parse_eq_error.2 ⟨.emptyType, _, rfl, readTokens_eq_error.2 (.inr ⟨.start, run_commas commas, rfl⟩)⟩, rfl⟩

/-! ### The first fault -/

theorem Blames.exists_token {before : List Token} {token : Token} {located : Located}
    (blames : Blames ((Token.openBrackets before).map Token.span) token located) :
    ∃ blamed, (blamed ∈ before ∨ blamed = token) ∧ blamed.span = located.2 := by
  have innermost : ∀ {opening : Span}, ((Token.openBrackets before).map Token.span).head? = some opening →
      ∃ blamed, (blamed ∈ before ∨ blamed = token) ∧ blamed.span = opening := by
    intro opening first
    rw [List.head?_map, Option.map_eq_some_iff] at first
    obtain ⟨blamed, first, rfl⟩ := first
    exact ⟨blamed, .inl (Token.mem_of_mem_openBrackets (List.mem_of_head? first)), rfl⟩
  cases blames with
  | here => exact ⟨token, .inr rfl, rfl⟩
  | emptyBracket _ first => exact innermost first
  | unclosedBracket _ first => exact innermost first

structure Refuses (source : String) (fault : Fault) (before : List Token) (token : Token) (after : List Token) :
    Prop where
  split : Token.scan source = before ++ token :: after
  /-- Some documented type begins with the tokens before, and at the same places. -/
  viable : ∃ accepted type, parse accepted = .ok type ∧ before <+: Token.scan accepted
  /-- None goes on with the token, at whatever places. -/
  stops : ¬ Viable (before ++ [token])
  blames : Blames ((Token.openBrackets before).map Token.span) token (fault.kind, fault.span)

theorem exists_refuses {source : String} {fault : Fault} (parsed : parse source = .error fault) :
    ∃ before token after, Refuses source fault before token after := by
  obtain ⟨kind, span, rfl, read⟩ := parse_eq_error.1 parsed
  -- The fault arises at a token of the text or at the end behind all of them.
  rcases readTokens_eq_error.1 read with ran | ⟨last, ran, finished⟩
  · obtain ⟨before, token, after, middle, split, ranBefore, failed⟩ := exists_step_of_run_error ran
    have inside : token ∈ Token.scanFrom 0 source.toList := by
      rw [split]
      exact List.mem_append_right _ List.mem_cons_self
    obtain ⟨first, rest, -, scanned⟩ := Token.exists_of_scanFrom_eq_append split
    refine ⟨before, token, after ++ [Token.ofEnd (Token.width source.toList)], ?_, ?_, ?_, ?_⟩
    · rw [Token.scan, split, List.append_assoc, List.cons_append]
    · rw [← scanned] at ranBefore ⊢
      exact exists_parse_of_run ranBefore
    · exact not_viable_of_step ranBefore failed (Token.kind_of_mem_scanFrom inside)
    · rw [Token.openBrackets, ← openSpans_of_run State.openSpans_start ranBefore]
      exact (State.blames_step failed).1
  · refine ⟨_, Token.ofEnd (Token.width source.toList), [], rfl, exists_parse_of_run ran, ?_, ?_⟩
    · exact not_viable_of_finish ran finished rfl
    · rw [Token.openBrackets, ← openSpans_of_run State.openSpans_start ran]
      exact State.blames_finish rfl finished

theorem exists_blamed {source : String} {fault : Fault} (parsed : parse source = .error fault) :
    ∃ before token after, Refuses source fault before token after ∧
      ∃ blamed ∈ Token.scan source, blamed.span = fault.span := by
  obtain ⟨before, token, after, refuses⟩ := exists_refuses parsed
  obtain ⟨blamed, among, span⟩ := refuses.blames.exists_token
  refine ⟨before, token, after, refuses, blamed, ?_, span⟩
  rw [refuses.split]
  rcases among with earlier | rfl
  · exact List.mem_append_left _ earlier
  · exact List.mem_append_right _ List.mem_cons_self

/-- A text that is no documented type is refused at the first token with which no documented type goes on. The span at
fault is that of the token, of the bracket it leaves empty, or of the bracket the text leaves open, and covers that token
of the text. A text is said to name no type at all exactly if it holds nothing but commas and gaps. -/
theorem parse_fails_at_first_fault :
    (∀ source fault, parse source = .error fault →
      ∃ before token after, Refuses source fault before token after ∧
        ∃ blamed ∈ Token.scan source, blamed.span = fault.span ∧
          fault.span.slice? source = some blamed.lexeme ∧ fault.fragment = blamed.lexeme) ∧
    (∀ source, (∃ fault, parse source = .error fault ∧ fault.kind = .emptyType) ↔
      ∀ c ∈ source.toList, c ∈ [',', ' ', '\t', '\r', '\n']) := by
  refine ⟨fun source fault parsed => ?_, fun source => exists_emptyType_iff⟩
  obtain ⟨before, token, after, refuses, blamed, member, span⟩ := exists_blamed parsed
  have slice := Token.slice?_of_mem_scan member
  rw [span] at slice
  have whole : fault.source = source := by
    obtain ⟨kind, place, rfl, -⟩ := parse_eq_error.1 parsed
    rfl
  refine ⟨before, token, after, refuses, blamed, member, span, slice, ?_⟩
  rw [Fault.fragment, whole, slice, Option.getD_some]

/-- Faults of texts with less than `2 ^ 32` bytes are at the same places when offsets are kept in 32 bits. -/
theorem narrowed_span_of_parse {source : String} {fault : Fault} (short : source.utf8ByteSize < 2 ^ 32)
    (parsed : parse source = .error fault) : fault.span.narrowed = fault.span := by
  obtain ⟨_, _, _, _, blamed, member, span⟩ := exists_blamed parsed
  have bounds := Token.bounds_of_mem_scan member
  rw [span] at bounds
  exact Span.narrowed_eq (by omega) (by omega)

example :
    (match parse "dict[str, list[ ], int" with
      | .error fault => some (fault.kind, fault.span, fault.fragment)
      | .ok _ => none) = some (.emptyBracket, ⟨14, 15⟩, "[") := by with_unfolding_all rfl

end TypedStub.TypeTerm
