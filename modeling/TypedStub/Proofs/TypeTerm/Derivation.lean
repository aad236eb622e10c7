import TypedStub.Proofs.TypeTerm.Grammar

/-! The grammar derives what the reader accepts.

While a text is read, the tokens so far are no phrase of the grammar yet. What is known of them is which
types they make once more tokens follow, at each depth of brackets. One step of the reader keeps that
knowledge, and at the end of the text it is a derivation.
-/

set_option autoImplicit false

namespace TypedStub.TypeTerm.Reader

open Grammar

/-- Groups that follow the tokens follow the types. -/
def GroupsBefore (tokens : List Token) (types : List TypeTerm) : Prop :=
  ∀ rest later, Groups rest later → Groups (tokens ++ rest) (types ++ later)

def AlternativesBefore (tokens : List Token) (types : List TypeTerm) : Prop :=
  ∀ rest later, Alternatives rest later → Alternatives (tokens ++ rest) (types ++ later)

section
variable {tokens more : List Token} {types : List TypeTerm} {type : TypeTerm} {token : Token}

theorem GroupsBefore.skip (before : GroupsBefore tokens types) (isComma : token.kind = .comma) :
    GroupsBefore (tokens ++ [token]) types := by
  intro rest later groups
  rw [List.append_assoc]
  exact before _ _ (.skip isComma groups)

theorem GroupsBefore.next (before : GroupsBefore tokens types) (sequence : Sequence more type)
    (isComma : token.kind = .comma) : GroupsBefore (tokens ++ more ++ [token]) (types ++ [type]) := by
  intro rest later groups
  simp only [List.append_assoc, List.singleton_append]
  exact before _ _ (.next sequence isComma groups)

theorem GroupsBefore.groups (before : GroupsBefore tokens types) : Groups tokens types := by
  simpa only [List.append_nil] using before [] [] .empty

theorem AlternativesBefore.last (before : AlternativesBefore tokens types)
    (alternative : Grammar.Alternative more type) : Alternatives (tokens ++ more) (types ++ [type]) :=
  before _ _ (.last alternative)

theorem AlternativesBefore.of (alternatives : Alternatives tokens types) (isOr : token.kind = .or) :
    AlternativesBefore (tokens ++ [token]) types := by
  intro rest later others
  rw [List.append_assoc]
  exact alternatives.append isOr others

end

namespace Level

/-- The tokens of a level up to the start of a group. -/
structure Begins (level : Level) (tokens : List Token) : Prop where
  fresh : level.alternatives = []
  groups : GroupsBefore tokens level.groups.reverse

/-- The tokens of a level up to where a type has to come. -/
def Awaits (level : Level) (tokens : List Token) : Prop :=
  ∃ before current, tokens = before ++ current ∧ GroupsBefore before level.groups.reverse ∧
    AlternativesBefore current level.alternatives.reverse

def Completes (level : Level) (tokens : List Token) : Prop :=
  ∃ before current, tokens = before ++ current ∧ GroupsBefore before level.groups.reverse ∧
    Alternatives current level.alternatives.reverse

section
variable {level : Level} {tokens more : List Token} {type : TypeTerm} {token : Token}

theorem begins_empty : Begins .empty [] := ⟨rfl, fun _ _ groups => groups⟩

theorem Begins.awaits (begins : level.Begins tokens) : level.Awaits tokens := by
  refine ⟨tokens, [], (List.append_nil _).symm, begins.groups, ?_⟩
  intro rest later alternatives
  rw [begins.fresh]
  exact alternatives

theorem Begins.comma (begins : level.Begins tokens) (isComma : token.kind = .comma) :
    level.Begins (tokens ++ [token]) := ⟨begins.fresh, begins.groups.skip isComma⟩

theorem Begins.allGroups (begins : level.Begins tokens) : Groups tokens level.allGroups := by
  have same : level.endGroup = level := by simp only [endGroup, begins.fresh]
  rw [Level.allGroups, same]
  exact begins.groups.groups

theorem Awaits.add (awaits : level.Awaits tokens) (alternative : Grammar.Alternative more type) :
    (level.add type).Completes (tokens ++ more) := by
  obtain ⟨before, current, rfl, groups, alternatives⟩ := awaits
  refine ⟨before, current ++ more, List.append_assoc .., groups, ?_⟩
  have last := alternatives.last alternative
  rwa [← List.reverse_cons] at last

theorem Completes.or (completes : level.Completes tokens) (isOr : token.kind = .or) :
    level.Awaits (tokens ++ [token]) := by
  obtain ⟨before, current, rfl, groups, alternatives⟩ := completes
  exact ⟨before, current ++ [token], List.append_assoc .., groups, .of alternatives isOr⟩

theorem endGroup_of_alternatives {current : List Token}
    (alternatives : Alternatives current level.alternatives.reverse) :
    level.endGroup = ⟨TypeTerm.ofAlternatives level.alternatives.reverse :: level.groups, []⟩ := by
  unfold endGroup
  split
  · rename_i isEmpty
    exact absurd (congrArg List.reverse isEmpty) alternatives.ne_nil
  · rfl

theorem Completes.comma (completes : level.Completes tokens) (isComma : token.kind = .comma) :
    level.endGroup.Begins (tokens ++ [token]) := by
  obtain ⟨before, current, rfl, groups, alternatives⟩ := completes
  rw [endGroup_of_alternatives alternatives]
  refine ⟨rfl, ?_⟩
  rw [List.reverse_cons]
  exact groups.next (.ofAlternatives alternatives) isComma

theorem Completes.allGroups (completes : level.Completes tokens) : Groups tokens level.allGroups := by
  obtain ⟨before, current, rfl, groups, alternatives⟩ := completes
  rw [Level.allGroups, endGroup_of_alternatives alternatives, List.reverse_cons]
  exact groups _ _ (.last (.ofAlternatives alternatives))

end

end Level

/-- The tokens up to the innermost open bracket, that bracket included. -/
inductive Opened : List Bracket → List Token → Prop where
  | outside : Opened [] []
  | inside {brackets : List Bracket} {bracket : Bracket} {before around : List Token} {token opening : Token} :
      Opened brackets before → bracket.around.Awaits around → IsPath token → token.lexeme = bracket.base →
      opening.kind = .openBracket →
      Opened (bracket :: brackets) (before ++ (around ++ [token, opening]))

namespace State

def Inside (state : State) (tokens : List Token) : Prop :=
  match state.position with
  | .group => state.level.Begins tokens
  | .alternative => state.level.Awaits tokens
  | .afterPath path => ∃ around token, tokens = around ++ [token] ∧ state.level.Awaits around ∧
      IsPath token ∧ token.lexeme = path
  | .afterType => state.level.Completes tokens

/-- A state explains the tokens that led to it. -/
def Explains (state : State) (tokens : List Token) : Prop :=
  ∃ before inside, tokens = before ++ inside ∧ Opened state.brackets before ∧ state.Inside inside

section
variable {state next : State} {before inside tokens : List Token} {token : Token}

theorem explains_start : start.Explains [] := ⟨[], [], rfl, .outside, Level.begins_empty⟩

theorem explains_readType (opened : Opened state.brackets before) (awaits : state.level.Awaits inside)
    (read : state.readType .asWritten token = .ok next) : next.Explains (before ++ inside ++ [token]) := by
  unfold readType at read
  split at read
  · rename_i isPath
    split at read
    · rename_i isEllipsis
      cases read
      rw [List.append_assoc, isEllipsis]
      exact ⟨before, inside ++ [token], rfl, opened, awaits.add (.ellipsis isPath isEllipsis)⟩
    · split at read
      · cases read
      · rename_i whole
        cases read
        rw [List.append_assoc]
        exact ⟨before, inside ++ [token], rfl, opened, inside, token, rfl, awaits, ⟨isPath, whole⟩, rfl⟩
  · cases read
  · cases read

theorem explains_closeBracket (opened : Opened state.brackets before)
    (groups : Groups inside state.level.allGroups) (closing : token.kind = .closeBracket)
    (read : state.closeBracket token = .ok next) : next.Explains (before ++ inside ++ [token]) := by
  unfold closeBracket at read
  split at read
  · cases read
  · rename_i bracket brackets listed
    rw [listed] at opened
    cases opened with
    | @inside _ _ outer around path opening openedOuter awaits isPath named isOpening =>
      split at read
      · cases read
      · rename_i notEmpty
        cases read
        -- The path, the bracket and what was read inside it are one alternative of the level around.
        refine ⟨outer, around ++ (path :: opening :: inside ++ [token]), ?_, openedOuter, ?_⟩
        · simp
        · rw [← named]
          exact awaits.add (.subscript isPath isOpening groups notEmpty closing)

theorem explains_readSeparator (opened : Opened state.brackets before)
    (completes : state.level.Completes inside) (read : state.readSeparator token = .ok next) :
    next.Explains (before ++ inside ++ [token]) := by
  unfold readSeparator at read
  split at read
  · rename_i isOr
    cases read
    exact ⟨before, inside ++ [token], List.append_assoc .., opened, completes.or isOr⟩
  · rename_i isComma
    cases read
    exact ⟨before, inside ++ [token], List.append_assoc .., opened, completes.comma isComma⟩
  · rename_i isClosing
    exact explains_closeBracket opened completes.allGroups isClosing read
  all_goals cases read

/-- One step keeps what the tokens so far are known to be. -/
theorem Explains.step (explains : state.Explains tokens) (read : state.step .asWritten token = .ok next) :
    next.Explains (tokens ++ [token]) := by
  obtain ⟨before, inside, rfl, opened, known⟩ := explains
  unfold State.step at read
  cases positioned : state.position with
  | group =>
    simp only [Inside, positioned] at known read
    split at read
    · rename_i isComma
      cases read
      refine ⟨before, inside ++ [token], List.append_assoc .., opened, ?_⟩
      simp only [Inside, positioned]
      exact known.comma isComma
    · rename_i isClosing
      exact explains_closeBracket opened known.allGroups isClosing read
    · exact explains_readType opened known.awaits read
  | alternative =>
    simp only [Inside, positioned] at known read
    exact explains_readType opened known read
  | afterPath path =>
    simp only [Inside, positioned] at known read
    obtain ⟨around, named, rfl, awaits, isPath, rfl⟩ := known
    split at read
    · rename_i isOpening
      cases read
      -- From here on the tokens are those inside the bracket, of which there are none yet.
      refine ⟨before ++ (around ++ [named, token]), [], by simp, ?_, Level.begins_empty⟩
      exact .inside opened awaits isPath rfl isOpening
    · -- No bracket follows the path, so it is a type by itself.
      have completes : (state.add (.name named.lexeme)).level.Completes (around ++ [named]) :=
        awaits.add (.name isPath)
      refine explains_readSeparator ?_ completes read
      exact opened
  | afterType =>
    simp only [Inside, positioned] at known read
    exact explains_readSeparator opened known read

end

end State

theorem explains_run {state next : State} {before tokens : List Token} (explains : state.Explains before)
    (ran : run state tokens = .ok next) : next.Explains (before ++ tokens) := by
  induction tokens generalizing state before with
  | nil =>
    cases ran
    rwa [List.append_nil]
  | cons token rest ih =>
    cases stepped : state.step .asWritten token with
    | error located =>
      rw [run, List.foldlM_cons, stepped] at ran
      cases ran
    | ok middle =>
      rw [run_cons stepped] at ran
      rw [← List.singleton_append, ← List.append_assoc]
      exact ih (explains.step stepped) ran

theorem State.groups_of_groupsAtEnd {state : State} {tokens : List Token} {stop : Span} {types : List TypeTerm}
    (explains : state.Explains tokens) (read : state.groupsAtEnd stop = .ok types) : Groups tokens types := by
  obtain ⟨before, inside, rfl, opened, known⟩ := explains
  cases listed : state.brackets with
  | cons bracket brackets =>
    -- A bracket that is open at the end is a fault in every position.
    cases positioned : state.position <;> simp only [groupsAtEnd, positioned, listed] at read <;> cases read
  | nil =>
    rw [listed] at opened
    cases opened
    unfold State.Inside at known
    cases positioned : state.position with
    | group =>
      simp only [groupsAtEnd, positioned, listed] at known read
      cases read
      exact known.allGroups
    | alternative =>
      simp only [groupsAtEnd, positioned] at read
      cases read
    | afterPath path =>
      simp only [groupsAtEnd, positioned, listed] at known read
      cases read
      obtain ⟨around, named, rfl, awaits, isPath, rfl⟩ := known
      exact (awaits.add (.name isPath)).allGroups
    | afterType =>
      simp only [groupsAtEnd, positioned, listed] at known read
      cases read
      exact known.allGroups

end Reader

theorem whole_of_readTokens {tokens : List Token} {stop : Token} {referred : Referred}
    (isEnd : stop.kind = .endOfText) (read : readTokens .asWritten tokens stop.span = .ok referred) :
    Grammar.Whole (tokens ++ [stop]) referred.type := by
  cases ran : Reader.run .start tokens with
  | error located =>
    unfold Reader.run at ran
    rw [readTokens, ran] at read
    cases read
  | ok last =>
    -- What the reader knows at the end is a derivation of the groups, and one group or several make the type.
    have explains := Reader.explains_run Reader.State.explains_start ran
    unfold Reader.run at ran
    rw [readTokens, ran] at read
    simp only [bind, Except.bind, Reader.State.finish] at read
    cases ended : last.groupsAtEnd stop.span with
    | error located =>
      rw [ended] at read
      cases read
    | ok types =>
      have groups := Reader.State.groups_of_groupsAtEnd explains ended
      rw [ended] at read
      cases types with
      | nil => cases read
      | cons first later =>
        cases later with
        | nil =>
          cases read
          exact .single groups isEnd
        | cons second rest =>
          cases read
          exact .tuple groups isEnd

theorem parse_eq_ok {source : String} {type : TypeTerm} :
    parse source = .ok type ↔
      ∃ imports, readTokens .asWritten (Token.scanFrom 0 source.toList)
        (Token.ofEnd (Token.width source.toList)).span = .ok ⟨type, imports⟩ := by
  unfold parse read
  dsimp only
  cases same : readTokens .asWritten (Token.scanFrom 0 source.toList)
    (Token.ofEnd (Token.width source.toList)).span with
  | error located =>
    constructor
    · intro parsed
      cases parsed
    · rintro ⟨imports, read⟩
      cases read
  | ok referred =>
    constructor
    · intro parsed
      cases parsed
      exact ⟨referred.imports, rfl⟩
    · rintro ⟨imports, read⟩
      cases read
      rfl

theorem whole_of_parse {source : String} {type : TypeTerm} (parsed : parse source = .ok type) :
    Grammar.Whole (Token.scan source) type := by
  obtain ⟨imports, read⟩ := parse_eq_ok.1 parsed
  exact whole_of_readTokens rfl read

theorem parse_of_whole {source : String} {type : TypeTerm} (derived : Grammar.Whole (Token.scan source) type) :
    parse source = .ok type :=
  parse_eq_ok.2 ⟨∅, readTokens_of_whole derived⟩

/-- A text is read as a type exactly if the grammar derives the type from its tokens. The grammar
derives at most one type from any tokens, and a text without one is refused. -/
theorem parse_eq_ok_iff_whole :
    (∀ source type, parse source = .ok type ↔ Grammar.Whole (Token.scan source) type) ∧
    (∀ tokens first second, Grammar.Whole tokens first → Grammar.Whole tokens second → first = second) ∧
    (∀ source, (∀ type, ¬ Grammar.Whole (Token.scan source) type) →
      ∃ fault, parse source = .error fault) := by
  have accepted : ∀ source type, parse source = .ok type ↔ Grammar.Whole (Token.scan source) type :=
    fun _ _ => ⟨whole_of_parse, parse_of_whole⟩
  refine ⟨accepted, fun _ _ _ first second => first.unique second, ?_⟩
  intro source underivable
  cases parsed : parse source with
  | error fault => exact ⟨fault, rfl⟩
  | ok type => exact absurd ((accepted source type).1 parsed) (underivable type)

end TypedStub.TypeTerm
