import TypedStub.Name
import TypedStub.TypeTerm

/-! The grammar of documented types.

The grammar relates tokens to the type that they stand for and says nothing of how they are read. Only
the kinds and the lexemes of tokens matter to it. A grammar that derives nothing from tokens says that
the tokens are no documented type.
-/

set_option autoImplicit false

namespace TypedStub.TypeTerm.Grammar

/-- Stands for anything in a type, and takes no arguments. -/
def ellipsis : String := "..."

/-- A path in which something stands before, between and after the dots. -/
def IsPath (token : Token) : Prop := token.kind = .path ∧ ¬ "" ∈ Dotted.segments token.lexeme

mutual

inductive Alternative : List Token → TypeTerm → Prop where
  | ellipsis {token : Token} : token.kind = .path → token.lexeme = ellipsis →
      Alternative [token] (.name ellipsis)
  | name {token : Token} : IsPath token → Alternative [token] (.name token.lexeme)
  | subscript {token opening closing : Token} {inside : List Token} {args : List TypeTerm} :
      IsPath token → opening.kind = .openBracket → Groups inside args → args ≠ [] →
      closing.kind = .closeBracket →
      Alternative (token :: opening :: inside ++ [closing]) (.subscript token.lexeme args)

inductive Alternatives : List Token → List TypeTerm → Prop where
  | last {tokens : List Token} {type : TypeTerm} : Alternative tokens type → Alternatives tokens [type]
  | next {first rest : List Token} {word : Token} {type : TypeTerm} {types : List TypeTerm} :
      Alternative first type → word.kind = .or → Alternatives rest types →
      Alternatives (first ++ word :: rest) (type :: types)

/-- A single alternative is itself, and two or more are a union. -/
inductive Sequence : List Token → TypeTerm → Prop where
  | single {tokens : List Token} {type : TypeTerm} : Alternatives tokens [type] → Sequence tokens type
  | union {tokens : List Token} {first second : TypeTerm} {rest : List TypeTerm} :
      Alternatives tokens (first :: second :: rest) → Sequence tokens (.union (first :: second :: rest))

/-- Sequences with commas between them. Where nothing stands before, between or after the commas,
there is no type. -/
inductive Groups : List Token → List TypeTerm → Prop where
  | empty : Groups [] []
  | last {tokens : List Token} {type : TypeTerm} : Sequence tokens type → Groups tokens [type]
  | skip {comma : Token} {rest : List Token} {types : List TypeTerm} :
      comma.kind = .comma → Groups rest types → Groups (comma :: rest) types
  | next {first rest : List Token} {comma : Token} {type : TypeTerm} {types : List TypeTerm} :
      Sequence first type → comma.kind = .comma → Groups rest types →
      Groups (first ++ comma :: rest) (type :: types)

end

/-- All tokens of a text. A single group is itself, and two or more are a tuple. -/
inductive Whole : List Token → TypeTerm → Prop where
  | single {tokens : List Token} {stop : Token} {type : TypeTerm} :
      Groups tokens [type] → stop.kind = .endOfText → Whole (tokens ++ [stop]) type
  | tuple {tokens : List Token} {stop : Token} {first second : TypeTerm} {rest : List TypeTerm} :
      Groups tokens (first :: second :: rest) → stop.kind = .endOfText →
      Whole (tokens ++ [stop]) (.tuple (first :: second :: rest))

theorem IsPath.ne_ellipsis {token : Token} (isPath : IsPath token) : token.lexeme ≠ ellipsis := by
  intro same
  have pieces : "" ∈ Dotted.segments ellipsis := by decide
  exact isPath.2 (same ▸ pieces)

theorem Alternatives.ne_nil {tokens : List Token} {types : List TypeTerm}
    (derived : Alternatives tokens types) : types ≠ [] := by
  cases derived <;> simp

theorem Alternatives.append {first rest : List Token} {word : Token} {types later : List TypeTerm}
    (derived : Alternatives first types) (isOr : word.kind = .or) (after : Alternatives rest later) :
    Alternatives (first ++ word :: rest) (types ++ later) := by
  match derived with
  | .last alternative => exact .next alternative isOr after
  | .next alternative isOr' others =>
    rw [List.append_assoc]
    exact .next alternative isOr' (others.append isOr after)

theorem Sequence.ofAlternatives {tokens : List Token} {types : List TypeTerm}
    (derived : Alternatives tokens types) : Sequence tokens (TypeTerm.ofAlternatives types) := by
  match types with
  | [] => exact absurd rfl derived.ne_nil
  | [_] => exact .single derived
  | _ :: _ :: _ => exact .union derived

theorem Sequence.ofSeveral {tokens : List Token} {types : List TypeTerm}
    (derived : Alternatives tokens types) (several : 2 ≤ types.length) : Sequence tokens (.union types) := by
  match types with
  | [] => cases several
  | [_] => exact absurd several (by simp)
  | _ :: _ :: _ => exact .union derived

theorem Whole.ofSeveral {tokens : List Token} {stop : Token} {types : List TypeTerm}
    (derived : Groups tokens types) (several : 2 ≤ types.length) (isEnd : stop.kind = .endOfText) :
    Whole (tokens ++ [stop]) (.tuple types) := by
  match types with
  | [] => cases several
  | [_] => exact absurd several (by simp)
  | _ :: _ :: _ => exact .tuple derived isEnd

theorem Whole.exists_groups {tokens : List Token} {stop : Token} {type : TypeTerm}
    (derived : Whole (tokens ++ [stop]) type) :
    ∃ types, Groups tokens types ∧ ofGroups? types = some type := by
  generalize whole : tokens ++ [stop] = text at derived
  cases derived with
  | single groups _ =>
    obtain ⟨rfl, -⟩ := List.append_inj' whole rfl
    exact ⟨_, groups, rfl⟩
  | tuple groups _ =>
    obtain ⟨rfl, -⟩ := List.append_inj' whole rfl
    exact ⟨_, groups, rfl⟩

end TypedStub.TypeTerm.Grammar

/-! ### The reader accepts what the grammar derives

A state reads past a path before it knows whether a bracket follows. Where none does, the state counts
as settled: the path is a type. The lemmas below compare settled states.
-/

namespace TypedStub.TypeTerm.Reader

namespace State

/-- The state in which a path just read is a complete type. -/
def settle (state : State) : State :=
  match state.position with
  | .afterPath path => state.add (.name path)
  | _ => state

def AwaitsType (state : State) : Prop := state.position = .group ∨ state.position = .alternative

def MayEndGroup (state : State) : Prop :=
  state.settle.position = .group ∨ state.settle.position = .afterType

def addAll (state : State) (types : List TypeTerm) : State :=
  { state with
    level := { state.level with alternatives := types.reverse ++ state.level.alternatives }
    position := .afterType }

@[simp] theorem settle_imports (state : State) : state.settle.imports = state.imports := by
  cases here : state.position <;> simp only [settle, here, add]

section
variable {refer : String → Reference} {state : State} {token : Token}

@[simp] theorem settle_group (positioned : state.position = .group) : state.settle = state := by
  simp [settle, positioned]

@[simp] theorem settle_afterType (positioned : state.position = .afterType) : state.settle = state := by
  simp [settle, positioned]

theorem step_path (awaits : state.AwaitsType) (isPath : token.kind = .path) :
    state.step refer token = state.readType refer token := by
  rcases awaits with positioned | positioned <;> simp [step, positioned, isPath]

theorem step_settled (complete : state.settle.position = .afterType) (notOpening : token.kind ≠ .openBracket) :
    state.step refer token = state.settle.readSeparator token := by
  cases positioned : state.position with
  | group => simp [settle, positioned] at complete
  | alternative => simp [settle, positioned] at complete
  | afterType => simp [step, settle, positioned]
  | afterPath path =>
    simp only [step, settle, positioned]

theorem step_closeBracket (mayEnd : state.MayEndGroup) (closing : token.kind = .closeBracket) :
    state.step refer token = state.settle.closeBracket token := by
  rcases mayEnd with positioned | positioned
  · have position : state.position = .group := by
      cases here : state.position <;> simp_all [settle, add]
    simp [step, settle, position, closing]
  · rw [step_settled positioned (by simp [closing])]
    simp [readSeparator, closing]

end

end State

open Grammar

/-- `next` comes after `state`, which was about to read the groups `types`. -/
structure GroupsRead (state next : State) (types : List TypeTerm) : Prop where
  mayEnd : next.MayEndGroup
  groups : next.settle.level.allGroups = state.level.groups.reverse ++ types
  brackets : next.settle.brackets = state.brackets
  imports : next.settle.imports = state.imports

structure GroupRead (state next : State) (type : TypeTerm) : Prop where
  complete : next.settle.position = .afterType
  level : next.settle.level.endGroup = ⟨type :: state.level.groups, []⟩
  brackets : next.settle.brackets = state.brackets
  imports : next.settle.imports = state.imports

/-- Read tokens and keep each path as it is written. -/
def run (state : State) (tokens : List Token) : Except Located State :=
  tokens.foldlM (State.step .asWritten) state

theorem run_append {state next : State} {first rest : List Token} (ran : run state first = .ok next) :
    run state (first ++ rest) = run next rest := by
  unfold run at *
  rw [List.foldlM_append, ran]
  rfl

theorem run_cons {state next : State} {token : Token} {rest : List Token}
    (stepped : state.step .asWritten token = .ok next) : run state (token :: rest) = run next rest := by
  unfold run
  rw [List.foldlM_cons, stepped]
  rfl

theorem run_singleton {state next : State} {token : Token}
    (stepped : state.step .asWritten token = .ok next) : run state [token] = .ok next := run_cons stepped

theorem step_isPath {state : State} {token : Token} (awaits : state.AwaitsType) (isPath : IsPath token) :
    state.step .asWritten token = .ok { state with position := .afterPath token.lexeme } := by
  rw [State.step_path awaits isPath.1]
  have notEllipsis : ¬ token.lexeme = "..." := isPath.ne_ellipsis
  simp only [State.readType, isPath.1, isPath.2, notEllipsis, if_false]
  rfl

theorem GroupRead.ofAlternatives {state next : State} {types : List TypeTerm}
    (settled : next.settle = state.addAll types) (fresh : state.level.alternatives = []) (filled : types ≠ []) :
    GroupRead state next (TypeTerm.ofAlternatives types) := by
  refine ⟨by rw [settled]; rfl, ?_, by rw [settled]; rfl, by rw [settled]; rfl⟩
  rw [settled]
  simp only [State.addAll, fresh, List.append_nil, Level.endGroup]
  split
  · rename_i isEmpty; exact absurd (List.reverse_eq_nil_iff.1 isEmpty) filled
  · rw [List.reverse_reverse]

theorem GroupsRead.nil {state : State} (atGroup : state.position = .group)
    (fresh : state.level.alternatives = []) : GroupsRead state state [] := by
  have settled := State.settle_group atGroup
  refine ⟨.inl (by rw [settled, atGroup]), ?_, by rw [settled], by rw [settled]⟩
  rw [settled]
  simp [Level.allGroups, Level.endGroup, fresh]

theorem GroupRead.last {state next : State} {type : TypeTerm} (read : GroupRead state next type) :
    GroupsRead state next [type] := by
  refine ⟨.inr read.complete, ?_, read.brackets, read.imports⟩
  simp [Level.allGroups, read.level]

theorem GroupRead.comma {state next : State} {type : TypeTerm} {comma : Token}
    (read : GroupRead state next type) (isComma : comma.kind = .comma) :
    next.step .asWritten comma =
      .ok { state with level := ⟨type :: state.level.groups, []⟩, position := .group } := by
  rw [State.step_settled read.complete (by simp [isComma])]
  simp only [State.readSeparator, isComma, read.level, read.brackets, read.imports]

theorem GroupsRead.closeBracket {state next : State} {token opening closing : Token} {args : List TypeTerm}
    (read : GroupsRead (state.openBracket token.lexeme opening) next args) (filled : args ≠ [])
    (isClosing : closing.kind = .closeBracket) :
    next.step .asWritten closing = .ok (state.add (.subscript token.lexeme args)) := by
  rw [State.step_closeBracket read.mayEnd isClosing]
  have groups : next.settle.level.allGroups = args := read.groups
  have brackets := read.brackets
  have imports := read.imports
  simp only [State.openBracket] at brackets imports
  simp only [State.closeBracket, brackets, groups, State.add, imports]

-- The recursion is on the derivation, for every state that may come before it: the level around a
-- bracket is put aside while the groups inside are read.
mutual

theorem run_alternative {tokens : List Token} {type : TypeTerm} (derived : Alternative tokens type)
    (state : State) (awaits : state.AwaitsType) :
    ∃ next, run state tokens = .ok next ∧ next.settle = state.add type := by
  match derived with
  | .ellipsis isPath isEllipsis =>
    refine ⟨state.add (.name ellipsis), run_singleton ?_, rfl⟩
    rw [State.step_path awaits isPath]
    simp only [State.readType, isPath, isEllipsis, ellipsis]
    rfl
  | .name isPath => exact ⟨_, run_singleton (step_isPath awaits isPath), rfl⟩
  | @Alternative.subscript token opening closing inside args isPath isOpening groups filled isClosing =>
    -- The path waits with the bracket until its arguments are complete.
    let named : State := { state with position := .afterPath token.lexeme }
    have opened : named.step .asWritten opening = .ok (named.openBracket token.lexeme opening) := by
      simp only [named, State.step, isOpening]
    obtain ⟨middle, ran, read⟩ := run_groups groups (named.openBracket token.lexeme opening) rfl rfl
    refine ⟨state.add (.subscript token.lexeme args), ?_, rfl⟩
    rw [List.cons_append, run_cons (step_isPath awaits isPath), List.cons_append, run_cons opened,
      run_append ran]
    exact run_singleton (read.closeBracket filled isClosing)

theorem run_alternatives {tokens : List Token} {types : List TypeTerm} (derived : Alternatives tokens types)
    (state : State) (awaits : state.AwaitsType) :
    ∃ next, run state tokens = .ok next ∧ next.settle = state.addAll types := by
  match derived with
  | .last alternative => exact run_alternative alternative state awaits
  | @Alternatives.next first rest word type types alternative isOr others =>
    obtain ⟨middle, ran, settled⟩ := run_alternative alternative state awaits
    have complete : middle.settle.position = .afterType := by rw [settled]; rfl
    have stepped : middle.step .asWritten word = .ok { middle.settle with position := .alternative } := by
      rw [State.step_settled complete (by simp [isOr])]
      simp only [State.readSeparator, isOr]
    obtain ⟨next, ranRest, settledRest⟩ :=
      run_alternatives others { middle.settle with position := .alternative } (.inr rfl)
    refine ⟨next, ?_, ?_⟩
    · rw [run_append ran, run_cons stepped, ranRest]
    · rw [settledRest, settled]
      simp [State.addAll, State.add, Level.add]

theorem run_sequence {tokens : List Token} {type : TypeTerm} (derived : Sequence tokens type)
    (state : State) (atGroup : state.position = .group) (fresh : state.level.alternatives = []) :
    ∃ next, run state tokens = .ok next ∧ GroupRead state next type := by
  match derived with
  | .single alternatives =>
    obtain ⟨next, ran, settled⟩ := run_alternatives alternatives state (.inl atGroup)
    exact ⟨next, ran, .ofAlternatives settled fresh alternatives.ne_nil⟩
  | .union alternatives =>
    obtain ⟨next, ran, settled⟩ := run_alternatives alternatives state (.inl atGroup)
    exact ⟨next, ran, .ofAlternatives settled fresh alternatives.ne_nil⟩

theorem run_groups {tokens : List Token} {types : List TypeTerm} (derived : Groups tokens types)
    (state : State) (atGroup : state.position = .group) (fresh : state.level.alternatives = []) :
    ∃ next, run state tokens = .ok next ∧ GroupsRead state next types := by
  match derived with
  | .empty => exact ⟨state, rfl, .nil atGroup fresh⟩
  | .last sequence =>
    obtain ⟨next, ran, read⟩ := run_sequence sequence state atGroup fresh
    exact ⟨next, ran, read.last⟩
  | @Groups.skip comma rest types isComma groups =>
    obtain ⟨next, ran, read⟩ := run_groups groups state atGroup fresh
    have stepped : state.step .asWritten comma = .ok state := by simp only [State.step, atGroup, isComma]
    exact ⟨next, (run_cons stepped).trans ran, read⟩
  | @Groups.next first rest comma type types sequence isComma groups =>
    obtain ⟨middle, ran, readFirst⟩ := run_sequence sequence state atGroup fresh
    -- What is read so far goes on in the state that the comma leads to.
    let later : State := { state with level := ⟨type :: state.level.groups, []⟩, position := .group }
    obtain ⟨next, ranRest, read⟩ := run_groups groups later rfl rfl
    refine ⟨next, ?_, read.mayEnd, ?_, read.brackets, read.imports⟩
    · rw [run_append ran, run_cons (readFirst.comma isComma)]
      exact ranRest
    · rw [read.groups, List.reverse_cons, List.append_assoc, List.singleton_append]

end

theorem State.groupsAtEnd_eq {state : State} (mayEnd : state.MayEndGroup) (closed : state.settle.brackets = [])
    (stop : Span) : state.groupsAtEnd stop = .ok state.settle.level.allGroups := by
  cases positioned : state.position with
  | group =>
    rw [settle_group positioned] at closed ⊢
    simp only [groupsAtEnd, positioned, closed]
  | alternative => rcases mayEnd with mayEnd | mayEnd <;> simp [settle, positioned] at mayEnd
  | afterPath path =>
    simp only [settle, positioned, add] at closed ⊢
    simp only [groupsAtEnd, positioned, closed]
  | afterType =>
    rw [settle_afterType positioned] at closed ⊢
    simp only [groupsAtEnd, positioned, closed]

end Reader

theorem readTokens_of_groups {tokens : List Token} {types : List TypeTerm}
    (derived : Grammar.Groups tokens types) {type : TypeTerm} (made : ofGroups? types = some type)
    (stop : Span) : readTokens .asWritten tokens stop = .ok ⟨type, ∅⟩ := by
  obtain ⟨next, ran, read⟩ := Reader.run_groups derived .start rfl rfl
  have groups : next.settle.level.allGroups = types := read.groups
  have imports : next.imports = ∅ := next.settle_imports.symm.trans read.imports
  have finished : next.finish stop = .ok type := by
    rw [Reader.State.finish, Reader.State.groupsAtEnd_eq read.mayEnd read.brackets, groups]
    simp only [made]
  unfold Reader.run at ran
  rw [readTokens, ran]
  simp only [bind, Except.bind, finished, imports, pure, Except.pure]

/-- Tokens that the grammar derives a type from are read as that type. -/
theorem readTokens_of_whole {tokens : List Token} {stop : Token} {type : TypeTerm}
    (derived : Grammar.Whole (tokens ++ [stop]) type) :
    readTokens .asWritten tokens stop.span = .ok ⟨type, ∅⟩ := by
  obtain ⟨types, groups, made⟩ := derived.exists_groups
  exact readTokens_of_groups groups made _

namespace Grammar

theorem Whole.ends {tokens : List Token} {type : TypeTerm} (derived : Whole tokens type) :
    ∃ before stop, tokens = before ++ [stop] := by
  cases derived <;> exact ⟨_, _, rfl⟩

theorem Whole.unique {tokens : List Token} {first second : TypeTerm} (left : Whole tokens first)
    (right : Whole tokens second) : first = second := by
  obtain ⟨before, stop, rfl⟩ := left.ends
  -- The reader has one answer, and accepts both.
  have read := (readTokens_of_whole left).symm.trans (readTokens_of_whole right)
  injection read with same
  injection same

end Grammar

end TypedStub.TypeTerm
