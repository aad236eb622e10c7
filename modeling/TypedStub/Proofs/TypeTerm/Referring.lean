import TypedStub.Proofs.TypeTerm.Canonical
import TypedStub.TypeTerm

/-! The paths that a documented type is written with.

The reader asks for the reference of a path when it comes to a token that is one, and at no other time. So it does not
matter what other texts are referred to.
-/

set_option autoImplicit false

namespace TypedStub.TypeTerm

def writtenPaths (source : String) : List String :=
  ((Token.scan source).filter (·.kind = .path)).map Token.lexeme

variable {refer other : String → Reference}

theorem mem_writtenPaths {source : String} {token : Token} (member : token ∈ Token.scanFrom 0 source.toList)
    (isPath : token.kind = .path) : token.lexeme ∈ writtenPaths source :=
  List.mem_map_of_mem (List.mem_filter.2 ⟨List.mem_append_left _ member, by simpa using isPath⟩)

namespace Reader

theorem State.readType_congr (state : State) {token : Token}
    (agree : token.kind = .path → refer token.lexeme = other token.lexeme) :
    state.readType refer token = state.readType other token := by
  unfold readType
  cases is : token.kind with
  | path => rw [agree is]
  | or | openBracket | closeBracket | comma | other | endOfText => rfl

theorem State.step_congr_refer (state : State) {token : Token}
    (agree : token.kind = .path → refer token.lexeme = other token.lexeme) :
    state.step refer token = state.step other token := by
  unfold step
  rw [state.readType_congr agree]

/-- Two runs do the same if each path is referred to in the same way. -/
theorem run_congr_refer {tokens : List Token}
    (agree : ∀ token ∈ tokens, token.kind = .path → refer token.lexeme = other token.lexeme) (state : State) :
    tokens.foldlM (State.step refer) state = tokens.foldlM (State.step other) state := by
  induction tokens generalizing state with
  | nil => rfl
  | cons token rest ih =>
    rw [List.foldlM_cons, List.foldlM_cons, state.step_congr_refer (agree token List.mem_cons_self)]
    congr 1
    funext next
    exact ih (fun later member => agree later (List.mem_cons_of_mem _ member)) next

end Reader

/-- What is read, or what is wrong, depends on the references of the written paths alone. -/
theorem read_congr {source : String} (agree : ∀ path ∈ writtenPaths source, refer path = other path) :
    read refer source = read other source := by
  have runs := Reader.run_congr_refer (fun token member isPath => agree _ (mem_writtenPaths member isPath)) .start
  unfold read readTokens
  dsimp only
  rw [runs]

/-! ### Referring to the paths of a type while it is read, and afterwards

The reader takes the same steps whatever the paths are replaced by. A state of a run that refers to each
path is a state of the run that keeps them, with the paths replaced and with the imports of the paths
so far.
-/

def importsOf (refer : String → Reference) (path : String) : List String := (refer path).importPath?.toList

/-- The term as a stub writes it. -/
def referred (refer : String → Reference) : TypeTerm → TypeTerm := mapPaths fun path => (refer path).text

namespace Reader

variable (refer : String → Reference)

def Level.referred (level : Level) : Level where
  groups := level.groups.map (TypeTerm.referred refer)
  alternatives := level.alternatives.map (TypeTerm.referred refer)

def Bracket.referred (bracket : Bracket) : Bracket where
  base := mapPath (fun path => (refer path).text) bracket.base
  span := bracket.span
  around := bracket.around.referred refer

def Position.referred : Position → Position
  | .afterPath path => .afterPath (mapPath (fun path => (refer path).text) path)
  | position => position

/-- The state with each path replaced, and some imports. -/
def State.referred (imports : NameSet) (state : State) : State where
  level := state.level.referred refer
  brackets := state.brackets.map (Bracket.referred refer)
  position := state.position.referred refer
  imports := imports

def tokenImports (token : Token) : List String := token.paths.flatMap (importsOf refer)

section
variable {refer : String → Reference}

theorem tokenImports_of_other {token : Token} {kind : TokenKind} (is : token.kind = kind)
    (notPath : kind ≠ .path) : tokenImports refer token = [] := by
  rw [tokenImports, Token.paths_of_other is notPath]
  rfl

theorem Level.referred_add (level : Level) (type : TypeTerm) :
    (level.add type).referred refer = (level.referred refer).add (TypeTerm.referred refer type) := rfl

theorem Level.referred_endGroup (level : Level) :
    level.endGroup.referred refer = (level.referred refer).endGroup := by
  cases level with
  | mk groups alternatives =>
    cases alternatives with
    | nil => rfl
    | cons type rest =>
      simp only [endGroup, Level.referred, List.map_cons, List.map_nil, TypeTerm.referred,
        mapPaths_ofAlternatives, List.map_reverse]

theorem Level.referred_allGroups (level : Level) :
    (level.referred refer).allGroups = level.allGroups.map (TypeTerm.referred refer) := by
  rw [allGroups, ← referred_endGroup, allGroups, List.map_reverse]
  rfl

namespace State

variable {state : State} {token : Token} {imports : NameSet}

theorem referred_add (type : TypeTerm) :
    (state.add type).referred refer imports =
      (state.referred refer imports).add (TypeTerm.referred refer type) := rfl

theorem readType_referred : (state.referred refer imports).readType refer token =
    (state.readType .asWritten token).map
      (State.referred refer (imports.insertAll (tokenImports refer token))) := by
  cases is : token.kind with
  | path =>
    simp only [readType, is]
    by_cases isEllipsis : token.lexeme = "..."
    · have noImports : tokenImports refer token = [] := by
        rw [tokenImports, Token.paths_of_path is, isEllipsis]
        rfl
      rw [if_pos isEllipsis, if_pos isEllipsis, noImports, isEllipsis]
      rfl
    · have one : tokenImports refer token = (refer token.lexeme).importPath?.toList := by
        rw [tokenImports, Token.paths_of_path is, pathOf, if_neg isEllipsis, List.flatMap_singleton]
        rfl
      rw [if_neg isEllipsis, if_neg isEllipsis, one]
      split
      · rfl
      · have path : mapPath (fun path => (refer path).text) token.lexeme = (refer token.lexeme).text :=
          if_neg isEllipsis
        let after (path : String) : State :=
          { state.referred refer (imports.insertAll (refer token.lexeme).importPath?.toList) with
            position := .afterPath path }
        exact congrArg (fun path => Except.ok (after path)) path.symm
  | _ => simp only [readType, is]; rfl

theorem closeBracket_referred : (state.referred refer imports).closeBracket token =
    (state.closeBracket token).map (State.referred refer imports) := by
  unfold closeBracket
  cases listed : state.brackets with
  | nil => simp only [State.referred, listed, List.map_nil, Except.map]
  | cons bracket brackets =>
    simp only [State.referred, listed, List.map_cons, Level.referred_allGroups]
    cases state.level.allGroups with
    | nil => rfl
    | cons type rest =>
      have subscript : TypeTerm.referred refer (.subscript bracket.base (type :: rest)) =
          .subscript (bracket.referred refer).base ((type :: rest).map (TypeTerm.referred refer)) :=
        mapPaths_subscript ..
      let around : State := { state with level := bracket.around, brackets := brackets }
      exact congrArg (fun type => Except.ok ((around.referred refer imports).add type)) subscript.symm

theorem readSeparator_referred (notPath : token.kind ≠ .path) :
    (state.referred refer imports).readSeparator token =
      (state.readSeparator token).map (State.referred refer imports) := by
  unfold readSeparator
  cases is : token.kind with
  | path => exact absurd is notPath
  | comma => simp only [Except.map, State.referred, Level.referred_endGroup]; rfl
  | closeBracket => exact closeBracket_referred
  | or | openBracket | other | endOfText => rfl

/-- A path right after a type is a fault, whatever it refers to. -/
theorem readSeparator_path (isPath : token.kind = .path) :
    state.readSeparator token = .error (.unexpectedToken .path .separator, token.span) := by
  simp only [readSeparator, isPath]

theorem readSeparator_tokenImports : (state.referred refer imports).readSeparator token =
    (state.readSeparator token).map (State.referred refer (imports.insertAll (tokenImports refer token))) := by
  by_cases isPath : token.kind = .path
  · rw [readSeparator_path isPath, readSeparator_path isPath]
    rfl
  · rw [readSeparator_referred isPath, tokenImports_of_other rfl isPath]
    rfl

theorem step_referred : (state.referred refer imports).step refer token =
    (state.step .asWritten token).map
      (State.referred refer (imports.insertAll (tokenImports refer token))) := by
  have position : (state.referred refer imports).position = state.position.referred refer := rfl
  -- The position decides what a token means, and the paths in the state have no part in it.
  cases positioned : state.position with
  | group =>
    simp only [step, position, positioned, Position.referred]
    cases is : token.kind with
    | comma =>
      rw [tokenImports_of_other is (by simp)]
      rfl
    | closeBracket =>
      rw [tokenImports_of_other is (by simp)]
      exact closeBracket_referred
    | or | path | openBracket | other | endOfText => exact readType_referred
  | alternative =>
    simp only [step, position, positioned, Position.referred]
    exact readType_referred
  | afterPath path =>
    simp only [step, position, positioned, Position.referred]
    cases is : token.kind with
    | openBracket =>
      rw [tokenImports_of_other is (by simp)]
      rfl
    | or | path | closeBracket | comma | other | endOfText =>
      exact @readSeparator_tokenImports refer (state.add (.name path)) token imports
  | afterType =>
    simp only [step, position, positioned, Position.referred]
    exact readSeparator_tokenImports

theorem groupsAtEnd_referred (stop : Span) : (state.referred refer imports).groupsAtEnd stop =
    (state.groupsAtEnd stop).map (List.map (TypeTerm.referred refer)) := by
  have position : (state.referred refer imports).position = state.position.referred refer := rfl
  have brackets : (state.referred refer imports).brackets = state.brackets.map (Bracket.referred refer) := rfl
  cases positioned : state.position with
  | alternative => simp only [groupsAtEnd, position, positioned, Position.referred, Except.map]
  | group | afterType =>
    cases listed : state.brackets with
    | nil =>
      simp only [groupsAtEnd, position, brackets, positioned, listed, Position.referred, List.map_nil, Except.map]
      exact congrArg _ (Level.referred_allGroups _)
    | cons bracket rest =>
      simp only [groupsAtEnd, position, brackets, positioned, listed, Position.referred, List.map_cons, Except.map]
      rfl
  | afterPath path =>
    cases listed : state.brackets with
    | nil =>
      simp only [groupsAtEnd, position, brackets, positioned, listed, Position.referred, List.map_nil, Except.map]
      exact congrArg _ (Level.referred_allGroups (state.level.add (.name path)))
    | cons bracket rest =>
      simp only [groupsAtEnd, position, brackets, positioned, listed, Position.referred, List.map_cons, Except.map]
      rfl

theorem finish_referred (stop : Span) : (state.referred refer imports).finish stop =
    (state.finish stop).map (TypeTerm.referred refer) := by
  unfold finish
  rw [groupsAtEnd_referred]
  cases state.groupsAtEnd stop with
  | error located => rfl
  | ok groups =>
    simp only [Except.map, TypeTerm.referred, ← mapPaths_ofGroups?]
    cases ofGroups? groups with
    | none => rfl
    | some type => rfl

end State

theorem run_referred (tokens : List Token) (state : State) (imports : NameSet) :
    tokens.foldlM (State.step refer) (state.referred refer imports) =
      (run state tokens).map (State.referred refer (imports.insertAll (tokens.flatMap (tokenImports refer)))) := by
  induction tokens generalizing state imports with
  | nil => rfl
  | cons token rest ih =>
    rw [List.foldlM_cons, State.step_referred]
    cases stepped : state.step .asWritten token with
    | error located =>
      rw [run, List.foldlM_cons, stepped]
      rfl
    | ok next =>
      have added : imports.insertAll ((token :: rest).flatMap (tokenImports refer)) =
          (imports.insertAll (tokenImports refer token)).insertAll (rest.flatMap (tokenImports refer)) := by
        rw [List.flatMap_cons]
        exact List.foldl_append
      rw [run_cons stepped, added]
      exact ih next _

end

end Reader

section
variable (refer : String → Reference)

theorem readTokens_referred (tokens : List Token) (stop : Span) :
    readTokens refer tokens stop = (readTokens .asWritten tokens stop).map fun kept =>
      ⟨kept.type.referred refer, .ofList (tokens.flatMap (Reader.tokenImports refer))⟩ := by
  have runs : tokens.foldlM (Reader.State.step refer) .start = _ := Reader.run_referred tokens .start ∅
  unfold readTokens
  rw [runs, Reader.run]
  cases tokens.foldlM (Reader.State.step .asWritten) .start with
  | error located => rfl
  | ok last =>
    simp only [bind, Except.bind, Except.map, Reader.State.finish_referred]
    cases last.finish stop with
    | error located => rfl
    | ok type => rfl

theorem flatMap_tokenImports {tokens : List Token} {stop : Token} {type : TypeTerm}
    (derived : Grammar.Whole (tokens ++ [stop]) type) :
    tokens.flatMap (Reader.tokenImports refer) = type.paths.flatMap (importsOf refer) := by
  rw [derived.paths_eq, List.flatMap_assoc]
  rfl

/-- Referring to each path while a text is read gives what referring to the paths of the read type gives,
and the same faults. -/
theorem read_eq (source : String) :
    read refer source = (parse source).map fun type =>
      ⟨type.referred refer, .ofList (type.paths.flatMap (importsOf refer))⟩ := by
  unfold parse read
  dsimp only
  rw [readTokens_referred]
  cases kept : readTokens .asWritten (Token.scanFrom 0 source.toList)
    (Token.ofEnd (Token.width source.toList)).span with
  | error located => rfl
  | ok raw =>
    have derived := whole_of_readTokens rfl kept
    simp only [Except.map, flatMap_tokenImports refer derived]

end

theorem mem_importsOf {refer : String → Reference} {path importPath : String} :
    importPath ∈ importsOf refer path ↔ (refer path).importPath? = some importPath := Option.mem_toList

/-- Referring to the paths of a text while it is read is reading the text and referring to its paths
afterwards: the faults are the same, each path is replaced by its reference, and the imports are those
of the paths. -/
theorem read_refer (view : Viewpoint) (source : String) :
    (∀ fault, read view.refer source = .error fault ↔ parse source = .error fault) ∧
    (∀ raw, parse source = .ok raw → ∃ referred, read view.refer source = .ok referred ∧
      referred.type = raw.mapPaths (fun path => (view.refer path).text) ∧
      ∀ importPath, importPath ∈ referred.imports ↔
        ∃ path ∈ raw.paths, (view.refer path).importPath? = some importPath) := by
  rw [read_eq]
  constructor
  · intro fault
    cases parse source with
    | error other => simp [Except.map]
    | ok raw => simp [Except.map]
  · intro raw parsed
    rw [parsed]
    refine ⟨_, rfl, rfl, ?_⟩
    intro importPath
    simp only [NameSet.mem_ofList, List.mem_flatMap, mem_importsOf]

end TypedStub.TypeTerm
