import TypedStub.Proofs.Stub.Layout

/-! Stubs are legible.

What follows the opening of a statement tells what the statement holds. Its body ends where the indentation of the
next level does. So the text of a stub tells its statements, up to the two ways to write a tuple of types.
-/

set_option autoImplicit false

namespace TypedStub.Stub

open Text Text.Docstring

/-! ### Bodies -/

section
variable {level : Nat} {rest : List Char} {statements body : List Statement}

theorem spaces_succ (level : Nat) : spaces (level + 1) = spaces level ++ spaces 1 := by
  rw [spaces, spaces, spaces, List.replicate_append_replicate, Nat.mul_add]

theorem EndsStatement.succ (ends : EndsStatement level rest) : EndsStatement (level + 1) rest := by
  intro later same
  rw [spaces_succ (level + 1), List.append_assoc] at same
  exact ends _ same

theorem endsStatement_of_begins {c : Char} (notBlank : c ≠ ' ') : EndsStatement level (spaces level ++ c :: rest) := by
  intro later same
  rw [spaces_succ, List.append_assoc] at same
  exact notBlank (List.cons.inj (List.append_cancel_left same)).1

theorem endsStatement_append (formed : ∀ statement ∈ statements, statement.IsWellFormed)
    (ends : EndsStatement level rest) :
    EndsStatement (level + 1) (statements.flatMap (Statement.form (level + 1)) ++ rest) := by
  cases statements with
  | nil => exact ends.succ
  | cons statement statements =>
    obtain ⟨c, more, begins, notBlank, -⟩ := (formed statement List.mem_cons_self).form_begins (level + 1)
    rw [List.flatMap_cons, begins, List.append_assoc, List.append_assoc]
    exact endsStatement_of_begins notBlank

/-- What follows a body does not begin as one more statement of it. -/
theorem not_endsStatement_form {statement : Statement} (formed : statement.IsWellFormed) (more : List Char) :
    ¬ EndsStatement level (statement.form (level + 1) ++ more) := by
  intro ends
  obtain ⟨c, later, begins, -, -⟩ := formed.form_begins (level + 1)
  rw [begins, List.append_assoc] at ends
  exact ends _ rfl

/-- The text of a statement tells it, up to a line that does not belong to its body. -/
def Statement.IsLegible (level : Nat) (statement : Statement) : Prop :=
  Legible (Statement.form level) Statement.IsWellFormed (EndsStatement level) Statement.withoutTuples statement

/-- The statements of a body end where the indentation of the body does. -/
theorem legible_statements (formed : ∀ statement ∈ statements, statement.IsWellFormed)
    (legible : ∀ statement ∈ statements, statement.IsLegible (level + 1)) :
    Legible (List.flatMap (Statement.form (level + 1))) (fun others => ∀ other ∈ others, other.IsWellFormed)
      (EndsStatement level) (List.map Statement.withoutTuples) statements := by
  intro others rest later othersFormed ends otherEnds same
  induction statements generalizing others with
  | nil =>
    cases others with
    | nil => exact ⟨rfl, same⟩
    | cons other others =>
      rw [List.flatMap_nil, List.nil_append, List.flatMap_cons, List.append_assoc] at same
      -- The body that ends would have another statement behind it.
      exact absurd (same ▸ ends) (not_endsStatement_form (othersFormed other List.mem_cons_self) _)
  | cons statement statements ih =>
    have laterFormed : ∀ later ∈ statements, later.IsWellFormed :=
      fun later member => formed later (List.mem_cons_of_mem _ member)
    cases others with
    | nil =>
      rw [List.flatMap_nil, List.nil_append, List.flatMap_cons, List.append_assoc] at same
      exact absurd (same ▸ otherEnds) (not_endsStatement_form (formed statement List.mem_cons_self) _)
    | cons other others =>
      have laterOthers : ∀ later ∈ others, later.IsWellFormed :=
        fun later member => othersFormed later (List.mem_cons_of_mem _ member)
      rw [List.flatMap_cons, List.flatMap_cons, List.append_assoc, List.append_assoc] at same
      obtain ⟨sameStatement, sameTail⟩ := legible statement List.mem_cons_self other _ _
        (othersFormed other List.mem_cons_self) (endsStatement_append laterFormed ends)
        (endsStatement_append laterOthers otherEnds) same
      obtain ⟨sameStatements, sameRest⟩ := ih laterFormed
        (fun later member => legible later (List.mem_cons_of_mem _ member)) others laterOthers sameTail
      exact ⟨List.cons_eq_cons.2 ⟨sameStatement, sameStatements⟩, sameRest⟩

theorem eq_of_isPlaceholder (filled : body ≠ []) (placeholder : isPlaceholder body = true) : body = [.ellipsis] := by
  unfold isPlaceholder at placeholder
  split at placeholder
  · exact absurd rfl filled
  · rfl
  · cases placeholder

def IsLegibleBody (level : Nat) (body : List Statement) : Prop :=
  Legible (bodyForm level) (fun other => other ≠ [] ∧ AllWellFormed other) (EndsStatement level)
    (List.map Statement.withoutTuples) body

theorem legible_bodyForm (filled : body ≠ []) (formed : AllWellFormed body)
    (legible : ∀ statement ∈ body, statement.IsLegible (level + 1)) : IsLegibleBody level body := by
  intro other rest later ⟨otherFilled, otherFormed⟩ ends otherEnds same
  unfold bodyForm at same
  split at same <;> split at same
  · rename_i placeholder otherPlaceholder
    rw [eq_of_isPlaceholder filled placeholder, eq_of_isPlaceholder otherFilled otherPlaceholder]
    exact ⟨rfl, List.append_cancel_left same⟩
  · cases same
  · cases same
  · exact legible_statements (allWellFormed_iff.1 formed) legible other rest later (allWellFormed_iff.1 otherFormed)
      ends otherEnds (List.cons.inj same).2

end

/-! ### What follows an opening -/

section
variable {level : Nat} {rest later : List Char}

theorem legible_names {names : List String} (filled : names ≠ []) (isName : ∀ name ∈ names, IsName name) :
    Legible (separated [',', ' '] String.toList) (fun others => others ≠ [] ∧ ∀ other ∈ others, IsName other)
      (fun text => text.head? = some '\n') id names := by
  have stops : ∀ rest : List Char, rest.head? = some '\n' → EndsRun isNameChar rest := by
    intro rest head
    obtain ⟨more, rfl⟩ := List.head?_eq_some_iff.1 head
    exact endsRun_cons.2 (by decide)
  have legible := @legible_separated _ _ _ _ _ _ [',', ' '] _ (fun _ => endsRun_cons.2 (by decide)) stops
    (fun rest => by simp) names filled fun name member => legible_name (isName name member)
  rwa [List.map_id_fun] at legible

theorem legible_returnsForm {returns : Option TypeTerm} (formed : ∀ type ∈ returns, type.IsWellFormed) :
    Legible returnsForm (fun returns => ∀ type ∈ returns, type.IsWellFormed) (fun text => text.head? = some ':')
      (Option.map TypeTerm.withoutTuples) returns := by
  intro other rest later otherFormed ends otherEnds same
  obtain ⟨rest, rfl⟩ := List.head?_eq_some_iff.1 ends
  obtain ⟨later, rfl⟩ := List.head?_eq_some_iff.1 otherEnds
  match returns, other with
  | none, none => exact ⟨rfl, same⟩
  | none, some _ => cases same
  | some _, none => cases same
  | some type, some otherType =>
    simp only [returnsForm, List.append_assoc] at same
    have colon : ∀ rest, TypeTerm.EndsType (':' :: rest) :=
      fun rest => TypeTerm.endsType_cons (by decide) (by decide) (by decide)
    obtain ⟨sameType, sameRest⟩ := TypeTerm.legible_form type (formed type rfl) otherType _ _
      (otherFormed otherType rfl) (colon rest) (colon later) (List.append_cancel_left same)
    exact ⟨congrArg some sameType, sameRest⟩

theorem read?_ellipsis (rest : List Char) : Literal.read? ("...".toList ++ '\n' :: rest) = none := by
  have noValue : Literal.ofWord? "...".toList = none := by decide
  rw [Literal.read?_run (by decide) (List.all_eq_true.1 rfl) (endsRun_cons.2 (by decide)), if_neg (by decide), noValue]
  rfl

theorem legible_valueForm {value : Option Value} (stored : ∀ shown ∈ value, shown.IsStored) :
    Legible (fun value => (valueForm value).toList) (fun value => ∀ shown ∈ value, shown.IsStored)
      (fun text => text.head? = some '\n') id value := by
  intro other rest later otherStored ends otherEnds same
  obtain ⟨rest, rfl⟩ := List.head?_eq_some_iff.1 ends
  obtain ⟨later, rfl⟩ := List.head?_eq_some_iff.1 otherEnds
  have lineEnd : ∀ rest, EndsRun Literal.isWordChar ('\n' :: rest) := fun rest => endsRun_cons.2 (by decide)
  -- No stored value is written as three dots, for the reader of literals refuses them.
  have notEllipsis : ∀ {value : Literal} {rest later : List Char}, value.IsStored →
      value.stubForm.toList ++ '\n' :: rest ≠ "...".toList ++ '\n' :: later := by
    intro value rest later stored same
    have read := Literal.read?_stubForm stored (lineEnd rest)
    rw [same, read?_ellipsis] at read
    cases read
  match value, other with
  | none, none => exact ⟨rfl, same⟩
  | none, some (.literal _) | none, some .ellipsis | some (.literal _), none | some .ellipsis, none =>
    simp [valueForm] at same
  | some .ellipsis, some .ellipsis => exact ⟨rfl, List.append_cancel_left same⟩
  | some (.literal value), some .ellipsis =>
    simp only [valueForm, String.toList_append, List.append_assoc] at same
    exact absurd (List.append_cancel_left same) (notEllipsis (stored _ rfl))
  | some .ellipsis, some (.literal value) =>
    simp only [valueForm, String.toList_append, List.append_assoc] at same
    exact absurd (List.append_cancel_left same.symm) (notEllipsis (otherStored _ rfl))
  | some (.literal value), some (.literal otherValue) =>
    simp only [valueForm, String.toList_append, List.append_assoc] at same
    obtain ⟨sameValue, sameRest⟩ := Literal.legible_stubForm value (stored _ rfl) otherValue _ _
      (otherStored _ rfl) (lineEnd rest) (lineEnd later) (List.append_cancel_left same)
    cases sameValue
    exact ⟨rfl, sameRest⟩

/-- A type in an assignment ends before the value and before the end of the line. -/
theorem endsType_valueForm (value : Option Value) (rest : List Char) :
    TypeTerm.EndsType ((valueForm value).toList ++ '\n' :: rest) := by
  have sign : ∀ rest, TypeTerm.EndsType (' ' :: '=' :: rest) := by
    refine fun rest => ⟨endsRun_cons.2 (by decide), fun later same => ?_⟩
    cases (List.cons.inj (List.cons.inj same).2).1
  match value with
  | none => exact TypeTerm.endsType_cons (by decide) (by decide) (by decide)
  | some .ellipsis => exact sign _
  | some (.literal value) =>
    simp only [valueForm, String.toList_append]
    exact sign _

end

/-! ### Statements -/

section
variable {level : Nat} {statement : Statement} {rest later : List Char}

theorem docstring_inj {text other : String}
    (same : remainder level (.docstring text) ++ rest = remainder level (.docstring other) ++ later) :
    text = other ∧ rest = later := by
  have content := (List.cons.inj (List.cons.inj same).2).2
  simp only [List.append_eq, List.append_assoc] at content
  have read := @readInside?_escapeAfter level none text.toList (['\n'] ++ rest)
  rw [content, readInside?_escapeAfter] at read
  obtain ⟨sameContent, sameRest⟩ := Prod.mk.inj (Option.some.inj read)
  have outdented := outdent?_indentRest level text.toList
  rw [← sameContent, outdent?_indentRest] at outdented
  exact ⟨String.toList_injective (Option.some.inj outdented).symm, (List.append_cancel_left sameRest).symm⟩

theorem classDef_inj {name other : String} {decorators others : List String} {body otherBody : List Statement}
    (formed : (Statement.classDef name decorators body).IsWellFormed)
    (otherFormed : (Statement.classDef other others otherBody).IsWellFormed)
    (legible : IsLegibleBody level body)
    (ends : EndsStatement level rest) (otherEnds : EndsStatement level later)
    (same : remainder level (.classDef name decorators body) ++ rest =
      remainder level (.classDef other others otherBody) ++ later) :
    name = other ∧ body.map Statement.withoutTuples = otherBody.map Statement.withoutTuples ∧ rest = later := by
  simp only [remainder, List.append_assoc, List.cons_append] at same
  obtain ⟨sameName, sameTail⟩ := legible_name formed.1 other _ _ otherFormed.1 (endsRun_cons.2 (by decide))
    (endsRun_cons.2 (by decide)) same
  obtain ⟨sameBody, sameRest⟩ := legible otherBody _ _ otherFormed.2.2 ends otherEnds (List.cons.inj sameTail).2
  exact ⟨sameName, sameBody, sameRest⟩

theorem function_inj {name other : String} {decorators others : List String}
    {parameters otherParameters : List ParameterOutline} {returns otherReturns : Option TypeTerm}
    {body otherBody : List Statement}
    (formed : (Statement.function name decorators parameters returns body).IsWellFormed)
    (otherFormed : (Statement.function other others otherParameters otherReturns otherBody).IsWellFormed)
    (legible : IsLegibleBody level body)
    (ends : EndsStatement level rest) (otherEnds : EndsStatement level later)
    (same : remainder level (.function name decorators parameters returns body) ++ rest =
      remainder level (.function other others otherParameters otherReturns otherBody) ++ later) :
    name = other ∧
      parameters.map ParameterOutline.withoutTuples = otherParameters.map ParameterOutline.withoutTuples ∧
      returns.map TypeTerm.withoutTuples = otherReturns.map TypeTerm.withoutTuples ∧
      body.map Statement.withoutTuples = otherBody.map Statement.withoutTuples ∧ rest = later := by
  obtain ⟨isName, -, isList, isType, -, -⟩ := formed
  obtain ⟨otherIsName, -, otherIsList, otherIsType, otherBodyFormed⟩ := otherFormed
  simp only [remainder, List.append_assoc, List.cons_append] at same
  obtain ⟨sameName, sameTail⟩ := legible_name isName other _ _ otherIsName (endsRun_cons.2 (by decide))
    (endsRun_cons.2 (by decide)) same
  obtain ⟨sameParameters, sameTail⟩ := legible_parameterList parameters isList otherParameters
    (returnsForm returns ++ ':' :: (bodyForm level body ++ rest))
    (returnsForm otherReturns ++ ':' :: (bodyForm level otherBody ++ later)) otherIsList trivial trivial
    (by simpa using (List.cons.inj sameTail).2)
  obtain ⟨sameReturns, sameTail⟩ := legible_returnsForm isType otherReturns _ _ otherIsType rfl rfl sameTail
  obtain ⟨sameBody, sameRest⟩ := legible otherBody _ _ otherBodyFormed ends otherEnds (List.cons.inj sameTail).2
  exact ⟨sameName, sameParameters, sameReturns, sameBody, sameRest⟩

theorem assignment_inj {target other : String} {type otherType : TypeTerm} {value otherValue : Option Value}
    (formed : (Statement.assignment target type value).IsWellFormed)
    (otherFormed : (Statement.assignment other otherType otherValue).IsWellFormed)
    (same : remainder level (.assignment target type value) ++ rest =
      remainder level (.assignment other otherType otherValue) ++ later) :
    type.withoutTuples = otherType.withoutTuples ∧ value = otherValue ∧ rest = later := by
  simp only [remainder, List.append_assoc, List.cons_append, List.nil_append] at same
  obtain ⟨sameType, sameTail⟩ := TypeTerm.legible_form type formed.2.1 otherType _ _ otherFormed.2.1
    (endsType_valueForm value rest) (endsType_valueForm otherValue later) (List.cons.inj same).2
  obtain ⟨sameValue, sameRest⟩ := legible_valueForm formed.2.2 otherValue _ _ otherFormed.2.2 rfl rfl sameTail
  exact ⟨sameType, sameValue, (List.cons.inj sameRest).2⟩

theorem importFrom_inj {path other : String} {names others : List String}
    (formed : (Statement.importFrom path names).IsWellFormed)
    (otherFormed : (Statement.importFrom other others).IsWellFormed)
    (same : remainder level (.importFrom path names) ++ rest = remainder level (.importFrom other others) ++ later) :
    path = other ∧ names = others ∧ rest = later := by
  simp only [remainder, List.append_assoc, List.cons_append, List.nil_append] at same
  have stop : ∀ rest, EndsRun isPathChar (" import ".toList ++ rest) := fun rest => endsRun_cons.2 (by decide)
  obtain ⟨samePath, sameTail⟩ := legible_path formed.1 other _ _ otherFormed.1 (stop _) (stop _) same
  obtain ⟨sameNames, sameRest⟩ := legible_names formed.2.1 formed.2.2 others _ _ otherFormed.2 rfl rfl
    (List.append_cancel_left sameTail)
  exact ⟨samePath, sameNames, (List.cons.inj sameRest).2⟩

theorem importModule_inj {path other : String} (isPath : IsPath path) (otherIsPath : IsPath other)
    (same : remainder level (.importModule path) ++ rest = remainder level (.importModule other) ++ later) :
    path = other ∧ rest = later := by
  simp only [remainder, List.append_assoc, List.cons_append, List.nil_append] at same
  obtain ⟨samePath, sameRest⟩ := legible_path isPath other _ _ otherIsPath (endsRun_cons.2 (by decide))
    (endsRun_cons.2 (by decide)) same
  exact ⟨samePath, (List.cons.inj sameRest).2⟩

theorem remainder_inj {other : Statement} (formed : statement.IsWellFormed) (otherFormed : other.IsWellFormed)
    (legible : ∀ inner ∈ statement.body, inner.IsLegible (level + 1))
    (ends : EndsStatement level rest) (otherEnds : EndsStatement level later)
    (decorators : statement.decorators = other.decorators) (opening : statement.opening = other.opening)
    (same : remainder level statement ++ rest = remainder level other ++ later) :
    statement.withoutTuples = other.withoutTuples ∧ rest = later := by
  cases statement <;> cases other <;> simp [Statement.opening] at opening
  case importFrom.importFrom =>
    obtain ⟨rfl, rfl, sameRest⟩ := importFrom_inj formed otherFormed same
    exact ⟨rfl, sameRest⟩
  case importModule.importModule =>
    obtain ⟨rfl, sameRest⟩ := importModule_inj formed otherFormed same
    exact ⟨rfl, sameRest⟩
  case classDef.classDef =>
    have body := legible_bodyForm formed.2.2.1 formed.2.2.2 legible
    obtain ⟨rfl, sameBody, sameRest⟩ := classDef_inj formed otherFormed body ends otherEnds same
    simp only [Statement.decorators] at decorators
    subst decorators
    simp only [Statement.withoutTuples, withoutTuplesAll_eq_map, sameBody, sameRest, and_self]
  case function.function =>
    have body := legible_bodyForm formed.2.2.2.2.1 formed.2.2.2.2.2 legible
    obtain ⟨rfl, sameParameters, sameReturns, sameBody, sameRest⟩ :=
      function_inj formed otherFormed body ends otherEnds same
    simp only [Statement.decorators] at decorators
    subst decorators
    simp only [Statement.withoutTuples, withoutTuplesAll_eq_map, sameParameters, sameReturns, sameBody, sameRest,
      and_self]
  case assignment.assignment =>
    obtain ⟨sameType, rfl, sameRest⟩ := assignment_inj formed otherFormed same
    rw [Statement.withoutTuples, sameType, String.toList_injective opening]
    exact ⟨rfl, sameRest⟩
  case docstring.docstring =>
    obtain ⟨rfl, sameRest⟩ := docstring_inj same
    exact ⟨rfl, sameRest⟩
  case ellipsis.ellipsis => exact ⟨rfl, List.append_cancel_left same⟩

/-- A statement is legible up to the next line of its level, or of a level around it. -/
theorem legible_form (statement : Statement) (formed : statement.IsWellFormed) (level : Nat) :
    statement.IsLegible level := by
  intro other rest later otherFormed ends otherEnds same
  have inner : ∀ inner ∈ statement.body, inner.IsLegible (level + 1) := by
    intro inner member
    -- The statements of a body are smaller than the statement that has it.
    have := sizeOf_body member
    exact legible_form inner (formed.body inner member) (level + 1)
  have plain : ∀ {statement : Statement} {rest : List Char}, statement.IsWellFormed → ∀ more,
      statement.opening.1 ++ statement.opening.2 :: rest ≠ '@' :: more := by
    intro statement rest formed more same
    obtain ⟨c, _, begins, -, -, notAt⟩ := formed.opening_begins rest
    rw [begins] at same
    exact notAt (List.cons.inj same).1
  rw [form_eq, form_eq] at same
  simp only [List.append_assoc, List.cons_append] at same
  obtain ⟨sameDecorators, sameStatement⟩ := decorators_inj formed.decorators otherFormed.decorators (plain formed)
    (plain otherFormed) same
  obtain ⟨sameOpening, sameRemainder⟩ := opening_inj formed otherFormed sameStatement
  exact remainder_inj formed otherFormed inner ends otherEnds sameDecorators sameOpening sameRemainder
  termination_by sizeOf statement

end

/-! ### Documents -/

def documentForm (statements : List Statement) : List Char := (textOfLines (documentLines statements)).toList

section
variable {statement other : Statement} {statements others : List Statement}

def gap (statement next : Statement) : List Char := if sameGroup statement next then [] else ['\n']

def afterFirst (statement : Statement) : List Statement → List Char
  | [] => []
  | next :: statements => gap statement next ++ documentForm (next :: statements)

theorem documentForm_cons (statement : Statement) (statements : List Statement) :
    documentForm (statement :: statements) = statement.form 0 ++ afterFirst statement statements := by
  cases statements with
  | nil => exact (List.append_nil _).symm
  | cons next statements =>
    rw [documentForm, documentLines, toList_textOfLines_append, toList_textOfLines_append, List.append_assoc,
      afterFirst, gap]
    cases sameGroup statement next <;> rfl

theorem documentForm_begins (formed : statement.IsWellFormed) (statements : List Statement) :
    ∃ c more, documentForm (statement :: statements) = c :: more ∧ c ≠ ' ' ∧ c ≠ '\n' := by
  obtain ⟨c, more, begins, notBlank, notEnd⟩ := formed.form_begins 0
  rw [documentForm_cons, begins]
  exact ⟨c, _, rfl, notBlank, notEnd⟩

theorem endsStatement_afterFirst (statement : Statement) (formed : ∀ statement ∈ statements, statement.IsWellFormed) :
    EndsStatement 0 (afterFirst statement statements) := by
  intro rest same
  cases statements with
  | nil => cases same
  | cons next statements =>
    obtain ⟨c, more, begins, notBlank, -⟩ := documentForm_begins (formed next List.mem_cons_self) statements
    rw [afterFirst, begins, gap] at same
    split at same
    · exact notBlank (List.cons.inj same).1
    · cases same

/-- A blank line between statements is told from the statement after it. -/
theorem documentForm_of_afterFirst (formed : ∀ statement ∈ statements, statement.IsWellFormed)
    (othersFormed : ∀ statement ∈ others, statement.IsWellFormed)
    (same : afterFirst statement statements = afterFirst other others) :
    documentForm statements = documentForm others := by
  have filled : ∀ {statement next : Statement} {statements : List Statement}, next.IsWellFormed →
      afterFirst statement (next :: statements) ≠ [] := by
    intro statement next statements formed isEmpty
    obtain ⟨c, more, begins, -⟩ := documentForm_begins formed statements
    rw [afterFirst, begins] at isEmpty
    exact List.cons_ne_nil _ _ (List.append_eq_nil_iff.1 isEmpty).2
  match statements, others with
  | [], [] => rfl
  | [], next :: _ => exact absurd same.symm (filled (othersFormed next List.mem_cons_self))
  | next :: _, [] => exact absurd same (filled (formed next List.mem_cons_self))
  | next :: statements, otherNext :: others =>
    obtain ⟨c, more, begins, -, notEnd⟩ := documentForm_begins (formed next List.mem_cons_self) statements
    obtain ⟨d, later, otherBegins, -, otherNotEnd⟩ :=
      documentForm_begins (othersFormed otherNext List.mem_cons_self) others
    rw [afterFirst, afterFirst, gap, gap] at same
    -- Where only one of them has the blank line, the other would have to begin with a line end.
    split at same <;> split at same
    · exact same
    · rw [begins] at same
      exact absurd (List.cons.inj same).1 notEnd
    · rw [otherBegins] at same
      exact absurd (List.cons.inj same).1.symm otherNotEnd
    · exact (List.cons.inj same).2

theorem documentForm_inj (formed : ∀ statement ∈ statements, statement.IsWellFormed)
    (othersFormed : ∀ statement ∈ others, statement.IsWellFormed)
    (same : documentForm statements = documentForm others) :
    statements.map Statement.withoutTuples = others.map Statement.withoutTuples := by
  -- No statement begins with the line end that stands for no statements at all, so both lists end together.
  have filled : ∀ {statement : Statement} {statements : List Statement}, statement.IsWellFormed →
      documentForm (statement :: statements) ≠ documentForm [] := by
    intro statement statements formed same
    obtain ⟨c, more, begins, -⟩ := documentForm_begins formed statements
    rw [begins] at same
    cases same
  induction statements generalizing others with
  | nil =>
    cases others with
    | nil => rfl
    | cons other others => exact absurd same.symm (filled (othersFormed other List.mem_cons_self))
  | cons statement statements ih =>
    cases others with
    | nil => exact absurd same (filled (formed statement List.mem_cons_self))
    | cons other others =>
      have laterFormed : ∀ later ∈ statements, later.IsWellFormed :=
        fun later member => formed later (List.mem_cons_of_mem _ member)
      have laterOthers : ∀ later ∈ others, later.IsWellFormed :=
        fun later member => othersFormed later (List.mem_cons_of_mem _ member)
      rw [documentForm_cons, documentForm_cons] at same
      obtain ⟨sameStatement, sameTail⟩ := legible_form statement (formed statement List.mem_cons_self) 0 other _ _
        (othersFormed other List.mem_cons_self) (endsStatement_afterFirst statement laterFormed)
        (endsStatement_afterFirst other laterOthers) same
      have sameStatements := ih laterFormed laterOthers (documentForm_of_afterFirst laterFormed laterOthers sameTail)
      exact List.cons_eq_cons.2 ⟨sameStatement, sameStatements⟩

/-- The text of a stub tells its statements, up to the two ways to write a tuple of types. -/
theorem statements_eq_of_text_eq {first second : List Statement} (firstFormed : AllWellFormed first)
    (secondFormed : AllWellFormed second) (same : text first = text second) :
    first.map Statement.withoutTuples = second.map Statement.withoutTuples := by
  have formed := allWellFormed_iff.1 firstFormed
  have otherFormed := allWellFormed_iff.1 secondFormed
  -- The text without statements is an empty line, and no statement begins with one.
  have filled : ∀ {statement : Statement} {statements : List Statement}, statement.IsWellFormed →
      text (statement :: statements) ≠ text [] := by
    intro statement statements formed same
    obtain ⟨c, more, begins, -, notEnd⟩ := documentForm_begins formed statements
    have characters : documentForm (statement :: statements) = ['\n'] := congrArg String.toList same
    rw [begins] at characters
    exact notEnd (List.cons.inj characters).1
  match first, second with
  | [], [] => rfl
  | [], statement :: _ => exact absurd same.symm (filled (otherFormed statement List.mem_cons_self))
  | statement :: _, [] => exact absurd same (filled (formed statement List.mem_cons_self))
  | _ :: _, _ :: _ => exact documentForm_inj formed otherFormed (congrArg String.toList same)

def classWith (type : TypeTerm) : List Statement :=
  [.classDef "Span" [] [.docstring "Both \"ends\"", .assignment "ends" type (some .ellipsis)]]

theorem allWellFormed_classWith {type : TypeTerm} (formed : type.IsWellFormed) : AllWellFormed (classWith type) :=
  ⟨⟨by decide, by simp, by simp, trivial, ⟨by decide, formed, by simp [Value.IsStored]⟩, trivial⟩, trivial⟩

theorem tuple_written_as_subscript :
    (classWith (.tuple [.name "int"])).map Statement.withoutTuples =
      (classWith (.subscript "typing.Tuple" [.name "int"])).map Statement.withoutTuples := by
  have isPath : IsPath "int" ∧ IsPath "typing.Tuple" := by decide
  exact statements_eq_of_text_eq (allWellFormed_classWith ⟨isPath.1, trivial⟩)
    (allWellFormed_classWith ⟨isPath.2, isPath.1, trivial⟩) rfl

end

end TypedStub.Stub
