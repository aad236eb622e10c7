import TypedStub.Proofs.Literal
import TypedStub.Proofs.TypeTerm.Legible
import TypedStub.Stub

/-! The parts of a parameter list are legible.

A part is what stands between two commas: a mark that stands alone, or a parameter with the mark, the type and the
default that it has. A part does not tell the kind of a parameter without a mark.
-/

set_option autoImplicit false

namespace TypedStub

open Text

/-- Names are names, types are well formed, and defaults are literals that a module can hold. -/
structure ParameterOutline.IsWellFormed (parameter : ParameterOutline) : Prop where
  name : IsName parameter.name
  type : ∀ type ∈ parameter.type, type.IsWellFormed
  default? : ∀ value ∈ parameter.default?, value.IsStored

def ParameterOutline.withoutTuples (parameter : ParameterOutline) : ParameterOutline :=
  { parameter with type := parameter.type.map TypeTerm.withoutTuples }

/-- What stands between two commas of a parameter list. A mark that stands alone has no name behind it. -/
structure ParameterPart where
  mark : String
  name : String
  type : Option TypeTerm
  default? : Option Literal

namespace ParameterPart

def ofParameter (parameter : ParameterOutline) : ParameterPart :=
  ⟨parameter.kind.mark, parameter.name, parameter.type, parameter.default?⟩

def ofMark (mark : String) : ParameterPart := ⟨mark, "", none, none⟩

def toParameter (part : ParameterPart) (kind : ParameterKind) : ParameterOutline :=
  ⟨part.name, part.type, part.default?, kind⟩

def withoutTuples (part : ParameterPart) : ParameterPart :=
  { part with type := part.type.map TypeTerm.withoutTuples }

def contents (part : ParameterPart) : List Char :=
  ((part.toParameter .positionalOrKeyword).typeForm ++ (part.toParameter .positionalOrKeyword).defaultForm).toList

def form (part : ParameterPart) : List Char := part.mark.toList ++ (part.name.toList ++ part.contents)

def isMarkChar (c : Char) : Bool := c = '*' || c = '/'

structure IsWellFormed (part : ParameterPart) : Prop where
  mark : ∀ c ∈ part.mark.toList, isMarkChar c = true
  name : ∀ c ∈ part.name.toList, isNameChar c = true
  filled : part.mark.toList ++ part.name.toList ≠ []
  type : ∀ type ∈ part.type, type.IsWellFormed
  default? : ∀ value ∈ part.default?, value.IsStored

/-- A part ends before a comma and before the parenthesis that closes the list. -/
def EndsPart (text : List Char) : Prop := text.head? = some ',' ∨ text.head? = some ')'

variable {part other : ParameterPart} {rest later : List Char}

theorem EndsPart.cases (ends : EndsPart rest) : ∃ c more, rest = c :: more ∧ (c = ',' ∨ c = ')') := by
  rcases ends with head | head
  · obtain ⟨more, rfl⟩ := List.head?_eq_some_iff.1 head
    exact ⟨_, more, rfl, Or.inl rfl⟩
  · obtain ⟨more, rfl⟩ := List.head?_eq_some_iff.1 head
    exact ⟨_, more, rfl, Or.inr rfl⟩

theorem EndsPart.endsRun {inside : Char → Bool} (ends : EndsPart rest) (comma : inside ',' = false)
    (parenthesis : inside ')' = false) : EndsRun inside rest := by
  obtain ⟨c, more, rfl, rfl | rfl⟩ := ends.cases
  · exact endsRun_cons.2 comma
  · exact endsRun_cons.2 parenthesis

def defaultText (opening : List Char) : Option Literal → List Char
  | some value => opening ++ value.stubForm.toList
  | none => []

/-- The characters that stand before a default: blanks are around its sign after a type. -/
def defaultOpening (typed : Bool) : List Char := if typed then [' ', '=', ' '] else ['=']

theorem contents_untyped (untyped : part.type = none) :
    part.contents = defaultText (defaultOpening false) part.default? := by
  cases given : part.default? <;>
    simp [contents, toParameter, ParameterOutline.typeForm, ParameterOutline.defaultForm, untyped, given,
      defaultText, defaultOpening]

theorem contents_typed {type : TypeTerm} (typed : part.type = some type) :
    part.contents = ':' :: ' ' :: (type.form ++ defaultText (defaultOpening true) part.default?) := by
  cases given : part.default? <;>
    simp [contents, toParameter, ParameterOutline.typeForm, ParameterOutline.defaultForm, typed, given, TypeTerm.form,
      defaultText, defaultOpening]

theorem legible_defaultText (typed : Bool) (default? : Option Literal) (stored : ∀ value ∈ default?, value.IsStored) :
    Legible (defaultText (defaultOpening typed)) (fun default? => ∀ value ∈ default?, value.IsStored) EndsPart id
      default? := by
  intro other rest later otherStored ends otherEnds same
  have shown : ∀ {value : Literal} {rest later : List Char}, EndsPart later →
      defaultText (defaultOpening typed) (some value) ++ rest ≠ later := by
    rintro value rest later ends rfl
    obtain ⟨c, more, begins, closes⟩ := ends.cases
    cases typed <;> cases begins <;> rcases closes with closes | closes <;> cases closes
  match default?, other with
  | none, none => exact ⟨rfl, same⟩
  | none, some value => exact absurd same.symm (shown ends)
  | some value, none => exact absurd same (shown otherEnds)
  | some value, some otherValue =>
    simp only [defaultText, List.append_assoc] at same
    obtain ⟨sameValue, sameRest⟩ := Literal.legible_stubForm value (stored value rfl) otherValue rest later
      (otherStored otherValue rfl) (ends.endsRun rfl rfl) (otherEnds.endsRun rfl rfl) (List.append_cancel_left same)
    exact ⟨congrArg some sameValue, sameRest⟩

theorem endsType_defaultText (default? : Option Literal) (ends : EndsPart rest) :
    TypeTerm.EndsType (defaultText (defaultOpening true) default? ++ rest) := by
  cases default? with
  | none =>
    obtain ⟨c, more, rfl, rfl | rfl⟩ := ends.cases
    · exact TypeTerm.endsType_cons (by decide) (by decide) (by decide)
    · exact TypeTerm.endsType_cons (by decide) (by decide) (by decide)
  | some value =>
    refine ⟨endsRun_cons.2 (by decide), fun later same => ?_⟩
    -- The sign of a default is not the bar between alternatives.
    have second := (List.cons.inj (List.cons.inj same).2).1
    cases second

theorem legible_contents (formed : part.IsWellFormed) : Legible contents IsWellFormed EndsPart
    (fun part => (part.type.map TypeTerm.withoutTuples, part.default?)) part := by
  intro other rest later otherFormed ends otherEnds same
  -- A default does not begin with a colon, by which a type is told from none.
  have colon : ∀ (default? : Option Literal) {rest more : List Char}, EndsPart rest →
      defaultText (defaultOpening false) default? ++ rest ≠ ':' :: more := by
    rintro (_ | value) rest more ends same
    · obtain ⟨c, more, rfl, rfl | rfl⟩ := ends.cases <;> cases same
    · cases same
  match typed : part.type, otherTyped : other.type with
  | none, none =>
    rw [contents_untyped typed, contents_untyped otherTyped] at same
    obtain ⟨sameDefault, sameRest⟩ := legible_defaultText false part.default? formed.default? _ _ _
      otherFormed.default? ends otherEnds same
    exact ⟨Prod.ext (by simp only [typed, otherTyped]) sameDefault, sameRest⟩
  | none, some type =>
    rw [contents_untyped typed, contents_typed otherTyped] at same
    exact absurd same (colon _ ends)
  | some type, none =>
    rw [contents_typed typed, contents_untyped otherTyped] at same
    exact absurd same.symm (colon _ otherEnds)
  | some type, some otherType =>
    rw [contents_typed typed, contents_typed otherTyped] at same
    simp only [List.cons_append, List.append_assoc, List.cons.injEq, true_and] at same
    obtain ⟨sameType, sameTail⟩ := TypeTerm.legible_form type (formed.type type typed) _ _ _
      (otherFormed.type otherType otherTyped) (endsType_defaultText _ ends) (endsType_defaultText _ otherEnds) same
    obtain ⟨sameDefault, sameRest⟩ := legible_defaultText true part.default? formed.default? _ _ _
      otherFormed.default? ends otherEnds sameTail
    exact ⟨Prod.ext (by simp only [typed, otherTyped, Option.map_some, sameType]) sameDefault, sameRest⟩

theorem contents_begins (part : ParameterPart) (ends : EndsPart rest) :
    ∃ c more, part.contents ++ rest = c :: more ∧ isNameChar c = false ∧ isMarkChar c = false := by
  obtain ⟨c, more, rfl, closes⟩ := ends.cases
  cases typed : part.type with
  | some type => exact ⟨_, _, by rw [contents_typed typed]; rfl, rfl, rfl⟩
  | none =>
    rw [contents_untyped typed]
    cases part.default? with
    | some value => exact ⟨_, _, rfl, rfl, rfl⟩
    | none => rcases closes with rfl | rfl <;> exact ⟨_, _, rfl, rfl, rfl⟩

theorem not_isMarkChar {c : Char} (isName : isNameChar c = true) : isMarkChar c = false := by
  rw [← Bool.not_eq_true]
  intro isMark
  simp only [isMarkChar, Bool.or_eq_true, decide_eq_true_eq] at isMark
  rcases isMark with rfl | rfl <;> cases isName

theorem IsWellFormed.endsRun (formed : part.IsWellFormed) (ends : EndsPart rest) :
    EndsRun isMarkChar (part.name.toList ++ (part.contents ++ rest)) ∧
      EndsRun isNameChar (part.contents ++ rest) := by
  obtain ⟨c, more, begins, noName, noMark⟩ := contents_begins part ends
  rw [begins]
  refine ⟨?_, endsRun_cons.2 noName⟩
  cases name : part.name.toList with
  | nil => exact endsRun_cons.2 noMark
  | cons first later => exact endsRun_cons.2 (not_isMarkChar (formed.name first (by simp [name])))

theorem legible_form (part : ParameterPart) (formed : part.IsWellFormed) :
    Legible form IsWellFormed EndsPart withoutTuples part := by
  intro other rest later otherFormed ends otherEnds same
  simp only [form, List.append_assoc] at same
  obtain ⟨sameMark, sameTail⟩ := run_append_inj formed.mark otherFormed.mark (formed.endsRun ends).1
    (otherFormed.endsRun otherEnds).1 same
  obtain ⟨sameName, sameContents⟩ := run_append_inj formed.name otherFormed.name (formed.endsRun ends).2
    (otherFormed.endsRun otherEnds).2 sameTail
  obtain ⟨sameKey, sameRest⟩ := legible_contents formed other rest later otherFormed ends otherEnds sameContents
  obtain ⟨sameType, sameDefault⟩ := Prod.mk.inj sameKey
  refine ⟨?_, sameRest⟩
  simp only [withoutTuples, String.toList_injective sameMark, String.toList_injective sameName, sameType, sameDefault]

theorem form_begins (mark : ∀ c ∈ part.mark.toList, isMarkChar c = true)
    (name : ∀ c ∈ part.name.toList, isNameChar c = true) (filled : part.mark.toList ++ part.name.toList ≠ []) :
    ∃ c more, part.form = c :: more ∧ (isMarkChar c = true ∨ isNameChar c = true) := by
  obtain ⟨c, more, begins⟩ := List.exists_cons_of_ne_nil filled
  refine ⟨c, more ++ part.contents, ?_, ?_⟩
  · rw [form, ← List.append_assoc, begins, List.cons_append]
  · have member : c ∈ part.mark.toList ++ part.name.toList := by simp [begins]
    exact (List.mem_append.1 member).imp (mark c) (name c)

/-- No part begins with the parenthesis that closes the list. -/
theorem IsWellFormed.unmarked (formed : part.IsWellFormed) (rest later : List Char) :
    part.form ++ rest ≠ ')' :: later := by
  intro same
  obtain ⟨c, more, begins, isPart⟩ := form_begins formed.mark formed.name formed.filled
  rw [begins] at same
  cases same
  rcases isPart with isPart | isPart <;> cases isPart

end ParameterPart

/-! ### Parameter lists are legible

In the order that the language demands of parameters, the marks among the parts give every parameter its kind back.
-/

namespace ParameterKind

def rank : ParameterKind → Nat
  | .positionalOnly => 0
  | .positionalOrKeyword => 1
  | .varPositional => 2
  | .keywordOnly => 3
  | .varKeyword => 4

def MayPrecede (first second : ParameterKind) : Prop :=
  first.rank < second.rank ∨ first = second ∧ first ≠ .varPositional ∧ first ≠ .varKeyword

instance (first second : ParameterKind) : Decidable (first.MayPrecede second) :=
  inferInstanceAs (Decidable (_ ∨ _))

end ParameterKind

namespace Stub

open ParameterPart

/-- The parts of a parameter list, with the marks that stand alone. -/
def partsOf (starred : Bool) : List ParameterOutline → List ParameterPart
  | [] => []
  | parameter :: rest =>
    let star := parameter.kind = .keywordOnly && !starred
    let slash := parameter.kind = .positionalOnly && !(rest.any fun later => later.kind = .positionalOnly)
    (if star then [ofMark "*"] else []) ++ ofParameter parameter :: (if slash then [ofMark "/"] else [])
      ++ partsOf (starred || star) rest

/-- The parameters that parts stand for. A slash makes the parameters before it positional, and those after a star
take a keyword. -/
def readParts (starred : Bool) : List ParameterPart → List ParameterOutline
  | [] => []
  | part :: rest =>
    if part.mark = "/" then readParts starred rest
    else if part.mark = "*" then
      if part.name = "" then readParts true rest else part.toParameter .varPositional :: readParts true rest
    else if part.mark = "**" then part.toParameter .varKeyword :: readParts starred rest
    else if rest.any fun later => later.mark = "/" then part.toParameter .positionalOnly :: readParts starred rest
    else part.toParameter (if starred then .keywordOnly else .positionalOrKeyword) :: readParts starred rest

theorem form_ofParameter (parameter : ParameterOutline) :
    (ofParameter parameter).form = parameter.stubForm.toList := by
  simp only [form, contents, ParameterOutline.stubForm, String.toList_append, List.append_assoc]
  rfl

theorem form_ofMark (mark : String) : (ofMark mark).form = mark.toList := by
  simp [form, ofMark, contents, toParameter, ParameterOutline.typeForm, ParameterOutline.defaultForm]

theorem parameterParts_eq (starred : Bool) (parameters : List ParameterOutline) :
    (parameterParts starred parameters).map String.toList = (partsOf starred parameters).map ParameterPart.form := by
  induction parameters generalizing starred with
  | nil => rfl
  | cons parameter rest ih =>
    simp only [parameterParts, partsOf, List.map_append, List.map_cons, form_ofParameter, ih, apply_ite (List.map _),
      form_ofMark, List.map_nil]

/-! ### Kinds read from parts -/

section
variable {parameter : ParameterOutline} {read : Bool} {rest : List ParameterPart}

def hasSlash (parts : List ParameterPart) : Bool := parts.any fun part => part.mark = "/"

def hasKind (kind : ParameterKind) (parameters : List ParameterOutline) : Bool :=
  parameters.any fun parameter => parameter.kind = kind

theorem hasSlash_partsOf (starred : Bool) (parameters : List ParameterOutline) :
    hasSlash (partsOf starred parameters) = hasKind .positionalOnly parameters := by
  induction parameters generalizing starred with
  | nil => rfl
  | cons parameter rest ih =>
    obtain ⟨name, type, default?, kind⟩ := parameter
    simp only [hasSlash, hasKind] at ih ⊢
    cases kind <;> cases starred <;> cases later : rest.any fun parameter => parameter.kind = .positionalOnly <;>
      simp [partsOf, ofParameter, ofMark, ParameterKind.mark, ih, later]

theorem partsOf_positionalOnly {starred : Bool} {later : List ParameterOutline}
    (kind : parameter.kind = .positionalOnly) :
    partsOf starred (parameter :: later) = ofParameter parameter ::
      ((if hasKind .positionalOnly later then [] else [ofMark "/"]) ++ partsOf starred later) := by
  cases any : later.any fun parameter => parameter.kind = .positionalOnly <;>
    simp [partsOf, kind, hasKind, any]

theorem partsOf_keywordOnly {starred : Bool} {later : List ParameterOutline} (kind : parameter.kind = .keywordOnly) :
    partsOf starred (parameter :: later) =
      (if starred then [] else [ofMark "*"]) ++ ofParameter parameter :: partsOf true later := by
  cases starred <;> simp [partsOf, kind]

theorem partsOf_other {starred : Bool} {later : List ParameterOutline}
    (notPositionalOnly : parameter.kind ≠ .positionalOnly) (notKeywordOnly : parameter.kind ≠ .keywordOnly) :
    partsOf starred (parameter :: later) = ofParameter parameter :: partsOf starred later := by
  simp [partsOf, notPositionalOnly, notKeywordOnly]

@[simp] theorem readParts_slash : readParts read (ofMark "/" :: rest) = readParts read rest := by
  simp [readParts, ofMark]

@[simp] theorem readParts_star : readParts read (ofMark "*" :: rest) = readParts true rest := by
  simp [readParts, ofMark]

theorem readParts_varPositional (kind : parameter.kind = .varPositional) (named : parameter.name ≠ "") :
    readParts read (ofParameter parameter :: rest) = parameter :: readParts true rest := by
  obtain ⟨name, type, default?, _⟩ := parameter
  cases kind
  simp [readParts, ofParameter, ParameterKind.mark, show name ≠ "" from named, toParameter]

theorem readParts_varKeyword (kind : parameter.kind = .varKeyword) :
    readParts read (ofParameter parameter :: rest) = parameter :: readParts read rest := by
  obtain ⟨name, type, default?, _⟩ := parameter
  cases kind
  simp [readParts, ofParameter, ParameterKind.mark, toParameter]

theorem toParameter_ofParameter (parameter : ParameterOutline) :
    (ofParameter parameter).toParameter parameter.kind = parameter := rfl

/-- A parameter without a mark gets its kind from the marks around it. -/
theorem readParts_unmarked (unmarked : parameter.kind.mark = "")
    (kind : parameter.kind = if hasSlash rest then .positionalOnly else if read then .keywordOnly else
      .positionalOrKeyword) :
    readParts read (ofParameter parameter :: rest) = parameter :: readParts read rest := by
  have noMark : (ofParameter parameter).mark = "" := unmarked
  rw [readParts, if_neg (by rw [noMark]; decide), if_neg (by rw [noMark]; decide), if_neg (by rw [noMark]; decide)]
  rw [hasSlash] at kind
  split
  · rename_i slash
    rw [if_pos slash] at kind
    rw [← kind, toParameter_ofParameter]
  · rename_i slash
    rw [if_neg slash] at kind
    rw [← kind, toParameter_ofParameter]

/-- The slash stands behind the last of the positional parameters, so each of them has one behind it. -/
theorem readParts_positionalOnly {starred : Bool} {later : List ParameterOutline}
    (kind : parameter.kind = .positionalOnly) :
    readParts read (partsOf starred (parameter :: later)) = parameter :: readParts read (partsOf starred later) := by
  have slash : hasSlash ((if hasKind .positionalOnly later then [] else [ofMark "/"]) ++ partsOf starred later) = true := by
    rw [hasSlash, List.any_append, ← hasSlash, ← hasSlash, hasSlash_partsOf]
    cases hasKind .positionalOnly later <;> rfl
  have skipped : readParts read ((if hasKind .positionalOnly later then [] else [ofMark "/"]) ++
      partsOf starred later) = readParts read (partsOf starred later) := by
    cases hasKind .positionalOnly later <;> simp
  rw [partsOf_positionalOnly kind, readParts_unmarked (by rw [kind]; rfl) (by rw [kind, if_pos slash]), skipped]

/-- A star that is still missing is written before the parameter, and it is read before it too. -/
theorem readParts_keywordOnly {later : List ParameterOutline} (kind : parameter.kind = .keywordOnly)
    (noSlash : hasSlash (partsOf true later) = false) :
    readParts read (partsOf read (parameter :: later)) = parameter :: readParts true (partsOf true later) := by
  have readStar : readParts read ((if read then [] else [ofMark "*"]) ++ ofParameter parameter :: partsOf true later) =
      readParts true (ofParameter parameter :: partsOf true later) := by
    cases read <;> simp
  rw [partsOf_keywordOnly kind, readStar, readParts_unmarked (by rw [kind]; rfl) (by rw [kind, noSlash]; rfl)]

end

variable {parameters : List ParameterOutline}

/-- Names are names, and kinds come in the order that the language demands. -/
structure IsParameterList (parameters : List ParameterOutline) : Prop where
  formed : ∀ parameter ∈ parameters, parameter.IsWellFormed
  ordered : parameters.Pairwise fun first second => first.kind.MayPrecede second.kind

theorem hasKind_eq_false {first kind : ParameterKind}
    (later : ∀ parameter ∈ parameters, first.MayPrecede parameter.kind) (never : ¬ first.MayPrecede kind) :
    hasKind kind parameters = false := by
  rw [hasKind, List.any_eq_false]
  intro parameter member same
  rw [decide_eq_true_eq] at same
  exact never (same ▸ later parameter member)

/-- After a star only names are left. -/
theorem onlyKeywords {first : ParameterKind} (late : ParameterKind.varPositional.rank ≤ first.rank)
    (later : ∀ parameter ∈ parameters, first.MayPrecede parameter.kind) :
    ∀ parameter ∈ parameters, parameter.kind = .keywordOnly ∨ parameter.kind = .varKeyword := by
  intro parameter member
  have allowed := later parameter member
  cases kind : parameter.kind <;> rw [kind] at allowed <;> cases first <;> revert late allowed <;> decide

/-- Reading is in step with writing: a star has been read if one has been written, unless the star that has been
accounted for is the mark of a parameter still to come. -/
theorem readParts_partsOf {starred read : Bool} (named : ∀ parameter ∈ parameters, parameter.name ≠ "")
    (ordered : parameters.Pairwise fun first second => first.kind.MayPrecede second.kind)
    (inStep : starred = (read || hasKind .varPositional parameters))
    (after : read = true → ∀ parameter ∈ parameters, parameter.kind = .keywordOnly ∨ parameter.kind = .varKeyword) :
    readParts read (partsOf starred parameters) = parameters := by
  -- The induction keeps the writer and the reader in step over the rest of the list.
  induction parameters generalizing starred read with
  | nil => rfl
  | cons parameter rest ih =>
    obtain ⟨first, restOrdered⟩ := List.pairwise_cons.1 ordered
    have continues := fun starred read => @ih starred read
      (fun parameter member => named parameter (List.mem_cons_of_mem _ member)) restOrdered
    have restAfter : read = true → ∀ parameter ∈ rest, parameter.kind = .keywordOnly ∨ parameter.kind = .varKeyword :=
      fun isRead parameter member => after isRead parameter (List.mem_cons_of_mem _ member)
    have unread : parameter.kind ≠ .keywordOnly → parameter.kind ≠ .varKeyword → read = false := by
      intro notKeywordOnly notVarKeyword
      rw [← Bool.not_eq_true]
      intro isRead
      rcases after isRead parameter List.mem_cons_self with kind | kind
      · exact notKeywordOnly kind
      · exact notVarKeyword kind
    rw [hasKind, List.any_cons, ← hasKind] at inStep
    match kind : parameter.kind with
    | .positionalOnly =>
      rw [readParts_positionalOnly kind, continues starred read (by simpa [kind] using inStep) restAfter]
    | .positionalOrKeyword =>
      rw [kind] at first
      have noStar := unread (by simp [kind]) (by simp [kind])
      have noSlash : hasSlash (partsOf starred rest) = false :=
        (hasSlash_partsOf starred rest).trans (hasKind_eq_false first (by decide))
      rw [partsOf_other (by simp [kind]) (by simp [kind]),
        readParts_unmarked (by rw [kind]; rfl) (by rw [kind, noSlash, noStar]; rfl),
        continues starred read (by simpa [kind] using inStep) restAfter]
    | .varPositional =>
      rw [kind] at first
      rw [partsOf_other (by simp [kind]) (by simp [kind]),
        readParts_varPositional kind (named parameter List.mem_cons_self),
        continues starred true (by simpa [kind] using inStep) fun _ => onlyKeywords (by decide) first]
    | .keywordOnly =>
      rw [kind] at first
      have noOther : hasKind .varPositional rest = false := hasKind_eq_false first (by decide)
      have noSlash : hasSlash (partsOf true rest) = false :=
        (hasSlash_partsOf true rest).trans (hasKind_eq_false first (by decide))
      obtain rfl : starred = read := by simpa [kind, noOther] using inStep
      rw [readParts_keywordOnly kind noSlash, continues true true (by simp) fun _ => onlyKeywords (by decide) first]
    | .varKeyword =>
      rw [partsOf_other (by simp [kind]) (by simp [kind]), readParts_varKeyword kind,
        continues starred read (by simpa [kind] using inStep) restAfter]

theorem readParts_map (read : Bool) (parts : List ParameterPart) :
    readParts read (parts.map ParameterPart.withoutTuples) =
      (readParts read parts).map ParameterOutline.withoutTuples := by
  induction parts generalizing read with
  | nil => rfl
  | cons part rest ih =>
    simp only [List.map_cons, readParts, List.any_map, Function.comp_def, ParameterPart.withoutTuples, ih,
      apply_ite (List.map _)]
    rfl

theorem mem_partsOf {starred : Bool} {part : ParameterPart} (member : part ∈ partsOf starred parameters) :
    part = ofMark "*" ∨ part = ofMark "/" ∨ ∃ parameter ∈ parameters, part = ofParameter parameter := by
  induction parameters generalizing starred with
  | nil => cases member
  | cons parameter rest ih =>
    have mark : ∀ {shown : Bool} {other : ParameterPart}, part ∈ (if shown then [other] else []) → part = other := by
      intro shown other member
      cases shown
      · cases member
      · exact List.mem_singleton.1 member
    simp only [partsOf, List.mem_append, List.mem_cons] at member
    rcases member with (star | own | slash) | later
    · exact Or.inl (mark star)
    · exact Or.inr (Or.inr ⟨parameter, List.mem_cons_self, own⟩)
    · exact Or.inr (Or.inl (mark slash))
    · refine (ih later).imp_right (Or.imp_right ?_)
      exact fun ⟨other, member, same⟩ => ⟨other, List.mem_cons_of_mem _ member, same⟩

theorem isWellFormed_ofMark {mark : String} (filled : mark ≠ "") (chars : ∀ c ∈ mark.toList, isMarkChar c = true) :
    (ofMark mark).IsWellFormed where
  mark := chars
  name := fun c member => by cases member
  filled := by simpa [ofMark] using filled
  type := fun type member => by cases member
  default? := fun value member => by cases member

theorem isWellFormed_ofParameter {parameter : ParameterOutline} (formed : parameter.IsWellFormed) :
    (ofParameter parameter).IsWellFormed where
  mark := by
    simp only [ofParameter]
    cases parameter.kind <;> exact List.all_eq_true.1 rfl
  name := formed.name.2
  filled := by simp [ofParameter, formed.name.1]
  type := formed.type
  default? := formed.default?

theorem IsParameterList.parts (valid : IsParameterList parameters) (starred : Bool) :
    ∀ part ∈ partsOf starred parameters, part.IsWellFormed := by
  intro part member
  rcases mem_partsOf member with rfl | rfl | ⟨parameter, given, rfl⟩
  · exact isWellFormed_ofMark (by decide) (List.all_eq_true.1 rfl)
  · exact isWellFormed_ofMark (by decide) (List.all_eq_true.1 rfl)
  · exact isWellFormed_ofParameter (valid.formed parameter given)

theorem toList_parameterList (parameters : List ParameterOutline) : (parameterList parameters).toList =
    separated [',', ' '] ParameterPart.form (partsOf (hasKind .varPositional parameters) parameters) := by
  simp only [parameterList, String.toList_intercalate, parameterParts_eq]
  rfl

theorem IsParameterList.readParts (valid : IsParameterList parameters) :
    readParts false (partsOf (hasKind .varPositional parameters) parameters) = parameters :=
  readParts_partsOf (fun parameter member => (valid.formed parameter member).name.1) valid.ordered rfl
    (fun isRead => by cases isRead)

/-- A parameter list is legible up to its closing parenthesis, kinds included. -/
theorem legible_parameterList (parameters : List ParameterOutline) (valid : IsParameterList parameters) :
    Legible (fun parameters => (parameterList parameters).toList ++ [')']) IsParameterList (fun _ => True)
      (List.map ParameterOutline.withoutTuples) parameters := by
  intro others rest later otherValid _ _ same
  simp only [toList_parameterList] at same
  obtain ⟨sameParts, sameRest⟩ := @legible_closed _ _ _ _ EndsPart ParameterPart.withoutTuples _ _
    (fun _ => Or.inl rfl) (fun _ => Or.inr rfl) (fun _ _ closed => by cases closed)
    (fun part formed => formed.unmarked) _ (valid.parts _)
    (fun part member => legible_form part (valid.parts _ part member)) _ rest later (otherValid.parts _) trivial trivial
    same
  refine ⟨?_, sameRest⟩
  have read := congrArg (Stub.readParts false) sameParts
  rwa [readParts_map, readParts_map, valid.readParts, otherValid.readParts] at read

end Stub

end TypedStub
