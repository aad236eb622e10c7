import TypedStub.Proofs.Stub.ParameterList
import TypedStub.Proofs.Stub.ParameterText

/-! The marks of a parameter list give every parameter its kind back.

The text is cut at the commas in the open, and its entries are read by the rules that the language has for them: before
a slash stand positional parameters, behind a star stand keywords, and nothing stands behind two stars.
-/

set_option autoImplicit false

namespace TypedStub.Stub

open Text ParameterPart

abbrev ParameterReading := ParameterText × ParameterKind

def readKeywords? : List ListEntry → Option (List ParameterReading)
  | [] => some []
  | [.named 2 text] => some [(text, .varKeyword)]
  | .named 0 text :: rest => (readKeywords? rest).map ((text, .keywordOnly) :: ·)
  | _ => none

/-- Read entries without a slash. A star that stands alone has a keyword behind it. -/
def readNames? : List ListEntry → Option (List ParameterReading)
  | .named 0 text :: rest => (readNames? rest).map ((text, .positionalOrKeyword) :: ·)
  | .named 1 text :: rest => (readKeywords? rest).map ((text, .varPositional) :: ·)
  | .star :: .named 0 text :: rest => (readKeywords? rest).map ((text, .keywordOnly) :: ·)
  | [.named 2 text] => some [(text, .varKeyword)]
  | [] => some []
  | _ => none

def readPositional? : List ListEntry → Option (List ParameterReading)
  | .slash :: rest => readNames? rest
  | .named 0 text :: rest => (readPositional? rest).map ((text, .positionalOnly) :: ·)
  | _ => none

/-- A slash has a parameter before it. -/
def readEntries? (entries : List ListEntry) : Option (List ParameterReading) :=
  if entries.head? = some .slash then none
  else if .slash ∈ entries then readPositional? entries
  else readNames? entries

def readParameterList? (text : List Char) : Option (List ParameterReading) :=
  if text = [] then some [] else ((outerEntries ',' text).mapM ListEntry.read?).bind readEntries?

def reading (parameter : ParameterOutline) : ParameterReading := (parameter.written, parameter.kind)

/-- What is read of a list: each parameter with its kind, and a parameter in front of positional ones as one of them. -/
def readings : List ParameterOutline → List ParameterReading
  | [] => []
  | parameter :: rest =>
    (parameter.written, if hasKind .positionalOnly rest then .positionalOnly else parameter.kind) :: rest.map reading

/-! ### Entries of a list -/

variable {parameters rest : List ParameterOutline} {parameter : ParameterOutline} {starred : Bool}

def entriesOf (starred : Bool) (parameters : List ParameterOutline) : List ListEntry :=
  (partsOf starred parameters).map ParameterPart.entry

theorem entriesOf_positionalOnly (named : parameter.name ≠ "") (kind : parameter.kind = .positionalOnly) :
    entriesOf starred (parameter :: rest) = .named 0 parameter.written ::
      ((if hasKind .positionalOnly rest then [] else [.slash]) ++ entriesOf starred rest) := by
  have entry := ListEntry.entry_ofParameter named
  rw [kind] at entry
  rw [entriesOf, partsOf_positionalOnly kind, List.map_cons, List.map_append, entry]
  cases hasKind .positionalOnly rest <;> rfl

theorem entriesOf_keywordOnly (named : parameter.name ≠ "") (kind : parameter.kind = .keywordOnly) :
    entriesOf starred (parameter :: rest) =
      (if starred then [] else [.star]) ++ .named 0 parameter.written :: entriesOf true rest := by
  have entry := ListEntry.entry_ofParameter named
  rw [kind] at entry
  rw [entriesOf, partsOf_keywordOnly kind, List.map_append, List.map_cons, entry]
  cases starred <;> rfl

theorem entriesOf_other (named : parameter.name ≠ "") (notPositionalOnly : parameter.kind ≠ .positionalOnly)
    (notKeywordOnly : parameter.kind ≠ .keywordOnly) : entriesOf starred (parameter :: rest) =
      .named parameter.kind.stars parameter.written :: entriesOf starred rest := by
  rw [entriesOf, partsOf_other notPositionalOnly notKeywordOnly, List.map_cons, ListEntry.entry_ofParameter named]
  rfl

theorem slash_mem_entriesOf (named : ∀ parameter ∈ parameters, parameter.name ≠ "") :
    .slash ∈ entriesOf starred parameters ↔ hasKind .positionalOnly parameters = true := by
  rw [← hasSlash_partsOf starred, hasSlash, List.any_eq_true, entriesOf, List.mem_map]
  refine exists_congr fun part => and_congr_right fun member => ?_
  rw [decide_eq_true_eq]
  rcases mem_partsOf member with rfl | rfl | ⟨parameter, given, rfl⟩
  · decide
  · decide
  · have noSlash : (ofParameter parameter).mark ≠ "/" := by
      change parameter.kind.mark ≠ "/"
      cases parameter.kind <;> decide
    simp [ListEntry.entry_ofParameter (named parameter given), noSlash]

/-! ### Reading entries -/

theorem hasKind_cons_of_ne {kind : ParameterKind} (other : parameter.kind ≠ kind) :
    hasKind kind (parameter :: rest) = hasKind kind rest := by
  simp [hasKind, other]

theorem eq_nil_of_varKeyword (kind : parameter.kind = .varKeyword)
    (first : ∀ later ∈ rest, parameter.kind.MayPrecede later.kind) : rest = [] := by
  cases rest with
  | nil => rfl
  | cons later rest =>
    have allowed := first later List.mem_cons_self
    rw [kind] at allowed
    cases other : later.kind <;> rw [other] at allowed <;> exact absurd allowed (by decide)

theorem positionalOnly_of_later (first : ∀ later ∈ rest, parameter.kind.MayPrecede later.kind)
    (positional : hasKind .positionalOnly rest = true) : parameter.kind = .positionalOnly := by
  by_contra other
  have never : ¬ parameter.kind.MayPrecede .positionalOnly := by
    cases kind : parameter.kind <;> first | exact absurd kind other | decide
  exact absurd positional (by simp [hasKind_eq_false first never])

section
variable (named : ∀ parameter ∈ parameters, parameter.name ≠ "")
  (ordered : parameters.Pairwise fun first second => first.kind.MayPrecede second.kind)
include named ordered

theorem readKeywords?_entriesOf
    (keywords : ∀ parameter ∈ parameters, parameter.kind = .keywordOnly ∨ parameter.kind = .varKeyword) :
    readKeywords? (entriesOf true parameters) = some (parameters.map reading) := by
  induction parameters with
  | nil => rfl
  | cons parameter rest ih =>
    obtain ⟨first, restOrdered⟩ := List.pairwise_cons.1 ordered
    have isNamed := named parameter List.mem_cons_self
    have later := ih (fun parameter member => named parameter (List.mem_cons_of_mem _ member)) restOrdered
      fun parameter member => keywords parameter (List.mem_cons_of_mem _ member)
    rcases keywords parameter List.mem_cons_self with kind | kind
    · rw [entriesOf_keywordOnly isNamed kind]
      simp [readKeywords?, later, reading, kind]
    · rw [eq_nil_of_varKeyword kind first, entriesOf_other isNamed (by simp [kind]) (by simp [kind]), kind]
      simp [entriesOf, partsOf, readKeywords?, reading, kind, ParameterKind.stars]

theorem readNames?_entriesOf (noPositional : hasKind .positionalOnly parameters = false) :
    readNames? (entriesOf (hasKind .varPositional parameters) parameters) = some (parameters.map reading) := by
  induction parameters with
  | nil => rfl
  | cons parameter rest ih =>
    obtain ⟨first, restOrdered⟩ := List.pairwise_cons.1 ordered
    have isNamed := named parameter List.mem_cons_self
    have restNamed := fun parameter member => named parameter (List.mem_cons_of_mem _ member)
    rw [hasKind, List.any_cons, Bool.or_eq_false_iff, ← hasKind] at noPositional
    have later := ih restNamed restOrdered noPositional.2
    cases kind : parameter.kind with
    | positionalOnly => simp [kind] at noPositional
    | positionalOrKeyword =>
      rw [hasKind_cons_of_ne (by simp [kind]), entriesOf_other isNamed (by simp [kind]) (by simp [kind]), kind]
      simp [readNames?, later, reading, kind, ParameterKind.stars]
    | varPositional =>
      rw [kind] at first
      have starred : hasKind .varPositional (parameter :: rest) = true := by simp [hasKind, kind]
      have keywords := readKeywords?_entriesOf restNamed restOrdered (onlyKeywords (by decide) first)
      rw [starred, entriesOf_other isNamed (by simp [kind]) (by simp [kind]), kind]
      simp [readNames?, keywords, reading, kind, ParameterKind.stars]
    | keywordOnly =>
      rw [kind] at first
      -- No parameter has a star of its own any more, so one is written that stands alone.
      have starless : hasKind .varPositional rest = false := hasKind_eq_false first (by decide)
      have keywords := readKeywords?_entriesOf restNamed restOrdered (onlyKeywords (by decide) first)
      rw [hasKind_cons_of_ne (by simp [kind]), starless, entriesOf_keywordOnly isNamed kind]
      simp [readNames?, keywords, reading, kind]
    | varKeyword =>
      rw [eq_nil_of_varKeyword kind first, entriesOf_other isNamed (by simp [kind]) (by simp [kind]), kind]
      simp [entriesOf, partsOf, readNames?, reading, kind, ParameterKind.stars]

theorem readPositional?_entriesOf (positional : hasKind .positionalOnly parameters = true) :
    readPositional? (entriesOf (hasKind .varPositional parameters) parameters) = some (parameters.map reading) := by
  induction parameters with
  | nil => cases positional
  | cons parameter rest ih =>
    obtain ⟨first, restOrdered⟩ := List.pairwise_cons.1 ordered
    have isNamed := named parameter List.mem_cons_self
    have restNamed := fun parameter member => named parameter (List.mem_cons_of_mem _ member)
    have kind : parameter.kind = .positionalOnly := by
      rw [hasKind, List.any_cons, ← hasKind, Bool.or_eq_true, decide_eq_true_eq] at positional
      exact positional.elim id (positionalOnly_of_later first)
    rw [hasKind_cons_of_ne (by simp [kind]), entriesOf_positionalOnly isNamed kind]
    cases later : hasKind .positionalOnly rest with
    | true => simp [readPositional?, ih restNamed restOrdered later, reading, kind]
    | false => simp [readPositional?, readNames?_entriesOf restNamed restOrdered later, reading, kind]

end

/-- The order that the language demands, or a receiver put in front of a list in that order. -/
def IsDeclaredOrder (parameters : List ParameterOutline) : Prop :=
  parameters.Pairwise (fun first second => first.kind.MayPrecede second.kind) ∨
    (∀ receiver ∈ parameters.head?, receiver.kind = .positionalOrKeyword) ∧
      parameters.tail.Pairwise fun first second => first.kind.MayPrecede second.kind

instance (parameters : List ParameterOutline) : Decidable (IsDeclaredOrder parameters) :=
  inferInstanceAs (Decidable (_ ∨ _))

theorem readings_of_ordered (ordered : parameters.Pairwise fun first second => first.kind.MayPrecede second.kind) :
    readings parameters = parameters.map reading := by
  cases parameters with
  | nil => rfl
  | cons parameter rest =>
    obtain ⟨first, -⟩ := List.pairwise_cons.1 ordered
    rw [readings, List.map_cons, reading]
    split
    · rename_i positional
      rw [positionalOnly_of_later first positional]
    · rfl

theorem head_entriesOf_ne_slash (named : ∀ parameter ∈ parameters, parameter.name ≠ "") :
    (entriesOf starred parameters).head? ≠ some .slash := by
  cases parameters with
  | nil => simp [entriesOf, partsOf]
  | cons parameter rest =>
    have isNamed := named parameter List.mem_cons_self
    by_cases positional : parameter.kind = .positionalOnly
    · simp [entriesOf_positionalOnly isNamed positional]
    by_cases keyword : parameter.kind = .keywordOnly
    · cases starred <;> simp [entriesOf_keywordOnly isNamed keyword]
    · simp [entriesOf_other isNamed positional keyword]

theorem readEntries?_entriesOf (named : ∀ parameter ∈ parameters, parameter.name ≠ "")
    (ordered : IsDeclaredOrder parameters) :
    readEntries? (entriesOf (hasKind .varPositional parameters) parameters) = some (readings parameters) := by
  rw [readEntries?, if_neg (head_entriesOf_ne_slash named)]
  simp only [slash_mem_entriesOf named]
  rcases ordered with ordered | ⟨receiver, ordered⟩
  · rw [readings_of_ordered ordered]
    cases positional : hasKind .positionalOnly parameters with
    | true => exact readPositional?_entriesOf named ordered positional
    | false => exact readNames?_entriesOf named ordered positional
  · cases parameters with
    | nil => rfl
    | cons parameter rest =>
      have kind : parameter.kind = .positionalOrKeyword := receiver parameter rfl
      have restNamed := fun parameter member => named parameter (List.mem_cons_of_mem _ member)
      rw [hasKind_cons_of_ne (by simp [kind]), hasKind_cons_of_ne (by simp [kind]),
        entriesOf_other (named parameter List.mem_cons_self) (by simp [kind]) (by simp [kind]), kind, readings]
      cases positional : hasKind .positionalOnly rest with
      | true =>
        simp [readPositional?, readPositional?_entriesOf restNamed ordered positional, ParameterKind.stars]
      | false =>
        simp [readNames?, readNames?_entriesOf restNamed ordered positional, ParameterKind.stars, kind]

/-! ### Reading the list -/

/-- Parameters with names, with types whose names cannot be taken for punctuation, and in the order that the language
demands, but for a receiver in front. -/
structure IsDeclared (parameters : List ParameterOutline) : Prop where
  names : ∀ parameter ∈ parameters, IsName parameter.name
  types : ∀ parameter ∈ parameters, ∀ type ∈ parameter.type, type.HasPlainNames
  ordered : IsDeclaredOrder parameters

structure IsReadable (part : ParameterPart) : Prop where
  enclosed : Enclosed ',' 0 part.form
  begins : ∃ c more, part.form = c :: more ∧ c ≠ ' '
  read : ListEntry.read? part.form = some part.entry

theorem isReadable_ofParameter (isName : IsName parameter.name) (types : ∀ type ∈ parameter.type, type.HasPlainNames)
    (unsigned : ∀ type ∈ parameter.type, type.IsUnsigned) : IsReadable (ofParameter parameter) := by
  have mark : ∀ c ∈ (ofParameter parameter).mark.toList, isMarkChar c = true := by
    simp only [ofParameter]
    cases parameter.kind <;> exact List.all_eq_true.1 rfl
  have filled : (ofParameter parameter).mark.toList ++ (ofParameter parameter).name.toList ≠ [] := by
    simp [ofParameter, isName.1]
  obtain ⟨c, more, begins, isPart⟩ := form_begins mark isName.2 filled
  refine ⟨enclosed_form _ mark isName.2 types, ⟨c, more, begins, ?_⟩,
    ListEntry.read?_ofParameter isName fun type given => ⟨types type given, unsigned type given⟩⟩
  rintro rfl
  rcases isPart with isPart | isPart <;> cases isPart

theorem IsDeclared.isReadable (declared : IsDeclared parameters)
    (unsigned : ∀ parameter ∈ parameters, ∀ type ∈ parameter.type, type.IsUnsigned) {part : ParameterPart}
    (member : part ∈ partsOf starred parameters) : IsReadable part := by
  rcases mem_partsOf member with rfl | rfl | ⟨parameter, given, rfl⟩
  · exact ⟨by decide, ⟨'*', [], by decide, by decide⟩, by decide⟩
  · exact ⟨by decide, ⟨'/', [], by decide, by decide⟩, by decide⟩
  · exact isReadable_ofParameter (declared.names parameter given) (declared.types parameter given)
      (unsigned parameter given)

theorem mapM_read?_form {parts : List ParameterPart} (readable : ∀ part ∈ parts, IsReadable part) :
    (parts.map form).mapM ListEntry.read? = some (parts.map ParameterPart.entry) := by
  induction parts with
  | nil => rfl
  | cons part parts ih =>
    have later := ih fun part member => readable part (List.mem_cons_of_mem _ member)
    simp [List.mapM_cons, (readable part List.mem_cons_self).read, later]

theorem outerEntries_separated {parts : List ParameterPart} (filled : parts ≠ [])
    (readable : ∀ part ∈ parts, IsReadable part) :
    outerEntries ',' (separated [',', ' '] form parts) = parts.map form := by
  refine outerEntries_intercalate (by decide) (by simpa using filled) ?_ ?_
  · intro text member
    obtain ⟨part, listed, rfl⟩ := List.mem_map.1 member
    exact (readable part listed).enclosed
  · intro text member
    obtain ⟨part, listed, rfl⟩ := List.mem_map.1 member
    obtain ⟨c, more, begins, notBlank⟩ := (readable part listed).begins
    simpa [begins] using notBlank

/-- Every parameter of a declared list is read back with its name, its type, its default and its kind, if no name in the
open has an equals sign. A receiver in front of positional parameters is read as one of them. -/
theorem readParameterList?_parameterList (declared : IsDeclared parameters)
    (unsigned : ∀ parameter ∈ parameters, ∀ type ∈ parameter.type, type.IsUnsigned) :
    readParameterList? (parameterList parameters).toList = some (readings parameters) := by
  have readable : ∀ part ∈ partsOf (hasKind .varPositional parameters) parameters, IsReadable part :=
    fun part => declared.isReadable unsigned
  have named : ∀ parameter ∈ parameters, parameter.name ≠ "" :=
    fun parameter member => (declared.names parameter member).1
  have entries := readEntries?_entriesOf named declared.ordered
  rw [toList_parameterList, readParameterList?]
  cases parts : partsOf (hasKind .varPositional parameters) parameters with
  | nil =>
    rw [entriesOf, parts] at entries
    exact entries
  | cons part later =>
    rw [entriesOf] at entries
    rw [parts] at entries readable
    have filled : separated [',', ' '] form (part :: later) ≠ [] := by
      obtain ⟨c, more, begins, -⟩ := (readable part List.mem_cons_self).begins
      obtain ⟨rest, same⟩ := @separated_cons _ form [',', ' '] part later
      simp [same, begins]
    rw [if_neg filled, outerEntries_separated (List.cons_ne_nil _ _) readable, mapM_read?_form readable]
    exact entries

def mixedParameters : List ParameterOutline :=
  [⟨"self", none, none, .positionalOrKeyword⟩,
    ⟨"frames", some (.subscript "dict" [.name "str", .name "time.Epoch"]), none, .positionalOnly⟩,
    ⟨"names", some (.tuple [.name "str", .name "str"]), some (.textTuple ["a, *", ")"]), .positionalOnly⟩,
    ⟨"scale", none, some (.bool true), .positionalOrKeyword⟩,
    ⟨"mode", some (.union [.name "str", .name "None"]), some (.text "\", /, x = ("), .keywordOnly⟩,
    ⟨"options", some (.name "typing.Any"), none, .varKeyword⟩]

theorem mixedParameters_read_back : IsDeclared mixedParameters ∧
    (∀ parameter ∈ mixedParameters, ∀ type ∈ parameter.type, type.IsUnsigned) ∧
    readParameterList? (parameterList mixedParameters).toList = some
      [(⟨"self", none, none⟩, .positionalOnly),
        (⟨"frames", some "dict[str, time.Epoch]", none⟩, .positionalOnly),
        (⟨"names", some "typing.Tuple[str, str]", some "(\"a, *\", \")\")"⟩, .positionalOnly),
        (⟨"scale", none, some "True"⟩, .positionalOrKeyword),
        (⟨"mode", some "str | None", some "\"\\\", /, x = (\""⟩, .keywordOnly),
        (⟨"options", some "typing.Any", none⟩, .varKeyword)] := by
  have declared : IsDeclared mixedParameters := ⟨by decide, by decide, by decide⟩
  have unsigned : ∀ parameter ∈ mixedParameters, ∀ type ∈ parameter.type, type.IsUnsigned := by decide
  refine ⟨declared, unsigned, (readParameterList?_parameterList declared unsigned).trans ?_⟩
  decide

def signedParameter : ParameterOutline := ⟨"x", some (.name "int = 1"), none, .positionalOrKeyword⟩

def valuedParameter : ParameterOutline := ⟨"x", some (.name "int"), some (.int 1), .positionalOrKeyword⟩

/-- A sign in the open is taken for the sign of a default: the two lists have one text, and no reader tells them apart. -/
theorem signed_name_is_lost : IsDeclared [signedParameter] ∧ IsDeclared [valuedParameter] ∧
    parameterList [signedParameter] = parameterList [valuedParameter] ∧
    readings [signedParameter] ≠ readings [valuedParameter] ∧
    readParameterList? (parameterList [signedParameter]).toList = some (readings [valuedParameter]) :=
  ⟨⟨by decide, by decide, by decide⟩, ⟨by decide, by decide, by decide⟩, by decide, by decide, by decide⟩

end TypedStub.Stub
