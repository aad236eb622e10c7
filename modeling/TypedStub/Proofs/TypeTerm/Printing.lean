import TypedStub.Proofs.Text.Quoted
import TypedStub.Proofs.TypeTerm.Canonical
import TypedStub.Proofs.TypeTerm.Legible

/-! Printing a canonical term and reading it back.

The tokens of a printed term are derived from the term, at each depth of brackets: between two parts of
a printed term stands a character that no path goes on into.
-/

set_option autoImplicit false

namespace TypedStub.TypeTerm

open Grammar

theorem scanFrom_comma (start : Nat) (first rest : List Char) : ∃ comma later, comma.kind = .comma ∧
    Token.scanFrom start (first ++ ',' :: ' ' :: rest) =
      Token.scanFrom start first ++ comma :: Token.scanFrom later rest := by
  refine ⟨Token.ofMark (start + Token.width first) ',',
    start + Token.width first + (',' : Char).utf8Size + (' ' : Char).utf8Size, rfl, ?_⟩
  rw [Token.scanFrom_append (Token.endsRun_cons _ (by decide)),
    Token.scanFrom_mark (by decide) (by decide), Token.scanFrom_gap (by decide)]

theorem scanFrom_or (start : Nat) (first rest : List Char) : ∃ word later, word.kind = .or ∧
    Token.scanFrom start (first ++ ' ' :: 'o' :: 'r' :: ' ' :: rest) =
      Token.scanFrom start first ++ word :: Token.scanFrom later rest := by
  let before := start + Token.width first + (' ' : Char).utf8Size
  refine ⟨Token.ofRun before ['o', 'r'], before + Token.width ['o', 'r'] + (' ' : Char).utf8Size, rfl, ?_⟩
  have word : Token.scanFrom before (['o', 'r'] ++ ' ' :: rest) = Token.ofRun before ['o', 'r'] ::
      Token.scanFrom (before + Token.width ['o', 'r']) (' ' :: rest) :=
    Token.scanFrom_run (by decide) (List.all_eq_true.1 (by decide)) (Token.endsRun_cons _ (by decide))
  rw [Token.scanFrom_append (Token.endsRun_cons _ (by decide)), Token.scanFrom_gap (by decide)]
  exact congrArg _ (word.trans (by rw [Token.scanFrom_gap (by decide)]))

theorem IsWrittenPath.isPath_ofRun {path : String} (written : IsWrittenPath path) (start : Nat) :
    IsPath (Token.ofRun start path.toList) := by
  have notWord : path.toList ≠ ['o', 'r'] := by
    intro same
    exact written.notOr (String.toList_inj.1 same)
  refine ⟨by simp [Token.ofRun, notWord], ?_⟩
  rw [Token.lexeme_ofRun]
  exact written.segments

theorem IsWrittenPath.scanFrom_append {path : String} (written : IsWrittenPath path) {rest : List Char}
    (ends : Token.EndsRun rest) (start : Nat) :
    Token.scanFrom start (path.toList ++ rest) = Token.ofRun start path.toList ::
      Token.scanFrom (start + Token.width path.toList) rest := by
  refine Token.scanFrom_run ?_ written.characters ends
  intro isEmpty
  exact written.filled (String.toList_eq_nil_iff.1 isEmpty)

theorem IsWrittenPath.derives {path : String} (written : IsWrittenPath path) (start : Nat) :
    Alternative (Token.scanFrom start path.toList) (.name path) := by
  have scanned := written.scanFrom_append Token.endsRun_nil start
  rw [List.append_nil, Token.scanFrom_nil] at scanned
  have same : TypeTerm.name path = .name (Token.ofRun start path.toList).lexeme := by
    rw [Token.lexeme_ofRun]
  rw [scanned, same]
  exact .name (written.isPath_ofRun start)

theorem IsWrittenPath.derives_subscript {path : String} (written : IsWrittenPath path) {inside : List Char}
    {args : List TypeTerm} (groups : ∀ start, Groups (Token.scanFrom start inside) args) (filled : args ≠ [])
    (start : Nat) :
    Alternative (Token.scanFrom start (path.toList ++ '[' :: (inside ++ [']']))) (.subscript path args) := by
  rw [written.scanFrom_append (Token.endsRun_cons _ (by decide)),
    Token.scanFrom_mark (by decide) (by decide), Token.scanFrom_append (Token.endsRun_cons _ (by decide)),
    Token.scanFrom_mark (by decide) (by decide), Token.scanFrom_nil]
  have same : TypeTerm.subscript path args = .subscript (Token.ofRun start path.toList).lexeme args := by
    rw [Token.lexeme_ofRun]
  rw [same]
  exact .subscript (written.isPath_ofRun start) rfl (groups _) filled rfl

theorem derives_ellipsis (start : Nat) :
    Alternative (Token.scanFrom start "...".toList) (.name "...") := by
  have scanned : Token.scanFrom start ("...".toList ++ []) = [Token.ofRun start "...".toList] := by
    rw [Token.scanFrom_run (by decide) (List.all_eq_true.1 (by decide)) Token.endsRun_nil, Token.scanFrom_nil]
  rw [List.append_nil] at scanned
  rw [scanned]
  exact .ellipsis rfl (Token.lexeme_ofRun _ _)

theorem derives_groups {types : List TypeTerm}
    (printed : ∀ type ∈ types, ∀ start, Sequence (Token.scanFrom start type.documentedForm.toList) type)
    (start : Nat) : Groups (Token.scanFrom start (", ".intercalate (documentedForms types)).toList) types := by
  induction types generalizing start with
  | nil =>
    have nothing : (", ".intercalate (documentedForms [])).toList = [] := rfl
    rw [nothing, Token.scanFrom_nil]
    exact .empty
  | cons type rest ih =>
    have ⟨first, others⟩ := List.forall_mem_cons.1 printed
    cases rest with
    | nil =>
      simp only [documentedForms, String.intercalate_singleton]
      exact .last (first start)
    | cons next rest =>
      -- The comma ends the run that the first group may end with.
      have parts : (", ".intercalate (documentedForms (type :: next :: rest))).toList =
          type.documentedForm.toList ++ ',' :: ' ' ::
            (", ".intercalate (documentedForms (next :: rest))).toList := by
        simp only [documentedForms, String.intercalate_cons_cons, String.toList_append, List.append_assoc]
        rfl
      obtain ⟨comma, later, isComma, scanned⟩ := scanFrom_comma start type.documentedForm.toList
        (", ".intercalate (documentedForms (next :: rest))).toList
      rw [parts, scanned]
      exact .next (first start) isComma (ih others later)

theorem derives_alternatives {types : List TypeTerm} (filled : types ≠ [])
    (printed : ∀ type ∈ types, ∀ start, Alternative (Token.scanFrom start type.documentedForm.toList) type)
    (start : Nat) :
    Alternatives (Token.scanFrom start (" or ".intercalate (documentedForms types)).toList) types := by
  induction types generalizing start with
  | nil => exact absurd rfl filled
  | cons type rest ih =>
    have ⟨first, others⟩ := List.forall_mem_cons.1 printed
    cases rest with
    | nil =>
      simp only [documentedForms, String.intercalate_singleton]
      exact .last (first start)
    | cons next rest =>
      -- Here it is the blank before the word that ends the run.
      have parts : (" or ".intercalate (documentedForms (type :: next :: rest))).toList =
          type.documentedForm.toList ++ ' ' :: 'o' :: 'r' :: ' ' ::
            (" or ".intercalate (documentedForms (next :: rest))).toList := by
        simp only [documentedForms, String.intercalate_cons_cons, String.toList_append, List.append_assoc]
        rfl
      obtain ⟨word, later, isOr, scanned⟩ := scanFrom_or start type.documentedForm.toList
        (" or ".intercalate (documentedForms (next :: rest))).toList
      rw [parts, scanned]
      exact .next (first start) isOr (ih (by simp) others later)

-- The recursion is on the term, at every offset: a part of a printed term begins where the parts before
-- it end.
mutual

theorem IsAlternative.derives {type : TypeTerm} (canonical : IsAlternative type) (start : Nat) :
    Alternative (Token.scanFrom start type.documentedForm.toList) type := by
  match canonical with
  | .ellipsis => exact derives_ellipsis start
  | .name written => exact written.derives start
  | @IsAlternative.subscript base args written filled groups =>
    have parts : (documentedForm (.subscript base args)).toList =
        base.toList ++ '[' :: ((", ".intercalate (documentedForms args)).toList ++ [']']) := by
      simp only [documentedForm, String.toList_append, List.append_assoc]
      rfl
    rw [parts]
    exact written.derives_subscript (derives_groups fun arg member => (groups arg member).derives) filled start

theorem IsGroup.derives {type : TypeTerm} (canonical : IsGroup type) (start : Nat) :
    Sequence (Token.scanFrom start type.documentedForm.toList) type := by
  match canonical with
  | .single alternative => exact .single (.last (alternative.derives start))
  | .union several alternatives =>
    have filled := List.ne_nil_of_length_pos (Nat.lt_of_lt_of_le Nat.zero_lt_two several)
    exact .ofSeveral (derives_alternatives filled (fun item member => (alternatives item member).derives) start)
      several

end

theorem IsCanonical.derives {type : TypeTerm} (canonical : IsCanonical type) :
    Whole (Token.scan type.documentedForm) type := by
  cases canonical with
  | single group => exact .single (.last (group.derives 0)) rfl
  | tuple several groups =>
    exact .ofSeveral (derives_groups (fun item member => (groups item member).derives) 0) several rfl

/-- Exactly the canonical terms are read back from their documented forms. -/
theorem parse_eq_self_iff {type : TypeTerm} : parse type.documentedForm = .ok type ↔ IsCanonical type :=
  ⟨isCanonical_of_parse, fun canonical => parse_of_whole canonical.derives⟩

/-- Each canonical term is read back from its documented form, and each term that is read from any text
is canonical. -/
theorem parse_documentedForm :
    (∀ type, IsCanonical type → parse type.documentedForm = .ok type) ∧
    (∀ source type, parse source = .ok type → IsCanonical type ∧ parse type.documentedForm = .ok type) := by
  have readBack : ∀ type, IsCanonical type → parse type.documentedForm = .ok type := by
    intro type canonical
    exact parse_of_whole canonical.derives
  refine ⟨readBack, ?_⟩
  intro source type parsed
  have canonical := (whole_of_parse parsed).isCanonical (allScanned_scan source)
  exact ⟨canonical, readBack type canonical⟩

/-! ### The two written forms of a type

Stubs have a bar where documentation has the word `or`, and a subscript where it has a bare tuple. But for these the two
forms of a type that was read are one text, so a type is also read back from what a stub has of it.
-/

open Text

/-! ### Bars as words -/

/-- The text with the word `or` for every bar between blanks. -/
def spellBars : List Char → List Char
  | ' ' :: '|' :: ' ' :: rest => ' ' :: 'o' :: 'r' :: ' ' :: spellBars rest
  | c :: rest => c :: spellBars rest
  | [] => []

def withWords (text : String) : String := String.ofList (spellBars text.toList)

/-- The type with the subscript that stubs have for a bare tuple. -/
def tupleNamed : TypeTerm → TypeTerm
  | .tuple items => .subscript "typing.Tuple" items
  | type => type

theorem stubForm_tupleNamed (type : TypeTerm) : type.tupleNamed.stubForm = type.stubForm := by
  cases type with
  | tuple items => rfl
  | name _ | subscript _ _ | union _ => rfl

def documented (type : TypeTerm) : List Char := type.documentedForm.toList

theorem toList_documentedForms (separator : String) (types : List TypeTerm) :
    (separator.intercalate (documentedForms types)).toList = separated separator.toList documented types := by
  rw [documentedForms_eq_map, String.toList_intercalate, List.map_map]
  rfl

section
variable {c : Char} {run rest : List Char}

theorem spellBars_other (noBar : ∀ later, c :: rest ≠ bar ++ later) : spellBars (c :: rest) = c :: spellBars rest := by
  rw [spellBars.eq_def]
  split
  · rename_i later same
    exact absurd same (noBar later)
  · rename_i same
    cases same
    rfl
  · rename_i impossible
    cases impossible

theorem spellBars_cons (notBlank : c ≠ ' ') : spellBars (c :: rest) = c :: spellBars rest :=
  spellBars_other fun _ same => notBlank (List.cons.inj same).1

theorem spellBars_blank (notBar : c ≠ '|') : spellBars (' ' :: c :: rest) = ' ' :: spellBars (c :: rest) :=
  spellBars_other fun _ same => notBar (List.cons.inj (List.cons.inj same).2).1

theorem spellBars_run (noBlank : ¬ ' ' ∈ run) : spellBars (run ++ rest) = run ++ spellBars rest := by
  induction run with
  | nil => rfl
  | cons c run ih =>
    have ⟨notBlank, others⟩ := not_or.1 (mt List.mem_cons.2 noBlank)
    rw [List.cons_append, spellBars_cons (Ne.symm notBlank), ih others]
    rfl

end

/-! ### One text but for the words -/

/-- The documented form is the form in stubs with words for the bars, whatever follows. The brackets in it are balanced
wherever it stands. -/
structure IsRespelled (type : TypeTerm) : Prop where
  begins : ∃ c more, form type = c :: more ∧ c ≠ '|'
  spelled : ∀ rest, spellBars (form type ++ rest) = documented type ++ spellBars rest
  balanced : ∀ closings, IsBalancedIn closings (form type)

/-- Lists are spelled alike if the separators are, before each of the items. -/
theorem spellBars_separated {between word : List Char} {types : List TypeTerm}
    (separators : ∀ type ∈ types, ∀ rest,
      spellBars (between ++ (form type ++ rest)) = word ++ spellBars (form type ++ rest))
    (items : ∀ type ∈ types, IsRespelled type) (rest : List Char) :
    spellBars (separated between form types ++ rest) = separated word documented types ++ spellBars rest := by
  induction types with
  | nil => rfl
  | cons type types ih =>
    have ⟨first, others⟩ := List.forall_mem_cons.1 items
    have ⟨_, otherSeparators⟩ := List.forall_mem_cons.1 separators
    cases types with
    | nil =>
      rw [separated_singleton, separated_singleton]
      exact first.spelled rest
    | cons next types =>
      obtain ⟨more, begins⟩ := @separated_cons TypeTerm form between next types
      have joined : spellBars (between ++ (separated between form (next :: types) ++ rest)) =
          word ++ spellBars (separated between form (next :: types) ++ rest) := by
        rw [begins, List.append_assoc]
        exact otherSeparators next List.mem_cons_self _
      simp only [separated_cons_cons, List.append_assoc]
      rw [first.spelled, joined, ih otherSeparators others]

theorem isRespelled_path {path : String} (filled : path ≠ "") (chars : ∀ c ∈ path.toList, Token.isPathChar c = true) :
    IsRespelled (.name path) := by
  have noComma : ¬ ',' ∈ path.toList := not_mem_run chars (by decide)
  have isFlat : IsFlat path.toList := isFlat_run chars (by decide)
  obtain ⟨c, more, begins⟩ := List.exists_cons_of_ne_nil (mt String.toList_eq_nil_iff.1 filled)
  refine ⟨⟨c, more, begins, ?_⟩, fun rest => spellBars_run (not_mem_run chars (by decide)),
    fun _ => .of_isFlat isFlat fun _ => noComma⟩
  rintro rfl
  exact not_mem_run chars (by decide) (begins ▸ List.mem_cons_self)

theorem isRespelled_subscript {base : String} {args : List TypeTerm} (isBase : IsRespelled (.name base))
    (items : ∀ arg ∈ args, IsRespelled arg) : IsRespelled (.subscript base args) := by
  have stub : form (.subscript base args) = form (.name base) ++ '[' :: (separated comma form args ++ [']']) := by
    simp only [form, stubForm, String.toList_append, toList_stubForms]
    simp [comma]
  have inDocs : documented (.subscript base args) =
      documented (.name base) ++ '[' :: (separated comma documented args ++ [']']) := by
    simp only [documented, documentedForm, String.toList_append, toList_documentedForms]
    simp [comma]
  -- No bar follows the blank of a comma.
  have commas : ∀ arg ∈ args, ∀ rest, spellBars (comma ++ (form arg ++ rest)) = comma ++ spellBars (form arg ++ rest) := by
    intro arg member rest
    obtain ⟨c, more, begins, notBar⟩ := (items arg member).begins
    rw [begins]
    calc spellBars (',' :: ' ' :: c :: (more ++ rest))
      _ = ',' :: spellBars (' ' :: c :: (more ++ rest)) := spellBars_cons (by decide)
      _ = ',' :: ' ' :: spellBars (c :: (more ++ rest)) := by rw [spellBars_blank notBar]
  refine ⟨?_, fun rest => ?_, fun closings => ?_⟩
  · obtain ⟨c, more, begins, notBar⟩ := isBase.begins
    exact ⟨c, _, by rw [stub, begins]; rfl, notBar⟩
  · have inside := spellBars_separated commas items (']' :: rest)
    rw [spellBars_cons (by decide)] at inside
    rw [stub, inDocs, List.append_assoc, isBase.spelled, List.append_assoc, List.cons_append, List.cons_append,
      spellBars_cons (by decide), List.append_assoc, List.append_assoc]
    simp only [List.cons_append, List.nil_append, inside]
  · have commaInside : IsBalancedIn (']' :: closings) comma := .of_isFlat (by decide) (by simp)
    rw [stub]
    exact (isBase.balanced closings).append (.bracketed (.separated commaInside fun arg member =>
      (items arg member).balanced _))

theorem isRespelled_union {items : List TypeTerm} (filled : items ≠ []) (each : ∀ item ∈ items, IsRespelled item) :
    IsRespelled (.union items) := by
  have stub : form (.union items) = separated bar form items := form_eq_alternatives _
  have inDocs : documented (.union items) = separated " or ".toList documented items := by
    rw [documented, documentedForm, toList_documentedForms]
  refine ⟨?_, fun rest => ?_, fun closings => ?_⟩
  · obtain ⟨first, others, rfl⟩ := List.exists_cons_of_ne_nil filled
    obtain ⟨c, more, begins, notBar⟩ := (each first List.mem_cons_self).begins
    obtain ⟨later, same⟩ := @separated_cons TypeTerm form bar first others
    exact ⟨c, more ++ later, by rw [stub, same, begins]; rfl, notBar⟩
  · rw [stub, inDocs]
    exact spellBars_separated (fun _ _ _ => rfl) each rest
  · rw [stub]
    have barInside : IsBalancedIn closings bar := .of_isFlat (by decide) fun _ => by decide
    exact .separated barInside fun item member => (each item member).balanced closings

theorem IsWrittenPath.isRespelled {path : String} (written : IsWrittenPath path) : IsRespelled (.name path) :=
  isRespelled_path written.filled written.characters

-- The recursion is on how the type is canonical, through its arguments and alternatives.
mutual

theorem IsAlternative.isRespelled {type : TypeTerm} (canonical : IsAlternative type) : IsRespelled type := by
  match canonical with
  | .ellipsis => exact isRespelled_path (by decide) (List.all_eq_true.1 (by decide))
  | .name written => exact written.isRespelled
  | .subscript written _ args =>
    exact isRespelled_subscript written.isRespelled fun arg member => (args arg member).isRespelled

theorem IsGroup.isRespelled {type : TypeTerm} (canonical : IsGroup type) : IsRespelled type := by
  match canonical with
  | .single alternative => exact alternative.isRespelled
  | .union several items =>
    have filled := List.ne_nil_of_length_pos (Nat.lt_of_lt_of_le Nat.zero_lt_two several)
    exact isRespelled_union filled fun item member => (items item member).isRespelled

end

/-- With the subscript for a bare tuple, a canonical type is a single group. -/
theorem IsCanonical.isGroup_tupleNamed {type : TypeTerm} (canonical : IsCanonical type) : IsGroup type.tupleNamed := by
  cases canonical with
  | single group =>
    cases type with
    | tuple items => exact nomatch group
    | name _ | subscript _ _ | union _ => exact group
  | @tuple items several groups =>
    have filled : items ≠ [] := List.ne_nil_of_length_pos (Nat.lt_of_lt_of_le Nat.zero_lt_two several)
    exact .single (.subscript (by decide : IsWrittenPath "typing.Tuple") filled groups)

theorem IsCanonical.withWords_stubForm {type : TypeTerm} (canonical : IsCanonical type) :
    withWords type.stubForm = type.tupleNamed.documentedForm := by
  have spelled := canonical.isGroup_tupleNamed.isRespelled.spelled []
  rw [List.append_nil, form, stubForm_tupleNamed] at spelled
  rw [withWords, spelled]
  simp [spellBars, documented]

theorem IsCanonical.parse_stubForm {type : TypeTerm} (canonical : IsCanonical type) :
    parse (withWords type.stubForm) = .ok type.tupleNamed := by
  rw [canonical.withWords_stubForm]
  exact parse_eq_self_iff.2 (.single canonical.isGroup_tupleNamed)

/-- A type that was read is read back from its form in a stub, up to the way to write a bare tuple. -/
theorem stubForm_respelled {source : String} {type : TypeTerm} (parsed : parse source = .ok type) :
    withWords type.stubForm = type.tupleNamed.documentedForm ∧
    parse (withWords type.stubForm) = .ok type.tupleNamed ∧
    (∀ otherSource other, parse otherSource = .ok other →
      (type.stubForm = other.stubForm ↔ type.tupleNamed = other.tupleNamed)) ∧
    IsBalanced type.stubForm.toList := by
  have canonical := isCanonical_of_parse parsed
  refine ⟨canonical.withWords_stubForm, canonical.parse_stubForm, fun otherSource other otherParsed => ?_, ?_⟩
  · constructor
    · intro same
      have read := canonical.parse_stubForm
      rw [same, (isCanonical_of_parse otherParsed).parse_stubForm] at read
      exact (Except.ok.inj read).symm
    · intro same
      rw [← stubForm_tupleNamed, same, stubForm_tupleNamed]
  · have balanced := canonical.isGroup_tupleNamed.isRespelled.balanced []
    rwa [form, stubForm_tupleNamed] at balanced

theorem tuple_respelled :
    parse "list[int or str], None" = .ok (.tuple
      [.subscript "list" [.union [.name "int", .name "str"]], .name "None"]) ∧
    withWords "typing.Tuple[list[int | str], None]" = "typing.Tuple[list[int or str], None]" ∧
    parse "typing.Tuple[list[int or str], None]" = .ok (.subscript "typing.Tuple"
      [.subscript "list" [.union [.name "int", .name "str"]], .name "None"]) ∧
    (TypeTerm.tuple [.subscript "list" [.union [.name "int", .name "str"]], .name "None"]).stubForm =
      (TypeTerm.subscript "typing.Tuple"
        [.subscript "list" [.union [.name "int", .name "str"]], .name "None"]).stubForm ∧
    IsBalanced "typing.Tuple[list[int | str], None]".toList := by
  have parsed : parse "list[int or str], None" = .ok (.tuple
      [.subscript "list" [.union [.name "int", .name "str"]], .name "None"]) := by with_unfolding_all rfl
  obtain ⟨words, read, alike, balanced⟩ := stubForm_respelled parsed
  rw [words] at read
  exact ⟨parsed, words, read, (alike _ _ read).2 rfl, balanced⟩

end TypedStub.TypeTerm
