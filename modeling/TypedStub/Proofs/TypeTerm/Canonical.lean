import TypedStub.Proofs.Name
import TypedStub.Proofs.TypeTerm.Derivation
import TypedStub.Proofs.TypeTerm.Scanning
import TypedStub.TypeTerm

/-! Canonical type terms: those that can be read from documentation, and those that are read back from
what they are printed as.

The two kinds of terms are the same. The lists of a canonical term have as many items as brackets, commas
and the word `or` can show, and its paths are such that no other token can be seen in them.
-/

set_option autoImplicit false

namespace TypedStub.TypeTerm

/-- A text that is read as one path, and as no other token. -/
structure IsWrittenPath (path : String) : Prop where
  filled : path ≠ ""
  characters : ∀ c ∈ path.toList, Token.isPathChar c = true
  segments : ¬ "" ∈ Dotted.segments path
  notOr : path ≠ "or"

theorem isWrittenPath_iff {path : String} : IsWrittenPath path ↔ path ≠ "" ∧
    (∀ c ∈ path.toList, Token.isPathChar c = true) ∧ Dotted.IsPath path ∧ path ≠ "or" :=
  ⟨fun written => ⟨written.filled, written.characters, written.segments, written.notOr⟩,
    fun ⟨filled, characters, segments, notOr⟩ => ⟨filled, characters, segments, notOr⟩⟩

instance (path : String) : Decidable (∀ c ∈ path.toList, Token.isPathChar c = true) := List.decidableBAll _ _

instance (path : String) : Decidable (IsWrittenPath path) := decidable_of_iff _ isWrittenPath_iff.symm

theorem isWrittenPath_ofList {chars : List Char} (characters : chars.all Token.isPathChar = true)
    (segments : ¬ [] ∈ chars.splitOn '.') (notOr : chars ≠ ['o', 'r']) : IsWrittenPath (String.ofList chars) where
  filled := by
    intro empty
    rw [String.ofList_injective (empty : String.ofList chars = String.ofList [])] at segments
    exact segments (by decide)
  characters := by rwa [String.toList_ofList, ← List.all_eq_true]
  segments := by
    rw [Dotted.segments, String.toList_ofList, List.mem_map]
    rintro ⟨piece, member, empty⟩
    exact segments (String.ofList_injective (empty : String.ofList piece = String.ofList []) ▸ member)
  notOr same := notOr (String.ofList_injective same)

mutual

/-- A term that can stand between two `or`. -/
inductive IsAlternative : TypeTerm → Prop where
  | ellipsis : IsAlternative (.name "...")
  | name {path : String} : IsWrittenPath path → IsAlternative (.name path)
  | subscript {base : String} {args : List TypeTerm} :
      IsWrittenPath base → args ≠ [] → (∀ arg ∈ args, IsGroup arg) → IsAlternative (.subscript base args)

/-- A term that can stand between two commas. -/
inductive IsGroup : TypeTerm → Prop where
  | single {type : TypeTerm} : IsAlternative type → IsGroup type
  | union {items : List TypeTerm} :
      2 ≤ items.length → (∀ item ∈ items, IsAlternative item) → IsGroup (.union items)

end

/-- A term that can stand by itself. Only here is a tuple possible. -/
inductive IsCanonical : TypeTerm → Prop where
  | single {type : TypeTerm} : IsGroup type → IsCanonical type
  | tuple {items : List TypeTerm} :
      2 ≤ items.length → (∀ item ∈ items, IsGroup item) → IsCanonical (.tuple items)

namespace Grammar

theorem isWrittenPath_of_isPath {token : Token} (scanned : token.Scanned) (isPath : IsPath token) :
    IsWrittenPath token.lexeme := by
  obtain ⟨characters, notOr⟩ := scanned isPath.1
  refine ⟨?_, characters, isPath.2, notOr⟩
  intro isEmpty
  have pieces : "" ∈ Dotted.segments "" := by decide
  exact isPath.2 (isEmpty ▸ pieces)

def AllScanned (tokens : List Token) : Prop := ∀ token ∈ tokens, token.Scanned

theorem AllScanned.left {first rest : List Token} (scanned : AllScanned (first ++ rest)) : AllScanned first :=
  fun token member => scanned token (List.mem_append_left _ member)

theorem AllScanned.right {first rest : List Token} (scanned : AllScanned (first ++ rest)) : AllScanned rest :=
  fun token member => scanned token (List.mem_append_right _ member)

theorem AllScanned.tail {token : Token} {rest : List Token} (scanned : AllScanned (token :: rest)) :
    AllScanned rest :=
  fun other member => scanned other (List.mem_cons_of_mem _ member)

mutual

theorem Alternative.isAlternative {tokens : List Token} {type : TypeTerm}
    (derived : Alternative tokens type) (scanned : AllScanned tokens) : IsAlternative type := by
  match derived with
  | .ellipsis _ _ => exact .ellipsis
  | .name isPath => exact .name (isWrittenPath_of_isPath (scanned _ List.mem_cons_self) isPath)
  | .subscript isPath _ groups filled _ =>
    have base := isWrittenPath_of_isPath (scanned _ List.mem_cons_self) isPath
    exact .subscript base filled (groups.isGroup scanned.tail.tail.left)

theorem Alternatives.isAlternative {tokens : List Token} {types : List TypeTerm}
    (derived : Alternatives tokens types) (scanned : AllScanned tokens) : ∀ type ∈ types, IsAlternative type := by
  match derived with
  | .last alternative => exact List.forall_mem_singleton.2 (alternative.isAlternative scanned)
  | .next alternative _ others =>
    have first := alternative.isAlternative scanned.left
    exact List.forall_mem_cons.2 ⟨first, others.isAlternative scanned.right.tail⟩

theorem Sequence.isGroup {tokens : List Token} {type : TypeTerm} (derived : Sequence tokens type)
    (scanned : AllScanned tokens) : IsGroup type := by
  match derived with
  | .single alternatives => exact .single (alternatives.isAlternative scanned type List.mem_cons_self)
  | .union alternatives => exact .union (by simp) (alternatives.isAlternative scanned)

theorem Groups.isGroup {tokens : List Token} {types : List TypeTerm} (derived : Groups tokens types)
    (scanned : AllScanned tokens) : ∀ type ∈ types, IsGroup type := by
  match derived with
  | .empty =>
    intro type member
    cases member
  | .last sequence => exact List.forall_mem_singleton.2 (sequence.isGroup scanned)
  | .skip _ groups => exact groups.isGroup scanned.tail
  | .next sequence _ groups =>
    have first := sequence.isGroup scanned.left
    exact List.forall_mem_cons.2 ⟨first, groups.isGroup scanned.right.tail⟩

end

theorem Whole.isCanonical {tokens : List Token} {type : TypeTerm} (derived : Whole tokens type)
    (scanned : AllScanned tokens) : IsCanonical type := by
  cases derived with
  | single groups _ => exact .single (groups.isGroup scanned.left type List.mem_cons_self)
  | tuple groups _ => exact .tuple (by simp) (groups.isGroup scanned.left)

end Grammar

theorem allScanned_scan (source : String) : Grammar.AllScanned (Token.scan source) := by
  intro token member
  rcases List.mem_append.1 member with member | member
  · exact Token.scanned_of_mem_scanFrom member
  · rw [List.mem_singleton.1 member]
    intro isPath
    cases isPath

theorem isCanonical_of_parse {source : String} {type : TypeTerm} (parsed : parse source = .ok type) :
    IsCanonical type :=
  (whole_of_parse parsed).isCanonical (allScanned_scan source)

/-! ### The paths of a type term

A path is the name of a type or the base of a subscript. The mark `...` names no type and is no path.
The paths of a term that is read are the paths among the tokens, in the same order.
-/

/-- Change a path, but not the mark that stands for anything. -/
def mapPath (f : String → String) (path : String) : String := if path = "..." then path else f path

def pathOf (name : String) : List String := if name = "..." then [] else [name]

mutual

def mapPaths (f : String → String) : TypeTerm → TypeTerm
  | .name path => .name (mapPath f path)
  | .subscript base args => .subscript (mapPath f base) (mapPathsAll f args)
  | .union items => .union (mapPathsAll f items)
  | .tuple items => .tuple (mapPathsAll f items)

def mapPathsAll (f : String → String) : List TypeTerm → List TypeTerm
  | [] => []
  | type :: rest => mapPaths f type :: mapPathsAll f rest

end

mutual

/-- The paths of a term from left to right. -/
def paths : TypeTerm → List String
  | .name path => pathOf path
  | .subscript base args => pathOf base ++ pathsAll args
  | .union items => pathsAll items
  | .tuple items => pathsAll items

def pathsAll : List TypeTerm → List String
  | [] => []
  | type :: rest => paths type ++ pathsAll rest

end

theorem mapPathsAll_eq_map (f : String → String) (types : List TypeTerm) :
    mapPathsAll f types = types.map (mapPaths f) := by
  induction types with
  | nil => rfl
  | cons type rest ih => simp only [mapPathsAll, ih, List.map_cons]

theorem mem_pathsAll {path : String} {types : List TypeTerm} :
    path ∈ pathsAll types ↔ ∃ type ∈ types, path ∈ type.paths := by
  induction types with
  | nil => simp [pathsAll]
  | cons type rest ih => simp only [pathsAll, List.mem_append, ih, List.exists_mem_cons_iff]

@[simp] theorem mapPaths_subscript (f : String → String) (base : String) (args : List TypeTerm) :
    mapPaths f (.subscript base args) = .subscript (mapPath f base) (args.map (mapPaths f)) := by
  rw [mapPaths, mapPathsAll_eq_map]

@[simp] theorem mapPaths_union (f : String → String) (items : List TypeTerm) :
    mapPaths f (.union items) = .union (items.map (mapPaths f)) := by
  rw [mapPaths, mapPathsAll_eq_map]

@[simp] theorem mapPaths_tuple (f : String → String) (items : List TypeTerm) :
    mapPaths f (.tuple items) = .tuple (items.map (mapPaths f)) := by
  rw [mapPaths, mapPathsAll_eq_map]

theorem mapPaths_ofAlternatives (f : String → String) (types : List TypeTerm) :
    mapPaths f (ofAlternatives types) = ofAlternatives (types.map (mapPaths f)) := by
  match types with
  | [] | [_] | _ :: _ :: _ => simp [ofAlternatives]

theorem mapPaths_ofGroups? (f : String → String) (types : List TypeTerm) :
    (ofGroups? types).map (mapPaths f) = ofGroups? (types.map (mapPaths f)) := by
  match types with
  | [] | [_] | _ :: _ :: _ => simp [ofGroups?]

-- The recursion is on the term, through its lists.
mutual

theorem paths_mapPaths (f : String → String) (type : TypeTerm) :
    (type.mapPaths f).paths = type.paths.flatMap fun path => pathOf (f path) := by
  have single : ∀ path, pathOf (mapPath f path) = (pathOf path).flatMap fun path => pathOf (f path) := by
    intro path
    unfold mapPath pathOf
    by_cases isMark : path = "..." <;> simp [isMark]
  cases type with
  | name path => exact single path
  | subscript base args => rw [mapPaths, paths, paths, List.flatMap_append, single base, pathsAll_mapPathsAll f args]
  | union items | tuple items => exact pathsAll_mapPathsAll f items

theorem pathsAll_mapPathsAll (f : String → String) (types : List TypeTerm) :
    pathsAll (mapPathsAll f types) = (pathsAll types).flatMap fun path => pathOf (f path) := by
  cases types with
  | nil => rfl
  | cons type rest =>
    rw [mapPathsAll, pathsAll, pathsAll, List.flatMap_append, paths_mapPaths f type, pathsAll_mapPathsAll f rest]

end

def Token.paths (token : Token) : List String :=
  if token.kind = .path then pathOf token.lexeme else []

namespace Token

theorem paths_of_path {token : Token} (isPath : token.kind = .path) : token.paths = pathOf token.lexeme :=
  if_pos isPath

theorem paths_of_other {token : Token} {kind : TokenKind} (is : token.kind = kind) (notPath : kind ≠ .path) :
    token.paths = [] :=
  if_neg (is ▸ notPath)

end Token

theorem pathsAll_of_ofGroups? {types : List TypeTerm} {type : TypeTerm} (made : ofGroups? types = some type) :
    pathsAll types = type.paths := by
  match types with
  | [] => cases made
  | [_] =>
    cases made
    exact List.append_nil _
  | _ :: _ :: _ =>
    cases made
    rfl

namespace Grammar

-- The recursion is on the derivation. Only a path token has a path, and it is the base of what it begins.
mutual

theorem Alternative.paths_eq {tokens : List Token} {type : TypeTerm} (derived : Alternative tokens type) :
    type.paths = tokens.flatMap Token.paths := by
  match derived with
  | .ellipsis isPath isEllipsis =>
    rw [List.flatMap_singleton, Token.paths_of_path isPath, isEllipsis]
    rfl
  | .name isPath =>
    rw [List.flatMap_singleton, Token.paths_of_path isPath.1]
    rfl
  | .subscript isPath opening groups _ closing =>
    have inside := groups.paths_eq
    rw [List.cons_append, List.flatMap_cons, List.cons_append, List.flatMap_cons, List.flatMap_append,
      List.flatMap_singleton, Token.paths_of_path isPath.1, Token.paths_of_other opening (by simp),
      Token.paths_of_other closing (by simp), ← inside, List.nil_append, List.append_nil]
    rfl

theorem Alternatives.paths_eq {tokens : List Token} {types : List TypeTerm}
    (derived : Alternatives tokens types) : pathsAll types = tokens.flatMap Token.paths := by
  match derived with
  | .last alternative =>
    rw [← alternative.paths_eq]
    exact List.append_nil _
  | .next alternative isOr others =>
    rw [List.flatMap_append, List.flatMap_cons, Token.paths_of_other isOr (by simp), ← alternative.paths_eq,
      ← others.paths_eq]
    rfl

theorem Sequence.paths_eq {tokens : List Token} {type : TypeTerm} (derived : Sequence tokens type) :
    type.paths = tokens.flatMap Token.paths := by
  match derived with
  | .single alternatives =>
    rw [← alternatives.paths_eq]
    exact (List.append_nil _).symm
  | .union alternatives => exact alternatives.paths_eq

theorem Groups.paths_eq {tokens : List Token} {types : List TypeTerm} (derived : Groups tokens types) :
    pathsAll types = tokens.flatMap Token.paths := by
  match derived with
  | .empty => rfl
  | .last sequence =>
    rw [← sequence.paths_eq]
    exact List.append_nil _
  | .skip isComma groups =>
    rw [List.flatMap_cons, Token.paths_of_other isComma (by simp), ← groups.paths_eq]
    rfl
  | .next sequence isComma groups =>
    rw [List.flatMap_append, List.flatMap_cons, Token.paths_of_other isComma (by simp), ← sequence.paths_eq,
      ← groups.paths_eq]
    rfl

end

/-- The paths of a type are those among its tokens. -/
theorem Whole.paths_eq {tokens : List Token} {stop : Token} {type : TypeTerm}
    (derived : Whole (tokens ++ [stop]) type) : type.paths = tokens.flatMap Token.paths := by
  obtain ⟨types, groups, made⟩ := derived.exists_groups
  rw [← groups.paths_eq, pathsAll_of_ofGroups? made]

end Grammar

/-! ### Paths of canonical terms -/

theorem eq_of_mem_pathOf {path name : String} (member : path ∈ pathOf name) : path = name := by
  unfold pathOf at member
  split at member
  · cases member
  · exact List.mem_singleton.1 member

-- The recursion is on how the term is canonical, through the lists of arguments and alternatives.
mutual

theorem IsAlternative.isWrittenPath {type : TypeTerm} (canonical : IsAlternative type) :
    ∀ path ∈ type.paths, IsWrittenPath path := by
  match canonical with
  | .ellipsis =>
    intro path member
    cases member
  | .name written =>
    intro path member
    exact eq_of_mem_pathOf member ▸ written
  | .subscript base _ args =>
    have inArgs := fun arg member => (args arg member).isWrittenPath
    intro path member
    rcases List.mem_append.1 member with member | member
    · exact eq_of_mem_pathOf member ▸ base
    · obtain ⟨arg, listed, member⟩ := mem_pathsAll.1 member
      exact inArgs arg listed path member

theorem IsGroup.isWrittenPath {type : TypeTerm} (canonical : IsGroup type) :
    ∀ path ∈ type.paths, IsWrittenPath path := by
  match canonical with
  | .single alternative => exact alternative.isWrittenPath
  | .union _ items =>
    have inItems := fun item member => (items item member).isWrittenPath
    intro path member
    obtain ⟨item, listed, member⟩ := mem_pathsAll.1 member
    exact inItems item listed path member

end

theorem IsCanonical.isWrittenPath {type : TypeTerm} (canonical : IsCanonical type) :
    ∀ path ∈ type.paths, IsWrittenPath path := by
  cases canonical with
  | single group => exact group.isWrittenPath
  | tuple _ items =>
    intro path member
    obtain ⟨item, listed, member⟩ := mem_pathsAll.1 member
    exact (items item listed).isWrittenPath path member

theorem IsWrittenPath.ne_ellipsis {path : String} (written : IsWrittenPath path) : path ≠ "..." := by
  rintro rfl
  exact absurd written (by decide)

theorem IsWrittenPath.pathOf_eq {path : String} (written : IsWrittenPath path) : pathOf path = [path] :=
  if_neg written.ne_ellipsis

theorem IsWrittenPath.mapPath_eq {path : String} (written : IsWrittenPath path) (f : String → String) :
    mapPath f path = f path :=
  if_neg written.ne_ellipsis

section
variable {f : String → String}

-- Which lists a term has does not depend on its paths, so the recursion is the one above.
mutual

theorem IsAlternative.mapPaths {type : TypeTerm} (canonical : IsAlternative type)
    (written : ∀ path ∈ type.paths, IsWrittenPath (f path)) : IsAlternative (type.mapPaths f) := by
  match canonical with
  | .ellipsis => exact .ellipsis
  | .name isPath =>
    have own := written _ (isPath.pathOf_eq ▸ List.mem_singleton_self _)
    rw [TypeTerm.mapPaths, isPath.mapPath_eq f]
    exact .name own
  | @IsAlternative.subscript base args isBase filled groups =>
    have own := written base (List.mem_append_left _ (isBase.pathOf_eq ▸ List.mem_singleton_self _))
    have inside : ∀ arg ∈ args, IsGroup (arg.mapPaths f) := fun arg listed => (groups arg listed).mapPaths
      fun path member => written path (List.mem_append_right _ (mem_pathsAll.2 ⟨arg, listed, member⟩))
    rw [mapPaths_subscript, isBase.mapPath_eq f]
    exact .subscript own (by simpa using filled) (List.forall_mem_map.2 inside)

theorem IsGroup.mapPaths {type : TypeTerm} (canonical : IsGroup type)
    (written : ∀ path ∈ type.paths, IsWrittenPath (f path)) : IsGroup (type.mapPaths f) := by
  match canonical with
  | .single alternative => exact .single (alternative.mapPaths written)
  | @IsGroup.union items several alternatives =>
    have inside : ∀ item ∈ items, IsAlternative (item.mapPaths f) := fun item listed =>
      (alternatives item listed).mapPaths fun path member => written path (mem_pathsAll.2 ⟨item, listed, member⟩)
    rw [mapPaths_union]
    exact .union (by simpa using several) (List.forall_mem_map.2 inside)

end

/-- A canonical term stays canonical when each path is replaced by another that can be written. -/
theorem IsCanonical.mapPaths {type : TypeTerm} (canonical : IsCanonical type)
    (written : ∀ path ∈ type.paths, IsWrittenPath (f path)) : IsCanonical (type.mapPaths f) := by
  cases canonical with
  | single group => exact .single (group.mapPaths written)
  | @tuple items several groups =>
    have inside : ∀ item ∈ items, IsGroup (item.mapPaths f) := fun item listed =>
      (groups item listed).mapPaths fun path member => written path (mem_pathsAll.2 ⟨item, listed, member⟩)
    rw [mapPaths_tuple]
    exact .tuple (by simpa using several) (List.forall_mem_map.2 inside)

end

/-- The paths that are read have no empty segment. -/
theorem isPath_of_parse {source path : String} {raw : TypeTerm} (parsed : parse source = .ok raw)
    (member : path ∈ raw.paths) : Dotted.IsPath path :=
  ((isCanonical_of_parse parsed).isWrittenPath path member).segments

end TypedStub.TypeTerm
