import TypedStub.Proofs.Text.Runs
import TypedStub.TypeTerm

/-! Types in stubs are legible.

A bare tuple is written as a subscript, and that is the only way in which two types are written alike. A type is read
as its alternatives, and an alternative as a path with its arguments, if it has any.
-/

set_option autoImplicit false

namespace TypedStub.TypeTerm

open Text

mutual

/-- The type with every bare tuple replaced by the subscript that it is written as. -/
def withoutTuples : TypeTerm → TypeTerm
  | .name path => .name path
  | .subscript base args => .subscript base (withoutTuplesAll args)
  | .union items => .union (withoutTuplesAll items)
  | .tuple items => .subscript "typing.Tuple" (withoutTuplesAll items)

def withoutTuplesAll : List TypeTerm → List TypeTerm
  | [] => []
  | type :: rest => withoutTuples type :: withoutTuplesAll rest

end

theorem withoutTuplesAll_eq_map (types : List TypeTerm) : withoutTuplesAll types = types.map withoutTuples := by
  induction types with
  | nil => rfl
  | cons type rest ih => simp [withoutTuplesAll, ih]

def isUnion : TypeTerm → Bool
  | .union _ => true
  | _ => false

mutual

/-- Paths are paths, and a union has several items, none of them a union. -/
def IsWellFormed : TypeTerm → Prop
  | .name path => IsPath path
  | .subscript base args => IsPath base ∧ AllWellFormed args
  | .union items => 2 ≤ items.length ∧ items.any isUnion = false ∧ AllWellFormed items
  | .tuple items => AllWellFormed items

def AllWellFormed : List TypeTerm → Prop
  | [] => True
  | type :: rest => IsWellFormed type ∧ AllWellFormed rest

end

theorem allWellFormed_iff {types : List TypeTerm} : AllWellFormed types ↔ ∀ type ∈ types, IsWellFormed type := by
  induction types with
  | nil => simp [AllWellFormed]
  | cons type rest ih => simp [AllWellFormed, ih]

/-! ### Alternatives and arguments -/

def alternatives : TypeTerm → List TypeTerm
  | .union items => items
  | type => [type]

def headPath : TypeTerm → String
  | .name path => path
  | .subscript base _ => base
  | .tuple _ => "typing.Tuple"
  | .union _ => ""

def arguments? : TypeTerm → Option (List TypeTerm)
  | .subscript _ args => some args
  | .tuple items => some items
  | .name _ | .union _ => none

def form (type : TypeTerm) : List Char := type.stubForm.toList

def bar : List Char := [' ', '|', ' ']

def comma : List Char := [',', ' ']

theorem toList_stubForms (separator : String) (types : List TypeTerm) :
    (separator.intercalate (stubForms types)).toList = separated separator.toList form types := by
  rw [stubForms_eq_map, String.toList_intercalate, List.map_map]
  rfl

theorem form_eq_alternatives (type : TypeTerm) : form type = separated bar form type.alternatives := by
  cases type with
  | union items => rw [form, stubForm, toList_stubForms]; rfl
  | name _ | subscript _ _ | tuple _ => exact (separated_singleton _).symm

def argumentsForm : Option (List TypeTerm) → List Char
  | some args => '[' :: (separated comma form args ++ [']'])
  | none => []

theorem form_eq_headPath {type : TypeTerm} (single : type.isUnion = false) :
    form type = type.headPath.toList ++ argumentsForm type.arguments? := by
  cases type with
  | union items => cases single
  | name path => simp [form, stubForm, headPath, arguments?, argumentsForm]
  | subscript _ _ | tuple _ =>
    simp only [form, stubForm, String.toList_append, toList_stubForms, headPath, arguments?, argumentsForm]
    simp [comma]

section
variable {type other item : TypeTerm} {args : List TypeTerm}

theorem IsWellFormed.alternative (formed : type.IsWellFormed) (member : item ∈ type.alternatives) :
    item.IsWellFormed ∧ item.isUnion = false := by
  cases type with
  | union items =>
    obtain ⟨-, single, allFormed⟩ := formed
    exact ⟨allWellFormed_iff.1 allFormed item member, by simpa using List.any_eq_false.1 single item member⟩
  | name _ | subscript _ _ | tuple _ =>
    cases List.mem_singleton.1 member
    exact ⟨formed, rfl⟩

theorem IsWellFormed.alternatives_ne_nil (formed : type.IsWellFormed) : type.alternatives ≠ [] := by
  cases type with
  | union items =>
    rintro isEmpty
    rw [IsWellFormed, show items = [] from isEmpty] at formed
    exact absurd formed.1 (by decide)
  | name _ | subscript _ _ | tuple _ => exact List.cons_ne_nil _ _

theorem IsWellFormed.headPath (formed : type.IsWellFormed) (single : type.isUnion = false) :
    IsPath type.headPath := by
  cases type with
  | union _ => cases single
  | name _ => exact formed
  | subscript _ _ => exact formed.1
  | tuple _ => exact (by decide : IsPath "typing.Tuple")

theorem IsWellFormed.argument (formed : type.IsWellFormed) (applied : type.arguments? = some args) :
    ∀ arg ∈ args, arg.IsWellFormed := by
  cases type with
  | name _ | union _ => cases applied
  | subscript base args =>
    cases applied
    exact allWellFormed_iff.1 formed.2
  | tuple items =>
    cases applied
    exact allWellFormed_iff.1 formed

theorem sizeOf_argument (single : type.isUnion = false) (applied : type.arguments? = some args) {arg : TypeTerm}
    (member : arg ∈ args) : sizeOf arg < sizeOf type := by
  have := List.sizeOf_lt_of_mem member
  cases type with
  | name _ | union _ => cases applied
  | subscript _ _ | tuple _ =>
    cases applied
    simp
    omega

theorem sizeOf_alternative (member : item ∈ type.alternatives) : sizeOf item ≤ sizeOf type := by
  cases type with
  | union items =>
    have := List.sizeOf_lt_of_mem member
    simp only [alternatives] at this
    simp
    omega
  | name _ | subscript _ _ | tuple _ =>
    cases List.mem_singleton.1 member
    exact Nat.le_refl _

/-- The path and the arguments tell an alternative, up to the two ways to write a tuple. -/
theorem withoutTuples_eq_of_headPath (single : type.isUnion = false) (otherSingle : other.isUnion = false)
    (samePath : type.headPath = other.headPath)
    (sameArguments : type.arguments?.map (List.map withoutTuples) = other.arguments?.map (List.map withoutTuples)) :
    type.withoutTuples = other.withoutTuples := by
  cases type <;> cases other <;>
    simp_all [isUnion, headPath, arguments?, withoutTuples, withoutTuplesAll_eq_map]

theorem alternatives_of_single (single : type.isUnion = false) : type.alternatives = [type] := by
  cases type with
  | union _ => cases single
  | name _ | subscript _ _ | tuple _ => rfl

theorem IsWellFormed.two_le_alternatives (formed : type.IsWellFormed) (several : type.isUnion = true) :
    2 ≤ type.alternatives.length := by
  cases type with
  | union _ => exact formed.1
  | name _ | subscript _ _ | tuple _ => cases several

theorem withoutTuples_eq_of_alternatives (formed : type.IsWellFormed) (otherFormed : other.IsWellFormed)
    (same : type.alternatives.map withoutTuples = other.alternatives.map withoutTuples) :
    type.withoutTuples = other.withoutTuples := by
  have lengths := congrArg List.length same
  rw [List.length_map, List.length_map] at lengths
  cases single : type.isUnion <;> cases otherSingle : other.isUnion
  · rw [alternatives_of_single single, alternatives_of_single otherSingle] at same
    exact (List.cons.inj same).1
  · have several := otherFormed.two_le_alternatives otherSingle
    rw [← lengths, alternatives_of_single single] at several
    exact absurd several (by simp)
  · have several := formed.two_le_alternatives single
    rw [lengths, alternatives_of_single otherSingle] at several
    exact absurd several (by simp)
  · cases type with
    | name _ | subscript _ _ | tuple _ => cases single
    | union items =>
      cases other with
      | name _ | subscript _ _ | tuple _ => cases otherSingle
      | union others =>
        rw [withoutTuples, withoutTuples, withoutTuplesAll_eq_map, withoutTuplesAll_eq_map]
        exact congrArg TypeTerm.union same

theorem IsWellFormed.form_begins (formed : type.IsWellFormed) :
    ∃ c more, form type = c :: more ∧ isPathChar c = true := by
  obtain ⟨item, items, cut⟩ := List.exists_cons_of_ne_nil formed.alternatives_ne_nil
  have member : item ∈ type.alternatives := by simp [cut]
  obtain ⟨itemFormed, single⟩ := formed.alternative member
  obtain ⟨filled, chars⟩ := itemFormed.headPath single
  obtain ⟨c, more, path⟩ := List.exists_cons_of_ne_nil (mt String.toList_eq_nil_iff.1 filled)
  obtain ⟨rest, begins⟩ := @separated_cons TypeTerm form bar item items
  rw [form_eq_alternatives, cut, begins, form_eq_headPath single, path]
  exact ⟨c, _, rfl, chars c (by simp [path])⟩

end

/-! ### Reading -/

/-- An alternative ends before this text. -/
def EndsAlternative (text : List Char) : Prop := EndsRun (fun c => isPathChar c || c = '[') text

/-- A type ends before this text. -/
def EndsType (text : List Char) : Prop := EndsAlternative text ∧ ∀ rest, text ≠ bar ++ rest

theorem endsType_cons {c : Char} {rest : List Char} (outside : isPathChar c = false) (noBracket : c ≠ '[')
    (noBar : c ≠ ' ') : EndsType (c :: rest) := by
  refine ⟨endsRun_cons.2 (by simp [outside, noBracket]), fun later same => ?_⟩
  exact noBar (List.cons.inj same).1

theorem EndsAlternative.path {rest : List Char} (ends : EndsAlternative rest) (args : Option (List TypeTerm)) :
    EndsRun isPathChar (argumentsForm args ++ rest) := by
  cases args with
  | none =>
    intro c member
    have outside := ends c member
    rw [Bool.or_eq_false_iff] at outside
    exact outside.1
  | some args => exact endsRun_cons.2 (by decide)

theorem not_endsAlternative_argumentsForm (args : List TypeTerm) (rest : List Char) :
    ¬ EndsAlternative (argumentsForm (some args) ++ rest) := by
  intro ends
  have outside := ends '[' rfl
  cases outside

/-- An alternative is legible if its arguments are types that are. -/
theorem legible_alternative {type : TypeTerm} (formed : type.IsWellFormed) (single : type.isUnion = false)
    (arguments : ∀ args, type.arguments? = some args → ∀ arg ∈ args,
      Legible form IsWellFormed EndsType withoutTuples arg) :
    Legible form (fun other => other.IsWellFormed ∧ other.isUnion = false) EndsAlternative withoutTuples type := by
  intro other rest later ⟨otherFormed, otherSingle⟩ ends otherEnds same
  rw [form_eq_headPath single, form_eq_headPath otherSingle, List.append_assoc, List.append_assoc] at same
  obtain ⟨samePath, sameTail⟩ := legible_path (formed.headPath single) _ _ _ (otherFormed.headPath otherSingle)
    (ends.path _) (otherEnds.path _) same
  have alike := withoutTuples_eq_of_headPath single otherSingle samePath
  match applied : type.arguments?, otherApplied : other.arguments? with
  | none, none =>
    rw [applied, otherApplied] at sameTail alike
    exact ⟨alike rfl, sameTail⟩
  | none, some others =>
    rw [applied, otherApplied] at sameTail
    exact absurd (sameTail ▸ ends) (not_endsAlternative_argumentsForm others later)
  | some args, none =>
    rw [applied, otherApplied] at sameTail
    exact absurd (sameTail ▸ otherEnds) (not_endsAlternative_argumentsForm args rest)
  | some args, some others =>
    rw [applied, otherApplied] at sameTail alike
    have goesOn : ∀ rest, EndsType (comma ++ rest) :=
      fun rest => endsType_cons (by decide) (by decide) (by decide)
    have stops : ∀ rest, EndsType (']' :: rest) := fun rest => endsType_cons (by decide) (by decide) (by decide)
    -- No argument begins with the bracket that closes the list, so the two lists end together.
    have unmarked : ∀ arg : TypeTerm, arg.IsWellFormed → ∀ rest later, form arg ++ rest ≠ ']' :: later := by
      intro arg argFormed rest later closed
      obtain ⟨c, more, begins, isPath⟩ := argFormed.form_begins
      rw [begins] at closed
      cases closed
      cases isPath
    obtain ⟨sameArguments, sameRest⟩ := legible_closed goesOn stops (fun _ _ closed => by cases closed) unmarked
      (formed.argument applied) (arguments args applied) others rest later (otherFormed.argument otherApplied) trivial
      trivial (List.cons.inj sameTail).2
    exact ⟨alike (congrArg some sameArguments), sameRest⟩

/-- The text of a type tells it, up to the two ways to write a tuple. -/
theorem legible_form (type : TypeTerm) (formed : type.IsWellFormed) :
    Legible form IsWellFormed EndsType withoutTuples type := by
  intro other rest later otherFormed ends otherEnds same
  have items : ∀ item ∈ type.alternatives, Legible form
      (fun other => other.IsWellFormed ∧ other.isUnion = false) EndsAlternative withoutTuples item := by
    intro item member
    obtain ⟨itemFormed, single⟩ := formed.alternative member
    refine legible_alternative itemFormed single fun args applied arg argMember => ?_
    -- An argument is smaller than the alternative that has it, and that is no larger than the type.
    have := sizeOf_argument single applied argMember
    have := sizeOf_alternative member
    exact legible_form arg (itemFormed.argument applied arg argMember)
  rw [form_eq_alternatives, form_eq_alternatives] at same
  have goesOn : ∀ rest, EndsAlternative (bar ++ rest) := fun rest => endsRun_cons.2 (by decide)
  obtain ⟨sameItems, sameRest⟩ := @legible_separated _ _ _ _ _ _ _ EndsType goesOn (fun _ => And.left)
    (fun rest ends => ends.2 rest rfl) _ formed.alternatives_ne_nil items other.alternatives rest later
    ⟨otherFormed.alternatives_ne_nil, fun item member => otherFormed.alternative member⟩ ends otherEnds same
  exact ⟨withoutTuples_eq_of_alternatives formed otherFormed sameItems, sameRest⟩
  termination_by sizeOf type

end TypedStub.TypeTerm
