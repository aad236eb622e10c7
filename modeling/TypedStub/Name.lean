import TypedStub.Text

/-! Names: finite maps and sets of them, and names with dots.

Maps and sets are kept in increasing order of the names. An entry put in for a name replaces the earlier one. Two maps
with the same `get?` are equal.
-/

set_option autoImplicit false

namespace TypedStub

/-- One value for each of finitely many names, listed in strictly increasing order of the names. -/
structure NameMap (α : Type) where
  entries : List (String × α)
  sorted : (entries.map Prod.fst).Pairwise (· < ·)
  deriving DecidableEq

namespace NameMap

variable {α : Type}

def empty : NameMap α := ⟨[], .nil⟩

instance : EmptyCollection (NameMap α) := ⟨empty⟩

instance : Inhabited (NameMap α) := ⟨∅⟩

def find (name : String) : List (String × α) → Option α
  | [] => none
  | (key, value) :: rest => if name = key then some value else find name rest

def get? (map : NameMap α) (name : String) : Option α := find name map.entries

/-- Put an entry into its place in an increasing list, replacing the one of the same name. -/
def place (name : String) (value : α) : List (String × α) → List (String × α)
  | [] => [(name, value)]
  | (key, old) :: rest =>
    if name < key then (name, value) :: (key, old) :: rest
    else if name = key then (name, value) :: rest
    else (key, old) :: place name value rest

theorem find_place {name other : String} {value : α} {entries : List (String × α)} :
    find other (place name value entries) = if other = name then some value else find other entries := by
  induction entries with
  | nil => simp [place, find]
  | cons head rest ih =>
    obtain ⟨key, old⟩ := head
    unfold place
    split
    · simp [find]
    · split
      · rename_i same
        subst same
        by_cases h : other = name <;> simp [find, h]
      · rename_i different
        by_cases h : other = name
        · subst h; simp [find, ih, different]
        · simp [find, ih, h]

theorem mem_keys_place {name other : String} {value : α} {entries : List (String × α)} :
    other ∈ (place name value entries).map Prod.fst ↔ other = name ∨ other ∈ entries.map Prod.fst := by
  induction entries with
  | nil => simp [place]
  | cons head rest ih =>
    obtain ⟨key, old⟩ := head
    unfold place
    split
    · simp
    · split
      · rename_i same; simp [same]
      · simp only [List.map_cons, List.mem_cons, ih]; exact or_left_comm

theorem pairwise_place {name : String} {value : α} {entries : List (String × α)}
    (sorted : (entries.map Prod.fst).Pairwise (· < ·)) :
    ((place name value entries).map Prod.fst).Pairwise (· < ·) := by
  induction entries with
  | nil => simp [place]
  | cons head rest ih =>
    obtain ⟨key, old⟩ := head
    have ⟨below, later⟩ := List.pairwise_cons.1 sorted
    unfold place
    split
    · rename_i before
      refine List.pairwise_cons.2 ⟨fun other member => ?_, sorted⟩
      rcases List.mem_cons.1 member with rfl | member
      · exact before
      · exact String.lt_trans before (below other member)
    · split
      · rename_i same
        exact List.pairwise_cons.2 ⟨fun other member => same ▸ below other member, later⟩
      · rename_i notBefore different
        refine List.pairwise_cons.2 ⟨fun other member => ?_, ih later⟩
        rcases mem_keys_place.1 member with rfl | member
        · -- The name is not before the key and not the key, so it comes later.
          rcases Std.lt_trichotomy other key with h | h | h
          · exact absurd h notBefore
          · exact absurd h different
          · exact h
        · exact below other member

def insert (map : NameMap α) (name : String) (value : α) : NameMap α :=
  ⟨place name value map.entries, pairwise_place map.sorted⟩

@[simp] theorem get?_empty (name : String) : (∅ : NameMap α).get? name = none := rfl

@[simp] theorem get?_insert (map : NameMap α) (name other : String) (value : α) :
    (map.insert name value).get? other = if other = name then some value else map.get? other := find_place

/-- Put in entries one after the other; of two for one name the last stays. -/
def insertAll (map : NameMap α) (added : List (String × α)) : NameMap α :=
  added.foldl (fun map entry => map.insert entry.1 entry.2) map

def ofList (entries : List (String × α)) : NameMap α := empty.insertAll entries

theorem get?_insertAll (map : NameMap α) (added : List (String × α)) (name : String) :
    (map.insertAll added).get? name = (find name added.reverse).or (map.get? name) := by
  have find_append : ∀ first second : List (String × α),
      find name (first ++ second) = (find name first).or (find name second) := by
    intro first second
    -- The first entry of a name is in the first list that has one.
    induction first with
    | nil => rfl
    | cons head rest ih =>
      by_cases h : name = head.1
      · simp [find, h]
      · simpa [find, h] using ih
  induction added generalizing map with
  | nil => rfl
  | cons head rest ih =>
    have step : map.insertAll (head :: rest) = (map.insert head.1 head.2).insertAll rest := rfl
    rw [step, ih, get?_insert, List.reverse_cons, find_append]
    by_cases h : name = head.1 <;> cases find name rest.reverse <;> simp [find, h]

end NameMap

/-! ### Finite sets of names, kept in increasing order

Two sets with the same members are equal, so the order in which names were put in leaves no trace.
-/

/-- A set of names, listed in strictly increasing order. -/
structure NameSet where
  toList : List String
  sorted : toList.Pairwise (· < ·)
  deriving DecidableEq

namespace NameSet

instance : Membership String NameSet where
  mem names name := name ∈ names.toList

instance (name : String) (names : NameSet) : Decidable (name ∈ names) :=
  inferInstanceAs (Decidable (name ∈ names.toList))

theorem mem_def {name : String} {names : NameSet} : name ∈ names ↔ name ∈ names.toList := Iff.rfl

theorem sorted_nil : ([] : List String).Pairwise (· < ·) := .nil

def empty : NameSet := ⟨[], sorted_nil⟩

instance : EmptyCollection NameSet := ⟨empty⟩

instance : Inhabited NameSet := ⟨∅⟩

@[simp] theorem toList_empty : (∅ : NameSet).toList = [] := rfl

@[simp] theorem not_mem_empty (name : String) : ¬ name ∈ (∅ : NameSet) := by simp [mem_def]

/-- Put a name into its place in an increasing list, unless it is there. -/
def place (name : String) : List String → List String
  | [] => [name]
  | head :: rest =>
    if name < head then name :: head :: rest
    else if name = head then head :: rest
    else head :: place name rest

theorem mem_place {name other : String} {names : List String} :
    other ∈ place name names ↔ other = name ∨ other ∈ names := by
  induction names with
  | nil => simp [place]
  | cons head rest ih =>
    unfold place
    split
    · simp
    · split
      · rename_i same; simp [same]
      · simp [ih, or_left_comm]

theorem pairwise_place {name : String} {names : List String} (sorted : names.Pairwise (· < ·)) :
    (place name names).Pairwise (· < ·) := by
  induction names with
  | nil => simp [place]
  | cons head rest ih =>
    have ⟨below, later⟩ := List.pairwise_cons.1 sorted
    unfold place
    split
    · rename_i before
      refine List.pairwise_cons.2 ⟨fun other member => ?_, sorted⟩
      rcases List.mem_cons.1 member with rfl | member
      · exact before
      · exact String.lt_trans before (below other member)
    · split
      · exact sorted
      · rename_i notBefore different
        refine List.pairwise_cons.2 ⟨fun other member => ?_, ih later⟩
        rcases mem_place.1 member with rfl | member
        · rcases Std.lt_trichotomy other head with h | h | h
          · exact absurd h notBefore
          · exact absurd h different
          · exact h
        · exact below other member

def insert (names : NameSet) (name : String) : NameSet :=
  ⟨place name names.toList, pairwise_place names.sorted⟩

@[simp] theorem mem_insert {names : NameSet} {name other : String} :
    other ∈ names.insert name ↔ other = name ∨ other ∈ names := mem_place

def insertAll (names : NameSet) (added : List String) : NameSet := added.foldl insert names

@[simp] theorem mem_insertAll {names : NameSet} {added : List String} {name : String} :
    name ∈ names.insertAll added ↔ name ∈ added ∨ name ∈ names := by
  induction added generalizing names with
  | nil => simp [insertAll]
  | cons head rest ih =>
    have step : names.insertAll (head :: rest) = (names.insert head).insertAll rest := rfl
    rw [step, ih, mem_insert, List.mem_cons]
    exact or_left_comm.trans or_assoc.symm

def ofList (names : List String) : NameSet := empty.insertAll names

@[simp] theorem mem_ofList {names : List String} {name : String} : name ∈ ofList names ↔ name ∈ names :=
  mem_insertAll.trans (or_iff_left (not_mem_empty name))

instance : Union NameSet where
  union first second := first.insertAll second.toList

@[simp] theorem mem_union {first second : NameSet} {name : String} :
    name ∈ first ∪ second ↔ name ∈ first ∨ name ∈ second :=
  mem_insertAll.trans or_comm

end NameSet

/-! ### Dotted names, such as the name of a module or of a type in it

A dotted name is kept as its text. The functions here cut it at dots: at the first one, at the last
one, or after a name that contains it.
-/

namespace Dotted

def segments (name : String) : List String := (name.toList.splitOn '.').map String.ofList

/-- The text before the first dot, or all of it. -/
def head (name : String) : String := String.ofList (name.toList.takeWhile (· != '.'))

def tail? (name : String) : Option String :=
  match name.toList.dropWhile (· != '.') with
  | [] => none
  | _ :: rest => some (String.ofList rest)

/-- The texts before and after the last dot. -/
def splitLast? (name : String) : Option (String × String) :=
  let reversed := name.toList.reverse
  match reversed.dropWhile (· != '.') with
  | [] => none
  | _ :: before =>
    some (String.ofList before.reverse, String.ofList (reversed.takeWhile (· != '.')).reverse)

/-- What a text has after a first part, if it starts with it. -/
def after? (first name : String) : Option String :=
  (first.toList.isPrefixOf? name.toList).map String.ofList

/-- The name of a thing as seen from inside `container`: what follows `container` and a dot. Nothing
lies inside by an empty name. -/
def within? (container name : String) : Option String :=
  match after? (container ++ ".") name with
  | some "" => none
  | inner => inner

end Dotted

end TypedStub
