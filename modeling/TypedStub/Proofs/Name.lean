import Mathlib.Data.List.Sort
import TypedStub.Name
import TypedStub.Proofs.Text.Runs

/-! Names: what is found in a map, when two sets are equal, and how a dotted name is cut.

A map may be made from a list, or cut down to some names. Two sets are equal if they have the same members.
-/

set_option autoImplicit false

namespace TypedStub

namespace NameMap

variable {α : Type}

theorem mem_of_find {name : String} {value : α} {entries : List (String × α)}
    (found : find name entries = some value) : (name, value) ∈ entries := by
  induction entries with
  | nil => cases found
  | cons head rest ih =>
    obtain ⟨key, other⟩ := head
    by_cases same : name = key
    · rw [find, if_pos same] at found
      cases found
      rw [same]
      exact List.mem_cons_self
    · rw [find, if_neg same] at found
      exact List.mem_cons_of_mem _ (ih found)

/-- Of several entries for a name, the last one is found. -/
theorem get?_ofList (entries : List (String × α)) (name : String) :
    (ofList entries).get? name = find name entries.reverse :=
  (get?_insertAll ∅ entries name).trans (by rw [get?_empty, Option.or_none])

theorem mem_of_get?_ofList {entries : List (String × α)} {name : String} {value : α}
    (found : (ofList entries).get? name = some value) : (name, value) ∈ entries :=
  List.mem_reverse.1 (mem_of_find ((get?_ofList entries name).symm.trans found))

theorem find_of_mem {entries : List (String × α)} {name : String} {value : α}
    (distinct : (entries.map Prod.fst).Nodup) (member : (name, value) ∈ entries) : find name entries = some value := by
  induction entries with
  | nil => cases member
  | cons head rest ih =>
    obtain ⟨fresh, later⟩ := List.nodup_cons.1 distinct
    rcases List.mem_cons.1 member with rfl | inside
    · rw [find, if_pos rfl]
    · have different : name ≠ head.1 := fun same => fresh (same ▸ List.mem_map_of_mem inside)
      obtain ⟨key, other⟩ := head
      rw [find, if_neg different, ih later inside]

/-- A map of entries with different names finds each of them. -/
theorem get?_ofList_eq_some_iff {entries : List (String × α)} {name : String} {value : α}
    (distinct : (entries.map Prod.fst).Nodup) : (ofList entries).get? name = some value ↔ (name, value) ∈ entries := by
  refine ⟨mem_of_get?_ofList, fun member => ?_⟩
  have reversed : (entries.reverse.map Prod.fst).Nodup := by rwa [List.map_reverse, List.nodup_reverse]
  exact (get?_ofList entries name).trans (find_of_mem reversed (List.mem_reverse.2 member))

theorem nodup_keys (map : NameMap α) : (map.entries.map Prod.fst).Nodup := by
  refine List.Pairwise.imp ?_ map.sorted
  rintro name _ below rfl
  exact String.lt_irrefl name below

theorem mem_entries_iff {map : NameMap α} {name : String} {value : α} :
    (name, value) ∈ map.entries ↔ map.get? name = some value :=
  ⟨find_of_mem map.nodup_keys, mem_of_find⟩

/-- A map is the map of its entries, in whatever order they are put in. -/
theorem ofList_of_perm {map : NameMap α} {entries : List (String × α)} (perm : entries.Perm map.entries) :
    ofList entries = map := by
  have distinct : (entries.map Prod.fst).Nodup := (perm.map Prod.fst).nodup_iff.2 map.nodup_keys
  have same : ∀ entry, entry ∈ (ofList entries).entries ↔ entry ∈ map.entries := by
    rintro ⟨name, value⟩
    rw [mem_entries_iff, get?_ofList_eq_some_iff distinct, perm.mem_iff]
  have listed : (ofList entries).entries = map.entries := by
    refine @List.Perm.eq_of_pairwise _ (fun first second => first.1 < second.1) _ _ ?_
      (List.pairwise_map.1 (ofList entries).sorted) (List.pairwise_map.1 map.sorted) ?_
    · intro first second _ _ below above
      exact absurd (String.lt_trans below above) (String.lt_irrefl _)
    · exact (List.perm_ext_iff_of_nodup (ofList entries).nodup_keys.of_map map.nodup_keys.of_map).2 same
  cases map
  cases made : ofList entries
  simp only [made] at listed
  simp only [listed]

/-- Of two maps put together, the one that is put in decides where both have the name. -/
theorem get?_insertAll_entries (map added : NameMap α) (name : String) :
    (map.insertAll added.entries).get? name = (added.get? name).or (map.get? name) := by
  have own := get?_ofList added.entries name
  rw [ofList_of_perm (List.Perm.refl _)] at own
  rw [get?_insertAll, own]

/-- The entries of a map for some names. -/
def restrict (map : NameMap α) (names : List String) : NameMap α where
  entries := map.entries.filter fun entry => entry.1 ∈ names
  sorted := map.sorted.sublist (List.filter_sublist.map Prod.fst)

theorem get?_restrict {map : NameMap α} {names : List String} {name : String} (listed : name ∈ names) :
    (map.restrict names).get? name = map.get? name := by
  have kept : ∀ entries : List (String × α),
      find name (entries.filter fun entry => entry.1 ∈ names) = find name entries := by
    intro entries
    induction entries with
    | nil => rfl
    | cons head rest ih =>
      by_cases same : name = head.1
      · simp [find, ← same, listed]
      · by_cases other : head.1 ∈ names <;> simp [find, same, other, ih]
  exact kept map.entries

end NameMap

theorem NameSet.ext_mem {first second : NameSet} (same : ∀ name, name ∈ first ↔ name ∈ second) :
    first = second := by
  have lists := first.sorted.eq_of_mem_iff second.sorted same
  cases first
  cases second
  exact (mk.injEq ..).mpr lists

/-! ### Cutting dotted names at their dots

Each cut of a name is told by how the name is put together: at the first dot, at the last dot, or after a
name and a dot. A segment is a text without a dot.
-/

namespace Dotted

def IsSegment (text : String) : Prop := ¬ '.' ∈ text.toList

instance (text : String) : Decidable (IsSegment text) := inferInstanceAs (Decidable (¬ _))

/-- A dotted name with no empty segment. -/
def IsPath (name : String) : Prop := ¬ "" ∈ segments name

instance (name : String) : Decidable (IsPath name) := inferInstanceAs (Decidable (¬ _))

section
variable {first rest parent last name container inner : String}

theorem toList_dotted (first rest : String) :
    (first ++ "." ++ rest).toList = first.toList ++ '.' :: rest.toList := by
  simp only [String.toList_append, List.append_assoc]
  rfl

theorem IsSegment.all_ne_dot (segment : IsSegment name) : ∀ c ∈ name.toList, (c != '.') = true := by
  intro c member
  have different : c ≠ '.' := fun same => segment (same ▸ member)
  simpa using different

theorem segments_of_isSegment (segment : IsSegment name) : segments name = [name] := by
  rw [segments, List.splitOn_eq_singleton segment, List.map_singleton, String.ofList_toList]

theorem segments_ne_nil (name : String) : segments name ≠ [] := by
  intro isEmpty
  exact List.splitOn_ne_nil _ _ (List.map_eq_nil_iff.1 isEmpty)

theorem segments_dotted (first rest : String) :
    segments (first ++ "." ++ rest) = segments first ++ segments rest := by
  rw [segments, toList_dotted, List.splitOn_append_cons_self, List.map_append]
  rfl

theorem isPath_dotted : IsPath (first ++ "." ++ rest) ↔ IsPath first ∧ IsPath rest := by
  simp only [IsPath, segments_dotted, List.mem_append, not_or]

theorem IsPath.ne_empty (path : IsPath name) : name ≠ "" := by
  rintro rfl
  have empty : "" ∈ segments "" := by decide
  exact path empty

theorem dotted_assoc (first second third : String) :
    first ++ "." ++ second ++ "." ++ third = first ++ "." ++ (second ++ "." ++ third) := by
  simp only [String.append_assoc]

theorem ne_dotted (name inner : String) : name ++ "." ++ inner ≠ name := by
  intro same
  have lengths := congrArg (fun text => text.toList.length) same
  simp only [toList_dotted, List.length_append, List.length_cons] at lengths
  omega

theorem not_isSegment_dotted (name inner : String) : ¬ IsSegment (name ++ "." ++ inner) := by
  intro segment
  apply segment
  rw [toList_dotted]
  exact List.mem_append_right _ List.mem_cons_self

/-! ### The first dot -/

theorem isSegment_head (name : String) : IsSegment (head name) := by
  intro member
  rw [head, String.toList_ofList] at member
  have kept := List.all_eq_true.1 (List.all_takeWhile (p := (· != '.'))) '.' member
  simp at kept

theorem head_of_isSegment (segment : IsSegment name) : head name = name := by
  have whole : name.toList.takeWhile (· != '.') = name.toList := by
    rw [← List.append_nil name.toList, List.takeWhile_append_of_pos segment.all_ne_dot]
    rfl
  rw [head, whole, String.ofList_toList]

theorem head_dotted (segment : IsSegment first) : head (first ++ "." ++ rest) = first := by
  rw [head, toList_dotted, List.takeWhile_append_of_pos segment.all_ne_dot]
  simp

theorem tail?_of_isSegment (segment : IsSegment name) : tail? name = none := by
  have nothing : name.toList.dropWhile (· != '.') = [] := by
    rw [← List.append_nil name.toList, List.dropWhile_append_of_pos segment.all_ne_dot]
    rfl
  simp only [tail?, nothing]

theorem tail?_dotted (segment : IsSegment first) : tail? (first ++ "." ++ rest) = some rest := by
  have later : (first ++ "." ++ rest).toList.dropWhile (· != '.') = '.' :: rest.toList := by
    rw [toList_dotted, List.dropWhile_append_of_pos segment.all_ne_dot]
    rfl
  simp only [tail?, later, String.ofList_toList]

theorem isSegment_or_dotted (name : String) :
    IsSegment name ∨ ∃ first rest, IsSegment first ∧ name = first ++ "." ++ rest := by
  by_cases dot : '.' ∈ name.toList
  · right
    obtain ⟨before, after, parts, absent⟩ := List.eq_append_cons_of_mem dot
    refine ⟨String.ofList before, String.ofList after, ?_, ?_⟩
    · rwa [IsSegment, String.toList_ofList]
    · rw [← String.toList_inj, toList_dotted, String.toList_ofList, String.toList_ofList, parts]
  · exact .inl dot

/-- The first segment of a name does not depend on what follows the name. -/
theorem head_dotted_head (name inner : String) : head (name ++ "." ++ inner) = head name := by
  rcases isSegment_or_dotted name with segment | ⟨first, rest, segment, rfl⟩
  · rw [head_dotted segment, head_of_isSegment segment]
  · rw [dotted_assoc, head_dotted segment, head_dotted segment]

theorem head_eq_or_dotted (name : String) : head name = name ∨ ∃ rest, name = head name ++ "." ++ rest := by
  rcases isSegment_or_dotted name with segment | ⟨first, rest, segment, rfl⟩
  · exact .inl (head_of_isSegment segment)
  · exact .inr ⟨rest, by rw [head_dotted segment]⟩

/-- What is inside a name is inside its first segment. -/
theorem exists_in_head (name inner : String) : ∃ rest, name ++ "." ++ inner = head name ++ "." ++ rest := by
  rcases head_eq_or_dotted name with alone | ⟨rest, parts⟩
  · exact ⟨inner, by rw [alone]⟩
  · exact ⟨rest ++ "." ++ inner, by rw [← dotted_assoc, ← parts]⟩

/-! ### The last dot -/

theorem splitLast?_of_isSegment (segment : IsSegment name) : splitLast? name = none := by
  have reversed : ∀ c ∈ name.toList.reverse, (c != '.') = true := fun c member =>
    segment.all_ne_dot c (List.mem_reverse.1 member)
  have nothing : name.toList.reverse.dropWhile (· != '.') = [] := by
    rw [← List.append_nil name.toList.reverse, List.dropWhile_append_of_pos reversed]
    rfl
  simp only [splitLast?, nothing]

theorem splitLast?_dotted (segment : IsSegment last) :
    splitLast? (parent ++ "." ++ last) = some (parent, last) := by
  have reversed : ∀ c ∈ last.toList.reverse, (c != '.') = true := fun c member =>
    segment.all_ne_dot c (List.mem_reverse.1 member)
  have parts : (parent ++ "." ++ last).toList.reverse =
      last.toList.reverse ++ '.' :: parent.toList.reverse := by
    rw [toList_dotted, List.reverse_append, List.reverse_cons, List.append_assoc, List.singleton_append]
  have before : (parent ++ "." ++ last).toList.reverse.dropWhile (· != '.') =
      '.' :: parent.toList.reverse := by
    rw [parts, List.dropWhile_append_of_pos reversed]
    rfl
  have after : (parent ++ "." ++ last).toList.reverse.takeWhile (· != '.') = last.toList.reverse := by
    rw [parts, List.takeWhile_append_of_pos reversed]
    simp
  simp only [splitLast?, before, after, List.reverse_reverse, String.ofList_toList]

theorem isSegment_or_dotted_last (name : String) :
    IsSegment name ∨ ∃ parent last, IsSegment last ∧ name = parent ++ "." ++ last := by
  by_cases dot : '.' ∈ name.toList.reverse
  · right
    obtain ⟨before, after, parts, absent⟩ := List.eq_append_cons_of_mem dot
    refine ⟨String.ofList after.reverse, String.ofList before.reverse, ?_, ?_⟩
    · rwa [IsSegment, String.toList_ofList, List.mem_reverse]
    · have whole := congrArg List.reverse parts
      rw [List.reverse_reverse] at whole
      rw [← String.toList_inj, toList_dotted, String.toList_ofList, String.toList_ofList, whole]
      simp
  · exact .inl fun member => dot (List.mem_reverse.2 member)

theorem splitLast?_eq_some_iff :
    splitLast? name = some (parent, last) ↔ name = parent ++ "." ++ last ∧ IsSegment last := by
  constructor
  · intro split
    rcases isSegment_or_dotted_last name with segment | ⟨before, after, segment, rfl⟩
    · cases (splitLast?_of_isSegment segment).symm.trans split
    · cases (splitLast?_dotted segment).symm.trans split
      exact ⟨rfl, segment⟩
  · rintro ⟨rfl, segment⟩
    exact splitLast?_dotted segment

/-! ### After a container -/

theorem after?_eq_some_iff : after? first name = some rest ↔ name = first ++ rest := by
  unfold after?
  constructor
  · intro found
    obtain ⟨later, parts, rfl⟩ := Option.map_eq_some_iff.1 found
    rw [List.isPrefixOf?_eq_some_iff_append_eq] at parts
    rw [← String.toList_inj, String.toList_append, String.toList_ofList, parts]
  · rintro rfl
    refine Option.map_eq_some_iff.2 ⟨rest.toList, ?_, String.ofList_toList⟩
    rw [List.isPrefixOf?_eq_some_iff_append_eq, String.toList_append]

theorem within?_eq_some_iff :
    within? container name = some inner ↔ name = container ++ "." ++ inner ∧ inner ≠ "" := by
  rw [← after?_eq_some_iff, within?]
  split
  · rename_i empty
    constructor
    · intro found
      cases found
    · rintro ⟨found, filled⟩
      cases empty.symm.trans found
      exact absurd rfl filled
  · rename_i different
    constructor
    · intro found
      exact ⟨found, fun isEmpty => different (isEmpty ▸ found)⟩
    · exact And.left

theorem within?_eq_none_iff :
    within? container name = none ↔ ∀ inner, name = container ++ "." ++ inner → inner = "" := by
  constructor
  · intro outside inner parts
    by_contra filled
    cases outside.symm.trans (within?_eq_some_iff.2 ⟨parts, filled⟩)
  · intro outside
    cases found : within? container name with
    | none => rfl
    | some inner =>
      obtain ⟨parts, filled⟩ := within?_eq_some_iff.1 found
      exact absurd (outside inner parts) filled

/-- If a name is outside a container, then so is what the name is inside of. -/
theorem ne_dotted_of_outside (outside : within? container (parent ++ "." ++ last) = none) (inner : String) :
    parent ≠ container ++ "." ++ inner := by
  rintro rfl
  have empty := within?_eq_none_iff.1 outside (inner ++ "." ++ last) (dotted_assoc _ _ _)
  have lengths := congrArg (fun text => text.toList.length) empty
  simp at lengths

end

end Dotted

end TypedStub
