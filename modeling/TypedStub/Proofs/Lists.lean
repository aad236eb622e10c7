import Mathlib.Data.List.Basic
import Mathlib.Data.List.DropRight
import Mathlib.Data.List.Nodup

/-! Lists in general: cutting them at a separator, stripping their ends, mapping and counting their items.

The rest of the library cuts texts and walks over members with the functions on lists. What it needs to know of these
functions, and says nothing of a text or a member, stands here.
-/

set_option autoImplicit false

namespace TypedStub

/-! ### Cutting at a separator -/

section
variable {α : Type} [BEq α] [LawfulBEq α] {separator c : α} {text first last : List α} {rest : List (List α)}

theorem splitOn_cons_self (separator : α) (text : List α) :
    (separator :: text).splitOn separator = [] :: text.splitOn separator :=
  List.splitOn_append_cons_self [] text

theorem splitOn_cons_of_ne (different : c ≠ separator) (cut : text.splitOn separator = first :: rest) :
    (c :: text).splitOn separator = (c :: first) :: rest := by
  rw [List.splitOn_cons_eq_if_modifyHead, if_neg (by simpa using different), cut, List.modifyHead_cons]

theorem splitOn_append_left (absent : ¬ separator ∈ first) (cut : text.splitOn separator = last :: rest) :
    (first ++ text).splitOn separator = (first ++ last) :: rest := by
  induction first with
  | nil => exact cut
  | cons c first ih =>
    have different : c ≠ separator := fun same => absent (same ▸ List.mem_cons_self)
    exact splitOn_cons_of_ne different (ih fun member => absent (List.mem_cons_of_mem _ member))

theorem splitOn_append_right (absent : ¬ separator ∈ last) (text : List α) : ∃ earlier piece,
    text.splitOn separator = earlier ++ [piece] ∧ (text ++ last).splitOn separator = earlier ++ [piece ++ last] := by
  induction text with
  | nil => exact ⟨[], [], List.splitOn_nil separator, List.splitOn_eq_singleton absent⟩
  | cons c text ih =>
    obtain ⟨earlier, piece, found, foundLonger⟩ := ih
    by_cases same : c = separator
    · subst same
      exact ⟨[] :: earlier, piece, by rw [splitOn_cons_self, found, List.cons_append],
        by rw [List.cons_append, splitOn_cons_self, foundLonger, List.cons_append]⟩
    · -- The character goes to the first piece, which may also be the last one.
      cases earlier with
      | nil => exact ⟨[], c :: piece, splitOn_cons_of_ne same found, splitOn_cons_of_ne same foundLonger⟩
      | cons head earlier =>
        exact ⟨(c :: head) :: earlier, piece, splitOn_cons_of_ne same found, splitOn_cons_of_ne same foundLonger⟩

/-- The pieces of a text have all of its items but the separators. -/
theorem mem_splitOn : (∃ piece ∈ text.splitOn separator, c ∈ piece) ↔ c ≠ separator ∧ c ∈ text := by
  induction text with
  | nil => simp [List.splitOn_nil]
  | cons d text ih =>
    by_cases same : d = separator
    · subst same
      rw [splitOn_cons_self, List.exists_mem_cons_iff, ih, List.mem_cons]
      simp only [List.not_mem_nil, false_or]
      grind
    · obtain ⟨piece, later, cut⟩ := List.exists_cons_of_ne_nil (List.splitOn_ne_nil separator text)
      rw [cut, List.exists_mem_cons_iff] at ih
      rw [splitOn_cons_of_ne same cut, List.exists_mem_cons_iff, List.mem_cons, List.mem_cons, or_assoc, ih]
      have notSeparator : c = d → c ≠ separator := fun is => is ▸ same
      grind

theorem not_mem_of_mem_splitOn {piece : List α} (member : piece ∈ text.splitOn separator) : ¬ separator ∈ piece :=
  fun inside => (mem_splitOn.1 ⟨piece, member, inside⟩).1 rfl

end

section
variable {α : Type} {c : α} {first : List α}

theorem intercalate_concat {between : List α} {parts : List (List α)} (filled : parts ≠ []) (part : List α) :
    between.intercalate (parts ++ [part]) = between.intercalate parts ++ (between ++ part) := by
  induction parts with
  | nil => exact absurd rfl filled
  | cons head parts ih =>
    cases parts with
    | nil => simp [List.intercalate_cons_cons]
    | cons next parts =>
      rw [List.cons_append, List.cons_append, List.intercalate_cons_cons, ← List.cons_append,
        ih (List.cons_ne_nil _ _), List.intercalate_cons_cons]
      simp only [List.append_assoc]

theorem mem_intercalate {parts : List (List α)} (absent : ¬ c ∈ first) :
    c ∈ first.intercalate parts ↔ ∃ part ∈ parts, c ∈ part := by
  induction parts with
  | nil => simp
  | cons part parts ih =>
    cases parts with
    | nil => simp
    | cons next parts =>
      rw [List.intercalate_cons_cons, List.mem_append, List.mem_append, ih, List.exists_mem_cons_iff (a := part)]
      simp [absent]

end

/-! ### Both ends of a list -/

section
variable {α : Type} {outer : α → Bool} {items : List α}

theorem dropWhile_of_begins (begins : ∀ item ∈ items.head?, outer item = false) : items.dropWhile outer = items := by
  cases items with
  | nil => rfl
  | cons item others => exact List.dropWhile_cons_of_neg (by simp [begins item rfl])

theorem rdropWhile_of_ends (ends : ∀ item ∈ items.getLast?, outer item = false) : items.rdropWhile outer = items := by
  rw [List.rdropWhile, dropWhile_of_begins, List.reverse_reverse]
  rwa [List.head?_reverse]

theorem begins_dropWhile (outer : α → Bool) (items : List α) :
    ∀ item ∈ (items.dropWhile outer).head?, outer item = false := by
  intro item begins
  have kept := List.head?_dropWhile_not outer items
  rwa [show (items.dropWhile outer).head? = some item from begins] at kept

theorem not_mem_dropWhile {item : α} (outer : α → Bool) (absent : ¬ item ∈ items) : ¬ item ∈ items.dropWhile outer :=
  fun member => absent ((List.dropWhile_suffix outer).subset member)

/-- The items without those at both ends that belong outside. -/
def stripped (outer : α → Bool) (items : List α) : List α := (items.dropWhile outer).rdropWhile outer

/-- No item at an end belongs outside. -/
structure IsStripped (outer : α → Bool) (items : List α) : Prop where
  begins : ∀ item ∈ items.head?, outer item = false
  ends : ∀ item ∈ items.getLast?, outer item = false

instance (outer : α → Bool) (items : List α) : Decidable (IsStripped outer items) :=
  decidable_of_iff ((∀ item ∈ items.head?, outer item = false) ∧ ∀ item ∈ items.getLast?, outer item = false)
    ⟨fun both => ⟨both.1, both.2⟩, fun isStripped => ⟨isStripped.begins, isStripped.ends⟩⟩

theorem IsStripped.stripped_eq (isStripped : IsStripped outer items) : stripped outer items = items := by
  rw [stripped, dropWhile_of_begins isStripped.begins, rdropWhile_of_ends isStripped.ends]

theorem isStripped_stripped (outer : α → Bool) (items : List α) : IsStripped outer (stripped outer items) where
  begins := by
    intro item begins
    obtain ⟨later, parts⟩ := List.rdropWhile_prefix outer (items.dropWhile outer)
    refine begins_dropWhile outer items item ?_
    rw [← parts, List.head?_append, show (List.rdropWhile outer _).head? = some item from begins]
    rfl
  ends := by
    intro item ends
    rw [stripped, List.rdropWhile, List.getLast?_reverse] at ends
    exact begins_dropWhile outer _ item ends

theorem stripped_subset (outer : α → Bool) (items : List α) : stripped outer items ⊆ items :=
  fun _ member => (List.dropWhile_suffix outer).subset ((List.rdropWhile_prefix outer _).subset member)

end

/-! ### Mapping and counting -/

section
variable {α β γ : Type}

theorem mapM_eq_some_iff {f : α → Option β} {items : List α} {results : List β} :
    items.mapM f = some results ↔ (∀ item ∈ items, (f item).isSome = true) ∧ items.filterMap f = results := by
  induction items generalizing results with
  | nil => simp
  | cons item rest ih =>
    rw [List.mapM_cons, List.forall_mem_cons]
    cases first : f item with
    | none => simp
    | some result =>
      rw [List.filterMap_cons_some first]
      cases later : rest.mapM f with
      | none =>
        have failed := (@ih (rest.filterMap f)).not.1 (by simp [later])
        simp only [and_true] at failed
        simp [failed]
      | some others =>
        obtain ⟨all, rfl⟩ := ih.1 later
        simpa using fun _ => all

theorem exists_mapM_of_perm {f : α → Option β} {first second : List α} (perm : first.Perm second) {results : List β}
    (mapped : first.mapM f = some results) : ∃ others, second.mapM f = some others ∧ others.Perm results := by
  obtain ⟨all, rfl⟩ := mapM_eq_some_iff.1 mapped
  refine ⟨second.filterMap f, mapM_eq_some_iff.2 ⟨fun item member => all item (perm.mem_iff.2 member), rfl⟩, ?_⟩
  exact (perm.filterMap f).symm

theorem findSome?_flatMap {f : α → List β} {g : β → Option γ} {items : List α} :
    (items.flatMap f).findSome? g = items.findSome? fun item => (f item).findSome? g := by
  induction items with
  | nil => rfl
  | cons item rest ih =>
    rw [List.flatMap_cons, List.findSome?_append, ih, List.findSome?_cons]
    cases (f item).findSome? g <;> rfl

/-- Where no two items have one key, an item is found by its key. -/
theorem find?_eq_some_iff_of_nodup [DecidableEq β] {key : α → β} {items : List α} {value : β} {item : α}
    (distinct : (items.map key).Nodup) :
    (items.find? fun other => key other = value) = some item ↔ item ∈ items ∧ key item = value := by
  constructor
  · intro found
    exact ⟨List.mem_of_find?_eq_some found, by simpa using List.find?_some found⟩
  · rintro ⟨member, rfl⟩
    cases found : items.find? fun other => key other = key item with
    | none => simpa using List.find?_eq_none.1 found item member
    | some other =>
      have same : key other = key item := by simpa using List.find?_some found
      rw [List.inj_on_of_nodup_map distinct (List.mem_of_find?_eq_some found) member same]

theorem map_fst_zip_sublist (first : List α) (second : List β) : ((first.zip second).map Prod.fst).Sublist first := by
  induction first generalizing second with
  | nil => exact .slnil
  | cons item rest ih =>
    cases second with
    | nil => exact List.nil_sublist _
    | cons other later => exact (ih later).cons_cons item

/-- What is put together of entries of one list is put together of what the entries stand for. -/
theorem append_filter_of_map {make : α → β} (injective : Function.Injective make) {first second whole : List α}
    {keep : β → Bool} (entries : whole.map make = first.map make ++ (second.map make).filter keep) :
    whole = first ++ second.filter (keep ∘ make) := by
  apply injective.list_map
  rw [entries, List.map_append, List.filter_map]

theorem length_append_filter {first second : List α} {taken : α → Bool} :
    (first ++ second.filter fun item => !taken item).length + second.countP taken = first.length + second.length := by
  have parts := @List.length_eq_countP_add_countP _ taken second
  have kept : (second.filter fun item => !taken item).length = second.countP fun item => ¬ taken item = true := by
    rw [List.countP_eq_length_filter]
    simp
  rw [List.length_append, kept]
  omega

theorem length_filterMap_singleton (f : α → Option β) (item : α) :
    ([item].filterMap f).length = if f item = none then 0 else 1 := by
  rw [List.filterMap_cons]
  cases f item <;> rfl

end

end TypedStub
