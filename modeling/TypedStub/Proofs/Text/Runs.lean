import Mathlib.Data.List.TakeWhile
import TypedStub.Proofs.Lists
import TypedStub.Text

/-! Runs of characters, trimmed texts, and texts that tell what is written in them.

To trim a text is to strip it of the blanks at both ends. Trimmed lines that are put together are trimmed by leaving out
the empty lines at both ends.
-/

set_option autoImplicit false

namespace TypedStub.Text

/-! ### Blanks -/

section
variable {text first rest : List Char}

theorem trim_eq_stripped (text : List Char) : trim text = stripped isBlank text := rfl

theorem trimStart_of_begins (begins : ∀ c ∈ text.head?, isBlank c = false) : trimStart text = text :=
  dropWhile_of_begins begins

theorem trimEnd_append (ends : ∀ c ∈ first.getLast?, isBlank c = false) :
    trimEnd (first ++ rest) = first ++ trimEnd rest := by
  have kept : first.reverse.dropWhile isBlank = first.reverse := by
    refine dropWhile_of_begins ?_
    rwa [List.head?_reverse]
  unfold trimEnd
  rw [List.reverse_append, List.dropWhile_append, kept]
  split
  · rename_i empty
    rw [List.isEmpty_iff.1 empty]
    simp
  · simp

end

/-! ### Lines -/

section
variable {lines : List (List Char)}

theorem trimStart_intercalate (trimmed : ∀ line ∈ lines, IsStripped isBlank line) :
    trimStart (['\n'].intercalate lines) = ['\n'].intercalate (lines.dropWhile List.isEmpty) := by
  induction lines with
  | nil => rfl
  | cons line lines ih =>
    cases line with
    | nil =>
      rw [List.dropWhile_cons_of_pos rfl, ← ih fun line member => trimmed line (List.mem_cons_of_mem _ member)]
      cases lines with
      | nil => rfl
      | cons next lines => rw [List.intercalate_cons_cons]; rfl
    | cons c line =>
      rw [List.dropWhile_cons_of_neg (by simp)]
      refine trimStart_of_begins fun d begins => (trimmed _ List.mem_cons_self).begins d ?_
      cases lines with
      | nil => rwa [List.intercalate_singleton] at begins
      | cons next lines => rwa [List.intercalate_cons_cons] at begins

theorem trimEnd_intercalate (trimmed : ∀ line ∈ lines, IsStripped isBlank line) :
    trimEnd (['\n'].intercalate lines) = ['\n'].intercalate (lines.rdropWhile List.isEmpty) := by
  -- The induction takes lines off the end, where the trimming begins.
  induction lines using List.reverseRecOn with
  | nil => rfl
  | append_singleton lines line ih =>
    have earlier := ih fun line member => trimmed line (List.mem_append_left _ member)
    have own := (trimmed line (List.mem_append_right _ List.mem_cons_self)).ends
    by_cases empty : line = []
    · subst empty
      rw [List.rdropWhile_concat_pos _ _ _ rfl, ← earlier]
      by_cases filled : lines = []
      · rw [filled]
        rfl
      · rw [intercalate_concat filled]
        exact List.rdropWhile_concat_pos isBlank _ '\n' rfl
    · rw [List.rdropWhile_concat_neg _ _ _ (by simpa using empty)]
      refine rdropWhile_of_ends fun c last => own c ?_
      by_cases filled : lines = []
      · rwa [filled, List.nil_append, List.intercalate_singleton] at last
      · rwa [intercalate_concat filled, List.getLast?_append_of_ne_nil _ (by simp),
          List.getLast?_append_of_ne_nil _ empty] at last

theorem trim_intercalate (trimmed : ∀ line ∈ lines, IsStripped isBlank line) :
    trim (['\n'].intercalate lines) = ['\n'].intercalate (stripped List.isEmpty lines) := by
  rw [trim, trimStart_intercalate trimmed, stripped]
  exact trimEnd_intercalate fun line member => trimmed line ((List.dropWhile_suffix _).subset member)

end

/-! ### Texts that tell what is written in them

What is written of a value is followed by more text. It is legible if the value and the place where its text ends
can be told from the whole, given that the text after it begins as the rules of the form demand.
-/

/-- A run of characters ends before this text. -/
def EndsRun (inside : Char → Bool) (text : List Char) : Prop := ∀ c ∈ text.head?, inside c = false

section
variable {inside : Char → Bool} {run other rest later : List Char} {c : Char}

@[simp] theorem endsRun_nil : EndsRun inside [] := fun _ impossible => by cases impossible

@[simp] theorem endsRun_cons : EndsRun inside (c :: rest) ↔ inside c = false := by
  simp [EndsRun]

theorem not_mem_run (members : ∀ c ∈ run, inside c = true) (outside : inside c = false) : ¬ c ∈ run := by
  intro member
  exact absurd (members c member) (by simp [outside])

theorem takeWhile_run (members : ∀ c ∈ run, inside c = true) (ends : EndsRun inside rest) :
    (run ++ rest).takeWhile inside = run := by
  rw [List.takeWhile_append_of_pos members]
  cases rest with
  | nil => simp
  | cons c later => simp [endsRun_cons.1 ends]

theorem dropWhile_run (members : ∀ c ∈ run, inside c = true) (ends : EndsRun inside rest) :
    (run ++ rest).dropWhile inside = rest := by
  rw [List.dropWhile_append_of_pos members]
  cases rest with
  | nil => simp
  | cons c later => simp [endsRun_cons.1 ends]

theorem run_append_inj (members : ∀ c ∈ run, inside c = true) (otherMembers : ∀ c ∈ other, inside c = true)
    (ends : EndsRun inside rest) (otherEnds : EndsRun inside later) (same : run ++ rest = other ++ later) :
    run = other ∧ rest = later := by
  constructor
  · rw [← takeWhile_run members ends, same, takeWhile_run otherMembers otherEnds]
  · rw [← dropWhile_run members ends, same, dropWhile_run otherMembers otherEnds]

end

section
variable {α β : Type} {form : α → List Char} {valid : α → Prop} {ends : List Char → Prop} {key : α → β}
  {separator : List Char}

/-- What follows the writing of a value tells where it ends, and no two values are written alike unless they have the
same key. -/
def Legible (form : α → List Char) (valid : α → Prop) (ends : List Char → Prop) (key : α → β) (a : α) : Prop :=
  ∀ b rest later, valid b → ends rest → ends later → form a ++ rest = form b ++ later → key a = key b ∧ rest = later

def separated (separator : List Char) (form : α → List Char) (items : List α) : List Char :=
  separator.intercalate (items.map form)

@[simp] theorem separated_singleton (item : α) : separated separator form [item] = form item :=
  List.intercalate_singleton

@[simp] theorem separated_cons_cons (item next : α) (items : List α) :
    separated separator form (item :: next :: items) =
      form item ++ (separator ++ separated separator form (next :: items)) := by
  rw [separated, List.map_cons, List.map_cons, List.intercalate_cons_cons, List.append_assoc]
  rfl

/-- A list begins as its first value does. -/
theorem separated_cons (item : α) (items : List α) :
    ∃ rest, separated separator form (item :: items) = form item ++ rest := by
  cases items with
  | nil => exact ⟨[], by simp⟩
  | cons next items => exact ⟨_, separated_cons_cons item next items⟩

/-- A list is legible if its values are, and if its end cannot be taken for a separator. -/
theorem legible_separated {endsAll : List Char → Prop} (goesOn : ∀ rest, ends (separator ++ rest))
    (stops : ∀ rest, endsAll rest → ends rest) (apart : ∀ rest, ¬ endsAll (separator ++ rest)) {items : List α}
    (filled : items ≠ []) (legible : ∀ item ∈ items, Legible form valid ends key item) :
    Legible (separated separator form) (fun others => others ≠ [] ∧ ∀ other ∈ others, valid other) endsAll
      (List.map key) items := by
  intro others rest later ⟨otherFilled, otherValid⟩ restEnds laterEnds same
  induction items generalizing others with
  | nil => exact absurd rfl filled
  | cons item items ih =>
    obtain ⟨other, others, rfl⟩ := List.exists_cons_of_ne_nil otherFilled
    have first := legible item List.mem_cons_self other
    have isValid := otherValid other List.mem_cons_self
    match items, others with
    | [], [] =>
      simp only [separated_singleton] at same
      obtain ⟨sameKey, sameRest⟩ := first _ _ isValid (stops rest restEnds) (stops later laterEnds) same
      exact ⟨by simp [sameKey], sameRest⟩
    | [], next :: others =>
      simp only [separated_singleton, separated_cons_cons, List.append_assoc] at same
      obtain ⟨-, sameRest⟩ := first _ _ isValid (stops rest restEnds) (goesOn _) same
      exact absurd (sameRest ▸ restEnds) (apart _)
    | next :: items, [] =>
      simp only [separated_singleton, separated_cons_cons, List.append_assoc] at same
      obtain ⟨-, sameRest⟩ := first _ _ isValid (goesOn _) (stops later laterEnds) same
      exact absurd (sameRest ▸ laterEnds) (apart _)
    | next :: items, otherNext :: others =>
      simp only [separated_cons_cons, List.append_assoc] at same
      obtain ⟨sameKey, sameRest⟩ := first _ _ isValid (goesOn _) (goesOn _) same
      obtain ⟨sameKeys, sameEnd⟩ := ih (List.cons_ne_nil _ _)
        (fun item member => legible item (List.mem_cons_of_mem _ member)) (otherNext :: others)
        (List.cons_ne_nil _ _) (fun other member => otherValid other (List.mem_cons_of_mem _ member))
        (List.append_cancel_left sameRest)
      exact ⟨List.cons_eq_cons.2 ⟨sameKey, sameKeys⟩, sameEnd⟩

/-- A list that may be empty is legible up to a mark that closes it and that no value begins with. -/
theorem legible_closed {mark : Char} (goesOn : ∀ rest, ends (separator ++ rest))
    (stops : ∀ rest, ends (mark :: rest)) (apart : ∀ rest later, separator ++ rest ≠ mark :: later)
    (unmarked : ∀ item, valid item → ∀ rest later, form item ++ rest ≠ mark :: later) {items : List α}
    (validItems : ∀ item ∈ items, valid item) (legible : ∀ item ∈ items, Legible form valid ends key item) :
    Legible (fun items => separated separator form items ++ [mark]) (fun others => ∀ other ∈ others, valid other)
      (fun _ => True) (List.map key) items := by
  -- A list with values in it does not begin with the mark.
  have begins : ∀ (items : List α) (rest later : List Char), items ≠ [] → (∀ item ∈ items, valid item) →
      separated separator form items ++ rest ≠ mark :: later := by
    intro items rest later filled isValid
    obtain ⟨item, items, rfl⟩ := List.exists_cons_of_ne_nil filled
    obtain ⟨more, begins⟩ := @separated_cons α form separator item items
    rw [begins, List.append_assoc]
    exact unmarked item (isValid item List.mem_cons_self) _ _
  intro others rest later otherValid _ _ same
  simp only [List.append_assoc, List.singleton_append] at same
  match items, others with
  | [], [] => exact ⟨rfl, (List.cons.inj same).2⟩
  | [], other :: others => exact absurd same.symm (begins _ _ _ (List.cons_ne_nil _ _) otherValid)
  | item :: items, [] => exact absurd same (begins _ _ _ (List.cons_ne_nil _ _) validItems)
  | item :: items, other :: others =>
    have endsAll : ∀ rest : List Char, rest.head? = some mark → ends rest := by
      intro rest head
      obtain ⟨rest, rfl⟩ := List.head?_eq_some_iff.1 head
      exact stops rest
    have notEnd : ∀ rest, ¬ (separator ++ rest).head? = some mark := by
      intro rest head
      obtain ⟨later, same⟩ := List.head?_eq_some_iff.1 head
      exact apart rest later same
    obtain ⟨sameKeys, sameRest⟩ := legible_separated goesOn endsAll notEnd (List.cons_ne_nil _ _) legible _ _ _
      ⟨List.cons_ne_nil _ _, otherValid⟩ rfl rfl same
    exact ⟨sameKeys, (List.cons.inj sameRest).2⟩

end

/-! ### Names and dotted paths -/

/-- The characters of names. Every identifier consists of them. -/
def isNameChar (c : Char) : Bool := c.isAlphanum || c = '_' || 0x80 ≤ c.toNat

def isPathChar (c : Char) : Bool := isNameChar c || c = '.'

def IsName (name : String) : Prop := name ≠ "" ∧ ∀ c ∈ name.toList, isNameChar c = true

def IsPath (path : String) : Prop := path ≠ "" ∧ ∀ c ∈ path.toList, isPathChar c = true

instance (name : String) : Decidable (IsName name) :=
  @instDecidableAnd _ _ _ (List.decidableBAll _ _)

instance (path : String) : Decidable (IsPath path) :=
  @instDecidableAnd _ _ _ (List.decidableBAll _ _)

theorem legible_name {name : String} (isName : IsName name) :
    Legible String.toList IsName (EndsRun isNameChar) id name := by
  intro other rest later otherName ends otherEnds same
  obtain ⟨sameName, sameRest⟩ := run_append_inj isName.2 otherName.2 ends otherEnds same
  exact ⟨String.toList_injective sameName, sameRest⟩

theorem legible_path {path : String} (isPath : IsPath path) :
    Legible String.toList IsPath (EndsRun isPathChar) id path := by
  intro other rest later otherPath ends otherEnds same
  obtain ⟨samePath, sameRest⟩ := run_append_inj isPath.2 otherPath.2 ends otherEnds same
  exact ⟨String.toList_injective samePath, sameRest⟩

end TypedStub.Text
