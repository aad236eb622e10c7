import Mathlib.Data.List.Basic
import TypedStub.Json

/-! JSON values that say the same.

The fields of an object may stand in any order. Numbers other than whole ones say the same if the same floating-point
number is nearest to them, however they are written. A field that stands once is found whatever the order.
-/

set_option autoImplicit false

namespace TypedStub.Json

mutual

/-- Values that differ at most in the order of fields and in how numbers are written. -/
inductive Same : Json → Json → Prop where
  | null : Same .null .null
  | bool (value : Bool) : Same (.bool value) (.bool value)
  | integer (value : Int) : Same (.integer value) (.integer value)
  | real {first second : Decimal} : Binary64.nearest first = Binary64.nearest second → Same (.real first) (.real second)
  | text (value : Option String) : Same (.text value) (.text value)
  | array {items others : List Json} : SameItems items others → Same (.array items) (.array others)
  | object {fields inOrder others : List (Option String × Json)} :
      SameFields fields inOrder → inOrder.Perm others → Same (.object fields) (.object others)

inductive SameItems : List Json → List Json → Prop where
  | nil : SameItems [] []
  | cons {item other : Json} {rest others : List Json} :
      Same item other → SameItems rest others → SameItems (item :: rest) (other :: others)

/-- Fields of the same names, one by one. -/
inductive SameFields : List (Option String × Json) → List (Option String × Json) → Prop where
  | nil : SameFields [] []
  | cons {name : Option String} {value other : Json} {rest others : List (Option String × Json)} :
      Same value other → SameFields rest others → SameFields ((name, value) :: rest) ((name, other) :: others)

end

mutual

theorem Same.refl : ∀ value : Json, Same value value
  | .null => .null
  | .bool value => .bool value
  | .integer value => .integer value
  | .real _ => .real rfl
  | .text value => .text value
  | .array items => .array (SameItems.refl items)
  | .object fields => .object (SameFields.refl fields) (.refl fields)

theorem SameItems.refl : ∀ items : List Json, SameItems items items
  | [] => .nil
  | item :: rest => .cons (Same.refl item) (SameItems.refl rest)

theorem SameFields.refl : ∀ fields : List (Option String × Json), SameFields fields fields
  | [] => .nil
  | (_, value) :: rest => .cons (Same.refl value) (SameFields.refl rest)

end

/-! ### Soundness and depth -/

section
variable {fields others : List (Option String × Json)}

theorem areSoundFields_of_perm (perm : fields.Perm others) : areSoundFields fields = areSoundFields others := by
  induction perm with
  | nil => rfl
  | cons field _ ih => simp only [areSoundFields, ih]
  | swap first second rest =>
    simp only [areSoundFields]
    ac_rfl
  | trans _ _ first second => exact first.trans second

theorem depthOfFields_of_perm (perm : fields.Perm others) : depthOfFields fields = depthOfFields others := by
  induction perm with
  | nil => rfl
  | cons field _ ih => simp only [depthOfFields, ih]
  | swap first second rest =>
    simp only [depthOfFields]
    omega
  | trans _ _ first second => exact first.trans second

end

mutual

theorem Same.sound_and_depth {value other : Json} (same : Same value other) :
    other.isSound = value.isSound ∧ other.depth = value.depth := by
  -- The recursion is on how the values are the same, through their items and fields.
  match same with
  | .null | .bool _ | .integer _ | .text _ => exact ⟨rfl, rfl⟩
  | .real nearest => exact ⟨by simp only [isSound, nearest], rfl⟩
  | .array items =>
    obtain ⟨sound, depth⟩ := items.sound_and_depth
    exact ⟨by simp only [isSound, sound], by simp only [Json.depth, depth]⟩
  | .object fields perm =>
    obtain ⟨sound, depth⟩ := fields.sound_and_depth
    exact ⟨by simp only [isSound, ← areSoundFields_of_perm perm, sound],
      by simp only [Json.depth, ← depthOfFields_of_perm perm, depth]⟩

theorem SameItems.sound_and_depth {items others : List Json} (same : SameItems items others) :
    areSoundItems others = areSoundItems items ∧ depthOfItems others = depthOfItems items := by
  match same with
  | .nil => exact ⟨rfl, rfl⟩
  | .cons first rest =>
    obtain ⟨sound, depth⟩ := first.sound_and_depth
    obtain ⟨soundRest, depthRest⟩ := rest.sound_and_depth
    exact ⟨by simp only [areSoundItems, sound, soundRest], by simp only [depthOfItems, depth, depthRest]⟩

theorem SameFields.sound_and_depth {fields others : List (Option String × Json)} (same : SameFields fields others) :
    areSoundFields others = areSoundFields fields ∧ depthOfFields others = depthOfFields fields := by
  match same with
  | .nil => exact ⟨rfl, rfl⟩
  | .cons first rest =>
    obtain ⟨sound, depth⟩ := first.sound_and_depth
    obtain ⟨soundRest, depthRest⟩ := rest.sound_and_depth
    exact ⟨by simp only [areSoundFields, sound, soundRest], by simp only [depthOfFields, depth, depthRest]⟩

end

/-! ### Fields -/

theorem SameFields.map_fst {fields others : List (Option String × Json)} (same : SameFields fields others) :
    others.map Prod.fst = fields.map Prod.fst := by
  match same with
  | .nil => rfl
  | .cons _ rest => rw [List.map_cons, List.map_cons, rest.map_fst]

theorem SameFields.filter {fields others : List (Option String × Json)} (same : SameFields fields others)
    (keep : Option String → Bool) :
    SameFields (fields.filter fun field => keep field.1) (others.filter fun field => keep field.1) := by
  match same with
  | .nil => exact .nil
  | @SameFields.cons name value other _ _ first rest =>
    have later := rest.filter keep
    cases kept : keep name with
    | true => simpa [kept] using SameFields.cons first later
    | false => simpa [kept] using later

/-- Fields that say the same in some order. -/
def Reordered (fields others : List (Option String × Json)) : Prop :=
  ∃ inOrder, SameFields fields inOrder ∧ inOrder.Perm others

section
variable {fields others : List (Option String × Json)} {name : String} {value other : Json}

theorem same_object_iff : Same (.object fields) value ↔ ∃ others, value = .object others ∧ Reordered fields others := by
  constructor
  · rintro ⟨⟩
    rename_i inOrder others perm same
    exact ⟨others, rfl, inOrder, same, perm⟩
  · rintro ⟨others, rfl, inOrder, same, perm⟩
    exact .object same perm

theorem Reordered.namesAreSound (same : Reordered fields others) : namesAreSound others = namesAreSound fields := by
  have names : ∀ fields : List (Option String × Json),
      Json.namesAreSound fields = (fields.map Prod.fst).all Option.isSome := by
    intro fields
    rw [Json.namesAreSound, List.all_map]
    rfl
  obtain ⟨inOrder, same, perm⟩ := same
  rw [names, names, ← same.map_fst]
  exact ((perm.map Prod.fst).all_eq).symm

theorem Reordered.filter (same : Reordered fields others) (name : String) :
    Reordered (fields.filter fun field => field.1 = some name) (others.filter fun field => field.1 = some name) := by
  obtain ⟨inOrder, same, perm⟩ := same
  exact ⟨_, same.filter fun other => decide (other = some name), perm.filter _⟩

theorem reordered_nil (same : Reordered [] others) : others = [] := by
  obtain ⟨_, ⟨⟩, perm⟩ := same
  exact (List.nil_perm.1 perm)

theorem reordered_singleton {name : Option String} (same : Reordered [(name, value)] others) :
    ∃ other, others = [(name, other)] ∧ Same value other := by
  obtain ⟨inOrder, same, perm⟩ := same
  match inOrder, same with
  | [_], .cons first .nil => exact ⟨_, (List.singleton_perm.1 perm).symm, first⟩

/-- A field that stands once in the one stands once in the other, and says the same there. -/
theorem Reordered.unique? (same : Reordered fields others) (found : unique? fields name = some (some value)) :
    ∃ other, Json.unique? others name = some (some other) ∧ Same value other := by
  have filtered := same.filter name
  unfold Json.unique? at found ⊢
  split at found
  · cases found
  · rename_i alone
    cases found
    rw [alone] at filtered
    obtain ⟨other, alone, said⟩ := reordered_singleton filtered
    rw [alone]
    exact ⟨other, rfl, said⟩
  · cases found

theorem Reordered.unique?_none (same : Reordered fields others) (absent : Json.unique? fields name = some none) :
    Json.unique? others name = some none := by
  have filtered := same.filter name
  unfold Json.unique? at absent ⊢
  split at absent
  · rename_i isEmpty
    rw [isEmpty] at filtered
    rw [reordered_nil filtered]
  · cases absent
  · cases absent

end

end TypedStub.Json
