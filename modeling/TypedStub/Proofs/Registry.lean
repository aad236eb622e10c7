import Mathlib
import TypedStub.Proofs.Json.Spelled
import TypedStub.Proofs.Module
import TypedStub.Registry

/-! Registries give back what they store.

All that a member contains has to be sound before the member is taken apart. What is encoded is, unless a floating-point
number in it has no digits.
-/

set_option autoImplicit false

namespace TypedStub

theorem isSound_ofFields (fields : List (String × Json)) :
    (Json.ofFields fields).isSound = fields.all fun field => field.2.isSound := by
  simp only [Json.ofFields, Json.isSound]
  induction fields with
  | nil => rfl
  | cons field rest ih => simp only [List.map_cons, Json.areSoundFields, ih, List.all_cons, Option.isSome_some, Bool.true_and]

theorem isSound_array (items : List Json) : (Json.array items).isSound = items.all Json.isSound := by
  simp only [Json.isSound]
  induction items with
  | nil => rfl
  | cons item rest ih => simp only [Json.areSoundItems, ih, List.all_cons]

theorem isSound_ofOption {α : Type} {encode : α → Json} {option : Option α}
    (sound : ∀ value ∈ option, (encode value).isSound = true) : (Json.ofOption encode option).isSound = true := by
  cases option with
  | none => rfl
  | some value => exact sound value rfl

theorem isSound_optionalText (option : Option String) : (Json.ofOption .ofText option).isSound = true :=
  isSound_ofOption fun _ _ => rfl

theorem Binary64.isSound_toJson {value : Binary64} (finite : value.isFinite = true) (normal : value.IsNormal) :
    value.toJson.isSound = true := by
  cases value with
  | nan | infinite _ => cases finite
  | finite negative mantissa scale =>
    rw [Binary64.toJson, Json.isSound, Binary64.nearest_shortest_of_isNormal normal]
    rfl

theorem Literal.isSound_toJson {literal : Literal} (storable : literal.IsStorable) : literal.toJson.isSound = true := by
  cases literal with
  | null => rfl
  | bool _ | int _ | text _ => rw [Literal.toJson, isSound_ofFields]; rfl
  | float value =>
    rw [Literal.toJson, isSound_ofFields, List.all_cons, Binary64.isSound_toJson storable.1 storable.2]
    rfl
  | textTuple items =>
    rw [Literal.toJson, isSound_ofFields, List.all_cons, isSound_array, List.all_map]
    simp only [List.all_nil, Bool.and_true, List.all_eq_true]
    exact fun _ _ => rfl

theorem Parameter.isSound_toJson {parameter : Parameter} (storable : ∀ literal ∈ parameter.default?, literal.IsStorable) :
    parameter.toJson.isSound = true := by
  have default := @isSound_ofOption _ Literal.toJson parameter.default? fun literal known =>
    Literal.isSound_toJson (storable literal known)
  simp only [Parameter.toJson, isSound_ofFields, List.all_cons, List.all_nil, default]
  rfl

theorem Routine.isSound_fields {routine : Routine} (storable : ∀ literal ∈ routine.literals, literal.IsStorable) :
    ∀ field ∈ routine.fields, field.2.isSound = true := by
  have signature := @isSound_ofOption _ Signature.toJson routine.signature fun signature known => by
    simp only [Signature.toJson, isSound_ofFields, List.all_cons, List.all_nil, isSound_array, List.all_map,
      Bool.and_true, List.all_eq_true]
    exact fun parameter member => Parameter.isSound_toJson fun literal default =>
      storable literal (Routine.mem_literals known member default)
  simp only [Routine.fields, List.forall_mem_cons]
  exact ⟨isSound_optionalText _, signature, isSound_ofOption fun _ _ => rfl, isSound_ofOption fun _ _ => rfl,
    List.forall_mem_nil _⟩

mutual

theorem Member.isSound_toJson : ∀ member : Member, (∀ literal ∈ member.literals, literal.IsStorable) →
    member.toJson.isSound = true
  | ⟨name, owner, content⟩, storable => by
    have fields := Content.isSound_fields content storable
    simp only [Member.toJson, isSound_ofFields, List.all_eq_true, List.cons_append, List.forall_mem_cons]
    refine ⟨rfl, fun field member => ?_⟩
    rcases List.mem_append.1 member with isOwner | inside
    · cases owner with
      | none => cases isOwner
      | some owner => rw [List.mem_singleton.1 isOwner]; rfl
    · exact fields field inside

theorem Content.isSound_fields : ∀ content : Content, (∀ literal ∈ content.literals, literal.IsStorable) →
    ∀ field ∈ content.fields, field.2.isSound = true
  | .classDef doc members, storable => by
    have sound := Member.areSound_allToJson members storable
    simp only [Content.fields, List.forall_mem_cons]
    exact ⟨rfl, isSound_optionalText doc, by rw [isSound_array]; exact sound, List.forall_mem_nil _⟩
  | .routine routine, storable => List.forall_mem_cons.2 ⟨rfl, routine.isSound_fields storable⟩
  | .property doc, _ => by
    simp only [Content.fields, List.forall_mem_cons]
    exact ⟨rfl, isSound_optionalText doc, List.forall_mem_nil _⟩
  | .value _ stored, storable => by
    simp only [Content.fields, List.forall_mem_cons]
    exact ⟨rfl, rfl, Literal.isSound_toJson (storable stored (List.mem_singleton_self _)), List.forall_mem_nil _⟩
  | .absent, _ => List.forall_mem_cons.2 ⟨rfl, List.forall_mem_nil _⟩

theorem Member.areSound_allToJson : ∀ members : List Member,
    (∀ literal ∈ Member.allLiterals members, literal.IsStorable) → (Member.allToJson members).all Json.isSound = true
  | [], _ => rfl
  | member :: rest, storable => by
    have first := Member.isSound_toJson member fun literal among => storable literal (List.mem_append_left _ among)
    have others := Member.areSound_allToJson rest fun literal among => storable literal (List.mem_append_right _ among)
    rw [Member.allToJson, List.all_cons, first, others]
    rfl

end

/-! ### The texts of modules

A module is found in every text that stands for its value, whatever the order of the fields of each object in the text.
It is asked for by its name, and under any other name it is refused.
-/

open Json (Same SameItems SameFields Reordered Decodes)

/-! ### Attributes -/

def attributeOfField? (field : Option String × Json) : Option (String × Literal) := do
  return (← field.1, ← Literal.ofJson? false field.2)

theorem mapM_of_sameFields {entries : List (String × Literal)} {fields : List (Option String × Json)}
    (storable : ∀ entry ∈ entries, entry.2.IsStorable)
    (same : SameFields (entries.map fun entry => (some entry.1, entry.2.toJson)) fields) :
    fields.mapM attributeOfField? = some entries := by
  induction entries generalizing fields with
  | nil =>
    cases same
    rfl
  | cons entry rest ih =>
    cases same with
    | cons first later =>
      have decoded := @Literal.decodes false _ (storable entry List.mem_cons_self) _ first
      have others := ih (fun other member => storable other (List.mem_cons_of_mem _ member)) later
      simp only [List.mapM_cons, attributeOfField?, decoded, others]
      rfl

theorem decodes_attributes {attributes : NameMap Literal} (storable : ∀ entry ∈ attributes.entries, entry.2.IsStorable) :
    Decodes attributesOfJson? (.ofFields (attributes.entries.map fun entry => (entry.1, entry.2.toJson))) attributes := by
  refine decodes_object fun others reordered => ?_
  rw [List.map_map] at reordered
  obtain ⟨inOrder, same, perm⟩ := reordered
  obtain ⟨entries, mapped, permEntries⟩ := exists_mapM_of_perm perm (mapM_of_sameFields storable same)
  change (others.mapM attributeOfField?).bind _ = _
  rw [mapped]
  exact congrArg some (NameMap.ofList_of_perm permEntries)

/-! ### Modules -/

namespace Module

/-- The values that a module stores, and those that its callables show. -/
def literals (mod : Module) : List Literal :=
  mod.attributes.entries.map Prod.snd ++ Member.allLiterals mod.members

/-- The values of a module can be held by a JSON text, and are not nested too deeply for it. -/
structure IsStorable (mod : Module) : Prop where
  literals : ∀ literal ∈ mod.literals, literal.IsStorable
  depth : mod.toJson.depth ≤ maxDepth

theorem depth_le_depthOfItems {item : Json} {items : List Json} (member : item ∈ items) :
    item.depth ≤ Json.depthOfItems items := by
  induction items with
  | nil => cases member
  | cons head rest ih =>
    rw [Json.depthOfItems]
    rcases List.mem_cons.1 member with rfl | later
    · exact Nat.le_max_left _ _
    · exact (ih later).trans (Nat.le_max_right _ _)

theorem depthOfItems_lt_depth (mod : Module) :
    Json.depthOfItems (Member.allToJson mod.members) + 2 ≤ mod.toJson.depth := by
  simp only [toJson, Json.ofFields, List.map_cons, List.map_nil, Json.depth, Json.depthOfFields]
  omega

end Module

theorem Member.allToJson_eq_map (members : List Member) : Member.allToJson members = members.map Member.toJson := by
  induction members with
  | nil => rfl
  | cons member rest ih => rw [Member.allToJson, ih, List.map_cons]

theorem Member.mem_allLiterals {member : Member} {members : List Member} {literal : Literal} (listed : member ∈ members)
    (among : literal ∈ member.literals) : literal ∈ Member.allLiterals members := by
  induction members with
  | nil => cases listed
  | cons head rest ih =>
    rcases List.mem_cons.1 listed with rfl | later
    · exact List.mem_append_left _ among
    · exact List.mem_append_right _ (ih later)

namespace Module

variable {mod : Module}

/-- A member of a module is sound and deep inside the limit, so that it is read back. -/
theorem decodes_member (storable : mod.IsStorable) {member : Member} (listed : member ∈ mod.members) :
    Decodes (Member.ofJson? 2) member.toJson member := by
  intro other same
  have literals : ∀ literal ∈ member.literals, literal.IsStorable := fun literal among =>
    storable.literals literal (List.mem_append_right _ (Member.mem_allLiterals listed among))
  -- Two levels around a member are those of the module and its list of members.
  obtain ⟨sound, depth⟩ := same.sound_and_depth
  have inside : member.toJson.depth ≤ Json.depthOfItems (Member.allToJson mod.members) :=
    depth_le_depthOfItems (by rw [Member.allToJson_eq_map]; exact List.mem_map_of_mem listed)
  have fits : other.depth + 2 ≤ maxDepth := by
    rw [depth]
    exact (Nat.add_le_add_right inside 2).trans (mod.depthOfItems_lt_depth.trans storable.depth)
  rw [Member.ofJson?, if_pos ⟨sound.trans (Member.isSound_toJson member literals), fits⟩]
  exact Member.decodes member literals other same

/-- A module is decoded from every value that says what its own value says. -/
theorem decodes (storable : mod.IsStorable) : Decodes Module.ofJson? mod.toJson mod := by
  refine decodes_object fun others reordered => ?_
  have entries : ∀ entry ∈ mod.attributes.entries, entry.2.IsStorable := fun entry member =>
    storable.literals entry.2 (List.mem_append_left _ (List.mem_map_of_mem member))
  have members : Decodes (fun json => json.items? >>= List.mapM (Member.ofJson? 2))
      (.array (Member.allToJson mod.members)) mod.members := by
    rw [Member.allToJson_eq_map]
    exact decodes_items fun member listed => decodes_member storable listed
  obtain ⟨_, hasName, readName⟩ := reordered.exists_field "name" (by rfl) (decodes_text mod.name)
  obtain ⟨_, hasDoc, readDoc⟩ := reordered.exists_field "doc" (by rfl) (decodes_optionalText mod.doc)
  obtain ⟨_, hasAttributes, readAttributes⟩ :=
    reordered.exists_field "attributes" (by rfl) (decodes_attributes entries)
  obtain ⟨_, hasMembers, readMembers⟩ := reordered.exists_field "members" (by rfl) members
  obtain ⟨items, listed, readMembers⟩ := Option.bind_eq_some_iff.1 readMembers
  have sound : Json.namesAreSound others = true := reordered.namesAreSound
  simp only [Module.ofJson?, sound, if_true, hasName, hasDoc, hasAttributes, hasMembers, Option.bind_eq_bind,
    Option.bind_some, Module.ofParts?, Json.defaulted?, listed, readName, readDoc, readAttributes, readMembers]
  rfl

end Module

/-- A registry gives back a module under its own name, from every text that stands for its value, and tells its name under
every other one. -/
theorem Registry.parse_of_isTextOf {mod : Module} {json : Json} {text : String} (storable : mod.IsStorable)
    (same : Same mod.toJson json) (stands : Json.IsTextOf text json) :
    Registry.parse mod.name text = .ok mod ∧
      ∀ name, name ≠ mod.name → Registry.parse name text = .error (.otherModule mod.name) := by
  have parsed : Module.parse? text = some mod := by
    rw [Module.parse?, Json.parse?_eq_some_iff.2 stands]
    exact Module.decodes storable json same
  constructor
  · simp only [Registry.parse, parsed, if_true]
  · intro name different
    simp only [Registry.parse, parsed, if_neg (Ne.symm different)]

def spaceModule : Module where
  name := "pkg"
  doc := none
  attributes := .ofList [("a", .float (.finite false 6755399441055744 1022))]
  members := [⟨"Unit", none, .classDef none [⟨"of", some "Base", .absent⟩]⟩]

def kindFirst : Json := .ofFields [("kind", .ofText "null"), ("name", .ofText "of"), ("owner", .ofText "Base")]

/-- The module with its members before all else, and its number written with more digits. -/
def spaceMembersFirst : Json := .ofFields [
  ("members", .array [.ofFields
    [("name", .ofText "Unit"), ("kind", .ofText "class"), ("doc", .null), ("members", .array [kindFirst])]]),
  ("name", .ofText "pkg"), ("doc", .null),
  ("attributes", .ofFields [("a", .ofFields [("float", .real ⟨false, 150, -2⟩)])])]

def spaceText : String :=
  "\x7b\"members\":[\x7b\"name\":\"Unit\",\"kind\":\"class\",\"doc\":null,\"members\":" ++
  "[\x7b\"kind\":\"null\",\"name\":\"of\",\"owner\":\"Base\"\x7d]\x7d], " ++
  "\"name\":\"pkg\",\"doc\":null,\"attributes\":\x7b\"a\":\x7b\"float\":1.50\x7d\x7d\x7d"

set_option maxRecDepth 4000 in
theorem spaceText_stands : Json.IsTextOf spaceText spaceMembersFirst := by
  refine Json.parse?_eq_some_iff.1 ?_
  unfold Json.parse? spaceText
  simp only [String.toList_append]
  -- The characters come from the literals themselves, for to decode bytes one by one takes the kernel seconds.
  iterate 3 rw [String.toList_ofList]
  cbv

theorem spaceModule_storable : spaceModule.IsStorable where
  literals := by
    have listed : spaceModule.literals = [.float (.finite false 6755399441055744 1022)] := by rfl
    rw [listed, List.forall_mem_singleton]
    exact ⟨rfl, by decide, by decide, .inr (by decide)⟩
  depth := by decide

theorem kindFirst_same : Same (Member.toJson ⟨"of", some "Base", .absent⟩) kindFirst :=
  .object (.refl _) (@List.perm_append_comm _ [_, _] [_])

theorem spaceModule_same : Same spaceModule.toJson spaceMembersFirst := by
  have sameClass : Same (Member.toJson ⟨"Unit", none, .classDef none [⟨"of", some "Base", .absent⟩]⟩) (.ofFields
      [("name", .ofText "Unit"), ("kind", .ofText "class"), ("doc", .null), ("members", .array [kindFirst])]) :=
    .object (.cons (.refl _) (.cons (.refl _) (.cons (.refl _) (.cons (.array (.cons kindFirst_same .nil)) .nil)))) (.refl _)
  have number : Same (Binary64.toJson (.finite false 6755399441055744 1022)) (.real ⟨false, 150, -2⟩) :=
    .real (by decide +kernel)
  have attributes : Same
      (.ofFields [("a", .ofFields [("float", Binary64.toJson (.finite false 6755399441055744 1022))])])
      (.ofFields [("a", .ofFields [("float", .real ⟨false, 150, -2⟩)])]) :=
    .object (.cons (.object (.cons number .nil) (.refl _)) .nil) (.refl _)
  exact .object (.cons (.refl _) (.cons (.refl _) (.cons attributes (.cons (.array (.cons sameClass .nil)) .nil))))
    (@List.perm_append_comm _ [_, _, _] [_])

theorem spaceModule_given_back :
    spaceModule.IsStorable ∧ Same spaceModule.toJson spaceMembersFirst ∧
    Json.IsTextOf spaceText spaceMembersFirst ∧ Registry.parse "pkg" spaceText = .ok spaceModule ∧
    ∀ name, name ≠ "pkg" → Registry.parse name spaceText = .error (.otherModule "pkg") :=
  ⟨spaceModule_storable, spaceModule_same, spaceText_stands,
    Registry.parse_of_isTextOf spaceModule_storable spaceModule_same spaceText_stands⟩

end TypedStub
