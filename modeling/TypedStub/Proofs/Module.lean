import TypedStub.Proofs.Binary64.Nearest
import TypedStub.Proofs.Json.Same
import TypedStub.Proofs.Name
import TypedStub.Registry

/-! Modules are read back from their JSON values.

What is encoded is decoded from every value that says the same: the fields of an object may stand in any order, and a
number may be written otherwise. Each part of a module has a lemma of its own, and the members of classes are read back
by recursion on them.
-/

set_option autoImplicit false

namespace TypedStub

open Json (Same SameItems Reordered)

/-- Whatever says the same as a value is decoded to one thing. -/
def Json.Decodes {α : Type} (decode : Json → Option α) (json : Json) (value : α) : Prop :=
  ∀ other, Same json other → decode other = some value

open Json (Decodes)

/-! ### Parts of values -/

section
variable {α : Type} {encode : α → Json} {decode : Json → Option α} {other : Json} {name : String}

theorem decodes_text (text : String) : Decodes Json.text? (.ofText text) text := by
  intro other same
  cases same
  rfl

theorem mapM_of_sameItems {values : List α} {others : List Json} (same : SameItems (values.map encode) others)
    (each : ∀ value ∈ values, Decodes decode (encode value) value) : others.mapM decode = some values := by
  induction values generalizing others with
  | nil =>
    cases same
    rfl
  | cons value rest ih =>
    cases same with
    | cons first later =>
      have decoded := each value List.mem_cons_self _ first
      have decodedRest := ih later fun other member => each other (List.mem_cons_of_mem _ member)
      simp only [List.mapM_cons, decoded, decodedRest]
      rfl

theorem decodes_items {values : List α} (each : ∀ value ∈ values, Decodes decode (encode value) value) :
    Decodes (fun json => json.items? >>= List.mapM decode) (.array (values.map encode)) values := by
  intro other same
  cases same with
  | array items => exact mapM_of_sameItems items each

theorem decodes_optional {option : Option α} (filled : ∀ value, encode value ≠ .null)
    (each : ∀ value ∈ option, Decodes decode (encode value) value) :
    Decodes (fun json => Json.optional? decode (some json)) (.ofOption encode option) option := by
  intro other same
  cases option with
  | none =>
    cases same
    rfl
  | some value =>
    have decoded := each value rfl other same
    -- What is not encoded as nothing is not taken for nothing.
    have present : other ≠ .null := by
      rintro rfl
      generalize said : Json.ofOption encode (some value) = json at same
      cases same
      exact filled value said
    unfold Json.optional?
    dsimp only
    split
    · contradiction
    · rename_i contradicts
      cases contradicts
      exact absurd rfl present
    · rename_i same
      cases same
      rw [decoded]
      rfl

theorem decodes_object {fields : List (String × Json)} {value : α}
    (each : ∀ others, Reordered (fields.map fun field => (some field.1, field.2)) others →
      decode (.object others) = some value) : Decodes decode (.ofFields fields) value := by
  intro other same
  obtain ⟨others, rfl, reordered⟩ := Json.same_object_iff.1 same
  exact each others reordered

theorem unique?_of_mem {fields : List (String × Json)} {json : Json} (distinct : (fields.map Prod.fst).Nodup)
    (member : (name, json) ∈ fields) :
    Json.unique? (fields.map fun field => (some field.1, field.2)) name = some (some json) := by
  -- The names are distinct, so no other field is left by the filter.
  have alone : fields.filter (fun field => field.1 = name) = [(name, json)] := by
    induction fields with
    | nil => cases member
    | cons head rest ih =>
      obtain ⟨fresh, later⟩ := List.nodup_cons.1 distinct
      rcases List.mem_cons.1 member with rfl | inside
      · have others : rest.filter (fun field => field.1 = name) = [] :=
          List.filter_eq_nil_iff.2 fun field among same =>
            fresh (List.mem_map.2 ⟨field, among, of_decide_eq_true same⟩)
        rw [List.filter_cons_of_pos (by simp), others]
      · have different : head.1 ≠ name := fun same => fresh (same ▸ List.mem_map_of_mem inside)
        rw [List.filter_cons_of_neg (by simpa using different), ih later inside]
  unfold Json.unique?
  rw [List.filter_map]
  have keeps : ((fun field : Option String × Json => decide (field.1 = some name)) ∘
      fun field : String × Json => (some field.1, field.2)) = fun field => decide (field.1 = name) := by
    funext field
    simp
  rw [keeps, alone]
  rfl

/-- A field is found among the others and decoded. -/
theorem Json.Reordered.exists_field {fields others : List (Option String × Json)} {json : Json} {value : α}
    (reordered : Reordered fields others) (name : String) (found : Json.unique? fields name = some (some json))
    (decodes : Decodes decode json value) :
    ∃ other, Json.unique? others name = some (some other) ∧ decode other = some value := by
  obtain ⟨other, foundOther, said⟩ := reordered.unique? found
  exact ⟨other, foundOther, decodes other said⟩

theorem variant?_of_same {json : Json} (same : Same (.ofFields [(name, json)]) other) :
    ∃ payload, Json.variant? other = some (name, some payload) ∧ Same json payload := by
  obtain ⟨others, rfl, reordered⟩ := Json.same_object_iff.1 same
  obtain ⟨payload, rfl, said⟩ := Json.reordered_singleton reordered
  exact ⟨payload, rfl, said⟩

end

/-! ### Literals -/

/-- A floating-point number that a JSON text can hold. -/
def Literal.IsStorable : Literal → Prop
  | .float value => value.isFinite = true ∧ value.IsNormal
  | .null | .bool _ | .int _ | .text _ | .textTuple _ => True

theorem decodes_float {value : Binary64} (finite : value.isFinite = true) (normal : value.IsNormal) :
    Decodes Binary64.ofJson? value.toJson value := by
  intro other same
  cases value with
  | nan | infinite _ => cases finite
  | finite negative mantissa scale =>
    cases same with
    | real said =>
      have nearest := (said.symm.trans (Binary64.nearest_shortest_of_isNormal normal))
      simp only [Binary64.ofJson?, nearest, Binary64.isFinite, if_true]

theorem int64?_toInt (value : Int64) : int64? value.toInt = some value := by
  unfold int64?
  rw [if_pos ⟨Int64.minValue_le_toInt value, Int64.toInt_le value⟩, Int64.ofInt_toInt]

theorem Literal.decodes {kept : Bool} {literal : Literal} (storable : literal.IsStorable) :
    Decodes (Literal.ofJson? kept) literal.toJson literal := by
  intro other same
  cases literal with
  | null =>
    cases same
    rfl
  | bool value =>
    obtain ⟨payload, found, said⟩ := variant?_of_same same
    cases said
    simp [Literal.ofJson?, found]
  | int value =>
    obtain ⟨payload, found, said⟩ := variant?_of_same same
    cases said
    simp [Literal.ofJson?, found, int64?_toInt]
  | float value =>
    obtain ⟨payload, found, said⟩ := variant?_of_same same
    simp [Literal.ofJson?, found, decodes_float storable.1 storable.2 payload said]
  | text value =>
    obtain ⟨payload, found, said⟩ := variant?_of_same same
    simp [Literal.ofJson?, found, decodes_text value payload said]
  | textTuple items =>
    obtain ⟨payload, found, said⟩ := variant?_of_same same
    have decoded := decodes_items (fun item _ => decodes_text item) payload said
    obtain ⟨others, listed, texts⟩ := Option.bind_eq_some_iff.1 decoded
    simp [Literal.ofJson?, found, listed, texts]

theorem Literal.toJson_ne_null (literal : Literal) : literal.toJson ≠ .null := by
  cases literal <;> simp [Literal.toJson, Json.ofText, Json.ofFields]

/-! ### Callables -/

theorem decodes_choice {α : Type} {kept : Bool} {choices : List (String × α)} {name : String} {value : α}
    (listed : (choices.find? fun choice => choice.1 = name).map Prod.snd = some value) :
    Decodes (Json.choice? kept choices) (.ofText name) value := by
  intro other same
  cases same
  exact listed

theorem ParameterKind.decodes {kept : Bool} (kind : ParameterKind) :
    Decodes (ParameterKind.ofJson? kept) (.ofText kind.name) kind := by
  cases kind <;> exact decodes_choice (by rfl)

theorem Binding.decodes {kept : Bool} (binding : Binding) :
    Decodes (Binding.ofJson? kept) (.ofText binding.name) binding := by
  cases binding <;> exact decodes_choice (by rfl)

theorem Receiver.decodes {kept : Bool} (receiver : Receiver) :
    Decodes (Receiver.ofJson? kept) (.ofText receiver.name) receiver := by
  cases receiver <;> exact decodes_choice (by rfl)

theorem decodes_optionalText (option : Option String) :
    Decodes (fun json => Json.optional? Json.text? (some json)) (.ofOption .ofText option) option :=
  decodes_optional (fun _ => nofun) fun text _ => decodes_text text

theorem Parameter.decodes {kept : Bool} {parameter : Parameter}
    (storable : ∀ literal ∈ parameter.default?, literal.IsStorable) :
    Decodes (Parameter.ofJson? kept) parameter.toJson parameter := by
  refine decodes_object fun others reordered => ?_
  have literal := @decodes_optional _ _ (Literal.ofJson? kept) parameter.default? Literal.toJson_ne_null
    fun literal member => Literal.decodes (storable literal member)
  obtain ⟨name, foundName, readName⟩ := reordered.exists_field "name" (by rfl) (decodes_text parameter.name)
  obtain ⟨kind, foundKind, readKind⟩ :=
    reordered.exists_field "kind" (by rfl) (@ParameterKind.decodes kept parameter.kind)
  obtain ⟨default, foundDefault, readDefault⟩ := reordered.exists_field "default" (by rfl) literal
  have sound : Json.namesAreSound others = true := reordered.namesAreSound
  simp only [Parameter.ofJson?, sound, if_true, foundName, foundKind, foundDefault, Option.bind_eq_bind,
    Option.bind_some, Parameter.ofParts?, Json.defaulted?, readName, readKind, readDefault]
  rfl

theorem Signature.decodes {kept : Bool} {signature : Signature}
    (storable : ∀ parameter ∈ signature.parameters, ∀ literal ∈ parameter.default?, literal.IsStorable) :
    Decodes (Signature.ofJson? kept) signature.toJson signature := by
  refine decodes_object fun others reordered => ?_
  obtain ⟨parameters, found, read⟩ := reordered.exists_field "parameters" (by rfl)
    (decodes_items fun parameter member => @Parameter.decodes kept parameter (storable parameter member))
  obtain ⟨items, listed, read⟩ := Option.bind_eq_some_iff.1 read
  have sound : Json.namesAreSound others = true := reordered.namesAreSound
  simp only [Signature.ofJson?, sound, if_true, found, Option.bind_eq_bind, Option.bind_some, Signature.ofParts?,
    Json.defaulted?, listed, read]
  rfl

/-- The default values that a routine shows. -/
def Routine.literals (routine : Routine) : List Literal :=
  (routine.signature.toList.flatMap Signature.parameters).filterMap Parameter.default?

theorem Routine.mem_literals {routine : Routine} {signature : Signature} {parameter : Parameter} {literal : Literal}
    (known : signature ∈ routine.signature) (member : parameter ∈ signature.parameters)
    (default : literal ∈ parameter.default?) : literal ∈ routine.literals :=
  List.mem_filterMap.2 ⟨parameter, List.mem_flatMap.2 ⟨signature, Option.mem_toList.2 known, member⟩, default⟩

theorem Routine.ofFields?_of_reordered {routine : Routine} {fields others : List (Option String × Json)}
    (storable : ∀ literal ∈ routine.literals, literal.IsStorable) (reordered : Reordered fields others)
    (among : ∀ field ∈ routine.fields, Json.unique? fields field.1 = some (some field.2)) :
    Routine.ofFields? others = some routine := by
  simp only [Routine.fields, List.forall_mem_cons] at among
  obtain ⟨foundDoc, foundSignature, foundBinding, foundBoundTo, -⟩ := among
  have signature := @decodes_optional _ Signature.toJson (Signature.ofJson? true) routine.signature (fun _ => nofun)
    fun signature known => Signature.decodes fun parameter member literal default =>
      storable literal (Routine.mem_literals known member default)
  have binding := @decodes_optional _ (fun binding : Binding => .ofText binding.name) (Binding.ofJson? true)
    routine.binding (fun _ => nofun) fun binding _ => binding.decodes
  have boundTo := @decodes_optional _ (fun receiver : Receiver => .ofText receiver.name) (Receiver.ofJson? true)
    routine.boundTo (fun _ => nofun) fun receiver _ => receiver.decodes
  obtain ⟨_, hasDoc, readDoc⟩ := reordered.exists_field "doc" foundDoc (decodes_optionalText routine.doc)
  obtain ⟨_, hasSignature, readSignature⟩ := reordered.exists_field "signature" foundSignature signature
  obtain ⟨_, hasBinding, readBinding⟩ := reordered.exists_field "decorator" foundBinding binding
  obtain ⟨_, hasBoundTo, readBoundTo⟩ := reordered.exists_field "bound_to" foundBoundTo boundTo
  simp only [Routine.ofFields?, hasDoc, hasSignature, hasBinding, hasBoundTo, Option.bind_eq_bind, Option.bind_some,
    readDoc, readSignature, readBinding, readBoundTo]
  rfl

/-! ### Members -/

mutual

/-- The values that a member and all members in it store and show. -/
def Member.literals : Member → List Literal
  | ⟨_, _, content⟩ => content.literals

def Content.literals : Content → List Literal
  | .classDef _ members => Member.allLiterals members
  | .routine routine => routine.literals
  | .value _ stored => [stored]
  | .property _ | .absent => []

def Member.allLiterals : List Member → List Literal
  | [] => []
  | member :: rest => member.literals ++ Member.allLiterals rest

end

def Member.fields (name : String) (owner : Option String) (content : Content) : List (String × Json) :=
  ("name", .ofText name) :: (owner.map fun owner => ("owner", Json.ofText owner)).toList ++ content.fields

theorem nodup_memberFields (name : String) (owner : Option String) (content : Content) :
    ((Member.fields name owner content).map Prod.fst).Nodup := by
  cases owner <;> cases content <;> simp [Member.fields, Content.fields, Routine.fields]

/-- The members of a class are those of its only list of members. -/
theorem inFields?_of_unique? {fields : List (Option String × Json)} {items : List Json}
    (found : Json.unique? fields "members" = some (some (.array items))) :
    Member.inFields? fields = Member.allOfSound? items := by
  induction fields with
  | nil => cases found
  | cons field rest ih =>
    obtain ⟨name, value⟩ := field
    unfold Member.inFields?
    by_cases here : name = some "members"
    · rw [if_pos here]
      unfold Json.unique? at found
      rw [List.filter_cons_of_pos (by simpa using here)] at found
      split at found
      · cases found
      · rename_i alone
        cases found
        cases (List.cons.inj alone).1
        rfl
      · cases found
    · rw [if_neg here]
      refine ih ?_
      unfold Json.unique? at found ⊢
      rwa [List.filter_cons_of_neg (by simpa using here)] at found

theorem decodes_category {content : Content} {json : Json} (found : ("kind", json) ∈ content.fields) :
    Decodes Category.ofJson? json content.category := by
  intro other same
  cases content <;> simp [Content.fields, Routine.fields] at found <;> subst found <;> cases same <;> rfl

theorem exists_owner {name : String} {owner : Option String} {content : Content} {others : List (Option String × Json)}
    (reordered : Reordered ((Member.fields name owner content).map fun field => (some field.1, field.2)) others) :
    ∃ found, Json.unique? others "owner" = some found ∧ Json.optional? Json.text? found = some owner := by
  cases owner with
  | none =>
    refine ⟨none, reordered.unique?_none ?_, rfl⟩
    cases content <;> rfl
  | some owner =>
    have among : ("owner", Json.ofText owner) ∈ Member.fields name (some owner) content := by simp [Member.fields]
    obtain ⟨found, known, said⟩ := reordered.unique? (unique?_of_mem (nodup_memberFields ..) among)
    cases said
    exact ⟨_, known, rfl⟩

/-- A member is read back if the members in it are. -/
theorem Member.decodes_of_inside {name : String} {owner : Option String} {content : Content}
    (storable : ∀ literal ∈ content.literals, literal.IsStorable)
    (inside : ∀ doc members, content = .classDef doc members → ∀ items, SameItems (Member.allToJson members) items →
      Member.allOfSound? items = some members) :
    Decodes Member.ofSound? (Member.toJson ⟨name, owner, content⟩) ⟨name, owner, content⟩ := by
  -- The fields of the content stand among those of the member, where no two have the same name.
  refine @decodes_object _ _ (Member.fields name owner content) _ fun others reordered => ?_
  have found : ∀ {key json}, (key, json) ∈ content.fields → Json.unique?
      ((Member.fields name owner content).map fun field => (some field.1, field.2)) key = some (some json) :=
    fun member => unique?_of_mem (nodup_memberFields ..) (List.mem_append_right _ member)
  have nameAmong : ("name", Json.ofText name) ∈ Member.fields name owner content := List.mem_cons_self
  obtain ⟨_, hasName, readName⟩ :=
    reordered.exists_field "name" (unique?_of_mem (nodup_memberFields ..) nameAmong) (decodes_text name)
  obtain ⟨_, hasOwner, readOwner⟩ := exists_owner reordered
  obtain ⟨kind, kindAmong⟩ : ∃ kind, ("kind", kind) ∈ content.fields := by
    cases content <;> exact ⟨_, List.mem_cons_self⟩
  obtain ⟨_, hasKind, readKind⟩ := reordered.exists_field "kind" (found kindAmong) (decodes_category kindAmong)
  simp only [Member.ofSound?, hasName, hasOwner, hasKind, Option.bind_eq_bind, Option.bind_some, readName, readOwner,
    readKind]
  cases content with
  | classDef doc members =>
    obtain ⟨_, hasDoc, readDoc⟩ := reordered.exists_field "doc" (found (by simp [Content.fields])) (decodes_optionalText doc)
    obtain ⟨_, hasMembers, said⟩ := @Json.Reordered.unique? _ _ "members" (.array (Member.allToJson members)) reordered
      (found (by simp [Content.fields]))
    cases said with
    | array items =>
      simp only [Content.category, hasDoc, readDoc, hasMembers, Option.bind_some, inFields?_of_unique? hasMembers,
        inside doc members rfl _ items]
  | routine routine =>
    have read := Routine.ofFields?_of_reordered storable reordered fun field member =>
      found (List.mem_cons_of_mem _ member)
    simp only [Content.category, read, Option.map_some]
  | property doc =>
    obtain ⟨_, hasDoc, readDoc⟩ := reordered.exists_field "doc" (found (by simp [Content.fields])) (decodes_optionalText doc)
    simp only [Content.category, hasDoc, readDoc, Option.bind_some]
  | value typeName stored =>
    obtain ⟨_, hasType, readType⟩ :=
      reordered.exists_field "type_name" (found (by simp [Content.fields])) (decodes_text typeName)
    obtain ⟨_, hasValue, readValue⟩ := reordered.exists_field "value" (found (by simp [Content.fields]))
      (@Literal.decodes true stored (storable stored (List.mem_singleton_self _)))
    simp only [Content.category, hasType, readType, hasValue, readValue, Option.bind_some]
  | absent => rfl

mutual

theorem Member.decodes : ∀ member : Member, (∀ literal ∈ member.literals, literal.IsStorable) →
    Decodes Member.ofSound? member.toJson member
  | ⟨_, _, .classDef _ members⟩, storable => Member.decodes_of_inside storable fun _ _ same items said => by
    cases same
    exact Member.allDecoded members storable items said
  | ⟨_, _, .routine _⟩, storable | ⟨_, _, .property _⟩, storable | ⟨_, _, .value ..⟩, storable
  | ⟨_, _, .absent⟩, storable => Member.decodes_of_inside storable nofun

theorem Member.allDecoded : ∀ members : List Member, (∀ literal ∈ Member.allLiterals members, literal.IsStorable) →
    ∀ items, SameItems (Member.allToJson members) items → Member.allOfSound? items = some members
  | [], _, items, same => by
    cases same
    rfl
  | member :: rest, storable, items, same => by
    cases same with
    | cons first later =>
      have decoded := Member.decodes member (fun literal among => storable literal (List.mem_append_left _ among)) _ first
      have others := Member.allDecoded rest (fun literal among => storable literal (List.mem_append_right _ among)) _ later
      simp only [Member.allOfSound?, decoded, others, Option.bind_eq_bind, Option.bind_some]
      rfl

end

end TypedStub
