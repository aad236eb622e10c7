import TypedStub.Proofs.Outline.Origins

/-! Receivers of methods.

A method that is bound to an object or a class takes its receiver, whether or not its signature declares one. What a
signature declares is kept as it is. The receiver so stands first, and stands there alone, exactly if the signature
leaves that place to it.
-/

set_option autoImplicit false

namespace TypedStub

/-- The first of the names is a receiver's, and no later one is. -/
def ReceiverLeads : List String → Prop
  | [] => False
  | first :: rest => isReceiverName first = true ∧ ∀ other ∈ rest, isReceiverName other = false

instance (names : List String) : Decidable (ReceiverLeads names) :=
  match names with
  | [] => inferInstanceAs (Decidable False)
  | _ :: _ => inferInstanceAs (Decidable (_ ∧ _))

/-- No declared parameter is a receiver, or the first one alone is. A constructor has to declare its own receiver,
not the one of the other constructor. -/
def Signature.FitsReceiver (signature : Signature) (name : String) (kind : CallableKind) : Prop :=
  signature.hasReceiver = false ∨
    ReceiverLeads (signature.parameters.map Parameter.name) ∧
      (kind = .constructor → signature.first?.map Parameter.name = implicitReceiver? name kind)

def CallableKind.receiverKinds : List CallableKind := [.constructor, .classBound, .bound, .protocol]

variable {view : Viewpoint} {path name receiver : String} {kind : CallableKind}

theorem exists_implicitReceiver (takes : kind ∈ CallableKind.receiverKinds) :
    ∃ receiver, implicitReceiver? name kind = some receiver ∧ isReceiverName receiver = true := by
  cases kind with
  | function | static => exact absurd takes (by decide)
  | classBound => exact ⟨"cls", rfl, by decide⟩
  | bound | protocol => exact ⟨"self", rfl, by decide⟩
  | constructor =>
    by_cases allocates : name = Protocol.allocator
    · exact ⟨"cls", if_pos allocates, by decide⟩
    · exact ⟨"self", if_neg allocates, by decide⟩

/-! ### Declared parameters -/

namespace Signature

variable {signature : Signature}

theorem hasReceiver_eq_false_iff :
    signature.hasReceiver = false ↔
      ∀ other ∈ signature.parameters.map Parameter.name, isReceiverName other = false := by
  simp [hasReceiver]

theorem find?_isNone_iff : (signature.find? name).isNone = true ↔ ¬ name ∈ signature.parameters.map Parameter.name := by
  simp [find?]

/-- Only a signature that does not fit lacks its receiver and declares one. -/
theorem hasReceiver_of_lacks (takes : implicitReceiver? name kind = some receiver)
    (lacks : signature.lacks kind receiver = true) (fits : signature.FitsReceiver name kind) :
    signature.hasReceiver = false := by
  rcases fits with undeclared | ⟨leads, own⟩
  · exact undeclared
  · by_cases constructs : kind = .constructor
    · -- The first parameter has the name of the receiver that is not found.
      subst constructs
      have missing := find?_isNone_iff.1 lacks
      have first : signature.first?.map Parameter.name = some receiver := (own rfl).trans takes
      obtain ⟨parameter, isFirst, rfl⟩ := Option.map_eq_some_iff.1 first
      exact absurd (List.mem_map_of_mem (List.mem_of_head? isFirst)) missing
    · cases kind with
      | constructor => exact absurd rfl constructs
      | function | static | classBound | bound | protocol => simpa [Signature.lacks] using lacks

theorem hasReceiver_of_not_lacks (isReceiver : isReceiverName receiver = true)
    (declares : ¬ signature.lacks kind receiver = true) : signature.hasReceiver = true := by
  cases kind with
  | function | static | classBound | bound | protocol => simpa [Signature.lacks] using declares
  | constructor =>
    have found : receiver ∈ signature.parameters.map Parameter.name := by
      by_contra missing
      exact declares (find?_isNone_iff.2 missing)
    cases has : signature.hasReceiver with
    | true => rfl
    | false => exact absurd isReceiver (by simp [hasReceiver_eq_false_iff.1 has receiver found])

theorem leads_withReceiver_iff (takes : kind ∈ CallableKind.receiverKinds) :
    ReceiverLeads ((signature.withReceiver name kind).map Parameter.name) ↔ signature.FitsReceiver name kind := by
  obtain ⟨receiver, implicit, isReceiver⟩ := @exists_implicitReceiver name kind takes
  simp only [withReceiver, implicit]
  by_cases lacks : signature.lacks kind receiver = true
  · rw [if_pos lacks]
    constructor
    · intro leads
      exact .inl (hasReceiver_eq_false_iff.2 leads.2)
    · intro fits
      exact ⟨isReceiver, hasReceiver_eq_false_iff.1 (hasReceiver_of_lacks implicit lacks fits)⟩
  · rw [if_neg lacks]
    have has := hasReceiver_of_not_lacks isReceiver lacks
    constructor
    · intro leads
      refine .inr ⟨leads, ?_⟩
      rintro rfl
      -- The receiver that is found is the first parameter, as no other one is a receiver.
      obtain ⟨parameters⟩ := signature
      cases parameters with
      | nil => exact leads.elim
      | cons first rest =>
        have found : receiver ∈ (first :: rest).map Parameter.name := by
          by_contra missing
          exact lacks (find?_isNone_iff.2 missing)
        rcases List.mem_cons.1 found with same | later
        · exact (congrArg some same.symm).trans implicit.symm
        · exact absurd isReceiver (by simp [leads.2 receiver later])
    · rintro (undeclared | ⟨leads, -⟩)
      · exact absurd has (by simp [undeclared])
      · exact leads

theorem hasReceiver_withReceiver (takes : kind ∈ CallableKind.receiverKinds) :
    ∃ parameter ∈ signature.withReceiver name kind, isReceiverName parameter.name = true := by
  obtain ⟨receiver, implicit, isReceiver⟩ := @exists_implicitReceiver name kind takes
  simp only [withReceiver, implicit]
  by_cases lacks : signature.lacks kind receiver = true
  · rw [if_pos lacks]
    exact ⟨_, List.mem_cons_self, isReceiver⟩
  · rw [if_neg lacks]
    exact List.any_eq_true.1 (hasReceiver_of_not_lacks isReceiver lacks)

end Signature

/-! ### Parameters that are shown -/

def ReceiversUntyped (parameters : List ParameterOutline) : Prop :=
  ∀ parameter ∈ parameters, isReceiverName parameter.name = true → parameter.type = none

theorem outlineAll_names {typing : Typing} (seen : List String) (parameters : List Parameter) :
    (typing.outlineAll path seen parameters).value.map ParameterOutline.name = parameters.map Parameter.name := by
  induction parameters generalizing seen with
  | nil => rfl
  | cons parameter rest ih =>
    unfold Typing.outlineAll
    dsimp only
    split
    · exact congrArg _ (ih _)
    · split <;> exact congrArg _ (ih _)

theorem outlineAll_untyped {typing : Typing} (seen : List String) (parameters : List Parameter) :
    ReceiversUntyped (typing.outlineAll path seen parameters).value := by
  induction parameters generalizing seen with
  | nil => exact fun _ member => by cases member
  | cons parameter rest ih =>
    unfold Typing.outlineAll
    dsimp only
    intro outline member isReceiver
    split at member
    · rcases List.mem_cons.1 member with rfl | later
      · rfl
      · exact ih _ outline later isReceiver
    · rename_i ordinary
      split at member
      · rcases List.mem_cons.1 member with rfl | later
        · exact absurd isReceiver ordinary
        · exact ih _ outline later isReceiver
      · rcases List.mem_cons.1 member with rfl | later
        · exact absurd isReceiver ordinary
        · exact ih _ outline later isReceiver

theorem isReceiverName_operand (i : Nat) : isReceiverName ("arg" ++ toString i) = false := by
  have different : ∀ receiver : String, receiver.toList.head? ≠ some 'a' → "arg" ++ toString i ≠ receiver := by
    rintro receiver begins rfl
    simp at begins
  unfold isReceiverName
  rw [decide_eq_false (different "self" (by decide)), decide_eq_false (different "cls" (by decide))]
  rfl

theorem undeclaredParameters_names (implicit : implicitReceiver? name kind = some receiver)
    (shape : Option ProtocolShape) :
    ∃ rest : List ParameterOutline, undeclaredParameters name kind shape = { name := receiver, type := none } :: rest ∧
      ∀ other ∈ rest, isReceiverName other.name = false := by
  unfold undeclaredParameters
  rw [implicit]
  cases shape.bind ProtocolShape.operands? with
  | none => exact ⟨_, rfl, by simp [isReceiverName]⟩
  | some operands =>
    refine ⟨_, rfl, ?_⟩
    intro other member
    obtain ⟨i, -, rfl⟩ := List.mem_mapIdx.1 member
    exact isReceiverName_operand i

/-- What is shown of the parameters of a bound callable. -/
theorem outlineParameters_receivers {signature : Option Signature} {fields : List ParameterField}
    {shape : Option ProtocolShape} {found : Found (List ParameterOutline)} (takes : kind ∈ CallableKind.receiverKinds)
    (told : shape ≠ some .bare) (ran : outlineParameters view path name kind signature fields shape = .ok found) :
    ReceiversUntyped found.value ∧ (∃ parameter ∈ found.value, isReceiverName parameter.name = true) ∧
      (ReceiverLeads (found.value.map ParameterOutline.name) ↔
        ∀ declared ∈ signature, declared.FitsReceiver name kind) := by
  obtain ⟨bare, -⟩ | ⟨-, rfl, rfl⟩ | ⟨-, declared, typing, isDeclared, -, rfl⟩ := outlineParameters_cases ran
  · exact absurd bare told
  · -- Without a signature the implicit receiver leads, and the operands behind it are no receivers.
    obtain ⟨receiver, implicit, isReceiver⟩ := @exists_implicitReceiver name kind takes
    obtain ⟨rest, parts, others⟩ := undeclaredParameters_names implicit shape
    rw [parts]
    refine ⟨?_, ⟨_, List.mem_cons_self, isReceiver⟩, ?_⟩
    · intro parameter member isReceiver
      rcases List.mem_cons.1 member with rfl | later
      · rfl
      · exact absurd isReceiver (by simp [others parameter later])
    · refine iff_of_true ⟨isReceiver, ?_⟩ fun _ declared => nomatch declared
      intro shownName member
      obtain ⟨other, later, rfl⟩ := List.mem_map.1 member
      exact others other later
  · obtain ⟨signature, rfl, rfl⟩ := Option.map_eq_some_iff.1 isDeclared
    have names := @outlineAll_names path typing.value [] (signature.withReceiver name kind)
    refine ⟨outlineAll_untyped _ _, ?_, ?_⟩
    · obtain ⟨parameter, member, isReceiver⟩ := @Signature.hasReceiver_withReceiver name kind signature takes
      have shown : parameter.name ∈ (typing.value.outlineAll path [] (signature.withReceiver name kind)).value.map
          ParameterOutline.name := names ▸ List.mem_map_of_mem member
      obtain ⟨outline, listed, same⟩ := List.mem_map.1 shown
      exact ⟨outline, listed, same ▸ isReceiver⟩
    · calc ReceiverLeads ((typing.value.outlineAll path [] (signature.withReceiver name kind)).value.map
            ParameterOutline.name)
        _ ↔ signature.FitsReceiver name kind := by rw [names]; exact Signature.leads_withReceiver_iff takes
        _ ↔ ∀ declared ∈ some signature, declared.FitsReceiver name kind := by simp

/-- A bound method that is shown has a receiver, and no receiver has an annotation. The receiver stands first, and is
the only one, exactly if the signature of the member that the method was made of fits it. -/
theorem receiver_leads_iff_fits {names : List String} {mod : Module} {found : Found ModuleOutline} {item : ClassOutline}
    {method : CallableOutline} (ran : mod.outline view names = .ok found) (listed : item ∈ found.value.classes)
    (ordinary : isErrorType item.name = false) (inside : method ∈ item.methods ++ item.protocolMethods)
    (takes : method.kind ∈ CallableKind.receiverKinds) (told : Protocol.shape? method.name ≠ some .bare) :
    ReceiversUntyped method.parameters ∧
    (∃ parameter ∈ method.parameters, isReceiverName parameter.name = true) ∧
    ∃ member, mod.HasClassMember item.name member ∧ member.name = method.name ∧
      (∃ made, outlineCallable view (mod.name ++ "." ++ item.name ++ "." ++ member.name) member.name method.kind
        (some item.name) (member.content.routine?.getD {}) = .ok made ∧ made.value = method) ∧
      (ReceiverLeads (method.parameters.map ParameterOutline.name) ↔
        ∀ signature ∈ member.content.routine?.bind Routine.signature,
          signature.FitsReceiver method.name method.kind) := by
  obtain ⟨member, has, named, -, made, outlined, value⟩ := exists_callable ran listed inside
  obtain ⟨-, ⟨isError, -⟩ | ⟨-, parameters, returns, ranParameters, -, is⟩⟩ := outlineCallable_cases outlined
  · exact absurd isError (by simp [ordinary])
  · have shown : parameters.value = method.parameters := by rw [← value, is]; rfl
    have receivers := outlineParameters_receivers takes (named ▸ told) ranParameters
    rw [shown, named] at receivers
    refine ⟨receivers.1, receivers.2.1, member, has, named, ⟨made, outlined, value⟩, receivers.2.2.trans ?_⟩
    cases member.content.routine? <;> rfl

def withUnit (made scaled : List Parameter) : Module where
  name := "pkg"
  doc := none
  attributes := ∅
  members := [⟨"Unit", none, .classDef none [
    ⟨"__init__", none, .routine { doc := some ":type size: int\n:rtype: None", signature := some ⟨made⟩ }⟩,
    ⟨"scaled", none, .routine { doc := some ":type factor: float", signature := some ⟨scaled⟩ }⟩]⟩]

def unitShown (made scaled : List ParameterOutline) : ClassOutline where
  name := "Unit"
  methods := [
    ⟨"__init__", .constructor, made, some (.name "None"), none⟩,
    ⟨"scaled", .bound, scaled, some .any, none⟩]

def receiverShown (name : String) : ParameterOutline := { name := name, type := none }

def sizeShown : ParameterOutline := { name := "size", type := some (.name "int") }

def factorShown : ParameterOutline := { name := "factor", type := some (.name "float") }

theorem unit_receivers_lead :
    isErrorType "Unit" = false ∧
    (withUnit [{ name := "size" }] [{ name := "self" }, { name := "factor" }]).outline ⟨∅, "pkg"⟩ [] =
      .ok { value := { name := "pkg", classes := [
        unitShown [receiverShown "self", sizeShown] [receiverShown "self", factorShown]] } } ∧
    CallableKind.bound ∈ CallableKind.receiverKinds ∧ Protocol.shape? "scaled" ≠ some .bare ∧
    ∃ member, (withUnit [{ name := "size" }] [{ name := "self" }, { name := "factor" }]).HasClassMember "Unit" member ∧
      member.name = "scaled" ∧
      (ReceiverLeads ["self", "factor"] ↔
        ∀ signature ∈ member.content.routine?.bind Routine.signature, signature.FitsReceiver "scaled" .bound) := by
  have ran : (withUnit [{ name := "size" }] [{ name := "self" }, { name := "factor" }]).outline ⟨∅, "pkg"⟩ [] =
      .ok { value := { name := "pkg", classes := [
        unitShown [receiverShown "self", sizeShown] [receiverShown "self", factorShown]] } } := by
    with_unfolding_all rfl
  have ordinary : isErrorType "Unit" = false := by decide
  have told : Protocol.shape? "scaled" ≠ some .bare := by decide
  have takes : CallableKind.bound ∈ CallableKind.receiverKinds := by decide
  have isShown : ⟨"scaled", .bound, [receiverShown "self", factorShown], some .any, none⟩ ∈
      (unitShown [receiverShown "self", sizeShown] [receiverShown "self", factorShown]).methods ++ [] := by
    decide
  obtain ⟨-, -, member, has, named, -, leads⟩ :=
    receiver_leads_iff_fits ran List.mem_cons_self ordinary isShown takes told
  exact ⟨ordinary, ran, takes, told, member, has, named, leads⟩

theorem unit_receivers_do_not_lead :
    isErrorType "Unit" = false ∧
    ∃ item, (withUnit [{ name := "cls" }, { name := "size" }] [{ name := "factor" }, { name := "self" }]).outline
        ⟨∅, "pkg"⟩ [] = .ok { value := { name := "pkg", classes := [item] } } ∧ item.name = "Unit" ∧
      item.methods.map CallableOutline.kind = [.constructor, .bound] ∧
      ∀ method ∈ item.methods, method.kind ∈ CallableKind.receiverKinds ∧ Protocol.shape? method.name ≠ some .bare ∧
        ¬ ReceiverLeads (method.parameters.map ParameterOutline.name) := by
  have ordinary : isErrorType "Unit" = false := by decide
  exact ⟨ordinary, unitShown [receiverShown "self", receiverShown "cls", sizeShown] [factorShown, receiverShown "self"],
    by with_unfolding_all rfl, rfl, rfl, by decide⟩

end TypedStub
