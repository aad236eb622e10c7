import Mathlib.Data.List.Forall2
import Mathlib.Data.List.Induction
import Mathlib.Data.List.Nodup
import TypedStub.Proofs.Outline.Cases

/-! What becomes of the members of a class or a module.

Each visible member goes to one list of the outline, is left out on purpose, or is not supported. Of the members
that go to a list those that are the first of their name are in it, and the others are warned about.
-/

set_option autoImplicit false

namespace TypedStub

section
variable {α β κ : Type} [DecidableEq κ]

/-- What is told about items that come after others, each in the light of all before it. -/
def tellAll (tell : List α → α → List β) (before : List α) : List α → List β
  | [] => []
  | item :: rest => tell before item ++ tellAll tell (before ++ [item]) rest

theorem tellAll_append_singleton {tell : List α → α → List β} {before items : List α} {item : α} :
    tellAll tell before (items ++ [item]) = tellAll tell before items ++ tell (before ++ items) item := by
  induction items generalizing before with
  | nil => simp [tellAll]
  | cons head rest ih => simp [tellAll, ih]

theorem countP_tellAll {tell : List α → α → List β} {own : α → List β} {p : β → Bool} {before items : List α}
    (nothing : ∀ item, (own item).countP p = 0) :
    (tellAll (fun before item => own item ++ tell before item) before items).countP p =
      (tellAll tell before items).countP p := by
  induction items generalizing before with
  | nil => rfl
  | cons item rest ih => simp only [tellAll, List.countP_append, nothing, ih, Nat.zero_add]

def firsts (key : α → κ) : List α → List α :=
  tellAll (fun before item => if key item ∈ before.map key then [] else [item]) []

theorem firsts_append_singleton {key : α → κ} {items : List α} {item : α} :
    firsts key (items ++ [item]) = firsts key items ++ if key item ∈ items.map key then [] else [item] :=
  tellAll_append_singleton

theorem mem_map_firsts {key : α → κ} {items : List α} {value : κ} :
    value ∈ (firsts key items).map key ↔ value ∈ items.map key := by
  induction items using List.reverseRecOn with
  | nil => rfl
  | append_singleton items item ih =>
    rw [firsts_append_singleton, List.map_append, List.mem_append, ih, List.map_append, List.mem_append]
    split
    · rename_i taken
      have same : value = key item → value ∈ items.map key := fun same => same ▸ taken
      simpa using same
    · simp

theorem nodup_map_firsts {key : α → κ} {items : List α} : ((firsts key items).map key).Nodup := by
  induction items using List.reverseRecOn with
  | nil => exact .nil
  | append_singleton items item ih =>
    rw [firsts_append_singleton]
    split
    · rwa [List.append_nil]
    · rename_i new
      rw [List.map_append, List.map_singleton, ← List.concat_eq_append]
      exact List.Nodup.concat (fun taken => new (mem_map_firsts.1 taken)) ih

end

inductive Fate (σ : Type) where
  | listed (place : σ)
  | discarded
  | unsupported
  deriving DecidableEq

def Role.list : Role → ClassList
  | .attribute => .attributes
  | .constant => .constants
  | .callable kind => if kind = .protocol then .protocolMethods else .methods

def Member.fate (owner : String) (member : Member) : Fate ClassList :=
  match member.verdict owner with
  | .shown role _ => .listed role.list
  | .discarded => .discarded
  | .unsupported => .unsupported

def Member.rootFate (member : Member) : Fate ModuleList :=
  match member.content.moduleRole with
  | .classDef .. => .listed .classes
  | .function _ => .listed .functions
  | .unsupported => .unsupported

/-- How the members of a body come into its outline: what each one becomes by itself, and which list it is
for. -/
structure Census (α β σ : Type) [DecidableEq σ] extends Shelves α β σ where
  path : Member → String
  fate : Member → Fate σ
  unsupported : String → Warning
  contribute : Member → Outlining (Found (Option β))
  kind_unsupported : ∀ path, (unsupported path).kind = .unsupportedMember
  sound : ∀ {member found}, contribute member = .ok found →
    match fate member with
    | .listed place => ∃ item, found.value = some item ∧ shelf item = place ∧ name item = member.name
    | .discarded => found = { value := none }
    | .unsupported => found = { value := none, warnings := [unsupported (path member)] }

namespace Census

variable {α β σ : Type} [DecidableEq σ] (census : Census α β σ)

def sentTo (place : σ) (members : List Member) : List Member :=
  members.filter fun member => census.fate member = .listed place

def Becomes (member : Member) (item : β) : Prop :=
  ∃ found, census.contribute member = .ok found ∧ found.value = some item

def ownWarnings (member : Member) : List Warning :=
  match census.fate member, census.contribute member with
  | .listed _, .ok found => found.warnings
  | _, _ => []

/-- The warning that a member has no place in the outline, if it should have one. -/
def ruling (before : List Member) (member : Member) : List Warning :=
  match census.fate member with
  | .listed place =>
    if member.name ∈ (census.sentTo place before).map Member.name then [.duplicateMember (census.path member)] else []
  | .discarded => []
  | .unsupported => [census.unsupported (census.path member)]

def rulings (members : List Member) : List Warning := tellAll census.ruling [] members

/-- Every member has its place in an outline or is accounted for by a warning, unless it is left out on
purpose. -/
structure Accounts (members : List Member) (outline : Found α) : Prop where
  becomes : ∀ place, List.Forall₂ census.Becomes (firsts Member.name (census.sentTo place members))
    (census.entries outline.value place)
  warnings : outline.warnings =
    tellAll (fun before member => census.ownWarnings member ++ census.ruling before member) [] members
  size : members.length = census.size outline.value
    + members.countP (fun member => census.fate member = .discarded)
    + Warning.count .unsupportedMember (census.rulings members)
    + Warning.count .duplicateMember (census.rulings members)

variable {census} {before : List Member} {member : Member} {outline : Found α}

theorem sentTo_append_singleton {place : σ} :
    census.sentTo place (before ++ [member]) =
      census.sentTo place before ++ if census.fate member = .listed place then [member] else [] := by
  rw [sentTo, List.filter_append]
  by_cases here : census.fate member = .listed place <;> simp [sentTo, here]

theorem firsts_sentTo {place : σ} :
    firsts Member.name (census.sentTo place (before ++ [member])) =
      firsts Member.name (census.sentTo place before) ++
        if census.fate member = .listed place ∧ ¬ member.name ∈ (census.sentTo place before).map Member.name
          then [member] else [] := by
  rw [sentTo_append_singleton]
  by_cases here : census.fate member = .listed place
  · rw [if_pos here, firsts_append_singleton]
    by_cases taken : member.name ∈ (census.sentTo place before).map Member.name
    · rw [if_pos taken, if_neg fun new => new.2 taken]
    · rw [if_neg taken, if_pos ⟨here, taken⟩]
  · rw [if_neg here, if_neg fun new => here new.1, List.append_nil, List.append_nil]

theorem rulings_append_singleton :
    census.rulings (before ++ [member]) = census.rulings before ++ census.ruling before member :=
  tellAll_append_singleton

theorem Accounts.start (empty : ∀ place, census.entries outline.value place = [])
    (size : census.size outline.value = 0) (silent : outline.warnings = []) : census.Accounts [] outline where
  becomes place := by rw [empty]; exact .nil
  warnings := silent
  size := by rw [size]; rfl

theorem Becomes.listed {item : β} (becomes : census.Becomes member item) :
    census.fate member = .listed (census.shelf item) ∧ census.name item = member.name := by
  obtain ⟨found, ran, has⟩ := becomes
  have sound := census.sound ran
  cases fate : census.fate member with
  | listed place =>
    rw [fate] at sound
    obtain ⟨other, hasOther, rfl, named⟩ := sound
    cases has.symm.trans hasOther
    exact ⟨rfl, named⟩
  | discarded | unsupported =>
    rw [fate] at sound
    cases sound
    cases has

theorem Accounts.names (accounts : census.Accounts before outline) (place : σ) :
    census.names outline.value place = (firsts Member.name (census.sentTo place before)).map Member.name := by
  have same : ∀ {members items}, List.Forall₂ census.Becomes members items →
      items.map census.name = members.map Member.name := by
    intro members items becomes
    induction becomes with
    | nil => rfl
    | cons becomes _ ih => rw [List.map_cons, List.map_cons, ih, becomes.listed.2]
  exact same (accounts.becomes place)

theorem Accounts.mem_names (accounts : census.Accounts before outline) {place : σ} {name : String} :
    name ∈ census.names outline.value place ↔ name ∈ (census.sentTo place before).map Member.name := by
  rw [accounts.names, mem_map_firsts]

/-- One more member is accounted for if each list gains what that member becomes there. -/
theorem Accounts.add (accounts : census.Accounts before outline) {next : Found α} (items : σ → List β)
    (entries : ∀ place, census.entries next.value place = census.entries outline.value place ++ items place)
    (becomes : ∀ place, List.Forall₂ census.Becomes
      (if census.fate member = .listed place ∧ ¬ member.name ∈ (census.sentTo place before).map Member.name
        then [member] else []) (items place))
    (warnings : next.warnings = outline.warnings ++ (census.ownWarnings member ++ census.ruling before member))
    (size : census.size next.value + (if census.fate member = .discarded then 1 else 0)
      + Warning.count .unsupportedMember (census.ruling before member)
      + Warning.count .duplicateMember (census.ruling before member) = census.size outline.value + 1) :
    census.Accounts (before ++ [member]) next where
  becomes place := by
    rw [firsts_sentTo, entries]
    exact List.rel_append (accounts.becomes place) (becomes place)
  warnings := by rw [warnings, accounts.warnings, tellAll_append_singleton]; rfl
  size := by
    have counted := accounts.size
    simp only [rulings_append_singleton, Warning.count, List.countP_append, List.countP_singleton, List.length_append,
      List.length_singleton, decide_eq_true_eq] at counted size ⊢
    omega

theorem Accounts.unlisted (accounts : census.Accounts before outline) {warnings : List Warning}
    (unlisted : ∀ place, census.fate member ≠ .listed place) (ruling : census.ruling before member = warnings)
    (counted : (if census.fate member = .discarded then 1 else 0) + Warning.count .unsupportedMember warnings
      + Warning.count .duplicateMember warnings = 1) :
    census.Accounts (before ++ [member])
      (outline.place census.add? (census.path member) { value := none, warnings := warnings }) := by
  have own : census.ownWarnings member = [] := by
    cases fate : census.fate member with
    | listed place => exact absurd fate (unlisted place)
    | discarded | unsupported => simp only [ownWarnings, fate]
  refine accounts.add (fun _ => []) (fun place => ?_) (fun place => ?_) ?_ ?_
  · exact (List.append_nil _).symm
  · rw [if_neg fun fated => unlisted place fated.1]
    exact .nil
  · rw [own, ruling]
    rfl
  · change census.size outline.value + _ + _ + _ = _
    rw [ruling]
    omega

section
variable {found : Found (Option β)} {imports : NameSet}

theorem Accounts.repeated (accounts : census.Accounts before outline) (ran : census.contribute member = .ok found)
    {place : σ} (fate : census.fate member = .listed place)
    (taken : member.name ∈ (census.sentTo place before).map Member.name) :
    census.Accounts (before ++ [member]) ⟨outline.value, imports,
      outline.warnings ++ (found.warnings ++ [.duplicateMember (census.path member)])⟩ := by
  have own : census.ownWarnings member = found.warnings := by simp only [ownWarnings, fate, ran]
  have ruling : census.ruling before member = [.duplicateMember (census.path member)] := by
    simp only [ruling, fate, if_pos taken]
  refine accounts.add (fun _ => []) (fun _ => (List.append_nil _).symm) (fun other => ?_) ?_ ?_
  · rw [if_neg]
    · exact .nil
    · rintro ⟨fated, new⟩
      cases fate.symm.trans fated
      exact new taken
  · rw [own, ruling]
  · simp [ruling, fate, Warning.count, Warning.duplicateMember]

theorem Accounts.listed (accounts : census.Accounts before outline) (ran : census.contribute member = .ok found)
    {item : β} {larger : α} (has : found.value = some item) (fate : census.fate member = .listed (census.shelf item))
    (new : ¬ member.name ∈ (census.sentTo (census.shelf item) before).map Member.name)
    (added : census.add? outline.value item = some larger) :
    census.Accounts (before ++ [member]) ⟨larger, imports, outline.warnings ++ found.warnings⟩ := by
  have own : census.ownWarnings member = found.warnings := by simp only [ownWarnings, fate, ran]
  have ruling : census.ruling before member = [] := by simp only [ruling, fate, if_neg new]
  refine accounts.add _ (census.entries_add? added) (fun place => ?_) ?_ ?_
  · by_cases same : census.shelf item = place
    · subst same
      rw [if_pos ⟨fate, new⟩, if_pos rfl]
      exact .cons ⟨found, ran, has⟩ .nil
    · rw [if_neg fun fated => same (Fate.listed.inj (fate.symm.trans fated.1)), if_neg same]
      exact .nil
  · rw [own, ruling, List.append_nil]
  · simp [ruling, fate, Warning.count, census.size_add? added]

theorem Accounts.step (accounts : census.Accounts before outline) (ran : census.contribute member = .ok found) :
    census.Accounts (before ++ [member]) (outline.place census.add? (census.path member) found) := by
  have sound := census.sound ran
  cases fate : census.fate member with
  | listed place =>
    rw [fate] at sound
    obtain ⟨item, has, rfl, named⟩ := sound
    -- The outline has the names of those members that were sent to the list before.
    rcases census.place_cases (census.path member) outline found with
      ⟨nothing, -⟩ | ⟨other, hasOther, taken, placed⟩ | ⟨other, larger, hasOther, new, added, placed⟩
    · cases has.symm.trans nothing
    · cases has.symm.trans hasOther
      rw [named, accounts.mem_names] at taken
      rw [placed]
      exact accounts.repeated ran fate taken
    · cases has.symm.trans hasOther
      rw [named, accounts.mem_names] at new
      rw [placed]
      exact accounts.listed ran has fate new added
  | discarded =>
    rw [fate] at sound
    cases sound
    have ruling : census.ruling before member = [] := by simp only [ruling, fate]
    exact accounts.unlisted (by simp [fate]) ruling (by simp [fate, Warning.count])
  | unsupported =>
    rw [fate] at sound
    cases sound
    have ruling : census.ruling before member = [census.unsupported (census.path member)] := by
      simp only [ruling, fate]
    exact accounts.unlisted (by simp [fate]) ruling (by simp [fate, Warning.count, census.kind_unsupported])

end

/-- The outline that the members of a body are taken into, one after the other, accounts for all of them. -/
theorem accounts_foldlM {members : List Member} {start outline : Found α} (starts : census.Accounts [] start)
    (ran : members.foldlM (fun outline member =>
      (census.contribute member).map (outline.place census.add? (census.path member))) start = .ok outline) :
    census.Accounts members outline := by
  -- The invariant is the account of the members so far, which each step extends by one member.
  have all := Outlining.foldlM_ok (fun before outline => census.Accounts before outline) (fun member => [member])
    (fun before outline member next _ accounts ran => by
      obtain ⟨found, contributed, rfl⟩ := Outlining.map_eq_ok.1 ran
      exact accounts.step contributed) starts ran
  simpa using all

theorem Accounts.nodup (accounts : census.Accounts before outline) (place : σ) :
    (census.names outline.value place).Nodup := by
  rw [accounts.names]
  exact nodup_map_firsts

theorem Accounts.count_warnings (accounts : census.Accounts before outline) {kind : WarningKind}
    (nothing : ∀ member, Warning.count kind (census.ownWarnings member) = 0) :
    Warning.count kind outline.warnings = Warning.count kind (census.rulings before) := by
  rw [accounts.warnings]
  exact countP_tellAll nothing

end Census

end TypedStub
