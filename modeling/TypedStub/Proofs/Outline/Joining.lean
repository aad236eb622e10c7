import TypedStub.Proofs.Outline.Cases
import TypedStub.Proofs.Outline.Faults

/-! Outlines of modules whose members are put one after the other.

What a member becomes does not depend on the members before it. An outline of two lists of members is therefore
the outlines of both, put together: of two entries of one name the first is kept, and what the second list loses
by that is warned about.
-/

set_option autoImplicit false

namespace TypedStub

namespace NameSet

theorem union_empty (names : NameSet) : names ∪ ∅ = names := ext_mem (by simp)

theorem union_assoc (first second third : NameSet) : first ∪ second ∪ third = first ∪ (second ∪ third) :=
  ext_mem (by simp [or_assoc])

end NameSet

namespace Shelves

variable {α β γ σ : Type} [DecidableEq σ] (shelves : Shelves α β σ)

/-- The contributions that an outline answers for, by its entries or by its warnings about repeated names. -/
def load (outline : Found α) : Nat := shelves.size outline.value + Warning.count .duplicateMember outline.warnings

/-- The outline of some members and then others, put together from the outlines of both. -/
structure Joins (first second whole : Found α) : Prop where
  entries : ∀ place, shelves.entries whole.value place = shelves.entries first.value place ++
    (shelves.entries second.value place).filter fun entry => !shelves.name entry ∈ shelves.names first.value place
  imports : whole.imports = first.imports ∪ second.imports
  warnings : whole.warnings.filter (·.kind ≠ .duplicateMember) =
    first.warnings.filter (·.kind ≠ .duplicateMember) ++ second.warnings.filter (·.kind ≠ .duplicateMember)
  load : shelves.load whole = shelves.load first + shelves.load second

variable {shelves} {first second whole : Found α} {path : String} {entry : Found (Option β)}

theorem Joins.start (entries : ∀ place, shelves.entries second.value place = []) (imports : second.imports = ∅)
    (warnings : second.warnings = []) (size : shelves.size second.value = 0) : shelves.Joins first second first where
  entries place := by rw [entries, List.filter_nil, List.append_nil]
  imports := by rw [imports, NameSet.union_empty]
  warnings := by rw [warnings, List.filter_nil, List.append_nil]
  load := by simp [Shelves.load, size, warnings, Warning.count]

theorem Joins.mem_names (joins : shelves.Joins first second whole) {place : σ} {name : String} :
    name ∈ shelves.names whole.value place ↔
      name ∈ shelves.names first.value place ∨ name ∈ shelves.names second.value place := by
  have parts : name ∈ shelves.names whole.value place ↔ name ∈ shelves.names first.value place ∨
      ∃ entry ∈ shelves.entries second.value place,
        ¬ shelves.name entry ∈ shelves.names first.value place ∧ shelves.name entry = name := by
    simp [names, joins.entries, and_assoc]
  rw [parts]
  constructor
  · rintro (inFirst | ⟨entry, member, -, rfl⟩)
    · exact .inl inFirst
    · exact .inr (List.mem_map_of_mem member)
  · rintro (inFirst | inSecond)
    · exact .inl inFirst
    · by_cases taken : name ∈ shelves.names first.value place
      · exact .inl taken
      · obtain ⟨entry, member, rfl⟩ := List.mem_map.1 inSecond
        exact .inr ⟨entry, member, taken, rfl⟩

theorem imports_place : (whole.place shelves.add? path entry).imports = whole.imports ∪ entry.imports := by
  rcases shelves.place_cases path whole entry with ⟨-, placed⟩ | ⟨_, -, -, placed⟩ | ⟨_, _, -, -, -, placed⟩ <;>
  rw [placed]

theorem filter_warnings_place : (whole.place shelves.add? path entry).warnings.filter (·.kind ≠ .duplicateMember) =
    whole.warnings.filter (·.kind ≠ .duplicateMember) ++ entry.warnings.filter (·.kind ≠ .duplicateMember) := by
  rcases shelves.place_cases path whole entry with ⟨-, placed⟩ | ⟨_, -, -, placed⟩ | ⟨_, _, -, -, -, placed⟩ <;>
  rw [placed] <;> simp [Warning.duplicateMember]

theorem load_place : shelves.load (whole.place shelves.add? path entry) =
    shelves.load whole + (entry.value.toList.length + Warning.count .duplicateMember entry.warnings) := by
  rcases shelves.place_cases path whole entry with
    ⟨nothing, placed⟩ | ⟨item, has, -, placed⟩ | ⟨item, larger, has, -, added, placed⟩
  · rw [placed, nothing]
    simp [load, Warning.count, Nat.add_assoc]
  · rw [placed, has]
    simp [load, Warning.count, Warning.duplicateMember]
    omega
  · rw [placed, has]
    simp [load, Warning.count, shelves.size_add? added]
    omega

theorem entries_place (place : σ) : shelves.entries (whole.place shelves.add? path entry).value place =
    shelves.entries whole.value place ++ entry.value.toList.filter fun item =>
      shelves.shelf item = place ∧ ¬ shelves.name item ∈ shelves.names whole.value place := by
  rcases shelves.place_cases path whole entry with
    ⟨nothing, placed⟩ | ⟨item, has, taken, placed⟩ | ⟨item, larger, has, new, added, placed⟩
  · rw [placed, nothing]
    simp
  · rw [placed, has]
    by_cases here : shelves.shelf item = place
    · simp [← here, taken]
    · simp [here]
  · rw [placed, has, shelves.entries_add? added]
    by_cases here : shelves.shelf item = place
    · simp [← here, new]
    · simp [here]

/-- One more contribution to the second part and to the whole leaves the whole put together from the parts. -/
theorem Joins.place (joins : shelves.Joins first second whole) :
    shelves.Joins first (second.place shelves.add? path entry) (whole.place shelves.add? path entry) where
  entries place := by
    have names : ∀ name, ¬ name ∈ shelves.names whole.value place ↔
        ¬ name ∈ shelves.names first.value place ∧ ¬ name ∈ shelves.names second.value place := fun name => by
      rw [joins.mem_names, not_or]
    simp only [entries_place, joins.entries, List.filter_append, List.filter_filter, List.append_assoc, names]
    congr 2
    apply List.filter_congr
    intro item _
    simp [Bool.and_left_comm]
  imports := by rw [imports_place, imports_place, joins.imports, NameSet.union_assoc]
  warnings := by
    rw [filter_warnings_place, filter_warnings_place, joins.warnings, List.append_assoc]
  load := by
    rw [load_place, load_place, joins.load, Nat.add_assoc]

theorem Joins.foldlM {work : γ → Outlining (Found (Option β))} {pathOf : γ → String} {items : List γ} {last : Found α}
    (joins : shelves.Joins first second whole)
    (ran : items.foldlM (fun outline item => (work item).map (outline.place shelves.add? (pathOf item))) second = .ok last) :
    ∃ longer, items.foldlM (fun outline item => (work item).map (outline.place shelves.add? (pathOf item))) whole =
      .ok longer ∧ shelves.Joins first last longer := by
  induction items generalizing second whole with
  | nil =>
    cases ran
    exact ⟨whole, rfl, joins⟩
  | cons item rest ih =>
    rw [List.foldlM_cons] at ran ⊢
    obtain ⟨next, stepped, ran⟩ := Outlining.bind_eq_ok.1 ran
    obtain ⟨entry, worked, rfl⟩ := Outlining.map_eq_ok.1 stepped
    rw [worked]
    exact ih joins.place ran

end Shelves

structure Joined (first second whole : Found ModuleOutline) : Prop where
  name : whole.value.name = first.value.name
  classes : whole.value.classes = first.value.classes ++
    second.value.classes.filter fun item => !item.name ∈ first.value.classes.map ClassOutline.name
  functions : whole.value.functions = first.value.functions ++
    second.value.functions.filter fun item => !item.name ∈ first.value.functions.map CallableOutline.name
  metadata : whole.value.metadata = first.value.metadata ∧ whole.value.metadata = second.value.metadata
  imports : whole.value.imports = first.value.imports ∪ second.value.imports
  warnings : whole.warnings.filter (·.kind ≠ .duplicateMember) =
    first.warnings.filter (·.kind ≠ .duplicateMember) ++ second.warnings.filter (·.kind ≠ .duplicateMember)
  duplicates : Warning.count .duplicateMember whole.warnings =
    Warning.count .duplicateMember first.warnings + Warning.count .duplicateMember second.warnings
      + second.value.classes.countP (fun item => item.name ∈ first.value.classes.map ClassOutline.name)
      + second.value.functions.countP (fun item => item.name ∈ first.value.functions.map CallableOutline.name)

theorem joined_of_joins {first second whole : Found ModuleOutline} (mod : Module) (names : List String)
    (joins : ModuleOutline.shelves.Joins first second whole) (named : whole.value.name = first.value.name) :
    Joined (mod.finish names first) (mod.finish names second) (mod.finish names whole) := by
  have classNames : ModuleOutline.shelves.names first.value .classes =
      first.value.classes.map ClassOutline.name := List.map_map
  have functionNames : ModuleOutline.shelves.names first.value .functions =
      first.value.functions.map CallableOutline.name := List.map_map
  have classes := append_filter_of_map (fun _ _ => ModuleEntry.classDef.inj) (joins.entries .classes)
  have functions := append_filter_of_map (fun _ _ => ModuleEntry.function.inj) (joins.entries .functions)
  rw [classNames] at classes
  rw [functionNames] at functions
  refine ⟨named, classes, functions, ⟨rfl, rfl⟩, joins.imports, joins.warnings, ?_⟩
  have load : whole.value.classes.length + whole.value.functions.length + Warning.count .duplicateMember whole.warnings =
      first.value.classes.length + first.value.functions.length + Warning.count .duplicateMember first.warnings
        + (second.value.classes.length + second.value.functions.length
          + Warning.count .duplicateMember second.warnings) := joins.load
  -- Of the entries of the second outline those are lost whose names the first one has, which balances the warnings.
  have keptClasses : whole.value.classes.length + second.value.classes.countP
      (fun item => item.name ∈ first.value.classes.map ClassOutline.name) =
        first.value.classes.length + second.value.classes.length := by
    rw [classes]
    exact length_append_filter
  have keptFunctions : whole.value.functions.length + second.value.functions.countP
      (fun item => item.name ∈ first.value.functions.map CallableOutline.name) =
        first.value.functions.length + second.value.functions.length := by
    rw [functions]
    exact length_append_filter
  change Warning.count .duplicateMember whole.warnings = Warning.count .duplicateMember first.warnings
    + Warning.count .duplicateMember second.warnings
    + second.value.classes.countP (fun item => item.name ∈ first.value.classes.map ClassOutline.name)
    + second.value.functions.countP (fun item => item.name ∈ first.value.functions.map CallableOutline.name)
  omega

namespace Outlining

theorem failure?_addRootMembers {view : Viewpoint} {moduleName : String} {members : List Member}
    {start : Found ModuleOutline} :
    failure? (members.foldlM (addRootMember view moduleName) start) =
      members.findSome? fun member => (member.sites (moduleName ++ "." ++ member.name)).findSome? Site.fault? :=
  failure?_foldlM fun _ _ _ => failure?_map.trans failure?_outlineRootMember

end Outlining

/-- A module with two lists of members fails like the first list, or else like the second. If neither fails, its
outline is put together from the outlines of both. -/
theorem outline_of_appended_members (view : Viewpoint) (names : List String) (mod : Module) (first second : List Member) :
    match ({ mod with members := first }).outline view names, ({ mod with members := second }).outline view names with
    | .error failure, _ => ({ mod with members := first ++ second }).outline view names = .error failure
    | .ok _, .error failure => ({ mod with members := first ++ second }).outline view names = .error failure
    | .ok one, .ok other => ∃ whole,
        ({ mod with members := first ++ second }).outline view names = .ok whole ∧ Joined one other whole := by
  let start : Found ModuleOutline := { value := { name := mod.name } }
  let run (members : List Member) := (Scope.moduleBody.visible members).foldlM (addRootMember view mod.name)
  have appended : run (first ++ second) start = run first start >>= run second := by
    simp only [run, Scope.visible, List.filter_append, List.foldlM_append]
  have outlines : ∀ members, ({ mod with members := members }).outline view names =
      (run members start).map (mod.finish names) := fun _ => Module.outline_eq_map
  simp only [outlines, appended]
  cases ranFirst : run first start with
  | error failure => rfl
  | ok one =>
    cases ranSecond : run second start with
    | error failure =>
      -- The second run fails in the same way after the first one.
      have fails : Outlining.failure? (run second one) = some failure := by
        rw [Outlining.failure?_addRootMembers, ← Outlining.failure?_addRootMembers]
        exact Outlining.failure?_eq_some_iff.2 ranSecond
      have ranLater : run second one = .error failure := Outlining.failure?_eq_some_iff.1 fails
      change Except.map (mod.finish names) (run second one) = .error failure
      rw [ranLater]
      rfl
    | ok other =>
      have starts : ModuleOutline.shelves.Joins one start one := by
        refine Shelves.Joins.start (fun place => ?_) rfl rfl rfl
        cases place <;> rfl
      obtain ⟨whole, ranLater, joins⟩ := starts.foldlM ranSecond
      refine ⟨mod.finish names whole, ?_, joined_of_joins mod names joins (name_addRootMembers ranLater)⟩
      change Except.map (mod.finish names) (run second one) = .ok (mod.finish names whole)
      rw [show run second one = .ok whole from ranLater]
      rfl

end TypedStub
