import TypedStub.Proofs.Outline.Accounting
import TypedStub.Proofs.Outline.Joining
import TypedStub.Stub

/-! One more member of a name that is taken.

The first member of a name is the one that an outline keeps, and a later one changes nothing of what is kept. Its
documentation is read all the same, before it is known that the name is taken. So the imports of its types stay,
and its warnings are followed by the one about its name.
-/

set_option autoImplicit false

namespace TypedStub

def Scope.Repeats {σ : Type} (scope : Scope) (fate : Member → Fate σ) (before : List Member) (member : Member) : Prop :=
  ∃ place, fate member = .listed place ∧
    ∃ kept ∈ scope.visible before, fate kept = .listed place ∧ kept.name = member.name

namespace NameSet

theorem union_right_comm (first second third : NameSet) : first ∪ second ∪ third = first ∪ third ∪ second :=
  ext_mem fun name => by simp only [mem_union, or_right_comm]

end NameSet

/-- What an entry becomes in an outline, and whether it is warned about, depends on the values alone. The imports
and warnings of both are put together in any case. -/
theorem Found.place_eq {α β : Type} (add? : α → β → Option α) (path : String) (value : α) (item : Option β) :
    ∃ next ending, ∀ imports entryImports warnings entryWarnings,
      (⟨value, imports, warnings⟩ : Found α).place add? path ⟨item, entryImports, entryWarnings⟩ =
        ⟨next, imports ∪ entryImports, warnings ++ (entryWarnings ++ ending)⟩ := by
  cases item with
  | none => exact ⟨value, [], fun _ _ _ _ => by simp [place, after]⟩
  | some item =>
    cases added : add? value item with
    | none => exact ⟨value, [.duplicateMember path], fun _ _ _ _ => by simp [place, after, added]⟩
    | some larger => exact ⟨larger, [], fun _ _ _ _ => by simp [place, after, added]⟩

/-- All that is left of a contribution that came too late: its imports, and its warnings with the one about its
name, all at one place. -/
structure Found.Trace {α β : Type} (late : Found β) (path : String) (without including : Found α) : Prop where
  value : including.value = without.value
  imports : including.imports = without.imports ∪ late.imports
  warnings : ∃ earlier later, without.warnings = earlier ++ later ∧
    including.warnings = earlier ++ (late.warnings ++ [.duplicateMember path]) ++ later

namespace Found.Trace

variable {α β γ δ : Type} {late : Found β} {latePath path : String}

section
variable {add? : α → γ → Option α} {without including : Found α}

theorem place (trace : late.Trace latePath without including) (entry : Found (Option γ)) :
    late.Trace latePath (without.place add? path entry) (including.place add? path entry) := by
  obtain ⟨same, imports, earlier, later, parts, larger⟩ := trace
  obtain ⟨next, ending, placed⟩ := Found.place_eq add? path without.value entry.value
  have first := placed without.imports entry.imports without.warnings entry.warnings
  have second := placed including.imports entry.imports including.warnings entry.warnings
  rw [← same] at second
  refine ⟨?_, ?_, earlier, later ++ (entry.warnings ++ ending), ?_, ?_⟩
  · rw [first, second]
  · rw [first, second]
    exact (congrArg (· ∪ entry.imports) imports).trans (NameSet.union_right_comm _ _ _)
  · rw [first, parts, List.append_assoc]
  · rw [second, larger, List.append_assoc]

theorem map (trace : late.Trace latePath without including) (f : α → δ) :
    late.Trace latePath (without.map f) (including.map f) :=
  ⟨congrArg f trace.value, trace.imports, trace.warnings⟩

theorem foldlM {work : δ → Outlining (Found (Option γ))} {pathOf : δ → String} {items : List δ} {last : Found α}
    (trace : late.Trace latePath without including)
    (ran : items.foldlM (fun outline item => (work item).map (outline.place add? (pathOf item))) without = .ok last) :
    ∃ other, items.foldlM (fun outline item => (work item).map (outline.place add? (pathOf item))) including = .ok other ∧
      late.Trace latePath last other := by
  induction items generalizing without including with
  | nil =>
    cases ran
    exact ⟨including, rfl, trace⟩
  | cons item rest ih =>
    rw [List.foldlM_cons] at ran ⊢
    obtain ⟨next, stepped, ran⟩ := Outlining.bind_eq_ok.1 ran
    obtain ⟨entry, worked, rfl⟩ := Outlining.map_eq_ok.1 stepped
    rw [worked]
    exact ih (trace.place entry) ran

end

/-- A trace within an entry is a trace in the outline that the entry is put into. -/
theorem place_entry {add? : α → γ → Option α} {without including : Found (Option γ)}
    (trace : late.Trace latePath without including) (outline : Found α) :
    late.Trace latePath (outline.place add? path without) (outline.place add? path including) := by
  obtain ⟨same, imports, earlier, later, parts, larger⟩ := trace
  obtain ⟨next, ending, placed⟩ := Found.place_eq add? path outline.value without.value
  have first := placed outline.imports without.imports outline.warnings without.warnings
  have second := placed outline.imports including.imports outline.warnings including.warnings
  rw [← same] at second
  refine ⟨?_, ?_, outline.warnings ++ earlier, later ++ ending, ?_, ?_⟩
  · rw [first, second]
  · rw [first, second]
    exact (congrArg (outline.imports ∪ ·) imports).trans (NameSet.union_assoc _ _ _).symm
  · rw [first, parts]
    simp only [List.append_assoc]
  · rw [second, larger]
    simp only [List.append_assoc]

end Found.Trace

namespace Shelves

variable {α β σ : Type} [DecidableEq σ] (shelves : Shelves α β σ)

theorem trace_of_taken {outline : Found α} {path : String} {entry : Found (Option β)} {item : β}
    (has : entry.value = some item) (taken : shelves.name item ∈ shelves.names outline.value (shelves.shelf item)) :
    entry.Trace path outline (outline.place shelves.add? path entry) := by
  rcases shelves.place_cases path outline entry with
    ⟨nothing, -⟩ | ⟨_, -, -, placed⟩ | ⟨other, _, hasOther, new, -, -⟩
  · cases has.symm.trans nothing
  · rw [placed]
    exact ⟨rfl, rfl, outline.warnings, [], (List.append_nil _).symm, by simp⟩
  · cases has.symm.trans hasOther
    exact absurd taken new

end Shelves

namespace Census

variable {α β σ : Type} [DecidableEq σ] {census : Census α β σ}

theorem trace_of_repeat {before after : List Member} {member : Member} {place : σ} {start one other : Found α}
    (starts : census.Accounts [] start) (fate : census.fate member = .listed place)
    (taken : member.name ∈ (census.sentTo place before).map Member.name)
    (ran : (before ++ after).foldlM (fun outline member =>
      (census.contribute member).map (outline.place census.add? (census.path member))) start = .ok one)
    (ranLonger : (before ++ member :: after).foldlM (fun outline member =>
      (census.contribute member).map (outline.place census.add? (census.path member))) start = .ok other) :
    ∃ found, census.contribute member = .ok found ∧ found.Trace (census.path member) one other := by
  rw [List.foldlM_append] at ran ranLonger
  obtain ⟨outline, ranBefore, ran⟩ := Outlining.bind_eq_ok.1 ran
  obtain ⟨same, ranSame, ranLonger⟩ := Outlining.bind_eq_ok.1 ranLonger
  cases ranBefore.symm.trans ranSame
  rw [List.foldlM_cons] at ranLonger
  obtain ⟨next, stepped, ranLonger⟩ := Outlining.bind_eq_ok.1 ranLonger
  obtain ⟨found, contributed, rfl⟩ := Outlining.map_eq_ok.1 stepped
  -- The accounts of the members before it tell that the name is in the list that the member is for.
  have sound := census.sound contributed
  rw [fate] at sound
  obtain ⟨item, has, shelf, named⟩ := sound
  have inList : census.name item ∈ census.names outline.value (census.shelf item) := by
    rw [named, shelf]
    exact (accounts_foldlM starts ranBefore).mem_names.2 taken
  obtain ⟨last, ranTo, trace⟩ := (census.trace_of_taken has inList).foldlM ran
  cases ranTo.symm.trans ranLonger
  exact ⟨found, contributed, trace⟩

end Census

theorem Scope.visible_cons {scope : Scope} {member : Member} (shown : scope.shows member.name)
    (before after : List Member) :
    scope.visible (before ++ member :: after) = scope.visible before ++ member :: scope.visible after := by
  simp [Scope.visible, shown]

namespace Scope.Repeats

variable {σ : Type} {scope : Scope} {fate : Member → Fate σ} {before : List Member} {member : Member}

theorem visible (repeats : scope.Repeats fate before member) (after : List Member) :
    scope.visible (before ++ member :: after) = scope.visible before ++ member :: scope.visible after := by
  obtain ⟨place, -, kept, visible, -, named⟩ := repeats
  exact visible_cons (named ▸ (List.mem_filter.1 visible).2) before after

end Scope.Repeats

/-- A repeated member of a body leaves a trace in its outline and nothing else. -/
theorem Census.trace_of_repeats {α β σ : Type} [DecidableEq σ] {census : Census α β σ} {scope : Scope}
    {before after : List Member} {member : Member} {start one other : Found α} (starts : census.Accounts [] start)
    (repeats : scope.Repeats census.fate before member)
    (ran : (scope.visible (before ++ after)).foldlM (fun outline member =>
      (census.contribute member).map (outline.place census.add? (census.path member))) start = .ok one)
    (ranLonger : (scope.visible (before ++ member :: after)).foldlM (fun outline member =>
      (census.contribute member).map (outline.place census.add? (census.path member))) start = .ok other) :
    ∃ found, census.contribute member = .ok found ∧ found.Trace (census.path member) one other := by
  rw [repeats.visible] at ranLonger
  rw [Scope.visible, List.filter_append] at ran
  obtain ⟨place, fate, kept, visible, keptFate, named⟩ := repeats
  have taken : member.name ∈ (census.sentTo place (scope.visible before)).map Member.name :=
    List.mem_map.2 ⟨kept, List.mem_filter.2 ⟨visible, decide_eq_true keptFate⟩, named⟩
  exact census.trace_of_repeat starts fate taken ran ranLonger

section
variable {view : Viewpoint} {before after : List Member} {member : Member}

theorem outlineClass_repeats {path name : String} {doc : Option String} {one other : Found ClassOutline}
    (repeats : Scope.classBody.Repeats (Member.fate name) before member)
    (ran : outlineClass view path name doc (before ++ after) = .ok one)
    (ranLonger : outlineClass view path name doc (before ++ member :: after) = .ok other) :
    ∃ found, outlineMember view (path ++ "." ++ member.name) name member = .ok found ∧
      found.Trace (path ++ "." ++ member.name) one other := by
  have starts : (Census.ofClass view path name).Accounts []
      { value := { name := name, doc := doc.bind fun doc => (Documentation.ofText doc).text } } :=
    .start (fun list => by cases list <;> rfl) rfl rfl
  exact Census.trace_of_repeats starts repeats ran ranLonger

end

/-- All that is left in the outline of a module of a contribution that came too late. -/
structure Found.Remains {β : Type} (late : Found β) (path : String) (without including : Found ModuleOutline) : Prop where
  value : including.value = { without.value with imports := without.value.imports ∪ late.imports }
  warnings : ∃ earlier later, without.warnings = earlier ++ later ∧
    including.warnings = earlier ++ (late.warnings ++ [.duplicateMember path]) ++ later

theorem Found.Trace.remains {β : Type} {late : Found β} {path : String} {one other : Found ModuleOutline}
    (trace : late.Trace path one other) (mod : Module) (names : List String) :
    late.Remains path (mod.finish names one) (mod.finish names other) where
  value := by
    change { other.value with metadata := mod.metadata names, imports := other.imports } = _
    rw [trace.value, trace.imports]
    rfl
  warnings := trace.warnings

theorem addRootMembers_repeats {view : Viewpoint} {moduleName name : String} {owner doc : Option String}
    {earlier later before after : List Member} {member : Member} {start one other : Found ModuleOutline}
    (repeats : Scope.classBody.Repeats (Member.fate name) before member)
    (ran : (earlier ++ Member.mk name owner (.classDef doc (before ++ after)) :: later).foldlM
      (addRootMember view moduleName) start = .ok one)
    (ranLonger : (earlier ++ Member.mk name owner (.classDef doc (before ++ member :: after)) :: later).foldlM
      (addRootMember view moduleName) start = .ok other) :
    ∃ found, outlineMember view (moduleName ++ "." ++ name ++ "." ++ member.name) name member = .ok found ∧
      found.Trace (moduleName ++ "." ++ name ++ "." ++ member.name) one other := by
  -- Both runs are the same up to the class, and after it the longer one keeps the trace of the member.
  rw [List.foldlM_append] at ran ranLonger
  obtain ⟨outline, ranEarlier, ran⟩ := Outlining.bind_eq_ok.1 ran
  obtain ⟨same, ranSame, ranLonger⟩ := Outlining.bind_eq_ok.1 ranLonger
  cases ranEarlier.symm.trans ranSame
  rw [List.foldlM_cons] at ran ranLonger
  obtain ⟨next, stepped, ran⟩ := Outlining.bind_eq_ok.1 ran
  obtain ⟨nextLonger, steppedLonger, ranLonger⟩ := Outlining.bind_eq_ok.1 ranLonger
  obtain ⟨entry, contributed, rfl⟩ := Outlining.map_eq_ok.1 stepped
  obtain ⟨entryLonger, contributedLonger, rfl⟩ := Outlining.map_eq_ok.1 steppedLonger
  obtain ⟨inner, classRan, rfl⟩ := Outlining.map_eq_ok.1 contributed
  obtain ⟨innerLonger, classRanLonger, rfl⟩ := Outlining.map_eq_ok.1 contributedLonger
  obtain ⟨found, outlined, trace⟩ := outlineClass_repeats repeats classRan classRanLonger
  obtain ⟨last, ranTo, traced⟩ := ((trace.map (some ∘ ModuleEntry.classDef)).place_entry outline).foldlM ran
  cases ranTo.symm.trans ranLonger
  exact ⟨found, outlined, traced⟩

/-- A member is put into a module on which the work succeeds, behind a member of its name that is for the same list
of the module or of a class. If the work succeeds again, the outline is as before, except that the imports of the new
member are added. The warnings have gained those about the new member and the one that its name is taken. -/
theorem outline_of_repeat (view : Viewpoint) (names : List String) (mod : Module) :
    (∀ before after member one other, Scope.moduleBody.Repeats Member.rootFate before member →
      ({ mod with members := before ++ after }).outline view names = .ok one →
      ({ mod with members := before ++ member :: after }).outline view names = .ok other →
      ∃ found, outlineRootMember view (mod.name ++ "." ++ member.name) member = .ok found ∧
        found.Remains (mod.name ++ "." ++ member.name) one other) ∧
    (∀ (earlier later : List Member) (name : String) (owner doc : Option String) before after member one other,
      Scope.moduleBody.shows name → Scope.classBody.Repeats (Member.fate name) before member →
      ({ mod with members := earlier ++ Member.mk name owner (.classDef doc (before ++ after)) :: later }).outline
        view names = .ok one →
      ({ mod with
        members := earlier ++ Member.mk name owner (.classDef doc (before ++ member :: after)) :: later }).outline
        view names = .ok other →
      ∃ found, outlineMember view (mod.name ++ "." ++ name ++ "." ++ member.name) name member = .ok found ∧
        found.Remains (mod.name ++ "." ++ name ++ "." ++ member.name) one other) := by
  constructor
  · intro before after member one other repeats ran ranLonger
    obtain ⟨folded, ranMembers, rfl⟩ := Module.outline_cases ran
    obtain ⟨foldedLonger, ranMembersLonger, rfl⟩ := Module.outline_cases ranLonger
    have starts : (Census.ofModule view mod.name).Accounts [] { value := { name := mod.name } } :=
      .start (fun list => by cases list <;> rfl) rfl rfl
    obtain ⟨found, contributed, trace⟩ := Census.trace_of_repeats starts repeats ranMembers ranMembersLonger
    exact ⟨found, contributed, trace.remains mod names⟩
  · intro earlier later name owner doc before after member one other shown repeats ran ranLonger
    obtain ⟨folded, ranMembers, rfl⟩ := Module.outline_cases ran
    obtain ⟨foldedLonger, ranMembersLonger, rfl⟩ := Module.outline_cases ranLonger
    -- The class is visible, so its outline is made in both runs, and the rest of the module comes after it.
    rw [Scope.visible_cons (by exact shown)] at ranMembers ranMembersLonger
    obtain ⟨found, contributed, trace⟩ := addRootMembers_repeats repeats ranMembers ranMembersLonger
    exact ⟨found, contributed, trace.remains mod names⟩

def firstNow : Member := ⟨"now", none, .routine { doc := some ":rtype: anise.time.Epoch", signature := some ⟨[]⟩ }⟩

def secondNow : Member :=
  ⟨"now", none, .routine { doc := some ":rtype: numpy.ndarray", signature := some ⟨[{ name := "scale" }]⟩ }⟩

def timed (members : List Member) : Module where
  name := "anise.astro"
  doc := none
  attributes := ∅
  members := members

def onceTimed : Found ModuleOutline where
  value := {
    name := "anise.astro"
    functions := [⟨"now", .function, [], some (.name "time.Epoch"), none⟩]
    imports := .ofList ["anise.time"] }
  imports := .ofList ["anise.time"]

def twiceTimed : Found ModuleOutline where
  value := { onceTimed.value with imports := .ofList ["anise.time", "numpy"] }
  imports := .ofList ["anise.time", "numpy"]
  warnings := [.unresolvedParameter "anise.astro.now" "scale", .duplicateMember "anise.astro.now"]

def onceClocked : Found ModuleOutline where
  value := {
    name := "anise.astro"
    classes := [{
      name := "Clock"
      methods := [⟨"now", .bound, [⟨"self", none, none, .positionalOrKeyword⟩], some (.name "time.Epoch"), none⟩]
      constants := [⟨"zero", .name "int", none⟩] }]
    imports := .ofList ["anise.time"] }
  imports := .ofList ["anise.time"]

def twiceClocked : Found ModuleOutline where
  value := { onceClocked.value with imports := .ofList ["anise.time", "numpy"] }
  imports := .ofList ["anise.time", "numpy"]
  warnings := [.unresolvedParameter "anise.astro.Clock.now" "scale", .duplicateMember "anise.astro.Clock.now"]

theorem second_now_remains :
    (∃ found, outlineRootMember ⟨∅, "anise.astro"⟩ "anise.astro.now" secondNow = .ok found ∧
      found.Remains "anise.astro.now" onceTimed twiceTimed) ∧
    ∃ found, outlineMember ⟨∅, "anise.astro"⟩ "anise.astro.Clock.now" "Clock" secondNow = .ok found ∧
      found.Remains "anise.astro.Clock.now" onceClocked twiceClocked := by
  have both := outline_of_repeat ⟨∅, "anise.astro"⟩ [] (timed [])
  have kept : firstNow ∈ Scope.moduleBody.visible [firstNow] := List.mem_cons_self
  have keptInClass : firstNow ∈ Scope.classBody.visible [firstNow] := List.mem_cons_self
  constructor
  · exact both.1 [firstNow] [] secondNow onceTimed twiceTimed ⟨.functions, rfl, firstNow, kept, rfl, rfl⟩
      (by with_unfolding_all rfl) (by with_unfolding_all rfl)
  · exact both.2 [] [] "Clock" none none [firstNow] [⟨"zero", none, .value "int" (.int 0)⟩] secondNow
      onceClocked twiceClocked (by decide) ⟨.methods, by decide, firstNow, keptInClass, by decide, rfl⟩
      (by with_unfolding_all rfl) (by with_unfolding_all rfl)

theorem second_now_imports_numpy :
    (∀ member ∈ [firstNow, secondNow], Scope.moduleBody.shows member.name ∧ member.name = "now" ∧
      member.rootFate = .listed .functions) ∧
    (timed [firstNow]).outline ⟨∅, "anise.astro"⟩ [] = .ok onceTimed ∧
    (timed [firstNow, secondNow]).outline ⟨∅, "anise.astro"⟩ [] = .ok twiceTimed ∧
    twiceTimed.value ≠ onceTimed.value ∧
    (Stub.imports "anise.astro" onceTimed.value.imports).flatMap (Stub.Statement.lines 0) =
      ["from __future__ import annotations", "from anise import time", "import typing"] ∧
    (Stub.imports "anise.astro" twiceTimed.value.imports).flatMap (Stub.Statement.lines 0) =
      ["from __future__ import annotations", "from anise import time", "import numpy", "import typing"] := by
  refine ⟨?_, by with_unfolding_all rfl, by with_unfolding_all rfl, by decide, by with_unfolding_all rfl,
    by with_unfolding_all rfl⟩
  intro member is
  rcases List.mem_pair.1 is with rfl | rfl <;> decide

end TypedStub
