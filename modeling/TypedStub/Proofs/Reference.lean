import TypedStub.Proofs.Name
import TypedStub.Reference

/-! Paths that are reached through an import.

A path is deeper inside the module, elsewhere inside its package, or in another package. The import is
one of another module, but for one path: that of the module itself, directly inside its package.
-/

set_option autoImplicit false

namespace TypedStub.Viewpoint

/-- A reference is the whole path, or what the path has inside the module or inside its package. -/
theorem text_referFull (view : Viewpoint) (path : String) : (view.referFull path).text = path ∨
    ∃ container, (container = view.moduleName ∨ container = view.package) ∧
      path = container ++ "." ++ (view.referFull path).text := by
  unfold referFull
  split
  · rename_i inner inside
    obtain ⟨rfl, -⟩ := Dotted.within?_eq_some_iff.1 inside
    refine .inr ⟨view.moduleName, .inl rfl, ?_⟩
    split <;> rfl
  · split
    · rename_i inner inside
      split at inside
      · cases inside
      · obtain ⟨rfl, -⟩ := Dotted.within?_eq_some_iff.1 inside
        exact .inr ⟨view.package, .inr rfl, rfl⟩
    · split <;> exact .inl rfl

/-- How a full path comes to be reached through an import. -/
inductive Imports (view : Viewpoint) : (path reference importPath : String) → Prop where
  | inner {first rest : String} (segment : Dotted.IsSegment first) :
      Imports view (view.moduleName ++ "." ++ first ++ "." ++ rest) (first ++ "." ++ rest)
        (view.moduleName ++ "." ++ first)
  | sibling {inner : String} (outside : Dotted.within? view.moduleName (view.package ++ "." ++ inner) = none) :
      Imports view (view.package ++ "." ++ inner) inner (view.package ++ "." ++ Dotted.head inner)
  | elsewhere {parent last : String} (segment : Dotted.IsSegment last)
      (outside : Dotted.within? view.package (parent ++ "." ++ last) = none) :
      Imports view (parent ++ "." ++ last) (parent ++ "." ++ last) parent

variable {view : Viewpoint} {path reference importPath : String}

theorem imports_of_referFull (refers : view.referFull path = .imported reference importPath) :
    view.Imports path reference importPath := by
  unfold referFull at refers
  -- The cases are those of the resolver, in its order: the module, its package, any other place.
  split at refers
  · rename_i inner inside
    obtain ⟨rfl, filled⟩ := Dotted.within?_eq_some_iff.1 inside
    rcases Dotted.isSegment_or_dotted inner with segment | ⟨first, rest, segment, rfl⟩
    · rw [if_pos (Dotted.tail?_of_isSegment segment)] at refers
      cases refers
    · have longer : Dotted.tail? (first ++ "." ++ rest) ≠ none := by simp [Dotted.tail?_dotted segment]
      rw [if_neg longer, through, Dotted.head_dotted segment] at refers
      cases refers
      rw [← Dotted.dotted_assoc]
      exact .inner segment
  · rename_i outside
    split at refers
    · rename_i inner inside
      split at inside
      · cases inside
      · obtain ⟨rfl, -⟩ := Dotted.within?_eq_some_iff.1 inside
        cases refers
        exact .sibling outside
    · rename_i outsidePackage
      split at refers
      · rename_i parent last split
        obtain ⟨rfl, segment⟩ := Dotted.splitLast?_eq_some_iff.1 split
        cases refers
        apply Imports.elsewhere segment
        split at outsidePackage
        · rename_i same
          rw [same]
          exact outside
        · exact outsidePackage
      · cases refers

/-- The path of the module itself, directly inside its package. A reference to it is reached by importing
the module. -/
def IsDirectModule (view : Viewpoint) (path : String) : Prop :=
  path = view.moduleName ∧ (Dotted.segments view.moduleName).length = 2

theorem segments_package (view : Viewpoint) : Dotted.segments view.package = [view.package] :=
  Dotted.segments_of_isSegment (Dotted.isSegment_head view.moduleName)

theorem exists_in_package (view : Viewpoint) (inner : String) :
    ∃ rest, view.moduleName ++ "." ++ inner = view.package ++ "." ++ rest :=
  Dotted.exists_in_head view.moduleName inner

theorem ne_dotted_of_outside {name inner : String} (isPath : Dotted.IsPath name)
    (outside : Dotted.within? view.package name = none) : name ≠ view.package ++ "." ++ inner := by
  rintro rfl
  have filled := (Dotted.isPath_dotted.1 isPath).2.ne_empty
  exact filled (Dotted.within?_eq_none_iff.1 outside _ rfl)

theorem Imports.isDirectModule (imports : view.Imports path reference importPath)
    (isPath : Dotted.IsPath path) (same : importPath = view.moduleName) : view.IsDirectModule path := by
  cases imports with
  | inner segment => exact absurd same (Dotted.ne_dotted _ _)
  | sibling outside =>
    rcases Dotted.isSegment_or_dotted reference with segment | ⟨first, rest, segment, rfl⟩
    · rw [Dotted.head_of_isSegment segment] at same
      refine ⟨same, ?_⟩
      rw [← same, Dotted.segments_dotted, Dotted.segments_of_isSegment segment, view.segments_package]
      rfl
    · -- What is deeper inside the module is not reached as a sibling of it.
      rw [Dotted.head_dotted segment] at same
      rw [← Dotted.dotted_assoc, same] at outside isPath
      have filled := (Dotted.isPath_dotted.1 isPath).2.ne_empty
      exact absurd (Dotted.within?_eq_none_iff.1 outside _ rfl) filled
  | @elsewhere _ last segment outside =>
    subst same
    obtain ⟨rest, inside⟩ := view.exists_in_package last
    exact absurd inside (ne_dotted_of_outside isPath outside)

theorem Imports.of_isDirectModule (imports : view.Imports path reference importPath)
    (isPath : Dotted.IsPath path) (direct : view.IsDirectModule path) :
    importPath = view.moduleName ∧ Dotted.IsSegment reference ∧
      view.moduleName = view.package ++ "." ++ reference := by
  obtain ⟨same, two⟩ := direct
  cases imports with
  | inner segment =>
    rw [Dotted.dotted_assoc] at same
    exact absurd same (Dotted.ne_dotted _ _)
  | sibling outside =>
    rcases Dotted.isSegment_or_dotted reference with segment | ⟨first, rest, segment, rfl⟩
    · rw [Dotted.head_of_isSegment segment]
      exact ⟨same, segment, same.symm⟩
    · rw [← same, Dotted.segments_dotted, Dotted.segments_dotted, view.segments_package,
        Dotted.segments_of_isSegment segment] at two
      have filled : 0 < (Dotted.segments rest).length :=
        List.length_pos_of_ne_nil (Dotted.segments_ne_nil rest)
      simp only [List.length_append, List.length_singleton] at two
      omega
  | @elsewhere _ last segment outside =>
    -- What is outside the package is no module of it, unless the package is the module itself.
    rcases Dotted.head_eq_or_dotted view.moduleName with alone | ⟨rest, parts⟩
    · have single := Dotted.isSegment_head view.moduleName
      rw [alone, ← same] at single
      exact absurd single (Dotted.not_isSegment_dotted _ _)
    · exact absurd (same.trans parts) (ne_dotted_of_outside isPath outside)

end TypedStub.Viewpoint

/-! ### References by segments

A stub refers to a path by what the path has behind a text and a dot. Cut at all of its dots, a path tells the same by
its segments alone: it is inside a module if its segments begin with those of the module.
-/

namespace TypedStub

namespace Dotted

variable {container name inner : String}

def join (segments : List String) : String := ".".intercalate segments

@[simp] theorem join_segments (name : String) : join (segments name) = name := by
  rw [join, ← String.toList_inj, String.toList_intercalate, segments, List.map_map]
  have whole : String.toList ∘ String.ofList = id := funext fun _ => String.toList_ofList
  rw [whole, List.map_id]
  exact List.intercalate_splitOn '.'

theorem isSegment_of_mem_segments {segment : String} (member : segment ∈ segments name) : IsSegment segment := by
  obtain ⟨piece, isPiece, rfl⟩ := List.mem_map.1 member
  rw [IsSegment, String.toList_ofList]
  exact not_mem_of_mem_splitOn isPiece

theorem segments_join {parts : List String} (filled : parts ≠ []) (whole : ∀ part ∈ parts, IsSegment part) :
    segments (join parts) = parts := by
  have cut := List.splitOn_intercalate '.' (List.forall_mem_map.2 whole) (mt List.map_eq_nil_iff.1 filled)
  have back : String.ofList ∘ String.toList = id := funext fun _ => String.ofList_toList
  rw [segments, join, String.toList_intercalate]
  exact (congrArg (List.map String.ofList) cut).trans (by rw [List.map_map, back, List.map_id])

theorem segments_inj : segments container = segments name ↔ container = name := by
  constructor
  · intro same
    rw [← join_segments container, same, join_segments]
  · exact congrArg segments

theorem join_append_segments (container inner : String) :
    join (segments container ++ segments inner) = container ++ "." ++ inner := by
  rw [← segments_dotted, join_segments]

theorem take_one_segments (name : String) : (segments name).take 1 = [head name] := by
  rcases isSegment_or_dotted name with segment | ⟨first, rest, segment, rfl⟩
  · rw [segments_of_isSegment segment, head_of_isSegment segment]
    rfl
  · rw [segments_dotted, segments_of_isSegment segment, head_dotted segment]
    rfl

theorem join_append_head (container inner : String) :
    join (segments container ++ (segments inner).take 1) = container ++ "." ++ head inner := by
  rw [take_one_segments, ← segments_of_isSegment (isSegment_head inner), join_append_segments]

theorem segments_eq_empty_iff : segments name = [""] ↔ name = "" := by
  rw [← segments_inj]
  rfl

/-- The segments that a path has behind those of a container. A container alone and a dot after it hold nothing. -/
def innerSegments? (container path : List String) : Option (List String) :=
  match container.isPrefixOf? path with
  | none | some [] | some [""] => none
  | some inner => some inner

theorem innerSegments?_eq_some_iff {container path inner : List String} :
    innerSegments? container path = some inner ↔ path = container ++ inner ∧ inner ≠ [] ∧ inner ≠ [""] := by
  rw [innerSegments?, eq_comm (a := path), ← List.isPrefixOf?_eq_some_iff_append_eq]
  split <;> grind

theorem innerSegments?_segments (container name : String) :
    innerSegments? (segments container) (segments name) = (within? container name).map segments := by
  apply Option.ext
  intro inner
  rw [innerSegments?_eq_some_iff, Option.map_eq_some_iff]
  constructor
  · rintro ⟨parts, someParts, filled⟩
    -- What is left of the segments of a name are the segments of a name.
    have whole : ∀ segment ∈ inner, IsSegment segment := fun segment member =>
      isSegment_of_mem_segments (parts ▸ List.mem_append_right _ member)
    have again := segments_join someParts whole
    refine ⟨join inner, within?_eq_some_iff.2 ⟨?_, ?_⟩, again⟩
    · rw [← segments_inj, segments_dotted, again, parts]
    · rwa [← again, Ne, segments_eq_empty_iff] at filled
  · rintro ⟨inner, inside, rfl⟩
    obtain ⟨rfl, filled⟩ := within?_eq_some_iff.1 inside
    exact ⟨segments_dotted container inner, segments_ne_nil inner, mt segments_eq_empty_iff.1 filled⟩

end Dotted

namespace Viewpoint

open Dotted

/-- How a stub of a module refers to a path, both cut into their segments. The package of a module is its first
segment. -/
def referSegments (module path : List String) : Reference :=
  match innerSegments? module path with
  | some [name] => .own name
  | some inner => .imported (join inner) (join (module ++ inner.take 1))
  | none =>
    match if module.take 1 = module then none else innerSegments? (module.take 1) path with
    | some inner => .imported (join inner) (join (module.take 1 ++ inner.take 1))
    | none => if path.length ≤ 1 then .asWritten (join path) else .imported (join path) (join path.dropLast)

variable {view : Viewpoint} {path inner : String}

theorem take_one_moduleName (view : Viewpoint) : (segments view.moduleName).take 1 = segments view.package := by
  rw [take_one_segments, package, segments_of_isSegment (isSegment_head view.moduleName)]

theorem through_eq_imported (container inner : String) : through container inner =
    .imported (join (segments inner)) (join (segments container ++ (segments inner).take 1)) := by
  rw [join_segments, join_append_head, through]

theorem referFull_inside (inside : within? view.moduleName path = some inner) :
    view.referFull path = referSegments (segments view.moduleName) (segments path) := by
  rw [referFull, referSegments, innerSegments?_segments, inside, Option.map_some]
  rcases isSegment_or_dotted inner with segment | ⟨first, rest, segment, rfl⟩
  · rw [segments_of_isSegment segment]
    exact if_pos (tail?_of_isSegment segment)
  · obtain ⟨second, later, more⟩ := List.exists_cons_of_ne_nil (segments_ne_nil rest)
    have several : segments (first ++ "." ++ rest) = first :: second :: later := by
      rw [segments_dotted, segments_of_isSegment segment, more]
      rfl
    have deeper : tail? (first ++ "." ++ rest) ≠ none := by simp [tail?_dotted segment]
    dsimp only
    rw [if_neg deeper, through_eq_imported, several]

theorem referFull_sibling (outside : within? view.moduleName path = none) (packaged : view.package ≠ view.moduleName)
    (inside : within? view.package path = some inner) :
    view.referFull path = referSegments (segments view.moduleName) (segments path) := by
  have notAlone : segments view.package ≠ segments view.moduleName := mt segments_inj.1 packaged
  simp only [referFull, referSegments, take_one_moduleName, innerSegments?_segments, outside, inside, Option.map_none,
    Option.map_some, if_neg packaged, if_neg notAlone, through_eq_imported]

theorem referFull_elsewhere (outside : within? view.moduleName path = none)
    (outsidePackage : view.package = view.moduleName ∨ within? view.package path = none) :
    view.referFull path = referSegments (segments view.moduleName) (segments path) := by
  -- Neither container holds the path, so only the last segment is left to be cut off, on both sides alike.
  have noInner : (if view.package = view.moduleName then none else within? view.package path) = none := by
    rcases outsidePackage with alone | outsidePackage
    · exact if_pos alone
    · rw [outsidePackage, ite_self]
  have noSegments : (if segments view.package = segments view.moduleName then none
      else innerSegments? (segments view.package) (segments path)) = none := by
    rcases outsidePackage with alone | outsidePackage
    · exact if_pos (congrArg segments alone)
    · rw [innerSegments?_segments, outsidePackage, Option.map_none, ite_self]
  rw [referFull, referSegments, take_one_moduleName, innerSegments?_segments, outside, Option.map_none]
  dsimp only
  rw [noInner, noSegments, join_segments]
  rcases isSegment_or_dotted_last path with segment | ⟨parent, last, segment, rfl⟩
  · rw [splitLast?_of_isSegment segment, segments_of_isSegment segment]
    rfl
  · have several : ¬ (segments parent ++ [last]).length ≤ 1 := by
      have := List.length_pos_of_ne_nil (segments_ne_nil parent)
      simp only [List.length_append, List.length_singleton]
      omega
    rw [splitLast?_dotted segment, segments_dotted, segments_of_isSegment segment]
    dsimp only
    rw [if_neg several, List.dropLast_concat, join_segments]

theorem referFull_eq_referSegments (view : Viewpoint) (path : String) :
    view.referFull path = referSegments (segments view.moduleName) (segments path) := by
  cases inside : within? view.moduleName path with
  | some inner => exact referFull_inside inside
  | none =>
    by_cases alone : view.package = view.moduleName
    · exact referFull_elsewhere inside (.inl alone)
    · cases insidePackage : within? view.package path with
      | some inner => exact referFull_sibling inside alone insidePackage
      | none => exact referFull_elsewhere inside (.inr insidePackage)

/-- A reference leaves out all segments of a module or a package that the path is in, or none at all. -/
theorem segments_of_text_ne (shorter : (view.referFull path).text ≠ path) :
    segments path = segments view.moduleName ++ segments (view.referFull path).text ∨
      segments path = segments view.package ++ segments (view.referFull path).text := by
  rcases view.text_referFull path with whole | ⟨container, rfl | rfl, parts⟩
  · exact absurd whole shorter
  · exact .inl ((congrArg segments parts).trans (segments_dotted _ _))
  · exact .inr ((congrArg segments parts).trans (segments_dotted _ _))

/-- To refer to a path is to compare segments, and only whole segments of the module or of its package are left out. So
no name is taken for a parent because a path begins with the same characters. -/
theorem refer_eq_referSegments (view : Viewpoint) (raw : String) :
    view.refer raw = referSegments (segments view.moduleName) (segments (view.aliases.expand raw)) ∧
      ((view.refer raw).text ≠ view.aliases.expand raw →
        segments (view.aliases.expand raw) = segments view.moduleName ++ segments (view.refer raw).text ∨
          segments (view.aliases.expand raw) = segments view.package ++ segments (view.refer raw).text) :=
  ⟨view.referFull_eq_referSegments _, segments_of_text_ne⟩

example : (⟨∅, "anise.astro"⟩ : Viewpoint).refer "anise.astrology.Chart" =
    .imported "astrology.Chart" "anise.astrology" := by
  decide

end Viewpoint

end TypedStub
