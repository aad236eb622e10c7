import TypedStub.Proofs.Text.Runs
import TypedStub.Text.Pattern

/-! Searching a whole text for a pattern.

A pattern is a list of parts that follow each other. A run takes as many characters as it can and gives some of them
back if the parts after it need them. Matches are found from left to right and do not overlap. A pattern that stands
between the two ends of a line, and takes no line feed, matches each line by itself.
-/

set_option autoImplicit false

namespace TypedStub.Text

@[simp] theorem Match.map_after_nil (found : Option Match) : found.map (.after []) = found := by
  cases found <;> rfl

/-! ### Runs -/

section
variable {inside : Char → Bool} {least : Nat} {kept : Bool} {parts : Pattern} {cursor : Cursor} {before : Char}
  {text : List Char}

theorem runs_eq (inside : Char → Bool) (text : List Char) :
    ∃ others, runs inside text = (text.takeWhile inside, text.dropWhile inside) :: others ∧
      ∀ found ∈ others, ∃ c rest, found.2 = c :: rest ∧ inside c = true := by
  induction text with
  | nil => exact ⟨[], rfl, List.forall_mem_nil _⟩
  | cons c text ih =>
    unfold runs
    by_cases member : inside c = true
    · obtain ⟨others, longest, shorter⟩ := ih
      refine ⟨others.map (fun found => (c :: found.1, found.2)) ++ [([], c :: text)], ?_, ?_⟩
      · rw [if_pos member, longest, List.takeWhile_cons_of_pos member, List.dropWhile_cons_of_pos member]
        rfl
      · intro found among
        -- A shorter run stops before one of the characters that the longest one takes.
        rcases List.mem_append.1 among with among | among
        · obtain ⟨earlier, isEarlier, rfl⟩ := List.mem_map.1 among
          exact shorter earlier isEarlier
        · rw [List.mem_singleton.1 among]
          exact ⟨c, text, rfl, member⟩
    · refine ⟨[], ?_, List.forall_mem_nil _⟩
      rw [if_neg member, List.takeWhile_cons_of_neg member, List.dropWhile_cons_of_neg member]
      rfl

theorem append_of_mem_runs {found : List Char × List Char} (member : found ∈ runs inside text) :
    found.1 ++ found.2 = text := by
  induction text generalizing found with
  | nil =>
    rw [List.mem_singleton.1 member]
    rfl
  | cons c text ih =>
    rcases List.mem_append.1 member with longer | shortest
    · split at longer
      · obtain ⟨inner, isInner, rfl⟩ := List.mem_map.1 longer
        exact congrArg (c :: ·) (ih isInner)
      · cases longer
    · rw [List.mem_singleton.1 shortest]
      rfl

theorem mem_takes_mark {mark : String} {found : List Char × List Char}
    (takes : found ∈ PatternPart.takes cursor (.mark mark)) :
    found.1 = mark.toList ∧ cursor.rest = mark.toList ++ found.2 := by
  unfold PatternPart.takes at takes
  dsimp only at takes
  split at takes
  · rename_i rest begins
    rw [List.mem_singleton.1 takes]
    exact ⟨rfl, (List.isPrefixOf?_eq_some_iff_append_eq.1 begins).symm⟩
  · cases takes

theorem append_of_mem_takes {part : PatternPart} {found : List Char × List Char} (takes : found ∈ part.takes cursor) :
    found.1 ++ found.2 = cursor.rest := by
  cases part with
  | lineStart | lineEnd =>
    unfold PatternPart.takes at takes
    dsimp only at takes
    split at takes
    · rw [List.mem_singleton.1 takes]
      rfl
    · cases takes
  | mark mark =>
    obtain ⟨taken, begins⟩ := mem_takes_mark takes
    rw [taken, begins]
  | run inside least kept => exact append_of_mem_runs (List.mem_of_mem_filter takes)

namespace Pattern

/-- The parts match nowhere inside a run of these characters. -/
def Refuses (inside : Char → Bool) (parts : Pattern) : Prop :=
  ∀ before c rest, inside c = true → matchesAt parts ⟨before, c :: rest⟩ = []

/-- If the parts after a run cannot begin inside it, the run is the longest one. -/
theorem matchAt?_run_of_refuses (refuses : Refuses inside parts) :
    matchAt? (.run inside least kept :: parts) ⟨before, text⟩ =
      if least ≤ (text.takeWhile inside).length then
        (matchAt? parts ⟨(text.takeWhile inside).getLastD before, text.dropWhile inside⟩).map
          (.after (PatternPart.keep (text.takeWhile inside) (.run inside least kept)))
      else none := by
  obtain ⟨others, longest, shorter⟩ := runs_eq inside text
  have noOthers : (others.filter fun found => least ≤ found.1.length).flatMap (fun found =>
      (matchesAt parts (Cursor.behind ⟨before, text⟩ found.1 found.2)).map
        (Match.after (PatternPart.keep found.1 (.run inside least kept)))) = [] := by
    rw [List.flatMap_eq_nil_iff]
    intro found among
    obtain ⟨c, rest, left, member⟩ := shorter found (List.mem_of_mem_filter among)
    rw [Cursor.behind, left, refuses _ c rest member, List.map_nil]
  rw [matchAt?, matchesAt, PatternPart.takes, longest, List.filter_cons]
  by_cases enough : least ≤ (text.takeWhile inside).length
  · rw [if_pos (by simpa using enough), if_pos enough, List.flatMap_cons, noOthers, List.append_nil, List.head?_map]
    rfl
  · rw [if_neg (by simpa using enough), if_neg enough, noOthers]
    rfl

theorem matchAt?_run {found : Match} (enough : least ≤ (text.takeWhile inside).length)
    (matched : matchAt? parts ⟨(text.takeWhile inside).getLastD before, text.dropWhile inside⟩ = some found) :
    matchAt? (.run inside least kept :: parts) ⟨before, text⟩ =
      some (.after (PatternPart.keep (text.takeWhile inside) (.run inside least kept)) found) := by
  obtain ⟨others, longest, -⟩ := runs_eq inside text
  rw [matchAt?, matchesAt, PatternPart.takes, longest, List.filter_cons_of_pos (by simpa using enough),
    List.flatMap_cons, List.head?_append, List.head?_map, ← matchAt?, Cursor.behind, matched]
  rfl

theorem matchAt?_mark {mark : String} : matchAt? (.mark mark :: parts) ⟨before, text⟩ =
    (mark.toList.isPrefixOf? text).bind fun rest => matchAt? parts ⟨mark.toList.getLastD before, rest⟩ := by
  rw [matchAt?, matchesAt, PatternPart.takes]
  cases mark.toList.isPrefixOf? text with
  | none => rfl
  | some rest => simp [PatternPart.keep, matchAt?, Cursor.behind]

theorem refuses_mark {mark : String} {first : Char} {more : List Char} (begins : mark.toList = first :: more)
    (outside : inside first = false) : Refuses inside (.mark mark :: parts) := by
  intro before c rest member
  have different : first ≠ c := by
    rintro rfl
    exact absurd member (by simp [outside])
  simp [matchesAt, PatternPart.takes, begins, List.isPrefixOf?, different]

theorem refuses_run {others : Char → Bool} (apart : ∀ c, inside c = true → others c = false) (filled : 0 < least) :
    Refuses inside (.run others least kept :: parts) := by
  intro before c rest member
  rw [matchesAt, PatternPart.takes, runs, if_neg (by simp [apart c member])]
  simp [Nat.ne_of_gt filled]

end Pattern

end

/-! ### Patterns between the ends of a line -/

/-- A part that takes no line feed and does not ask where a line begins or ends. -/
def PatternPart.StaysInLine : PatternPart → Prop
  | .lineStart | .lineEnd => False
  | .mark text => ¬ '\n' ∈ text.toList
  | .run inside _ _ => inside '\n' = false

instance : DecidablePred PatternPart.StaysInLine
  | .lineStart | .lineEnd => isFalse id
  | .mark text => inferInstanceAs (Decidable (¬ '\n' ∈ text.toList))
  | .run inside _ _ => inferInstanceAs (Decidable (inside '\n' = false))

/-- What may stand between the ends of a line: parts that stay in it, and among them a mark that is not empty. -/
structure Pattern.IsInLine (parts : Pattern) : Prop where
  stays : ∀ part ∈ parts, part.StaysInLine
  filled : ∃ mark, mark ≠ "" ∧ .mark mark ∈ parts

def Pattern.onLine? (pattern : Pattern) (line : List Char) : Option (List (List Char)) :=
  (pattern.matchAt? ⟨'\n', line⟩).map Match.kept

def EndsLine (text : List Char) : Prop := ∀ c ∈ text.head?, c = '\n'

theorem endsLine_nil : EndsLine [] := fun _ impossible => by cases impossible

theorem endsLine_cons (rest : List Char) : EndsLine ('\n' :: rest) := by
  rintro _ ⟨⟩
  rfl

section
variable {inside : Char → Bool} {parts : Pattern} {part : PatternPart} {before : Char} {line tail rest : List Char}

theorem runs_append (outside : inside '\n' = false) (ends : EndsLine tail) :
    runs inside (line ++ tail) = (runs inside line).map fun found => (found.1, found.2 ++ tail) := by
  induction line with
  | nil =>
    cases tail with
    | nil => rfl
    | cons c later =>
      cases ends c rfl
      simp [runs, outside]
  | cons c line ih =>
    rw [List.cons_append, runs, runs, ih]
    split <;> simp

theorem isPrefixOf?_append {mark : List Char} (whole : ¬ '\n' ∈ mark) (ends : EndsLine tail) :
    mark.isPrefixOf? (line ++ tail) = (mark.isPrefixOf? line).map (· ++ tail) := by
  induction mark generalizing line with
  | nil => rfl
  | cons c mark ih =>
    have others : ¬ '\n' ∈ mark := fun member => whole (List.mem_cons_of_mem _ member)
    cases line with
    | nil =>
      cases tail with
      | nil => rfl
      | cons d later =>
        cases ends d rfl
        have different : c ≠ '\n' := fun same => whole (same ▸ List.mem_cons_self)
        simp [List.isPrefixOf?, different]
    | cons d line =>
      rw [List.cons_append, List.isPrefixOf?, List.isPrefixOf?]
      split
      · exact ih others
      · rfl

namespace Pattern

theorem takes_append (stays : part.StaysInLine) (ends : EndsLine tail) : part.takes ⟨before, line ++ tail⟩ =
    (part.takes ⟨before, line⟩).map fun found => (found.1, found.2 ++ tail) := by
  cases part with
  | lineStart | lineEnd => cases stays
  | mark text =>
    simp only [PatternPart.takes, isPrefixOf?_append stays ends]
    cases text.toList.isPrefixOf? line <;> rfl
  | run inside least kept =>
    rw [PatternPart.takes, PatternPart.takes, runs_append stays ends, List.filter_map]
    rfl

/-- A match that reaches the end of a line is the same whatever follows the line, and it stops there. -/
theorem matchesAt_append (stays : ∀ part ∈ parts, part.StaysInLine) (whole : ¬ '\n' ∈ line) (ends : EndsLine tail) :
    matchesAt (parts ++ [.lineEnd]) ⟨before, line ++ tail⟩ =
      (matchesAt (parts ++ [.lineEnd]) ⟨before, line⟩).map fun found => ⟨found.kept, ⟨found.stop.before, tail⟩⟩ := by
  -- What a part takes leaves a line without a line end, so the induction is for every such line.
  induction parts generalizing before line with
  | nil =>
    cases line with
    | nil => cases tail with
      | nil => rfl
      | cons c later =>
        cases ends c rfl
        rfl
    | cons c line =>
      have different : c ≠ '\n' := fun same => whole (same ▸ List.mem_cons_self)
      simp [matchesAt, PatternPart.takes, different]
  | cons part parts ih =>
    obtain ⟨first, others⟩ := List.forall_mem_cons.1 stays
    simp only [List.cons_append, matchesAt, takes_append first ends, List.flatMap_map, List.map_flatMap]
    refine List.flatMap_congr fun found takes => ?_
    have cut : found.1 ++ found.2 = line := append_of_mem_takes takes
    have rest : ¬ '\n' ∈ found.2 := fun member => whole (cut ▸ List.mem_append_right _ member)
    rw [Cursor.behind, ih others rest, List.map_map, List.map_map]
    rfl

theorem matchesAt_nil {mark : String} (filled : mark ≠ "") (member : .mark mark ∈ parts) :
    matchesAt (parts ++ [.lineEnd]) ⟨before, []⟩ = [] := by
  induction parts generalizing before with
  | nil => cases member
  | cons part parts ih =>
    rw [List.cons_append, matchesAt, List.flatMap_eq_nil_iff]
    intro found takes
    have nothing := List.append_eq_nil_iff.1 (append_of_mem_takes takes)
    rcases List.mem_cons.1 member with rfl | later
    · -- The mark itself would have been taken.
      have taken := (mem_takes_mark takes).1
      rw [nothing.1] at taken
      exact absurd (String.toList_eq_nil_iff.1 taken.symm) filled
    · rw [Cursor.behind, nothing.2, ih later, List.map_nil]

/-! ### Line by line -/

theorem matchAt?_ofLine : matchAt? (ofLine parts) ⟨before, line⟩ =
    if before = '\n' then matchAt? (parts ++ [.lineEnd]) ⟨before, line⟩ else none := by
  rw [matchAt?, ofLine, matchesAt, PatternPart.takes]
  split
  · simp [Cursor.behind, PatternPart.keep, matchAt?]
  · rfl

section
variable (inLine : IsInLine parts)
include inLine

theorem matchAt?_append (whole : ¬ '\n' ∈ line) (ends : EndsLine tail) :
    matchAt? (ofLine parts) ⟨'\n', line ++ tail⟩ =
      (matchAt? (ofLine parts) ⟨'\n', line⟩).map fun found => ⟨found.kept, ⟨found.stop.before, tail⟩⟩ := by
  rw [matchAt?_ofLine, if_pos rfl, matchAt?_ofLine, if_pos rfl, matchAt?, matchesAt_append inLine.stays whole ends,
    List.head?_map]
  rfl

/-- Nothing is found where a line ends. -/
theorem matchAt?_endsLine (ends : EndsLine tail) : matchAt? (ofLine parts) ⟨before, tail⟩ = none := by
  obtain ⟨mark, filled, member⟩ := inLine.filled
  rw [matchAt?_ofLine]
  split
  · rw [matchAt?, ← List.nil_append tail, matchesAt_append inLine.stays List.not_mem_nil ends,
      matchesAt_nil filled member]
    rfl
  · rfl

def findBehind (pattern : Pattern) : List Char → List (List (List Char))
  | [] => []
  | _ :: later => pattern.findFrom '\n' later

theorem findFrom_endsLine (ends : EndsLine tail) : findFrom (ofLine parts) before tail = findBehind (ofLine parts) tail := by
  have nothing := @matchAt?_endsLine parts before tail inLine ends
  cases tail with
  | nil =>
    rw [findFrom, nothing]
    rfl
  | cons c later =>
    cases ends c rfl
    rw [findFrom, nothing]
    rfl

theorem findFrom_inside (notStart : before ≠ '\n') (whole : ¬ '\n' ∈ line) (ends : EndsLine tail) :
    findFrom (ofLine parts) before (line ++ tail) = findBehind (ofLine parts) tail := by
  induction line generalizing before with
  | nil => exact findFrom_endsLine inLine ends
  | cons c line ih =>
    have different : c ≠ '\n' := fun same => whole (same ▸ List.mem_cons_self)
    rw [List.cons_append, findFrom, matchAt?_ofLine, if_neg notStart]
    exact ih different fun member => whole (List.mem_cons_of_mem _ member)

theorem findFrom_line (whole : ¬ '\n' ∈ line) (ends : EndsLine tail) :
    findFrom (ofLine parts) '\n' (line ++ tail) = ((ofLine parts).onLine? line).toList ++ findBehind (ofLine parts) tail := by
  cases line with
  | nil =>
    rw [onLine?, matchAt?_endsLine inLine endsLine_nil, List.nil_append, findFrom_endsLine inLine ends]
    rfl
  | cons c line =>
    have different : c ≠ '\n' := fun same => whole (same ▸ List.mem_cons_self)
    have rest : ¬ '\n' ∈ line := fun member => whole (List.mem_cons_of_mem _ member)
    rw [List.cons_append, findFrom, ← List.cons_append, matchAt?_append inLine whole ends, onLine?]
    cases matchAt? (ofLine parts) ⟨'\n', c :: line⟩ with
    | none => exact findFrom_inside inLine different rest ends
    | some found =>
      -- The match takes all of the line, and the search goes on behind it.
      have shorter : tail.length < (c :: line ++ tail).length := by
        rw [List.length_append, List.length_cons]
        omega
      simp only [Option.map_some, if_pos shorter, findFrom_endsLine inLine ends]
      rfl

/-- A pattern between the ends of a line finds what it matches on each line by itself. -/
theorem findAll_eq (text : List Char) :
    findAll (ofLine parts) text = (text.splitOn '\n').filterMap (ofLine parts).onLine? := by
  -- The search goes on from line to line, so the induction is on the lines and not on the text.
  have lines : ∀ lines : List (List Char), lines ≠ [] → (∀ line ∈ lines, ¬ '\n' ∈ line) →
      findFrom (ofLine parts) '\n' (['\n'].intercalate lines) = lines.filterMap (ofLine parts).onLine? := by
    intro lines
    induction lines with
    | nil => exact fun filled => absurd rfl filled
    | cons line lines ih =>
      intro _ whole
      obtain ⟨first, others⟩ := List.forall_mem_cons.1 whole
      have together : ((ofLine parts).onLine? line).toList ++ lines.filterMap (ofLine parts).onLine? =
          (line :: lines).filterMap (ofLine parts).onLine? := by
        rw [List.filterMap_cons]
        cases (ofLine parts).onLine? line <;> rfl
      cases lines with
      | nil =>
        have last := findFrom_line inLine first endsLine_nil
        rw [List.append_nil] at last
        rw [List.intercalate_singleton, last, ← together]
        rfl
      | cons next lines =>
        rw [List.intercalate_cons_cons, List.append_assoc, List.singleton_append,
          findFrom_line inLine first (endsLine_cons _), ← together, ← ih (List.cons_ne_nil _ _) others]
        rfl
  rw [findAll, ← lines (text.splitOn '\n') (List.splitOn_ne_nil _ _) fun line member => not_mem_of_mem_splitOn member,
    List.intercalate_splitOn]

end

end Pattern

end

end TypedStub.Text
