import TypedStub.Proofs.Documentation.Lines
import TypedStub.Proofs.Text.Patterns

/-! Field lines as patterns.

The fields of a text are what three patterns find in the whole of it. Each of them stands between the ends of a line, so
a field is found in its line alone: no line of a text says anything about the fields of another.
-/

set_option autoImplicit false

namespace TypedStub.Documentation

open Text

section
variable {line text rest : List Char} {before : Char} {parts : Pattern} {mark : String}

theorem isInLine_of_not_mem (whole : ¬ '\n' ∈ text) : ∀ c ∈ text, isInLine c = true := by
  intro c member
  have different : c ≠ '\n' := fun same => whole (same ▸ member)
  simpa [isInLine] using different

/-- Spaces that the parts behind them cannot begin with are all taken. -/
theorem matchAt?_spaces (refuses : Pattern.Refuses isSpace parts) :
    Pattern.matchAt? (spaces :: parts) ⟨before, text⟩ =
      Pattern.matchAt? parts ⟨(text.takeWhile isSpace).getLastD before, text.dropWhile isSpace⟩ := by
  rw [spaces, Pattern.matchAt?_run_of_refuses refuses, if_pos (Nat.zero_le _)]
  exact Match.map_after_nil _

/-- The rest of a line is kept whole, with the spaces at its end. -/
theorem matchAt?_said (whole : ¬ '\n' ∈ text) : Pattern.matchAt? (said ++ [.lineEnd]) ⟨before, text⟩ =
    some ⟨[text], ⟨text.getLastD before, []⟩⟩ := by
  have members := isInLine_of_not_mem whole
  have taken := takeWhile_run members endsRun_nil
  have left := dropWhile_run members endsRun_nil
  rw [List.append_nil] at taken left
  have ending : Pattern.matchAt? [spaces, .lineEnd] ⟨(text.takeWhile isInLine).getLastD before, text.dropWhile isInLine⟩ =
      some ⟨[], ⟨text.getLastD before, []⟩⟩ := by
    rw [taken, left]
    rfl
  rw [said, List.cons_append]
  exact (Pattern.matchAt?_run (Nat.zero_le _) ending).trans (by rw [taken]; rfl)

theorem onLine?_ofLine : (Pattern.ofLine parts).onLine? line =
    (Pattern.matchAt? (parts ++ [.lineEnd]) ⟨'\n', line⟩).map Match.kept := by
  rw [Pattern.onLine?, Pattern.matchAt?_ofLine, if_pos rfl]

theorem not_mem_of_afterMark? (whole : ¬ '\n' ∈ line) (marked : afterMark? mark line = some rest) : ¬ '\n' ∈ rest := by
  intro member
  have inside := afterMark?_eq_some_iff.1 marked ▸ List.mem_append_right mark.toList member
  exact whole ((List.dropWhile_suffix isSpace).subset inside)

theorem matchAt?_marked {more : List Char} (begins : mark.toList = ':' :: more) :
    Pattern.matchAt? (spaces :: .mark mark :: parts) ⟨'\n', line⟩ = (afterMark? mark line).bind fun rest =>
      Pattern.matchAt? parts ⟨mark.toList.getLastD ((line.takeWhile isSpace).getLastD '\n'), rest⟩ := by
  rw [matchAt?_spaces (Pattern.refuses_mark begins rfl), Pattern.matchAt?_mark]
  rfl

theorem onLine?_markPattern {more : List Char} (begins : mark.toList = ':' :: more) (whole : ¬ '\n' ∈ line) :
    (markPattern mark).onLine? line = (afterMark? mark line).map fun rest => [rest.dropWhile isSpace] := by
  rw [markPattern, onLine?_ofLine]
  simp only [List.cons_append, List.nil_append]
  rw [matchAt?_marked begins]
  cases marked : afterMark? mark line with
  | none => rfl
  | some rest =>
    have isWhole : ¬ '\n' ∈ rest.dropWhile isSpace := not_mem_dropWhile _ (not_mem_of_afterMark? whole marked)
    rw [Option.bind_some, spaces, Pattern.matchAt?_run (Nat.zero_le _) (matchAt?_said isWhole)]
    rfl

theorem onLine?_parameterPattern (whole : ¬ '\n' ∈ line) :
    (parameterPattern.onLine? line).map (fun kept => parameterField (kept.getD 0 []) (kept.getD 1 [])) =
      parameterOfLine? line := by
  rw [parameterPattern, onLine?_ofLine, parameterOfLine?]
  simp only [List.cons_append, List.nil_append]
  rw [matchAt?_marked rfl]
  cases marked : afterMark? ":type" line with
  | none => rfl
  | some rest =>
    -- No blank is a character of a word, and the mark behind the name begins with none: both runs take all they can.
    have notSpace : ∀ c, isSpace c = true → isWordChar c = false := by
      intro c space
      rw [isSpace, decide_eq_true_eq] at space
      rw [space]
      rfl
    have word : Pattern.Refuses isWordChar (.mark ": " :: (said ++ [.lineEnd])) := Pattern.refuses_mark rfl rfl
    have isWhole := not_mem_dropWhile isWordChar (not_mem_dropWhile isSpace (not_mem_of_afterMark? whole marked))
    simp only [Option.bind_some, Option.bind_eq_bind]
    rw [matchAt?_spaces (Pattern.refuses_run notSpace Nat.one_pos), Pattern.matchAt?_run_of_refuses word,
      Pattern.matchAt?_mark]
    by_cases empty : (rest.dropWhile isSpace).takeWhile isWordChar = []
    · rw [empty]
      cases ": ".toList.isPrefixOf? ((rest.dropWhile isSpace).dropWhile isWordChar) <;> rfl
    · have filled : 1 ≤ ((rest.dropWhile isSpace).takeWhile isWordChar).length := List.length_pos_of_ne_nil empty
      simp only [if_pos filled, if_neg empty]
      cases typed : ": ".toList.isPrefixOf? ((rest.dropWhile isSpace).dropWhile isWordChar) with
      | none => rfl
      | some type =>
        have cut := List.isPrefixOf?_eq_some_iff_append_eq.1 typed
        rw [Option.bind_some, matchAt?_said fun member => isWhole (cut ▸ List.mem_append_right _ member)]
        rfl

/-! ### A line has one field -/

def fieldMarks : List String := [":type", ":rtype:", ":return:"]

theorem fieldMarks_apart : ∀ mark ∈ fieldMarks, ∀ other ∈ fieldMarks, mark.toList <+: other.toList → mark = other := by
  decide

/-- No two of the marks stand at the beginning of one line. -/
theorem mark_unique {other : String} {later : List Char} (isMark : mark ∈ fieldMarks) (isOther : other ∈ fieldMarks)
    (marked : afterMark? mark line = some rest) (otherMarked : afterMark? other line = some later) : mark = other := by
  have begins : mark.toList <+: line.dropWhile isSpace := ⟨rest, (afterMark?_eq_some_iff.1 marked).symm⟩
  have otherBegins : other.toList <+: line.dropWhile isSpace := ⟨later, (afterMark?_eq_some_iff.1 otherMarked).symm⟩
  rcases List.prefix_or_prefix_of_prefix begins otherBegins with inside | inside
  · exact fieldMarks_apart mark isMark other isOther inside
  · exact (fieldMarks_apart other isOther mark isMark inside).symm

theorem afterMark?_other (other : String) (isMark : mark ∈ fieldMarks) (isOther : other ∈ fieldMarks)
    (different : mark ≠ other) (marked : afterMark? mark line = some rest) : afterMark? other line = none := by
  by_contra found
  obtain ⟨later, otherMarked⟩ := Option.ne_none_iff_exists'.1 found
  exact different (mark_unique isMark isOther marked otherMarked)

theorem parameterOfLine?_eq_none (unmarked : afterMark? ":type" line = none) : parameterOfLine? line = none := by
  rw [parameterOfLine?, unmarked]
  rfl

theorem length_fields_line (line : List Char) : ([line].filterMap parameterOfLine?).length +
    ([line].filterMap returnTypeOfLine?).length + ([line].filterMap returnedOfLine?).length ≤ 1 := by
  simp only [length_filterMap_singleton]
  cases parameter : afterMark? ":type" line with
  | some rest =>
    have noReturnType := afterMark?_other ":rtype:" (by decide) (by decide) (by decide) parameter
    have noReturned := afterMark?_other ":return:" (by decide) (by decide) (by decide) parameter
    rw [returnTypeOfLine?, returnedOfLine?, noReturnType, noReturned]
    simp only [Option.map_none, if_true]
    split <;> decide
  | none =>
    rw [parameterOfLine?_eq_none parameter, returnTypeOfLine?, returnedOfLine?]
    cases returnType : afterMark? ":rtype:" line with
    | some rest =>
      rw [afterMark?_other ":return:" (by decide) (by decide) (by decide) returnType]
      simp
    | none => cases afterMark? ":return:" line <;> simp

/-! ### The fields of a text -/

theorem findAll_parameterPattern (text : List Char) :
    (parameterPattern.findAll text).map (fun kept => parameterField (kept.getD 0 []) (kept.getD 1 [])) =
      (text.splitOn '\n').filterMap parameterOfLine? := by
  have inLine : Pattern.IsInLine ([spaces, .mark ":type", spaces, .run isWordChar 1 true, .mark ": "] ++ said) :=
    ⟨by decide, ":type", by decide, by simp⟩
  rw [parameterPattern, Pattern.findAll_eq inLine, List.map_filterMap]
  exact List.filterMap_congr fun line member => onLine?_parameterPattern (not_mem_of_mem_splitOn member)

theorem findAll_markPattern {more : List Char} (begins : mark.toList = ':' :: more) (whole : ¬ '\n' ∈ mark.toList)
    (text : List Char) :
    ((markPattern mark).findAll text).map (fun kept => String.ofList (trim (kept.getD 0 []))) =
      (text.splitOn '\n').filterMap fun line => (afterMark? mark line).map fun rest => String.ofList (trim rest) := by
  have filled : mark ≠ "" := by
    rintro rfl
    cases begins
  have inLine : Pattern.IsInLine ([spaces, .mark mark, spaces] ++ said) :=
    ⟨by simp [spaces, said, PatternPart.StaysInLine, whole, isSpace, isInLine], mark, filled, by simp⟩
  rw [markPattern, Pattern.findAll_eq inLine, List.map_filterMap]
  refine List.filterMap_congr fun line member => ?_
  rw [← markPattern, onLine?_markPattern begins (not_mem_of_mem_splitOn member), Option.map_map]
  refine congrArg (fun f => Option.map f _) (funext fun rest => ?_)
  exact congrArg (fun text => String.ofList (trimEnd text)) (trimStart_dropWhile_isSpace rest)

end

/-- The fields of a text are what the patterns find in the whole of it. They are the fields of its parts, in their order,
wherever it is cut at the end of a line, and a line has at most one field. -/
theorem fields_are_local :
    (∀ text : String,
      (ofText text).parameters = (parameterPattern.findAll text.toList).map
        (fun kept => parameterField (kept.getD 0 []) (kept.getD 1 [])) ∧
      (ofText text).returnTypes = ((markPattern ":rtype:").findAll text.toList).map
        (fun kept => String.ofList (trim (kept.getD 0 []))) ∧
      (ofText text).returned = ((markPattern ":return:").findAll text.toList).map
        (fun kept => String.ofList (trim (kept.getD 0 [])))) ∧
    (∀ first second : String,
      (ofText (first ++ "\n" ++ second)).parameters = (ofText first).parameters ++ (ofText second).parameters ∧
      (ofText (first ++ "\n" ++ second)).returnTypes = (ofText first).returnTypes ++ (ofText second).returnTypes ∧
      (ofText (first ++ "\n" ++ second)).returned = (ofText first).returned ++ (ofText second).returned) ∧
    ∀ line : String, ¬ '\n' ∈ line.toList →
      (ofText line).parameters.length + (ofText line).returnTypes.length + (ofText line).returned.length ≤ 1 := by
  have joined : ∀ first second : String, (first ++ "\n" ++ second).toList.splitOn '\n' =
      first.toList.splitOn '\n' ++ second.toList.splitOn '\n' := by
    intro first second
    rw [String.toList_append, String.toList_append, List.append_assoc]
    exact List.splitOn_append_cons_self _ _
  -- Locality is that of the patterns: a match never leaves its line.
  refine ⟨fun text => ⟨?_, ?_, ?_⟩, fun first second => ⟨?_, ?_, ?_⟩, fun line whole => ?_⟩
  · exact (findAll_parameterPattern text.toList).symm
  · exact (findAll_markPattern rfl (by decide) text.toList).symm
  · exact (findAll_markPattern rfl (by decide) text.toList).symm
  all_goals simp only [ofText]
  · rw [joined, List.filterMap_append]
  · rw [joined, List.filterMap_append]
  · rw [joined, List.filterMap_append]
  · rw [List.splitOn_eq_singleton whole]
    exact length_fields_line line.toList

theorem fields_of_mixed_lines :
    (ofText ("Says.\r\n\n  :type x: int \r" ++ "\n" ++ " :rtype: str\nmore\n:type  y: a b, optional")).parameters =
      [⟨"x", "int", false⟩, ⟨"y", "a b", true⟩] ∧
    ¬ '\n' ∈ "  :return: :rtype: int".toList ∧
    (ofText "  :return: :rtype: int").parameters.length + (ofText "  :return: :rtype: int").returnTypes.length +
      (ofText "  :return: :rtype: int").returned.length ≤ 1 := by
  have whole : ¬ '\n' ∈ "  :return: :rtype: int".toList := by decide
  refine ⟨?_, whole, fields_are_local.2.2 _ whole⟩
  rw [(fields_are_local.2.1 _ _).1]
  decide

end TypedStub.Documentation
