import TypedStub.Proofs.Name
import TypedStub.Proofs.Stub.Docstring
import TypedStub.Proofs.Stub.Words

/-! Writing a stub part by part.

A writer keeps what it has written, the level of the lines to come, and whether it stands at the beginning of a line.
The indentation of a line is put off until something is written on the line, so that an empty line stays empty. What
is written in this way of a statement are its lines, and what is written of a module is its text.
-/

set_option autoImplicit false

namespace TypedStub.Stub

namespace Writer

/-! ### Parts of a line -/

def put (writer : Writer) (text : String) : Writer := { writer with output := writer.output ++ text }

variable {writer : Writer}

@[simp] theorem put_level (text : String) : (writer.put text).level = writer.level := rfl

theorem starts_put (starts : writer.atLineStart = true) (text : String) : (writer.put text).atLineStart = true :=
  starts

@[simp] theorem put_put (first second : String) : (writer.put first).put second = writer.put (first ++ second) := by
  simp [put, String.append_assoc]

@[simp] theorem write_write (writer : Writer) (first second : String) :
    (writer.write first).write second = writer.write (first ++ second) := by
  by_cases starts : writer.atLineStart = true
  · by_cases empty : first = ""
    · simp [write, starts, empty]
    · simp [write, starts, empty, String.append_assoc]
  · simp [write, starts, String.append_assoc]

theorem writeReturns_eq (writer : Writer) (returns : Option TypeTerm) :
    writer.writeReturns returns = writer.write (match returns with
      | some type => " -> " ++ type.stubForm
      | none => "") := by
  cases returns with
  | none => simp [writeReturns, write]
  | some type => simp [writeReturns]

theorem writeValue_eq (writer : Writer) (value : Option Value) :
    writer.writeValue value = writer.write (valueForm value) := by
  match value with
  | none => simp [writeValue, valueForm, write]
  | some .ellipsis => rfl
  | some (.literal value) => simp [writeValue, valueForm]

/-! ### Whole lines -/

/-- From the beginning of a line on, the work writes these lines at its level. It ends at the beginning of a line and
leaves the level as it was. -/
def Writes (work : Writer → Writer) (lines : Nat → List String) : Prop :=
  ∀ writer : Writer, writer.atLineStart = true → work writer = writer.put (textOfLines (lines writer.level))

theorem writes_nothing : Writes id fun _ => [] := by
  intro writer _
  simp [put, textOfLines]

theorem Writes.then {first second : Writer → Writer} {lines others : Nat → List String} (writes : Writes first lines)
    (writesNext : Writes second others) : Writes (fun writer => second (first writer))
      fun level => lines level ++ others level := by
  intro writer starts
  dsimp only
  rw [writes writer starts, writesNext _ (starts_put starts _), put_put, put_level, textOfLines_append]

theorem Writes.inside {work : Writer → Writer} {lines : Nat → List String} (writes : Writes work lines) :
    Writes (fun writer => (work writer.indent).dedent) fun level => lines (level + 1) := by
  intro writer starts
  dsimp only
  rw [writes writer.indent starts]
  rfl

theorem writes_line (line : String) : Writes (fun writer => (writer.write line).endLine) fun level =>
    [indented level line] := by
  intro writer starts
  by_cases empty : line = ""
  · simp [write, endLine, put, textOfLines, indented, starts, empty]
  · simp [write, endLine, put, textOfLines, indented, starts, empty, String.append_assoc]

theorem writes_decorators (decorators : List String) : Writes (fun writer => writer.writeDecorators decorators)
    fun level => decoratorLines level decorators := by
  induction decorators with
  | nil => exact writes_nothing
  | cons decorator decorators ih =>
    have first := writes_line ("@" ++ decorator)
    simp only [← write_write] at first
    exact first.then ih

theorem writes_lines (first : String) (rest : List String) :
    Writes (fun writer => (writer.writeLines (first :: rest)).endLine) fun level =>
      (first :: rest).map (indented level) := by
  induction rest generalizing first with
  | nil => exact writes_line first
  | cons next rest ih => exact (writes_line first).then (ih next)

/-! ### Docstrings -/

theorem write_writeLines (writer : Writer) (mark first : String) (rest : List String) :
    (writer.write mark).writeLines (first :: rest) = writer.writeLines ((mark ++ first) :: rest) := by
  rw [writeLines, write_write]
  rfl

theorem writeLines_write (writer : Writer) (earlier : List String) (last mark : String) :
    (writer.writeLines (earlier ++ [last])).write mark = writer.writeLines (earlier ++ [last ++ mark]) := by
  cases earlier with
  | nil => exact write_write writer last mark
  | cons first earlier =>
    simp only [writeLines, List.cons_append, List.foldl_append, List.foldl_cons, List.foldl_nil, write_write]

theorem writes_docstring (text : String) : Writes (fun writer => writer.writeDocstring text) fun level =>
    (docstringLines text).map (indented level) := by
  -- The opening quotes stand on the first line of the text, and the closing ones on the last.
  have absent : ¬ '\n' ∈ "\"\"\"".toList := by decide
  obtain ⟨earlier, last, found, foundLonger⟩ :=
    splitOn_append_right absent (Text.Docstring.escape text).toList
  obtain ⟨first, rest, same⟩ := List.exists_cons_of_ne_nil
    (List.splitOn_ne_nil '\n' ((Text.Docstring.escape text).toList ++ "\"\"\"".toList))
  have whole := splitOn_append_left absent same
  have lines : docstringLines text = ("\"\"\"" ++ String.ofList first) :: rest.map String.ofList := by
    rw [docstringLines, Text.lines, String.toList_append, String.toList_append, List.append_assoc, whole,
      List.map_cons, String.ofList_append, String.ofList_toList]
  have written : ∀ writer : Writer, writer.writeDocstring text = (writer.writeLines (docstringLines text)).endLine := by
    intro writer
    calc writer.writeDocstring text
      _ = (((writer.write "\"\"\"").writeLines (earlier.map String.ofList ++ [String.ofList last])).write
          "\"\"\"").endLine := by rw [writeDocstring, Text.lines, found, List.map_append, List.map_singleton]
      _ = ((writer.write "\"\"\"").writeLines ((earlier ++ [last ++ "\"\"\"".toList]).map String.ofList)).endLine := by
        rw [writeLines_write, List.map_append, List.map_singleton, String.ofList_append, String.ofList_toList]
      _ = ((writer.write "\"\"\"").writeLines ((first :: rest).map String.ofList)).endLine := by
        rw [← foundLonger, same]
      _ = (writer.writeLines (docstringLines text)).endLine := by rw [List.map_cons, write_writeLines, lines]
  simp only [written]
  rw [lines]
  exact writes_lines _ _

/-! ### Statements -/

/-- A header is written with the placeholder behind it, or with the body below it. -/
theorem writes_block (header : String) (body : List Statement)
    (inside : Writes (fun writer => writeAll writer body) fun level => linesOfAll level body) :
    Writes (fun writer => if isPlaceholder body then ((writer.write header).write " ...").endLine
      else (writeAll (writer.write header).endLine.indent body).dedent) fun level =>
        if isPlaceholder body then [indented level (header ++ " ...")]
        else indented level header :: linesOfAll (level + 1) body := by
  by_cases placeholder : isPlaceholder body = true
  · simp only [placeholder, if_true, write_write]
    exact writes_line _
  · simp only [placeholder]
    exact (writes_line header).then inside.inside

-- The recursion is on the statement, through the statements of its body.
mutual

theorem writes_statement (statement : Statement) : Writes (fun writer => statement.write writer) fun level =>
    statement.lines level := by
  match statement with
  | .importFrom path names => exact writes_line _
  | .importModule path => exact writes_line _
  | .classDef name decorators body =>
    exact (writes_decorators decorators).then (writes_block (classHeader name) body (writes_all body))
  | .function name decorators parameters returns body =>
    have header : ∀ writer : Writer, ((((writer.write ("def " ++ name ++ "(")).write (parameterList parameters)).write
        ")").writeReturns returns).write ":" = writer.write (functionHeader name parameters returns) := by
      intro writer
      rw [writeReturns_eq]
      simp only [write_write]
      rfl
    simp only [Statement.write, header]
    exact (writes_decorators decorators).then
      (writes_block (functionHeader name parameters returns) body (writes_all body))
  | .assignment target type value =>
    have line := writes_line (target ++ ": " ++ type.stubForm ++ valueForm value)
    simp only [← write_write _ (target ++ ": " ++ type.stubForm), ← writeValue_eq] at line
    exact line
  | .docstring text => exact writes_docstring text
  | .ellipsis => exact writes_line _

theorem writes_all (statements : List Statement) : Writes (fun writer => writeAll writer statements) fun level =>
    linesOfAll level statements := by
  match statements with
  | [] => exact writes_nothing
  | statement :: rest => exact (writes_statement statement).then (writes_all rest)

end

/-! ### Modules -/

theorem write_eq {writer : Writer} (starts : writer.atLineStart = true) (statement : Statement) :
    statement.write writer = writer.put (textOfLines (statement.lines writer.level)) :=
  writes_statement statement writer starts

/-- At the beginning of a line, the end of the line leaves it empty. -/
theorem endLine_if {writer : Writer} (starts : writer.atLineStart = true) (apart : Bool) :
    (if apart then writer.endLine else writer) = writer.put (textOfLines (if apart then [""] else [])) := by
  cases apart with
  | false => simp [put, textOfLines]
  | true => simp [endLine, put, textOfLines, starts]

theorem writeDocument_eq {writer : Writer} (starts : writer.atLineStart = true) (outermost : writer.level = 0)
    (previous : Option Statement) (statement : Statement) (rest : List Statement) :
    writeDocument writer previous (statement :: rest) = writer.put (textOfLines
      ((if previous.any fun previous => !sameGroup previous statement then [""] else []) ++
        documentLines (statement :: rest))) := by
  induction rest generalizing writer previous statement with
  | nil =>
    simp only [writeDocument, documentLines]
    rw [endLine_if starts, write_eq (starts_put starts _), put_put, put_level, outermost, textOfLines_append]
  | cons next rest ih =>
    have gap : (if (some statement).any fun previous => !sameGroup previous next then [""] else []) =
        if sameGroup statement next then [] else [""] := by
      cases same : sameGroup statement next <;> simp [same]
    rw [writeDocument, documentLines, endLine_if starts, write_eq (starts_put starts _), put_put, put_level, outermost,
      ih (starts_put starts _) outermost, put_put, gap]
    simp only [textOfLines_append, String.append_assoc]

end Writer

theorem Statement.lines_ne_nil (level : Nat) (statement : Statement) : statement.lines level ≠ [] := by
  cases statement with
  | docstring text => simp [Statement.lines, docstringLines, Text.lines]
  | classDef _ _ body | function _ _ _ _ body =>
    cases placeholder : isPlaceholder body <;> simp [Statement.lines, placeholder]
  | importFrom _ _ | importModule _ | assignment _ _ _ | ellipsis => simp [Statement.lines]

theorem getLast?_textOfLines {lines : List String} (filled : lines ≠ []) :
    (textOfLines lines).toList.getLast? = some '\n' := by
  rw [← List.dropLast_append_getLast filled, textOfLines_append]
  simp [textOfLines]

/-- The text of a stub is what is written part by part. -/
theorem emit_eq_text (statements : List Statement) : emit statements = text statements := by
  cases statements with
  | nil => rfl
  | cons statement rest =>
    have filled : documentLines (statement :: rest) ≠ [] := by
      cases rest with
      | nil => exact statement.lines_ne_nil 0
      | cons next rest => simp [documentLines, statement.lines_ne_nil 0]
    have written : (writeDocument {} none (statement :: rest)).output = text (statement :: rest) := by
      rw [Writer.writeDocument_eq rfl rfl]
      exact String.empty_append
    have ends : (text (statement :: rest)).toList.getLast? = some '\n' := getLast?_textOfLines filled
    unfold emit
    dsimp only
    rw [written, if_pos ends]

/-! ### Nested statements

A statement is written one level further in like it is written, with four more spaces before each line that is not
empty. So the body of a class has the renderings of its statements in it, unless a placeholder takes its place.
-/

def Statement.rendering (level : Nat) (statement : Statement) : String := textOfLines (statement.lines level)

/-- The text with four spaces before every line that is not empty. -/
def indentLines (text : String) : String :=
  "\n".intercalate ((Text.lines text).map fun line => if line = "" then "" else "    " ++ line)

/-- The decorators, the header and the body of a class or a function. -/
def Statement.block? : Statement → Option (List String × String × List Statement)
  | .classDef name decorators body => some (decorators, classHeader name, body)
  | .function name decorators parameters returns body => some (decorators, functionHeader name parameters returns, body)
  | .importFrom .. | .importModule _ | .assignment .. | .docstring _ | .ellipsis => none

/-! ### One level further in -/

theorem indented_one (line : String) : indented 1 line = if line = "" then "" else "    " ++ line := rfl

theorem indented_succ (level : Nat) (line : String) : indented (level + 1) line = indented 1 (indented level line) := by
  have spaces : indentation (level + 1) = indentation 1 ++ indentation level := by
    rw [← String.toList_inj, String.toList_append, toList_indentation, toList_indentation, toList_indentation,
      List.replicate_append_replicate]
    congr 1
    omega
  by_cases empty : line = ""
  · simp [indented, empty]
  · have filled : indentation level ++ line ≠ "" := by simp [empty]
    simp only [indented, if_neg empty, if_neg filled, spaces, String.append_assoc]

theorem decoratorLines_succ (level : Nat) (decorators : List String) :
    decoratorLines (level + 1) decorators = (decoratorLines level decorators).map (indented 1) := by
  simp only [decoratorLines, List.map_map, Function.comp_def, ← indented_succ]

theorem block_succ (level : Nat) (header : String) {body : List Statement}
    (inside : linesOfAll (level + 2) body = (linesOfAll (level + 1) body).map (indented 1)) :
    (if isPlaceholder body then [indented (level + 1) (header ++ " ...")]
      else indented (level + 1) header :: linesOfAll (level + 2) body) =
    (if isPlaceholder body then [indented level (header ++ " ...")]
      else indented level header :: linesOfAll (level + 1) body).map (indented 1) := by
  split
  · rw [List.map_singleton, indented_succ]
  · rw [List.map_cons, indented_succ, inside]

-- The recursion is on the statement, through the statements of its body.
mutual

theorem Statement.lines_succ (level : Nat) (statement : Statement) :
    statement.lines (level + 1) = (statement.lines level).map (indented 1) := by
  match statement with
  | .classDef name decorators body =>
    rw [Statement.lines, Statement.lines, List.map_append, decoratorLines_succ,
      block_succ level (classHeader name) (linesOfAll_succ (level + 1) body)]
  | .function name decorators parameters returns body =>
    rw [Statement.lines, Statement.lines, List.map_append, decoratorLines_succ,
      block_succ level (functionHeader name parameters returns) (linesOfAll_succ (level + 1) body)]
  | .docstring text => simp only [Statement.lines, List.map_map, Function.comp_def, ← indented_succ]
  | .importFrom _ _ | .importModule _ | .assignment _ _ _ | .ellipsis =>
    rw [Statement.lines, Statement.lines, List.map_singleton, indented_succ]

theorem linesOfAll_succ (level : Nat) (statements : List Statement) :
    linesOfAll (level + 1) statements = (linesOfAll level statements).map (indented 1) := by
  match statements with
  | [] => rfl
  | statement :: rest =>
    rw [linesOfAll, linesOfAll, List.map_append, Statement.lines_succ level statement, linesOfAll_succ level rest]

end

/-! ### The lines of a rendering -/

theorem lines_textOfLines {lines : List String} (whole : ¬ HeldBy '\n' lines) :
    Text.lines (textOfLines lines) = lines ++ [""] := by
  have cut : (textOfLines lines).toList.splitOn '\n' = lines.map String.toList ++ [[]] := by
    rw [toList_textOfLines]
    induction lines with
    | nil => rfl
    | cons line rest ih =>
      rw [heldBy_cons, not_or] at whole
      rw [List.flatMap_cons, List.append_assoc, List.singleton_append, List.splitOn_append_cons_self,
        List.splitOn_eq_singleton whole.1, ih whole.2]
      rfl
  rw [Text.lines, cut]
  simp [Function.comp_def]

theorem intercalate_lines (lines : List String) : "\n".intercalate (lines ++ [""]) = textOfLines lines := by
  induction lines with
  | nil => rfl
  | cons line rest ih =>
    have filled : rest ++ [""] ≠ [] := by simp
    rw [List.cons_append, String.intercalate_cons_of_ne_nil filled, ih]
    simp [textOfLines, String.append_assoc]

theorem indentLines_textOfLines {lines : List String} (whole : ¬ HeldBy '\n' lines) :
    indentLines (textOfLines lines) = textOfLines (lines.map (indented 1)) := by
  have tail : (lines ++ [""]).map (indented 1) = lines.map (indented 1) ++ [""] := by
    rw [List.map_append]
    rfl
  unfold indentLines
  simp only [← indented_one]
  rw [lines_textOfLines whole, tail, intercalate_lines]

/-! ### Statements -/

variable {statement : Statement}

theorem Statement.rendering_succ (plain : ¬ HeldBy '\n' statement.words) (level : Nat) :
    statement.rendering (level + 1) = indentLines (statement.rendering level) := by
  have whole : ¬ HeldBy '\n' (statement.lines level) := by
    rw [Statement.heldBy_lines (by decide)]
    simp [Statement.Holds, plain]
  rw [Statement.rendering, Statement.rendering, indentLines_textOfLines whole, Statement.lines_succ]

theorem textOfLines_linesOfAll (level : Nat) (statements : List Statement) :
    textOfLines (linesOfAll level statements) = String.join (statements.map (Statement.rendering level)) := by
  induction statements with
  | nil => rfl
  | cons statement rest ih =>
    rw [linesOfAll, textOfLines_append, ih]
    simp [Statement.rendering]

theorem textOfLines_block (level : Nat) {header : String} (filled : header ≠ "") (body : List Statement) :
    textOfLines (if isPlaceholder body then [indented level (header ++ " ...")]
      else indented level header :: linesOfAll (level + 1) body) =
    indented level header ++ if isPlaceholder body then " ...\n"
      else "\n" ++ String.join (body.map (Statement.rendering (level + 1))) := by
  split
  · simp [textOfLines, indented, filled, String.append_assoc]
  · rw [← textOfLines_linesOfAll]
    simp [textOfLines, String.append_assoc]

theorem Statement.rendering_block {level : Nat} {decorators : List String} {header : String} {body : List Statement}
    (is : statement.block? = some (decorators, header, body)) :
    statement.rendering level = textOfLines (decoratorLines level decorators) ++ (indented level header ++
      if isPlaceholder body then " ...\n" else "\n" ++ String.join (body.map (Statement.rendering (level + 1)))) := by
  cases statement with
  | classDef name _ _ =>
    cases is
    have filled : classHeader name ≠ "" := by simp [classHeader]
    rw [Statement.rendering, Statement.lines, textOfLines_append, textOfLines_block level filled]
  | function name _ parameters returns _ =>
    cases is
    have filled : functionHeader name parameters returns ≠ "" := by simp [functionHeader]
    rw [Statement.rendering, Statement.lines, textOfLines_append, textOfLines_block level filled]
  | importFrom _ _ | importModule _ | assignment _ _ _ | docstring _ | ellipsis => cases is

theorem Statement.plain_of_mem_body {decorators : List String} {header : String} {body : List Statement}
    (plain : ¬ HeldBy '\n' statement.words) (is : statement.block? = some (decorators, header, body)) :
    ∀ inner ∈ body, ¬ HeldBy '\n' inner.words := by
  have inBody : ¬ HeldBy '\n' (wordsOfAll body) := by
    cases statement with
    | classDef _ _ _ | function _ _ _ _ _ =>
      cases is
      simp only [Statement.words, heldBy_append, not_or] at plain
      exact plain.2
    | importFrom _ _ | importModule _ | assignment _ _ _ | docstring _ | ellipsis => cases is
  rw [wordsOfAll_eq_flatMap, heldBy_flatMap] at inBody
  intro inner member held
  exact inBody ⟨inner, member, held⟩

/-- From the beginning of a line on, a statement without line ends in its words is written as its rendering, and the
writer then stands at the beginning of a line of the level that it had before. One level further in, the rendering has
four spaces before each line that is not empty. Below the header of a class or a function stand the renderings of the
statements in its body, one level further in. Only an empty body or a lone placeholder stays on the line of the
header. -/
theorem nested_rendering_is_indented (plain : ¬ HeldBy '\n' statement.words) :
    (∀ writer : Writer, writer.atLineStart = true →
      statement.write writer = { writer with output := writer.output ++ statement.rendering writer.level }) ∧
    (∀ level, statement.rendering (level + 1) = indentLines (statement.rendering level)) ∧
    ∀ level decorators header body, statement.block? = some (decorators, header, body) →
      statement.rendering level = textOfLines (decoratorLines level decorators) ++ (indented level header ++
        if isPlaceholder body then " ...\n"
        else "\n" ++ String.join (body.map fun inner => indentLines (inner.rendering level))) := by
  refine ⟨?_, Statement.rendering_succ plain, ?_⟩
  · intro writer starts
    exact Writer.write_eq starts statement
  · intro level decorators header body is
    have inner : body.map (Statement.rendering (level + 1)) =
        body.map fun inner => indentLines (inner.rendering level) := by
      refine List.map_congr_left fun inner member => ?_
      exact Statement.rendering_succ (Statement.plain_of_mem_body plain is inner member) level
    rw [Statement.rendering_block is, inner]

def unitClass : Statement :=
  .classDef "Unit" ["typing.final"] [
    .docstring "Tells\n\nmore.",
    .classDef "Inner" [] [.assignment "size" (.name "int") none],
    .function "scaled" [] [{ name := "self", type := none }] (some (.name "Unit")) [.ellipsis]]

set_option maxRecDepth 4000 in
theorem unitClass_rendering_is_indented :
    ¬ HeldBy '\n' unitClass.words ∧
    unitClass.rendering 1 = "    @typing.final\n    class Unit:\n        \"\"\"Tells\n\n        more.\"\"\"\n" ++
      "        class Inner:\n            size: int\n        def scaled(self) -> Unit: ...\n" := by
  have plain : ¬ HeldBy '\n' unitClass.words := by decide
  refine ⟨plain, ?_⟩
  rw [(nested_rendering_is_indented plain).2.1 0]
  decide

/-- A placeholder that is alone in its body is not rendered below the header. -/
theorem placeholder_is_not_indented :
    ¬ HeldBy '\n' (Statement.classDef "A" [] [.ellipsis]).words ∧
    (Statement.classDef "A" [] [.ellipsis]).rendering 0 = "class A: ...\n" ∧
    (Statement.classDef "A" [] [.ellipsis]).rendering 0 ≠ classHeader "A" ++ "\n" ++
      String.join ([Statement.ellipsis].map fun inner => indentLines (inner.rendering 0)) := by
  decide

end TypedStub.Stub
