import TypedStub.Json

/-! The tokens of a JSON value.

The grammar tells which tokens stand for a value, and says nothing of how they are read. The reader keeps a stack of the
places around a value and finds its way back to each of them.
-/

set_option autoImplicit false

namespace TypedStub.Json

mutual

/-- Tokens that stand for a value. -/
inductive Written : Json → List Token → Prop where
  | scalar {value : Json} : Written value [.scalar value]
  | noItems : Written (.array []) [.openBracket, .closeBracket]
  | array {items : List Json} {tokens : List Token} :
      WrittenItems items tokens → Written (.array items) (.openBracket :: (tokens ++ [.closeBracket]))
  | noFields : Written (.object []) [.openBrace, .closeBrace]
  | object {fields : List (Option String × Json)} {tokens : List Token} :
      WrittenFields fields tokens → Written (.object fields) (.openBrace :: (tokens ++ [.closeBrace]))

inductive WrittenItems : List Json → List Token → Prop where
  | last {item : Json} {tokens : List Token} : Written item tokens → WrittenItems [item] tokens
  | next {item : Json} {rest : List Json} {tokens later : List Token} :
      Written item tokens → WrittenItems rest later → WrittenItems (item :: rest) (tokens ++ .comma :: later)

inductive WrittenFields : List (Option String × Json) → List Token → Prop where
  | last (name : Option String) {value : Json} {tokens : List Token} :
      Written value tokens → WrittenFields [(name, value)] (.scalar (.text name) :: .colon :: tokens)
  | next (name : Option String) {value : Json} {rest : List (Option String × Json)} {tokens later : List Token} :
      Written value tokens → WrittenFields rest later →
      WrittenFields ((name, value) :: rest) (.scalar (.text name) :: .colon :: (tokens ++ .comma :: later))

end

namespace Reader

def Reads (state : State) (tokens : List Token) (next : State) : Prop := tokens.foldlM step? state = some next

section
variable {state middle next : State} {token : Token} {first rest : List Token}

theorem Reads.cons (stepped : step? state token = some middle) (reads : Reads middle rest next) :
    Reads state (token :: rest) next := by
  unfold Reads at *
  rw [List.foldlM_cons, stepped]
  exact reads

theorem Reads.append (reads : Reads state first middle) (later : Reads middle rest next) :
    Reads state (first ++ rest) next := by
  unfold Reads at *
  rw [List.foldlM_append, reads]
  exact later

theorem reads_singleton (stepped : step? state token = some next) : Reads state [token] next :=
  .cons stepped rfl

end

/-- A value does not begin with a closing bracket, so that the first item of an array may begin with it. -/
theorem step?_firstItem_of_written {value : Json} {tokens : List Token} (written : Written value tokens)
    (places : List Place) : ∃ head tail, tokens = head :: tail ∧
      step? (.firstItem places) head = step? (.value (.item [] :: places)) head := by
  cases written <;> exact ⟨_, _, rfl, rfl⟩

theorem reads_firstItem_of_items {items : List Json} {tokens rest : List Token} (written : WrittenItems items tokens)
    {places : List Place} {next : State} (reads : Reads (.value (.item [] :: places)) (tokens ++ rest) next) :
    Reads (.firstItem places) (tokens ++ rest) next := by
  have begins : ∃ head tail, tokens = head :: tail ∧
      step? (.firstItem places) head = step? (.value (.item [] :: places)) head := by
    cases written with
    | last item => exact step?_firstItem_of_written item places
    | next item _ =>
      obtain ⟨head, tail, rfl, same⟩ := step?_firstItem_of_written item places
      exact ⟨head, _, rfl, same⟩
  obtain ⟨head, tail, rfl, same⟩ := begins
  unfold Reads at *
  rw [List.cons_append, List.foldlM_cons] at *
  rwa [same]

theorem reads_firstName_of_fields {fields : List (Option String × Json)} {tokens rest : List Token}
    (written : WrittenFields fields tokens) {places : List Place} {next : State}
    (reads : Reads (.nextName [] places) (tokens ++ rest) next) : Reads (.firstName places) (tokens ++ rest) next := by
  cases written <;> exact reads

/-! ### Reading what is written

The reader returns to the places around a value once the value is read, with the value in hand. It keeps the items and
fields before it in reverse.
-/

mutual

theorem reads_of_written {value : Json} {tokens : List Token} (written : Written value tokens) (places : List Place) :
    Reads (.value places) tokens (.after value places) := by
  match written with
  | .scalar => exact reads_singleton rfl
  | .noItems => exact .cons (by rfl) (reads_singleton rfl)
  | .array items =>
    exact .cons (by rfl) (reads_firstItem_of_items items (reads_of_writtenItems items [] places))
  | .noFields => exact .cons (by rfl) (reads_singleton rfl)
  | .object fields =>
    exact .cons (by rfl) (reads_firstName_of_fields fields (reads_of_writtenFields fields [] places))

theorem reads_of_writtenItems {items : List Json} {tokens : List Token} (written : WrittenItems items tokens)
    (before : List Json) (places : List Place) :
    Reads (.value (.item before :: places)) (tokens ++ [.closeBracket])
      (.after (.array (before.reverse ++ items)) places) := by
  match written with
  | .last item =>
    refine (reads_of_written item _).append (reads_singleton ?_)
    simp only [step?, List.reverse_cons]
  | @WrittenItems.next head rest _ _ item others =>
    rw [List.append_assoc]
    refine (reads_of_written item _).append (.cons (by rfl) ?_)
    have later := reads_of_writtenItems others (head :: before) places
    rwa [List.reverse_cons, List.append_assoc] at later

theorem reads_of_writtenFields {fields : List (Option String × Json)} {tokens : List Token}
    (written : WrittenFields fields tokens) (before : List (Option String × Json)) (places : List Place) :
    Reads (.nextName before places) (tokens ++ [.closeBrace])
      (.after (.object (before.reverse ++ fields)) places) := by
  match written with
  | .last _ value =>
    refine .cons (by rfl) (.cons (by rfl) ((reads_of_written value _).append (reads_singleton ?_)))
    simp only [step?, List.reverse_cons]
  | @WrittenFields.next name head _ _ _ value others =>
    rw [List.cons_append, List.cons_append, List.append_assoc]
    refine .cons (by rfl) (.cons (by rfl) ((reads_of_written value _).append (.cons (by rfl) ?_)))
    have later := reads_of_writtenFields others ((name, head) :: before) places
    rwa [List.reverse_cons, List.append_assoc] at later

end

/-! ### What is read was written

What a reader has seen tells its state: in every place that waits for a value, the items or the fields before it are
written with a comma behind each of them.
-/

inductive Ended : List Json → List Token → Prop where
  | nil : Ended [] []
  | cons {before : List Json} {item : Json} {seen own : List Token} :
      Ended before seen → Written item own → Ended (item :: before) (seen ++ (own ++ [.comma]))

inductive EndedFields : List (Option String × Json) → List Token → Prop where
  | nil : EndedFields [] []
  | cons {before : List (Option String × Json)} {value : Json} {seen own : List Token} (name : Option String) :
      EndedFields before seen → Written value own →
      EndedFields ((name, value) :: before) (seen ++ (.scalar (.text name) :: .colon :: (own ++ [.comma])))

/-- The tokens up to a value in its places. -/
inductive Opened : List Place → List Token → Prop where
  | nil : Opened [] []
  | item {places : List Place} {before : List Json} {outer seen : List Token} :
      Opened places outer → Ended before seen → Opened (.item before :: places) (outer ++ .openBracket :: seen)
  | field {places : List Place} {before : List (Option String × Json)} {outer seen : List Token} (name : Option String) :
      Opened places outer → EndedFields before seen →
      Opened (.field before name :: places) (outer ++ .openBrace :: (seen ++ [.scalar (.text name), .colon]))

/-- The tokens up to a state. -/
inductive Seen : State → List Token → Prop where
  | value {places : List Place} {outer : List Token} : Opened places outer → Seen (.value places) outer
  | firstItem {places : List Place} {outer : List Token} :
      Opened places outer → Seen (.firstItem places) (outer ++ [.openBracket])
  | firstName {places : List Place} {outer : List Token} :
      Opened places outer → Seen (.firstName places) (outer ++ [.openBrace])
  | nextName {places : List Place} {before : List (Option String × Json)} {outer seen : List Token} :
      Opened places outer → EndedFields before seen → Seen (.nextName before places) (outer ++ .openBrace :: seen)
  | colon {places : List Place} {before : List (Option String × Json)} {outer seen : List Token}
      (name : Option String) : Opened places outer → EndedFields before seen →
      Seen (.colon before name places) (outer ++ .openBrace :: (seen ++ [.scalar (.text name)]))
  | after {places : List Place} {value : Json} {outer own : List Token} :
      Opened places outer → Written value own → Seen (.after value places) (outer ++ own)

section
variable {tokens seen outer : List Token} {token : Token} {state next : State} {places : List Place}

theorem Ended.writtenItems {before items : List Json} (ended : Ended before seen) (later : WrittenItems items tokens) :
    WrittenItems (before.reverse ++ items) (seen ++ tokens) := by
  induction ended generalizing items tokens with
  | nil => exact later
  | cons _ item ih =>
    rw [List.reverse_cons, List.append_assoc, List.append_assoc, List.append_assoc]
    exact ih (.next item later)

theorem EndedFields.writtenFields {before fields : List (Option String × Json)} (ended : EndedFields before seen)
    (later : WrittenFields fields tokens) : WrittenFields (before.reverse ++ fields) (seen ++ tokens) := by
  induction ended generalizing fields tokens with
  | nil => exact later
  | cons name _ value ih =>
    simpa using ih (.next name value later)

theorem seen_begin (opened : Opened places outer) (begun : begin? places token = some next) :
    Seen next (outer ++ [token]) := by
  cases token with
  | openBracket => exact Option.some.inj begun ▸ .firstItem opened
  | openBrace => exact Option.some.inj begun ▸ .firstName opened
  | scalar value => exact Option.some.inj begun ▸ .after opened .scalar
  | closeBracket | closeBrace | colon | comma => cases begun

/-- What may follow a value in its places is a comma or the mark that closes the innermost of them. -/
theorem seen_after {value : Json} {own : List Token} (opened : Opened places outer) (written : Written value own)
    (stepped : step? (.after value places) token = some next) : Seen next (outer ++ own ++ [token]) := by
  cases opened with
  | nil => cases token <;> cases stepped
  | item opened ended =>
    cases token with
    | comma =>
      have longer := Seen.value (.item opened (ended.cons written))
      cases stepped
      simpa using longer
    | closeBracket =>
      have whole := Seen.after opened (.array (ended.writtenItems (.last written)))
      cases stepped
      simpa using whole
    | openBracket | openBrace | closeBrace | colon | scalar => cases stepped
  | field name opened ended =>
    cases token with
    | comma =>
      have longer := Seen.nextName opened (ended.cons name written)
      cases stepped
      simpa using longer
    | closeBrace =>
      have whole := Seen.after opened (.object (ended.writtenFields (.last name written)))
      cases stepped
      simpa using whole
    | openBracket | openBrace | closeBracket | colon | scalar => cases stepped

-- What a state waits for decides which tokens lead on, so the cases are the states and in each of them the tokens.
theorem Seen.step (before : Seen state tokens) (stepped : step? state token = some next) :
    Seen next (tokens ++ [token]) := by
  cases before with
  | value opened => exact seen_begin opened stepped
  | firstItem opened =>
    cases token with
    | closeBracket =>
      have whole := Seen.after opened .noItems
      cases stepped
      simpa using whole
    | openBracket | openBrace | closeBrace | colon | comma | scalar => exact seen_begin (.item opened .nil) stepped
  | firstName opened =>
    cases token with
    | closeBrace =>
      have whole := Seen.after opened .noFields
      cases stepped
      simpa using whole
    | scalar value =>
      cases value with
      | text name =>
        have named := Seen.colon name opened .nil
        cases stepped
        simpa using named
      | null | bool | integer | real | array | object => cases stepped
    | openBracket | openBrace | closeBracket | colon | comma => cases stepped
  | nextName opened ended =>
    cases token with
    | scalar value =>
      cases value with
      | text name =>
        have named := Seen.colon name opened ended
        cases stepped
        simpa using named
      | null | bool | integer | real | array | object => cases stepped
    | openBracket | openBrace | closeBracket | closeBrace | colon | comma => cases stepped
  | colon name opened ended =>
    cases token with
    | colon =>
      have longer := Seen.value (.field name opened ended)
      cases stepped
      simpa using longer
    | openBracket | openBrace | closeBracket | closeBrace | comma | scalar => cases stepped
  | after opened written => exact seen_after opened written stepped

theorem Seen.reads (before : Seen state seen) (reads : Reads state tokens next) : Seen next (seen ++ tokens) := by
  induction tokens generalizing state seen with
  | nil =>
    cases reads
    rwa [List.append_nil]
  | cons token rest ih =>
    obtain ⟨middle, stepped, later⟩ := Option.bind_eq_some_iff.1 reads
    have whole := ih (before.step stepped) later
    rwa [List.append_assoc] at whole

theorem reads_iff {value : Json} : Reads (.value []) tokens (.after value []) ↔ Written value tokens := by
  refine ⟨fun reads => ?_, fun written => reads_of_written written []⟩
  have whole := (Seen.value .nil).reads reads
  -- No place is open at the end, so that what was seen is the value alone.
  cases whole with
  | after opened written =>
    cases opened
    exact written

end

end Reader

end TypedStub.Json
