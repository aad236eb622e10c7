/-! Patterns, and searching a whole text for them.

A pattern is a list of parts that follow each other. A run takes as many characters as it can and gives some of them
back if the parts after it need them. Matches are found from left to right and do not overlap.
-/

set_option autoImplicit false

namespace TypedStub.Text

structure Cursor where
  before : Char
  rest : List Char

def Cursor.behind (cursor : Cursor) (taken rest : List Char) : Cursor := ⟨taken.getLastD cursor.before, rest⟩

inductive PatternPart where
  | lineStart
  | lineEnd
  | mark (text : String)
  /-- Characters of a class, and at least some number of them. A match tells which, if they are kept. -/
  | run (inside : Char → Bool) (least : Nat) (kept : Bool)

abbrev Pattern := List PatternPart

def runs (inside : Char → Bool) : List Char → List (List Char × List Char)
  | [] => [([], [])]
  | c :: rest =>
    (if inside c then (runs inside rest).map fun found => (c :: found.1, found.2) else []) ++ [([], c :: rest)]

namespace PatternPart

/-- What a part can take at a place, with what follows it, in the order of preference. -/
def takes (cursor : Cursor) : PatternPart → List (List Char × List Char)
  | .lineStart => if cursor.before = '\n' then [([], cursor.rest)] else []
  | .lineEnd => if cursor.rest.head?.all (· = '\n') then [([], cursor.rest)] else []
  | .mark text =>
    match text.toList.isPrefixOf? cursor.rest with
    | some rest => [(text.toList, rest)]
    | none => []
  | .run inside least _ => (runs inside cursor.rest).filter fun found => least ≤ found.1.length

def keep (taken : List Char) : PatternPart → List (List Char)
  | .run _ _ true => [taken]
  | _ => []

end PatternPart

structure Match where
  kept : List (List Char)
  stop : Cursor

def Match.after (kept : List (List Char)) (later : Match) : Match := ⟨kept ++ later.kept, later.stop⟩

namespace Pattern

def matchesAt : Pattern → Cursor → List Match
  | [], cursor => [⟨[], cursor⟩]
  | part :: parts, cursor =>
    (part.takes cursor).flatMap fun found =>
      (matchesAt parts (cursor.behind found.1 found.2)).map (.after (part.keep found.1))

def matchAt? (pattern : Pattern) (cursor : Cursor) : Option Match := (pattern.matchesAt cursor).head?

/-- The kept runs of all matches behind a place. Behind an empty match the search goes on one character further. -/
def findFrom (pattern : Pattern) (before : Char) (text : List Char) : List (List (List Char)) :=
  match text with
  | [] => (pattern.matchAt? ⟨before, []⟩).toList.map Match.kept
  | c :: rest =>
    match pattern.matchAt? ⟨before, c :: rest⟩ with
    | none => pattern.findFrom c rest
    | some found =>
      found.kept ::
        if found.stop.rest.length < (c :: rest).length then pattern.findFrom found.stop.before found.stop.rest
        else pattern.findFrom c rest
  termination_by text.length
  decreasing_by
    · exact Nat.lt_succ_self _
    · assumption
    · exact Nat.lt_succ_self _

/-- The start of a text is the start of a line. -/
def findAll (pattern : Pattern) (text : List Char) : List (List (List Char)) := pattern.findFrom '\n' text

def ofLine (parts : Pattern) : Pattern := .lineStart :: (parts ++ [.lineEnd])

end Pattern

end TypedStub.Text
