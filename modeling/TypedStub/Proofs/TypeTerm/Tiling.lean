import Mathlib.Algebra.Group.Nat.Defs
import Mathlib.Data.List.Chain
import TypedStub.Proofs.TypeTerm.Scanning

/-! Tokens tile their text.

A text is cut nowhere inside a run of path characters, and everywhere else it can be cut. So each run is one token and
each mark is one, in the order of the text, and nothing but gaps is left between them.
-/

set_option autoImplicit false

namespace TypedStub.TypeTerm

namespace Span

def Meets (first second : Span) : Prop := first.start < second.stop ∧ second.start < first.stop

instance (first second : Span) : Decidable (first.Meets second) := inferInstanceAs (Decidable (_ ∧ _))

/-- The text between two spans has no other characters than gaps. -/
def OnlyGaps (source : String) (first second : Span) : Prop :=
  ∃ gap, slice? ⟨first.stop, second.start⟩ source = some gap ∧ ∀ c ∈ gap.toList, Token.isGap c = true

def narrowed (span : Span) : Span := ⟨(UInt32.ofNat span.start).toNat, (UInt32.ofNat span.stop).toNat⟩

theorem narrowed_eq {span : Span} (start : span.start < 2 ^ 32) (stop : span.stop < 2 ^ 32) : span.narrowed = span := by
  unfold narrowed
  rw [UInt32.toNat_ofNat_of_lt' start, UInt32.toNat_ofNat_of_lt' stop]

theorem onlyGaps_of_split {source : String} {before gap rest : List Char} {first second : Span}
    (whole : source.toList = before ++ gap ++ rest) (inside : ∀ c ∈ gap, Token.isGap c = true)
    (stop : first.stop = Token.width before) (start : second.start = Token.width before + Token.width gap) :
    first.OnlyGaps source second := by
  refine ⟨String.ofList gap, ?_, by rwa [String.toList_ofList]⟩
  rw [stop, start, ← String.ofList_toList (s := source), whole]
  exact slice?_append before gap rest

end Span

namespace Token

/-- No run of path characters goes on from one text into the next. -/
def Apart (first second : List Char) : Prop :=
  ∀ last ∈ first.getLast?, ∀ head ∈ second.head?, isPathChar last = true → isPathChar head = false

structure Tiles (source : String) (tokens : List Token) : Prop where
  ends : ∃ inner, tokens = inner ++ [⟨.endOfText, ⟨source.utf8ByteSize, source.utf8ByteSize⟩, ""⟩] ∧
    ∀ token ∈ inner, token.kind ≠ .endOfText ∧ IsLexeme token.lexeme.toList token.kind
  increasing : tokens.Pairwise fun first second =>
    first.span.start < first.span.stop ∧ first.span.stop ≤ second.span.start
  lexemes : ∀ token ∈ tokens, token.span.slice? source = some token.lexeme
  /-- From the beginning of the text on, only gaps are between one token and the next. -/
  gaps : (⟨0, 0⟩ :: tokens.map Token.span).IsChain (Span.OnlyGaps source)
  /-- What stands for a token, and is no part of a longer run, is one token and no part of others. -/
  pieces : ∀ before piece after kind, source.toList = before ++ piece ++ after → IsLexeme piece kind →
    Apart before piece → Apart piece after →
    let span : Span := ⟨width before, width before + width piece⟩
    tokens.filter (·.span.Meets span) = [⟨kind, span, String.ofList piece⟩]

theorem width_eq (text : List Char) : width text = (String.ofList text).utf8ByteSize := by
  induction text with
  | nil => rfl
  | cons c rest ih => rw [width_cons, ih, String.ofList_cons, String.utf8ByteSize_append, String.utf8ByteSize_singleton]

theorem width_pos {text : List Char} (filled : text ≠ []) : 0 < width text := by
  cases text with
  | nil => exact absurd rfl filled
  | cons c rest => exact Nat.lt_of_lt_of_le c.utf8Size_pos (Nat.le_add_right _ _)

section
variable {start : Nat} {text first second piece : List Char} {c : Char} {kind : TokenKind} {token : Token}

/-! ### Cutting a text -/

theorem scanFrom_lexeme (lexeme : IsLexeme piece kind) :
    scanFrom start piece = [⟨kind, ⟨start, start + width piece⟩, String.ofList piece⟩] := by
  have run : ∀ run : List Char, run ≠ [] → (∀ c ∈ run, isPathChar c = true) →
      scanFrom start run = [ofRun start run] := by
    intro run filled inside
    have alone : scanFrom start (run ++ []) = ofRun start run :: scanFrom (start + width run) [] :=
      scanFrom_run filled inside endsRun_nil
    rwa [List.append_nil, scanFrom_nil] at alone
  have mark : ∀ c, isGap c = false → isPathChar c = false → scanFrom start [c] = [ofMark start c] := by
    intro c notGap outside
    rw [scanFrom_mark notGap outside, scanFrom_nil]
  cases lexeme with
  | or => exact run ['o', 'r'] (List.cons_ne_nil _ _) (List.all_eq_true.1 rfl)
  | path filled inside notWord => rw [run piece filled inside, ofRun, if_neg notWord]
  | openBracket => exact mark '[' (by decide) (by decide)
  | closeBracket => exact mark ']' (by decide) (by decide)
  | comma => exact mark ',' (by decide) (by decide)
  | @other c notGap outside notMark =>
    have kind : markKind c = .other := by
      unfold markKind
      simp_all
    rw [mark c notGap outside, ofMark, kind]
    rfl

theorem scanFrom_outside (outside : isPathChar c = false) :
    scanFrom start (c :: text) = scanFrom start [c] ++ scanFrom (start + c.utf8Size) text := by
  cases gap : isGap c with
  | true => rw [scanFrom_gap gap, scanFrom_gap gap, scanFrom_nil, List.nil_append]
  | false => rw [scanFrom_mark gap outside, scanFrom_mark gap outside, scanFrom_nil, List.singleton_append]

theorem scanFrom_apart (apart : Apart first second) :
    scanFrom start (first ++ second) = scanFrom start first ++ scanFrom (start + width first) second := by
  by_cases ends : EndsRun second
  · exact scanFrom_append ends
  -- A run begins the second text, so the first one is empty or ends with a character of no run.
  rcases List.eq_nil_or_concat first with rfl | ⟨init, last, rfl⟩
  · rw [List.nil_append, scanFrom_nil, List.nil_append, width_nil, Nat.add_zero]
  · have outside : isPathChar last = false := by
      refine Bool.eq_false_iff.2 fun inside => ends ?_
      rintro head tail rfl
      exact apart last (by simp) head rfl inside
    rw [List.concat_eq_append, List.append_assoc, List.singleton_append, scanFrom_append (endsRun_cons second outside),
      scanFrom_outside outside,
      scanFrom_append (endsRun_cons [] outside), List.append_assoc, width_append, width_cons, width_nil, Nat.add_zero,
      Nat.add_assoc]

/-! ### Spans -/

theorem bounds_of_mem_scanFrom (member : token ∈ scanFrom start text) :
    start ≤ token.span.start ∧ token.span.start < token.span.stop ∧ token.span.stop ≤ start + width text := by
  obtain ⟨before, piece, after, rfl, span, lexeme⟩ := covers_of_mem_scanFrom member
  have filled := (isLexeme_of_mem_scanFrom member).ne_nil
  rw [lexeme, String.toList_ofList] at filled
  have positive := width_pos filled
  rw [span, width_append, width_append]
  dsimp only
  omega

theorem increasing_scanFrom : (scanFrom start text).Pairwise fun first second =>
    first.span.start < first.span.stop ∧ first.span.stop ≤ second.span.start := by
  fun_induction scanFrom start text with
  | case1 start => exact .nil
  | case2 start c rest gap ih => exact ih
  | case3 start c rest notGap inside run ih =>
    have filled : 0 < width run := width_pos (List.cons_ne_nil _ _)
    exact .cons (fun later member => ⟨Nat.lt_add_of_pos_right filled, (bounds_of_mem_scanFrom member).1⟩) ih
  | case4 start c rest notGap outside ih =>
    exact .cons (fun later member => ⟨Nat.lt_add_of_pos_right c.utf8Size_pos, (bounds_of_mem_scanFrom member).1⟩) ih

theorem isChain_scanFrom {source : String} {before gap : List Char} {previous : Span}
    (whole : source.toList = before ++ gap ++ text) (onlyGap : ∀ c ∈ gap, isGap c = true)
    (stop : previous.stop = width before) (begins : start = width before + width gap) :
    (previous :: (scanFrom start text ++ [ofEnd (width source.toList)]).map Token.span).IsChain
      (Span.OnlyGaps source) := by
  fun_induction scanFrom start text generalizing before gap previous with
  | case1 start =>
    refine .cons_cons (Span.onlyGaps_of_split whole onlyGap stop ?_) (.singleton _)
    rw [ofEnd, whole, List.append_nil, width_append]
  | case2 start c rest isGap ih =>
    -- The gap goes on.
    refine @ih before (gap ++ [c]) previous ?_ ?_ stop ?_
    · simpa using whole
    · simpa [or_imp, forall_and] using ⟨onlyGap, isGap⟩
    · rw [begins, width_append, width_cons, width_nil, Nat.add_zero, Nat.add_assoc]
  | case3 start c rest notGap inside run =>
    rename_i ih
    refine .cons_cons (Span.onlyGaps_of_split whole onlyGap stop begins) ?_
    refine @ih (before ++ gap ++ run) [] _ ?_ (by simp) ?_ ?_
    · rw [whole, List.append_nil, List.append_assoc _ run, List.cons_append, List.takeWhile_append_dropWhile]
    · rw [ofRun, begins, width_append, width_append]
    · rw [begins, width_append, width_append, width_nil, Nat.add_zero]
  | case4 start c rest notGap outside ih =>
    refine .cons_cons (Span.onlyGaps_of_split whole onlyGap stop begins) ?_
    refine @ih (before ++ gap ++ [c]) [] _ ?_ (by simp) ?_ ?_
    · simpa using whole
    · rw [ofMark, begins, width_append, width_append, width_cons, width_nil, Nat.add_zero]
    · rw [begins, width_append, width_append, width_cons, width_nil, Nat.add_zero, Nat.add_zero]

end

/-! ### Whole texts -/

variable {source : String}

theorem ofEnd_eq (source : String) :
    ofEnd (width source.toList) = ⟨.endOfText, ⟨source.utf8ByteSize, source.utf8ByteSize⟩, ""⟩ := by
  rw [width_eq, String.ofList_toList, ofEnd]

theorem ends_scan (source : String) :
    ∃ inner, scan source = inner ++ [⟨.endOfText, ⟨source.utf8ByteSize, source.utf8ByteSize⟩, ""⟩] ∧
      ∀ token ∈ inner, token.kind ≠ .endOfText ∧ IsLexeme token.lexeme.toList token.kind := by
  refine ⟨scanFrom 0 source.toList, by rw [scan, ofEnd_eq], fun token member => ?_⟩
  have lexeme := isLexeme_of_mem_scanFrom member
  exact ⟨lexeme.ne_endOfText, lexeme⟩

theorem increasing_scan (source : String) : (scan source).Pairwise fun first second =>
    first.span.start < first.span.stop ∧ first.span.stop ≤ second.span.start := by
  refine List.pairwise_append.2 ⟨increasing_scanFrom, List.pairwise_singleton _ _, ?_⟩
  intro token member last atEnd
  obtain rfl := List.mem_singleton.1 atEnd
  have bounds := bounds_of_mem_scanFrom member
  exact ⟨bounds.2.1, bounds.2.2.trans_eq (Nat.zero_add _)⟩

theorem Apart.append_left {piece after : List Char} (apart : Apart piece after) (filled : piece ≠ [])
    (before : List Char) : Apart (before ++ piece) after := by
  unfold Apart
  rwa [List.getLast?_append_of_ne_nil before filled]

/-- What meets the span of a lexeme that is no part of a longer run is the token of the lexeme alone. -/
theorem filter_meets_scan {before piece after : List Char} {kind : TokenKind} {span : Span}
    (whole : source.toList = before ++ piece ++ after) (lexeme : IsLexeme piece kind) (left : Apart before piece)
    (right : Apart piece after) (covers : span = ⟨width before, width before + width piece⟩) :
    (scan source).filter (·.span.Meets span) = [⟨kind, span, String.ofList piece⟩] := by
  have positive := width_pos lexeme.ne_nil
  have length : width source.toList = width before + width piece + width after := by
    rw [whole, width_append, width_append]
  have parts : scanFrom 0 source.toList = scanFrom 0 before ++ ⟨kind, span, String.ofList piece⟩ ::
      scanFrom (width before + width piece) after := by
    rw [whole, scanFrom_apart (right.append_left lexeme.ne_nil before), scanFrom_apart left, scanFrom_lexeme lexeme,
      width_append, Nat.zero_add, Nat.zero_add, covers, List.append_assoc, List.singleton_append]
  -- The tokens before the lexeme end where it begins, and those behind it begin where it ends.
  have earlier : (scanFrom 0 before).filter (·.span.Meets span) = [] := by
    refine List.filter_eq_nil_iff.2 fun token member meets => ?_
    have bounds := bounds_of_mem_scanFrom member
    simp only [Span.Meets, covers, decide_eq_true_eq] at meets
    omega
  have later : (scanFrom (width before + width piece) after).filter (·.span.Meets span) = [] := by
    refine List.filter_eq_nil_iff.2 fun token member meets => ?_
    have bounds := bounds_of_mem_scanFrom member
    simp only [Span.Meets, covers, decide_eq_true_eq] at meets
    omega
  have own : span.Meets span := by
    rw [covers]
    exact ⟨Nat.lt_add_of_pos_right positive, Nat.lt_add_of_pos_right positive⟩
  have atEnd : ¬ (ofEnd (width source.toList)).span.Meets span := by
    rintro ⟨begins, -⟩
    rw [length, covers] at begins
    exact absurd begins (Nat.not_lt.2 (Nat.le_add_right _ _))
  rw [scan, parts, List.filter_append, List.filter_append, earlier, List.filter_cons_of_pos (by simpa using own), later,
    List.filter_cons_of_neg (by simpa using atEnd)]
  rfl

theorem bounds_of_mem_scan {token : Token} (member : token ∈ scan source) :
    token.span.start ≤ token.span.stop ∧ token.span.stop ≤ source.utf8ByteSize := by
  rcases List.mem_append.1 member with inside | atEnd
  · have bounds := bounds_of_mem_scanFrom inside
    rw [width_eq, String.ofList_toList] at bounds
    omega
  · obtain rfl := List.mem_singleton.1 atEnd
    rw [ofEnd_eq]
    exact ⟨Nat.le_refl _, Nat.le_refl _⟩

/-- The tokens of a text tile it. If the text has less than `2 ^ 32` bytes, all offsets fit into 32 bits. -/
theorem scan_tiles (source : String) :
    Tiles source (scan source) ∧
    (source.utf8ByteSize < 2 ^ 32 → ∀ token ∈ scan source, token.span.narrowed = token.span) := by
  constructor
  · exact {
      ends := ends_scan source
      increasing := increasing_scan source
      lexemes := fun _ => slice?_of_mem_scan
      gaps := @isChain_scanFrom 0 source.toList source [] [] ⟨0, 0⟩ rfl (by simp) rfl rfl
      pieces := fun _ _ _ _ whole lexeme left right => filter_meets_scan whole lexeme left right rfl }
  · intro short token member
    have bounds := bounds_of_mem_scan member
    exact Span.narrowed_eq (by omega) (by omega)

theorem accented_text_is_tiled :
    scan "é or\torder" =
      [⟨.other, ⟨0, 2⟩, "é"⟩, ⟨.or, ⟨3, 5⟩, "or"⟩, ⟨.path, ⟨6, 11⟩, "order"⟩, ⟨.endOfText, ⟨11, 11⟩, ""⟩] ∧
    Tiles "é or\torder" (scan "é or\torder") ∧
    "é or\torder".utf8ByteSize < 2 ^ 32 ∧
    ∀ token ∈ scan "é or\torder", token.span.narrowed = token.span := by
  have short : "é or\torder".utf8ByteSize < 2 ^ 32 := by decide
  exact ⟨by with_unfolding_all rfl, (scan_tiles _).1, short, (scan_tiles _).2 short⟩

end Token

end TypedStub.TypeTerm
