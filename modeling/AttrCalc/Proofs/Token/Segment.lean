import AttrCalc.Token.Scanner
import Mathlib.Data.List.TakeWhile

/-!
# Segments of a source

A scanner goes over its source from left to right.  The characters that it has counted and those
that are left make up the source, and each step passes over some white space and the text of its
answer.  So the text of an answer stands in the source just where the answer says.

## Main definitions

* `LexError.text`, `Answer.text`, `Answer.span` : the text that an answer names, and its place.
* `Span.Spells`, `Placed` : what the characters of a source at a place spell, and lexemes that stand
  where they say.
* `Scanner.Within` : a scanner that has counted the characters in front of those that are left.

## Main results

* `Scanner.exists_piece_of_step`, `Scanner.step_eq_some` : what a step passes over.
* `spells_of_mem_tokenize`, `spells_of_tokenize_eq_error` : the lexemes of a source, and its first
  error, stand where they say.
-/

namespace AttrCalc

open Unicode

/-! ### Texts and places -/

/-- The text that a lexical error names. -/
def LexError.text : LexError → String
  | unknownChar c _ => String.singleton c
  | malformedNumber text _ => text

/-- The characters of a lexeme. -/
def Lexeme.span (l : Lexeme) : Span :=
  ⟨l.offset, l.token.spelling.length⟩

theorem Lexeme.span_op (o : Operator) (offset : Nat) :
    (Lexeme.mk (.op o) offset).span = ⟨offset, 1⟩ := by
  simp [span, Token.spelling]

theorem Lexeme.span_leftParen (offset : Nat) :
    (Lexeme.mk .leftParen offset).span = ⟨offset, 1⟩ :=
  congrArg (Span.mk offset) (by decide : "(".length = 1)

/-- The text that an answer names. -/
def Answer.text : Answer → String
  | .ok l => l.token.spelling
  | .error e => e.text

/-- The characters that an answer is about. -/
def Answer.span : Answer → Span
  | .ok l => l.span
  | .error e => e.span

/-- The characters of a source at a place spell a text, which has at least one character. -/
structure Span.Spells (s : Span) (source text : String) : Prop where
  length_pos : 1 ≤ s.length
  end_le : s.offset + s.length ≤ source.length
  chars_eq : (source.toList.drop s.offset).take s.length = text.toList

/-- The lexemes stand in the source where they say. -/
def Placed (source : String) (ls : List Lexeme) : Prop :=
  ∀ l ∈ ls, l.span.Spells source l.token.spelling

/-- A text that stands behind some characters of a source is spelled there. -/
theorem spells_of_append {source text : String} {before after : List Char} (htext : text ≠ "")
    (h : before ++ (text.toList ++ after) = source.toList) :
    Span.Spells ⟨before.length, text.length⟩ source text where
  length_pos := Nat.one_le_iff_ne_zero.mpr (by simpa using htext)
  end_le := by
    have := congrArg List.length h
    simp only [List.length_append, String.length_toList] at this
    dsimp only
    omega
  chars_eq := by rw [← h, List.drop_left, ← String.length_toList, List.take_left]

theorem Piece.toList_text_answer (offset : Nat) (p : Piece) :
    (Answer.text (p.answer offset)).toList = p.chars := by
  cases p <;> simp [answer, Answer.text, LexError.text, chars]

theorem Piece.answer_eq_ok_iff {offset : Nat} {p : Piece} {l : Lexeme} :
    p.answer offset = .ok l ↔ ∃ t, p = .token t ∧ l = ⟨t, offset⟩ := by
  cases p <;> simp [answer, eq_comm]

theorem Piece.span_answer (offset : Nat) (p : Piece) :
    Answer.span (p.answer offset) = ⟨offset, p.chars.length⟩ := by
  cases p <;> simp [answer, Answer.span, Lexeme.span, LexError.span, chars, String.length_toList]

namespace Scanner

variable {source : String} {s s' : Scanner} {a : Answer}

/-! ### One step -/

/-- An answer comes from the piece behind the white space that a step passes over. -/
theorem exists_piece_of_step (h : s.step = (some a, s')) :
    ∃ gap c cs, s.rest = gap ++ c :: cs ∧ (∀ d ∈ gap, isWhiteSpace d) ∧ isWhiteSpace c = false ∧
      a = (Piece.ofChars c cs).1.answer (s.offset + gap.length) ∧
      s' = ⟨s.offset + gap.length + (Piece.ofChars c cs).1.chars.length,
        (Piece.ofChars c cs).2⟩ := by
  unfold step at h
  dsimp only at h
  split at h
  · simp at h
  · next c cs hrest =>
    obtain ⟨rfl, rfl⟩ : (Piece.ofChars c cs).1.answer s.skipWhiteSpace.offset = a ∧ _ = s' := by
      simpa using h
    have hdrop : s.rest.dropWhile isWhiteSpace = c :: cs := hrest
    have hc : isWhiteSpace c = false := by
      have hnot := List.head?_dropWhile_not isWhiteSpace s.rest
      simpa [hdrop] using hnot
    refine ⟨s.rest.takeWhile isWhiteSpace, c, cs, ?_, fun d hd => List.mem_takeWhile_imp hd, hc,
      rfl, rfl⟩
    rw [← hdrop, List.takeWhile_append_dropWhile]

/-- A step that answers passes over white space, and then over the text of its answer. -/
theorem step_eq_some (h : s.step = (some a, s')) :
    ∃ gap, (∀ c ∈ gap, isWhiteSpace c) ∧ s.rest = gap ++ (a.text.toList ++ s'.rest) ∧
      a.text ≠ "" ∧ a.span = ⟨s.offset + gap.length, a.text.length⟩ ∧
      s'.offset = a.span.offset + a.span.length := by
  obtain ⟨gap, c, cs, hrest, hgap, -, rfl, rfl⟩ := exists_piece_of_step h
  have hchars := Piece.toList_text_answer (s.offset + gap.length) (Piece.ofChars c cs).1
  have hspan := Piece.span_answer (s.offset + gap.length) (Piece.ofChars c cs).1
  refine ⟨gap, hgap, ?_, ?_, ?_, ?_⟩
  · rw [hchars, Piece.chars_ofChars, hrest]
  · intro hempty
    rw [hempty] at hchars
    exact Piece.chars_ofChars_ne_nil c cs hchars.symm
  · rw [hspan, ← hchars, String.length_toList]
  · rw [hspan]

/-! ### Places of a source -/

/-- The scanner is at a place of the source: it has counted the characters in front of those that
are left. -/
def Within (source : String) (s : Scanner) : Prop :=
  ∃ before, before ++ s.rest = source.toList ∧ before.length = s.offset

theorem within_ofString (source : String) : (ofString source).Within source :=
  ⟨[], rfl, rfl⟩

/-- The text of an answer stands where the answer says, and behind it the scanner goes on. -/
theorem Within.step (hs : s.Within source) (h : s.step = (some a, s')) :
    a.span.Spells source a.text ∧ s'.Within source := by
  obtain ⟨before, hsource, hcount⟩ := hs
  obtain ⟨gap, -, hrest, htext, hspan, hoffset⟩ := step_eq_some h
  rw [hrest, ← List.append_assoc] at hsource
  have hlength : (before ++ gap).length = s.offset + gap.length := by
    rw [List.length_append, hcount]
  constructor
  · rw [hspan, ← hlength]
    exact spells_of_append htext hsource
  · refine ⟨before ++ gap ++ a.text.toList, by rw [List.append_assoc, hsource], ?_⟩
    rw [List.length_append, hlength, String.length_toList, hoffset, hspan]

/-! ### Whole sources -/

/-- A scan adds lexemes that stand in the source where they say, and so does its error. -/
theorem placed_drain {ls : List Lexeme} (hs : s.Within source) (hls : Placed source ls) :
    Placed source (s.drain ls).lexemes ∧
      ∀ e, (s.drain ls).error? = some e → e.span.Spells source e.text := by
  have hreverse {ls : List Lexeme} (hls : Placed source ls) : Placed source ls.reverse :=
    fun l hl => hls l (List.mem_reverse.mp hl)
  -- The lexemes read so far are kept in reverse, and the scanner stays within the source.
  fun_induction Scanner.drain s ls with
  | case1 s ls s' h => exact ⟨hreverse hls, by simp⟩
  | case2 s ls e s' h =>
    refine ⟨hreverse hls, fun e' he' => ?_⟩
    obtain rfl : e = e' := by simpa using he'
    exact (hs.step h).1
  | case3 s ls l s' h ih =>
    obtain ⟨hl, hs'⟩ := hs.step h
    exact ih hs' (List.forall_mem_cons.mpr ⟨hl, hls⟩)

end Scanner

theorem placed_scan (source : String) : Placed source (scan source).lexemes ∧
    ∀ e, (scan source).error? = some e → e.span.Spells source e.text :=
  Scanner.placed_drain (Scanner.within_ofString source) (by simp [Placed])

variable {source : String} {ls : List Lexeme} {l : Lexeme} {e : LexError}

theorem tokenize_eq_ok_iff :
    tokenize source = .ok ls ↔ (scan source).error? = none ∧ (scan source).lexemes = ls := by
  unfold tokenize
  dsimp only
  split <;> simp_all

theorem tokenize_eq_error_iff : tokenize source = .error e ↔ (scan source).error? = some e := by
  unfold tokenize
  dsimp only
  split <;> simp_all

/-- The lexemes of a source stand where they say. -/
theorem spells_of_mem_tokenize (h : tokenize source = .ok ls) (hl : l ∈ ls) :
    l.span.Spells source l.token.spelling :=
  (placed_scan source).1 l ((tokenize_eq_ok_iff.mp h).2 ▸ hl)

/-- What stops the scan of a source stands where the error says. -/
theorem spells_of_tokenize_eq_error (h : tokenize source = .error e) :
    e.span.Spells source e.text :=
  (placed_scan source).2 e (tokenize_eq_error_iff.mp h)

end AttrCalc
