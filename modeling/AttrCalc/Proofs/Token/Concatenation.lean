import AttrCalc.Proofs.Token.Lookahead
import AttrCalc.Proofs.Token.Segment

/-!
# Scans of texts in a row

White space stops every piece, so a scan that comes to white space has read just what it would
have read if the source had ended there.  All that it takes along is how far it has come.  The scan
of two texts with white space between them is therefore the scan of the first and then that of the
second, with its places moved.

## Main definitions

* `Lexeme.shift`, `LexError.shift`, `Scan.shift` : places moved to the right.
* `Scan.andThen` : a scan, and then another one unless the first has failed.
* `Scanner.before`, `Scanner.shift` : a scanner with more characters behind those that are left, and
  one that has come further.

## Main results

* `Scanner.drain_shift` : a scan depends on the offset at which it starts only by this offset.
* `Scanner.drain_before` : a scan of characters and of white space behind them.
* `scan_append`, `tokenize_append` : scans of two texts with white space between them.
-/

namespace AttrCalc

open Unicode

/-! ### Moved places -/

/-- The lexeme with its place moved to the right. -/
def Lexeme.shift (n : Nat) (l : Lexeme) : Lexeme :=
  { l with offset := l.offset + n }

/-- The error with its place moved to the right. -/
def LexError.shift (n : Nat) : LexError → LexError
  | unknownChar c offset => unknownChar c (offset + n)
  | malformedNumber text offset => malformedNumber text (offset + n)

/-- The answer with its place moved to the right. -/
def Answer.shift (n : Nat) : Answer → Answer
  | .ok l => .ok (l.shift n)
  | .error e => .error (e.shift n)

namespace Scan

/-- The scan with all places moved to the right. -/
def shift (n : Nat) (a : Scan) : Scan :=
  ⟨a.lexemes.map (·.shift n), a.error?.map (·.shift n)⟩

/-- A scan, and then another one unless the first has failed. -/
def andThen (a b : Scan) : Scan :=
  match a.error? with
  | some _ => a
  | none => ⟨a.lexemes ++ b.lexemes, b.error?⟩

end Scan

theorem Piece.answer_shift (n offset : Nat) (p : Piece) :
    p.answer (offset + n) = Answer.shift n (p.answer offset) := by
  cases p <;> rfl

namespace Scanner

/-- The scanner that has come further by some characters. -/
def shift (n : Nat) (s : Scanner) : Scanner :=
  { s with offset := s.offset + n }

/-- The scanner with more characters behind those that are left. -/
def before (s : Scanner) (rest : List Char) : Scanner :=
  { s with rest := s.rest ++ rest }

variable {s s' t : Scanner} {a : Answer} {ls : List Lexeme} {gap rest : List Char}

/-! ### Where a scan starts -/

theorem skipWhiteSpace_shift (n : Nat) (s : Scanner) :
    (s.shift n).skipWhiteSpace = s.skipWhiteSpace.shift n := by
  simp only [skipWhiteSpace, shift, Scanner.mk.injEq, and_true]
  omega

theorem step_shift (n : Nat) (s : Scanner) :
    (s.shift n).step = (s.step.1.map (Answer.shift n), s.step.2.shift n) := by
  unfold step
  rw [skipWhiteSpace_shift]
  match hrest : s.skipWhiteSpace.rest with
  | [] => simp [shift, hrest]
  | c :: cs =>
    have hoffset := Nat.add_right_comm s.skipWhiteSpace.offset n
      (Piece.ofChars c cs).1.chars.length
    simp [shift, hrest, Piece.answer_shift, hoffset]

/-- A scan depends on the offset at which it starts only by this offset. -/
theorem drain_shift (n : Nat) (s : Scanner) (ls : List Lexeme) :
    (s.shift n).drain (ls.map (·.shift n)) = (s.drain ls).shift n := by
  fun_induction Scanner.drain s ls with
  | case1 s ls s' h =>
    have hstep : (s.shift n).step.1 = none := by rw [step_shift, h]; rfl
    rw [drain_of_none hstep]
    simp [Scan.shift]
  | case2 s ls e s' h =>
    have hstep : (s.shift n).step.1 = some (.error (e.shift n)) := by rw [step_shift, h]; rfl
    rw [drain_of_error hstep]
    simp [Scan.shift]
  | case3 s ls l s' h ih =>
    have hstep : (s.shift n).step = (some (.ok (l.shift n)), s'.shift n) := by
      rw [step_shift, h]
      rfl
    rw [drain_of_ok hstep]
    exact ih

/-- The lexemes that are read already stand in front. -/
theorem drain_eq_andThen (s : Scanner) (ls : List Lexeme) :
    s.drain ls = Scan.andThen ⟨ls.reverse, none⟩ (s.drain []) := by
  match h : s.step with
  | (none, s') =>
    simp only [drain_of_none (congrArg Prod.fst h)]
    simp [Scan.andThen]
  | (some (.error e), s') =>
    simp only [drain_of_error (congrArg Prod.fst h)]
    simp [Scan.andThen]
  | (some (.ok l), s') =>
    rw [drain_of_ok h, drain_of_ok h, drain_eq_andThen s' (l :: ls), drain_eq_andThen s' [l]]
    simp [Scan.andThen]
termination_by s.rest.length
decreasing_by all_goals exact step_shortens h

theorem drain_congr (h : s.step = t.step) (ls : List Lexeme) : s.drain ls = t.drain ls := by
  match ht : t.step with
  | (none, t') => rw [drain_of_none (by rw [h, ht]), drain_of_none (by rw [ht])]
  | (some (.error e), t') => rw [drain_of_error (by rw [h, ht]), drain_of_error (by rw [ht])]
  | (some (.ok l), t') => rw [drain_of_ok (by rw [h, ht]), drain_of_ok ht]

/-- A scan passes over white space. -/
theorem drain_append_of_white (offset : Nat) (hgap : ∀ c ∈ gap, isWhiteSpace c) (rest : List Char)
    (ls : List Lexeme) : drain ⟨offset, gap ++ rest⟩ ls = drain ⟨offset + gap.length, rest⟩ ls := by
  refine drain_congr ?_ ls
  have hskip : skipWhiteSpace ⟨offset, gap ++ rest⟩ =
      skipWhiteSpace ⟨offset + gap.length, rest⟩ := by
    simp only [skipWhiteSpace, List.takeWhile_append_of_pos hgap,
      List.dropWhile_append_of_pos hgap, List.length_append, Nat.add_assoc]
  simp only [step, hskip]

/-! ### What stands behind -/

/-- White space behind the characters that are left does not change an answer. -/
theorem step_before (hrest : ∀ c ∈ rest.head?, isWhiteSpace c) (h : s.step = (some a, s')) :
    (s.before rest).step = (some a, s'.before rest) := by
  obtain ⟨gap, c, cs, hs, hgap, hc, rfl, rfl⟩ := exists_piece_of_step h
  have hread := Piece.ofChars_append_of_isWhiteSpace hrest c cs
  have hbefore : s.before rest = ⟨s.offset, gap ++ c :: (cs ++ rest)⟩ := by simp [before, hs]
  rw [hbefore, step_of_piece s.offset hgap hc hread]
  rfl

theorem offset_add_length_of_step (h : s.step = (some a, s')) :
    s'.offset + s'.rest.length = s.offset + s.rest.length := by
  obtain ⟨gap, -, hrest, -, hspan, hoffset⟩ := step_eq_some h
  rw [hoffset, hspan, hrest]
  simp only [List.length_append, String.length_toList]
  omega

/-- A scan of characters and of white space behind them, and so on. -/
theorem drain_before (hrest : ∀ c ∈ rest.head?, isWhiteSpace c) (s : Scanner) (ls : List Lexeme) :
    (s.before rest).drain ls =
      (s.drain ls).andThen (drain ⟨s.offset + s.rest.length, rest⟩ []) := by
  fun_induction Scanner.drain s ls with
  | case1 s ls s' h =>
    have hwhite : ∀ c ∈ s.rest, isWhiteSpace c := step_eq_none_iff.mp (congrArg Prod.fst h)
    calc (s.before rest).drain ls
        = drain ⟨s.offset + s.rest.length, rest⟩ ls := drain_append_of_white s.offset hwhite rest ls
      _ = _ := drain_eq_andThen _ ls
  | case2 s ls e s' h => rw [drain_of_error (congrArg Prod.fst (step_before hrest h))]; rfl
  | case3 s ls l s' h ih =>
    rw [drain_of_ok (step_before hrest h), ih, offset_add_length_of_step h]

end Scanner

/-! ### Two texts -/

/-- A scan of two texts with white space between them. -/
theorem scan_append (a b : String) {w : Char} (hw : isWhiteSpace w) :
    scan (a ++ String.singleton w ++ b) = (scan a).andThen ((scan b).shift (a.length + 1)) := by
  have hsource : Scanner.ofString (a ++ String.singleton w ++ b) =
      (Scanner.ofString a).before (w :: b.toList) := by
    simp [Scanner.ofString, Scanner.before]
  have hgap : ∀ c ∈ [w], isWhiteSpace c := by simpa using hw
  have hshift : Scanner.drain ⟨a.length + 1, b.toList⟩ [] = (scan b).shift (a.length + 1) := by
    have hmoved : (Scanner.ofString b).shift (a.length + 1) = ⟨a.length + 1, b.toList⟩ := by
      simp [Scanner.ofString, Scanner.shift]
    rw [← hmoved]
    exact Scanner.drain_shift (a.length + 1) (.ofString b) []
  have hoffset : (Scanner.ofString a).offset + (Scanner.ofString a).rest.length = a.length := by
    simp [Scanner.ofString, String.length_toList]
  calc scan (a ++ String.singleton w ++ b)
      = ((Scanner.ofString a).before (w :: b.toList)).drain [] := by rw [scan, hsource]
    _ = (scan a).andThen (Scanner.drain ⟨a.length, [w] ++ b.toList⟩ []) := by
        rw [Scanner.drain_before (by simpa using hw), hoffset]
        rfl
    _ = (scan a).andThen ((scan b).shift (a.length + 1)) := by
        rw [Scanner.drain_append_of_white _ hgap, List.length_singleton, hshift]

/-- **Scanning is compatible with concatenation.** The lexemes of two texts with white space between
them are those of the first and then those of the second, moved behind the white space.  If there is
an error in the first text, it is the error of the whole, and so is an error in the second, at the
place to which it is moved. -/
theorem tokenize_append (a b : String) {w : Char} (hw : isWhiteSpace w) :
    tokenize (a ++ String.singleton w ++ b) =
      match tokenize a, tokenize b with
      | .error e, _ => .error e
      | .ok ls, .ok ms => .ok (ls ++ ms.map (·.shift (a.length + 1)))
      | .ok _, .error e => .error (e.shift (a.length + 1)) := by
  simp only [tokenize, scan_append a b hw]
  match ha : (scan a).error?, hb : (scan b).error? with
  | some e, _ => simp [Scan.andThen, ha]
  | none, none => simp [Scan.andThen, Scan.shift, ha, hb]
  | none, some e => simp [Scan.andThen, Scan.shift, ha, hb]

/-- Neither a numeral nor an exponent goes on behind white space. -/
theorem tokenize_append_numerals :
    isWhiteSpace '\t' ∧
      tokenize ("x2e-1 2e1" ++ String.singleton '\t' ++ ".5y") =
        .ok [⟨.ident "x2e", 0⟩, ⟨.op .sub, 3⟩, ⟨.num "1", 4⟩, ⟨.num "2e1", 6⟩, ⟨.num ".5", 10⟩,
          ⟨.ident "y", 12⟩] ∧
      tokenize ("2e" ++ String.singleton '\t' ++ "1") = .error (.malformedNumber "2e" 0) := by
  have hw : isWhiteSpace '\t' := by decide
  have hfirst : tokenize "x2e-1 2e1" =
      .ok [⟨.ident "x2e", 0⟩, ⟨.op .sub, 3⟩, ⟨.num "1", 4⟩, ⟨.num "2e1", 6⟩] := by
    decide +kernel
  have hsecond : tokenize ".5y" = .ok [⟨.num ".5", 0⟩, ⟨.ident "y", 2⟩] := by decide +kernel
  have hbroken : tokenize "2e" = .error (.malformedNumber "2e" 0) := by decide +kernel
  refine ⟨hw, ?_, ?_⟩
  · rw [tokenize_append _ _ hw, hfirst, hsecond]
    rfl
  · rw [tokenize_append _ _ hw, hbroken]

end AttrCalc
