import AttrCalc.Text.Name
import AttrCalc.Token.Basic
import AttrCalc.Unicode.WhiteSpace

/-!
# Scanning

A scanner reads lexemes off the front of a source and skips the white space before them.  It looks
at most one character ahead and never goes back, so a numeral that breaks off in the middle is
malformed.

## Main definitions

* `Piece` : what the next characters of a source spell, with the characters after them.
* `Scanner`, `Scanner.step` : a scanner at a place of a source, and its next answer.
* `Scanner.next` : the same for a scanner that stops at its first error.
* `scan`, `tokenize` : the lexemes of a whole source.

## Main results

* `Piece.ofChars_shortens`, `Scanner.step_shortens` : every answer consumes something.
-/

namespace AttrCalc

open Text Unicode

/-! ### Numerals -/

/-- The front of a source while a numeral is read: its characters so far, whether they form a
complete numeral, and the characters after them. -/
structure NumeralFront where
  text : List Char
  complete : Bool
  rest : List Char

namespace NumeralFront

/-- Reads digits that must not be missing. -/
def digits (text cs : List Char) : NumeralFront :=
  let ds := cs.takeWhile Char.isDigit
  ⟨text ++ ds, !ds.isEmpty, cs.dropWhile Char.isDigit⟩

/-- Reads an optional exponent: `e`, an optional sign and digits. -/
def exponent (text : List Char) : List Char → NumeralFront
  | [] => ⟨text, true, []⟩
  | c :: cs =>
    if c = 'e' ∨ c = 'E' then
      match cs with
      | '+' :: ds => digits (text ++ [c, '+']) ds
      | '-' :: ds => digits (text ++ [c, '-']) ds
      | ds => digits (text ++ [c]) ds
    else ⟨text, true, c :: cs⟩

/-- Reads the digits after a point, and the exponent after them. -/
def fraction (text cs : List Char) : NumeralFront :=
  let front := digits text cs
  if front.complete then exponent front.text front.rest else front

/-- Reads a numeral that starts with a digit. -/
def whole (cs : List Char) : NumeralFront :=
  let ds := cs.takeWhile Char.isDigit
  match cs.dropWhile Char.isDigit with
  | '.' :: rest => fraction (ds ++ ['.']) rest
  | rest => exponent ds rest

end NumeralFront

/-! ### Pieces -/

/-- What the next characters of a source spell. -/
inductive Piece where
  | token (t : Token)
  | unknown (c : Char)
  | malformed (text : List Char)
deriving DecidableEq, Repr

/-- The characters of a piece. -/
def Piece.chars : Piece → List Char
  | token t => t.spelling.toList
  | unknown c => [c]
  | malformed text => text

/-- The piece that a numeral makes, with the characters after it. -/
def NumeralFront.piece (front : NumeralFront) : Piece × List Char :=
  (if front.complete then .token (.num (String.ofList front.text)) else .malformed front.text,
    front.rest)

/-- The token that a single character spells. -/
def Token.ofChar? : Char → Option Token
  | '+' => some (.op .add)
  | '-' => some (.op .sub)
  | '*' => some (.op .mul)
  | '/' => some (.op .div)
  | '(' => some .leftParen
  | ')' => some .rightParen
  | _ => none

/-- Whether a point and the characters after it start a numeral. -/
def startsFraction (c : Char) (cs : List Char) : Bool :=
  c == '.' && cs.head?.any Char.isDigit

/-- What the characters `c :: cs` spell first, with the characters after it.  The first of them is
not white space. -/
def Piece.ofChars (c : Char) (cs : List Char) : Piece × List Char :=
  match Token.ofChar? c with
  | some t => (.token t, cs)
  | none =>
    if c.isDigit then (NumeralFront.whole (c :: cs)).piece
    else if startsFraction c cs then (NumeralFront.fraction [c] cs).piece
    else if isNameStart c then
      (.token (.ident (String.ofList (c :: cs.takeWhile isNamePart))), cs.dropWhile isNamePart)
    else (.unknown c, cs)

/-- The answer that a piece at `offset` gives. -/
def Piece.answer (offset : Nat) : Piece → Except LexError Lexeme
  | token t => .ok ⟨t, offset⟩
  | unknown c => .error (.unknownChar c offset)
  | malformed text => .error (.malformedNumber (String.ofList text) offset)

/-! ### Nothing is lost and something is read -/

namespace NumeralFront

/-- The text and the characters after it make up what was read. -/
def Covers (front : NumeralFront) (cs : List Char) : Prop :=
  front.text ++ front.rest = cs

theorem covers_digits (text cs : List Char) : (digits text cs).Covers (text ++ cs) := by
  simp [Covers, digits, List.takeWhile_append_dropWhile]

theorem covers_exponent (text cs : List Char) : (exponent text cs).Covers (text ++ cs) := by
  unfold exponent
  split
  · simp [Covers]
  · next c cs =>
    split
    · split
      · simpa using covers_digits (text ++ [c, '+']) _
      · simpa using covers_digits (text ++ [c, '-']) _
      · simpa using covers_digits (text ++ [c]) _
    · simp [Covers]

theorem covers_fraction (text cs : List Char) : (fraction text cs).Covers (text ++ cs) := by
  have h := covers_digits text cs
  unfold fraction
  simp only
  split
  · rw [← h]
    exact covers_exponent _ _
  · exact h

theorem covers_whole (cs : List Char) : (whole cs).Covers cs := by
  have h : cs.takeWhile Char.isDigit ++ cs.dropWhile Char.isDigit = cs :=
    List.takeWhile_append_dropWhile
  unfold whole
  simp only
  split
  · next rest hr =>
    rw [hr] at h
    simpa [h] using covers_fraction (cs.takeWhile Char.isDigit ++ ['.']) rest
  · simpa [h] using covers_exponent (cs.takeWhile Char.isDigit) (cs.dropWhile Char.isDigit)

theorem chars_piece {front : NumeralFront} {cs : List Char} (h : front.Covers cs) :
    front.piece.1.chars ++ front.piece.2 = cs := by
  unfold Covers at h
  unfold piece
  split <;> simpa [Piece.chars, Token.spelling] using h

theorem prefix_digits (text cs : List Char) : text <+: (digits text cs).text :=
  List.prefix_append ..

theorem prefix_exponent (text cs : List Char) : text <+: (exponent text cs).text := by
  unfold exponent
  split
  · exact List.prefix_rfl
  · split
    · split <;> exact (List.prefix_append ..).trans (prefix_digits ..)
    · exact List.prefix_rfl

theorem prefix_fraction (text cs : List Char) : text <+: (fraction text cs).text := by
  unfold fraction
  simp only
  split
  · exact (prefix_digits text cs).trans (prefix_exponent ..)
  · exact prefix_digits text cs

theorem prefix_whole (cs : List Char) : cs.takeWhile Char.isDigit <+: (whole cs).text := by
  unfold whole
  simp only
  split
  · exact (List.prefix_append ..).trans (prefix_fraction ..)
  · exact prefix_exponent ..

end NumeralFront

theorem Token.spelling_ofChar? {c : Char} {t : Token} (h : Token.ofChar? c = some t) :
    t.spelling.toList = [c] := by
  unfold Token.ofChar? at h
  split at h <;> simp_all only [Option.some.injEq, reduceCtorEq] <;> subst h <;> rfl

/-- A piece and the characters after it make up the source. -/
theorem Piece.chars_ofChars (c : Char) (cs : List Char) :
    (ofChars c cs).1.chars ++ (ofChars c cs).2 = c :: cs := by
  unfold ofChars
  split
  · next t ht => simp [chars, Token.spelling_ofChar? ht]
  · split
    · exact NumeralFront.chars_piece (NumeralFront.covers_whole _)
    · split
      · exact NumeralFront.chars_piece (by simpa using NumeralFront.covers_fraction [c] cs)
      · split
        · simp [chars, Token.spelling, List.takeWhile_append_dropWhile]
        · simp [chars]

theorem NumeralFront.chars_piece_eq (front : NumeralFront) : front.piece.1.chars = front.text := by
  unfold piece
  split <;> simp [Piece.chars, Token.spelling]

/-- A piece has at least one character. -/
theorem Piece.chars_ofChars_ne_nil (c : Char) (cs : List Char) : (ofChars c cs).1.chars ≠ [] := by
  unfold ofChars
  split
  · next t ht => simp [chars, Token.spelling_ofChar? ht]
  · split
    · next hc =>
      rw [NumeralFront.chars_piece_eq]
      intro h
      have := NumeralFront.prefix_whole (c :: cs)
      simp [h, hc] at this
    · split
      · rw [NumeralFront.chars_piece_eq]
        intro h
        have := NumeralFront.prefix_fraction [c] cs
        simp [h] at this
      · split <;> simp [chars, Token.spelling]

/-- A piece leaves less than the characters it was read from. -/
theorem Piece.ofChars_shortens (c : Char) (cs : List Char) :
    (ofChars c cs).2.length < (c :: cs).length := by
  have h := congrArg List.length (chars_ofChars c cs)
  have := List.length_pos_iff.mpr (chars_ofChars_ne_nil c cs)
  rw [List.length_append] at h
  omega

/-! ### Scanners -/

/-- The answer of a scanner: a lexeme or an error. -/
abbrev Answer := Except LexError Lexeme

/-- A scanner at a place of a source: how many characters it has consumed and which are left. -/
structure Scanner where
  offset : Nat
  rest : List Char
deriving DecidableEq, Repr

namespace Scanner

/-- A scanner at the start of a source. -/
def ofString (source : String) : Scanner :=
  ⟨0, source.toList⟩

/-- The scanner behind the white space in front of it. -/
def skipWhiteSpace (s : Scanner) : Scanner :=
  ⟨s.offset + (s.rest.takeWhile isWhiteSpace).length, s.rest.dropWhile isWhiteSpace⟩

/-- The next answer, or nothing if only white space is left, and the scanner behind it. -/
def step (s : Scanner) : Option Answer × Scanner :=
  let t := s.skipWhiteSpace
  match t.rest with
  | [] => (none, t)
  | c :: cs =>
    let (piece, rest) := Piece.ofChars c cs
    (some (piece.answer t.offset), ⟨t.offset + piece.chars.length, rest⟩)

/-- An answer consumes something. -/
theorem step_shortens {s s' : Scanner} {a : Answer} (h : s.step = (some a, s')) :
    s'.rest.length < s.rest.length := by
  unfold step at h
  simp only at h
  split at h
  · simp at h
  · next c cs hr =>
    simp only [Prod.mk.injEq, Option.some.injEq] at h
    obtain ⟨-, rfl⟩ := h
    have hlt := Piece.ofChars_shortens c cs
    have hle : (s.skipWhiteSpace).rest.length ≤ s.rest.length :=
      (List.dropWhile_sublist _).length_le
    rw [hr] at hle
    exact Nat.lt_of_lt_of_le hlt hle

end Scanner

/-- A scanner that can be told to stop for good at its first error. -/
structure TokenStream where
  scanner : Scanner
  halted : Bool
deriving DecidableEq, Repr

namespace TokenStream

/-- A stream at the start of a source. -/
def ofString (source : String) : TokenStream :=
  ⟨.ofString source, false⟩

/-- The next answer of the scanner, also behind an error. -/
def step (s : TokenStream) : Option Answer × TokenStream :=
  let (answer?, scanner) := s.scanner.step
  (answer?, { s with scanner })

/-- The next answer, and nothing for ever once this has answered with an error. -/
def next (s : TokenStream) : Option Answer × TokenStream :=
  if s.halted then (none, s)
  else
    match s.scanner.step with
    | (some (.error e), scanner) => (some (.error e), ⟨scanner, true⟩)
    | (answer?, scanner) => (answer?, ⟨scanner, false⟩)

end TokenStream

/-! ### Whole sources -/

/-- The lexemes of a source up to its end or its first error. -/
structure Scan where
  lexemes : List Lexeme
  error? : Option LexError
deriving DecidableEq, Repr

/-- Reads lexemes up to the end or the first error.  Those already read are kept in reverse. -/
def Scanner.drain (s : Scanner) (lexemes : List Lexeme) : Scan :=
  match _h : s.step with
  | (none, _) => ⟨lexemes.reverse, none⟩
  | (some (.error e), _) => ⟨lexemes.reverse, some e⟩
  | (some (.ok l), s') => s'.drain (l :: lexemes)
termination_by s.rest.length
decreasing_by exact step_shortens _h

/-- The lexemes of a source up to its end or its first error. -/
def scan (source : String) : Scan :=
  (Scanner.ofString source).drain []

/-- All lexemes of a source, or its first error. -/
def tokenize (source : String) : Except LexError (List Lexeme) :=
  let s := scan source
  match s.error? with
  | some e => .error e
  | none => .ok s.lexemes

end AttrCalc
