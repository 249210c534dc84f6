import AttrCalc.Token.Scanner
import Mathlib.Data.List.TakeWhile

/-!
# What stands behind a piece

A scanner looks at most one character beyond the piece that it reads.  So the piece does not depend
on what stands behind it, provided that this does not start with a character which the piece could
go on with: part of a name, a point or, behind the `e` of an exponent, a sign.

## Main definitions

* `Stops` : the start of a text with which no name and no numeral goes on.
* `NumeralFront.before` : the front of a source with more characters behind it.

## Main results

* `Piece.ofChars_append`, `Piece.ofChars_append_of_isWhiteSpace` : a piece does not depend on what
  stops it, and white space does.
* `Scanner.step_of_piece` : the step of a scanner in front of white space and a piece.
* `Scanner.drain_of_ok`, `Scanner.drain_of_error`, `Scanner.drain_of_none` : a scan step by step.
-/

namespace AttrCalc

open Text Unicode

/-! ### Runs of characters -/

section Runs

variable {α : Type*} {p : α → Bool} {xs rest : List α}

theorem takeWhile_append_of_head (h : ∀ x ∈ rest.head?, p x = false) :
    (xs ++ rest).takeWhile p = xs.takeWhile p := by
  have hrest : rest.takeWhile p = [] := by
    rw [List.takeWhile_eq_nil_iff]
    intro hpos
    simp [h rest[0] (by simp [List.head?_eq_getElem?])]
  rw [List.takeWhile_append]
  split
  · next hlength => rw [hrest, List.append_nil, (List.takeWhile_prefix p).eq_of_length hlength]
  · rfl

theorem dropWhile_append_of_head (h : ∀ x ∈ rest.head?, p x = false) :
    (xs ++ rest).dropWhile p = xs.dropWhile p ++ rest := by
  have hsplit := List.takeWhile_append_dropWhile (p := p) (l := xs ++ rest)
  rw [takeWhile_append_of_head h] at hsplit
  have hxs : xs.takeWhile p ++ (xs.dropWhile p ++ rest) = xs ++ rest := by
    rw [← List.append_assoc, List.takeWhile_append_dropWhile]
  exact List.append_cancel_left (hsplit.trans hxs.symm)

end Runs

/-! ### Where names and numerals stop -/

theorem isNamePart_of_isDigit {c : Char} (h : c.isDigit) : isNamePart c := by
  have hnumeric : isNumeric c := by
    unfold isNumeric
    split
    · exact h
    · next hc =>
      have : c.toNat ≤ 57 := by
        simp only [Char.isDigit, Bool.and_eq_true, decide_eq_true_eq, UInt32.le_iff_toNat_le] at h
        exact h.2
      omega
  simp [isNamePart, hnumeric]

theorem isNamePart_of_isNameStart {c : Char} (h : isNameStart c) : isNamePart c := by
  simp only [isNameStart, Bool.or_eq_true] at h
  simp only [isNamePart, Bool.or_eq_true]
  exact h.imp_left .inl

theorem isNamePart_eq_false_of_isWhiteSpace {c : Char} (h : isWhiteSpace c) :
    isNamePart c = false := by
  have hc : c ≠ '_' := by
    rintro rfl
    exact absurd h (by decide)
  simp [isNamePart, isAlphabetic_eq_false_of_isWhiteSpace h, isNumeric_eq_false_of_isWhiteSpace h,
    hc]

theorem isWhiteSpace_eq_false_of_isNamePart {c : Char} (h : isNamePart c) :
    isWhiteSpace c = false := by
  by_contra hwhite
  simp [isNamePart_eq_false_of_isWhiteSpace (by simpa using hwhite)] at h

/-- No name and no numeral goes on with these characters, but for the sign of an exponent. -/
def Stops (rest : List Char) : Prop :=
  ∀ c ∈ rest.head?, isNamePart c = false ∧ c ≠ '.'

namespace Stops

variable {rest : List Char}

theorem of_isWhiteSpace (h : ∀ c ∈ rest.head?, isWhiteSpace c) : Stops rest := by
  refine fun c hc => ⟨isNamePart_eq_false_of_isWhiteSpace (h c hc), ?_⟩
  rintro rfl
  exact absurd (h _ hc) (by decide)

theorem isDigit (h : Stops rest) : ∀ c ∈ rest.head?, c.isDigit = false := by
  intro c hc
  rw [← Bool.not_eq_true]
  intro hdigit
  exact absurd (isNamePart_of_isDigit hdigit) (by simp [(h c hc).1])

theorem not_exponent (h : Stops rest) : ∀ c ∈ rest.head?, ¬ (c = 'e' ∨ c = 'E') := by
  rintro c hc (rfl | rfl)
  · exact absurd (h _ hc).1 (by decide)
  · exact absurd (h _ hc).1 (by decide)

end Stops

/-! ### Numerals -/

namespace NumeralFront

/-- The front of a source behind which more characters stand. -/
def before (front : NumeralFront) (rest : List Char) : NumeralFront :=
  { front with rest := front.rest ++ rest }

variable {text cs rest : List Char} {c : Char}

theorem exponent_of_ne (hc : ¬ (c = 'e' ∨ c = 'E')) :
    exponent text (c :: cs) = ⟨text, true, c :: cs⟩ :=
  if_neg hc

theorem exponent_plus (hc : c = 'e' ∨ c = 'E') :
    exponent text (c :: '+' :: cs) = digits (text ++ [c, '+']) cs :=
  if_pos hc

theorem exponent_minus (hc : c = 'e' ∨ c = 'E') :
    exponent text (c :: '-' :: cs) = digits (text ++ [c, '-']) cs :=
  if_pos hc

theorem exponent_unsigned (hc : c = 'e' ∨ c = 'E') (hcs : ∀ d ∈ cs.head?, d ≠ '+' ∧ d ≠ '-') :
    exponent text (c :: cs) = digits (text ++ [c]) cs := by
  simp only [exponent, if_pos hc]
  split
  · exact absurd rfl (hcs '+' rfl).1
  · exact absurd rfl (hcs '-' rfl).2
  · rfl

theorem whole_point (h : cs.dropWhile Char.isDigit = '.' :: rest) :
    whole cs = fraction (cs.takeWhile Char.isDigit ++ ['.']) rest := by
  simp only [whole, h]

theorem whole_of_ne (h : ∀ c ∈ (cs.dropWhile Char.isDigit).head?, c ≠ '.') :
    whole cs = exponent (cs.takeWhile Char.isDigit) (cs.dropWhile Char.isDigit) := by
  unfold whole
  dsimp only
  split
  · next hcs => exact absurd rfl (h '.' (by rw [hcs]; rfl))
  · rfl

theorem digits_append (hrest : Stops rest) :
    digits text (cs ++ rest) = (digits text cs).before rest := by
  simp only [digits, before, takeWhile_append_of_head hrest.isDigit,
    dropWhile_append_of_head hrest.isDigit]

theorem exponent_of_stops (hrest : Stops rest) : exponent text rest = ⟨text, true, rest⟩ := by
  match rest with
  | [] => rfl
  | c :: rest => exact exponent_of_ne (hrest.not_exponent c rfl)

/-- Behind a bare `e` a sign would be taken, and then the numeral would not be complete. -/
theorem exponent_append (hrest : Stops rest)
    (hsign : (∀ c ∈ rest.head?, c ≠ '+' ∧ c ≠ '-') ∨ (exponent text cs).complete) :
    exponent text (cs ++ rest) = (exponent text cs).before rest := by
  match cs with
  | [] => exact exponent_of_stops hrest
  | c :: cs =>
    rw [List.cons_append]
    by_cases hc : c = 'e' ∨ c = 'E'
    · match cs with
      | [] =>
        have hunsigned : ∀ c ∈ ([] ++ rest).head?, c ≠ '+' ∧ c ≠ '-' := by
          refine hsign.resolve_right ?_
          rw [exponent_unsigned hc (by simp)]
          simp [digits]
        rw [exponent_unsigned hc hunsigned, exponent_unsigned hc (by simp)]
        exact digits_append hrest
      | d :: ds =>
        rw [List.cons_append]
        by_cases hd : d = '+' ∨ d = '-'
        · rcases hd with rfl | rfl
          · rw [exponent_plus hc, exponent_plus hc]
            exact digits_append hrest
          · rw [exponent_minus hc, exponent_minus hc]
            exact digits_append hrest
        · have hunsigned : d ≠ '+' ∧ d ≠ '-' := not_or.mp hd
          rw [exponent_unsigned hc (by simpa using hunsigned),
            exponent_unsigned hc (by simpa using hunsigned), ← List.cons_append]
          exact digits_append hrest
    · rw [exponent_of_ne hc, exponent_of_ne hc]
      rfl

theorem fraction_append (hrest : Stops rest)
    (hsign : (∀ c ∈ rest.head?, c ≠ '+' ∧ c ≠ '-') ∨ (fraction text cs).complete) :
    fraction text (cs ++ rest) = (fraction text cs).before rest := by
  unfold fraction at hsign ⊢
  simp only [digits_append hrest, before] at hsign ⊢
  split
  · next hcomplete =>
    rw [if_pos hcomplete] at hsign
    exact exponent_append hrest hsign
  · rfl

theorem whole_append (hrest : Stops rest)
    (hsign : (∀ c ∈ rest.head?, c ≠ '+' ∧ c ≠ '-') ∨ (whole cs).complete) :
    whole (cs ++ rest) = (whole cs).before rest := by
  have htake : (cs ++ rest).takeWhile Char.isDigit = cs.takeWhile Char.isDigit :=
    takeWhile_append_of_head hrest.isDigit
  have hdrop : (cs ++ rest).dropWhile Char.isDigit = cs.dropWhile Char.isDigit ++ rest :=
    dropWhile_append_of_head hrest.isDigit
  by_cases hpoint : ∃ ds, cs.dropWhile Char.isDigit = '.' :: ds
  · obtain ⟨ds, hds⟩ := hpoint
    rw [whole_point hds] at hsign ⊢
    rw [whole_point (by rw [hdrop, hds, List.cons_append]), htake]
    exact fraction_append hrest hsign
  · have hne : ∀ c ∈ (cs.dropWhile Char.isDigit).head?, c ≠ '.' := by
      rintro c hc rfl
      exact hpoint (List.head?_eq_some_iff.mp hc)
    have hne' : ∀ c ∈ ((cs ++ rest).dropWhile Char.isDigit).head?, c ≠ '.' := by
      intro c hc
      rw [hdrop, List.head?_append, Option.mem_def, Option.or_eq_some_iff] at hc
      rcases hc with hc | ⟨-, hc⟩
      · exact hne c hc
      · exact (hrest c hc).2
    rw [whole_of_ne hne] at hsign ⊢
    rw [whole_of_ne hne', htake, hdrop]
    exact exponent_append hrest hsign

theorem piece_before (front : NumeralFront) (rest : List Char) :
    (front.before rest).piece = (front.piece.1, front.piece.2 ++ rest) :=
  rfl

theorem complete_of_piece {front : NumeralFront} {t : Token} (h : front.piece.1 = .token t) :
    front.complete := by
  unfold piece at h
  split at h
  · assumption
  · simp at h

end NumeralFront

/-! ### Pieces -/

theorem startsFraction_append {rest : List Char} (hrest : Stops rest) (c : Char) (cs : List Char) :
    startsFraction c (cs ++ rest) = startsFraction c cs := by
  match cs with
  | [] =>
    have hany : rest.head?.any Char.isDigit = false := by
      rw [Option.any_eq_false]
      exact hrest.isDigit
    simp [startsFraction, hany]
  | d :: ds => rfl

/-- **A piece does not depend on what stops it.** A sign could still be taken by an exponent without
digits, but not behind a token. -/
theorem Piece.ofChars_append {rest : List Char} (hrest : Stops rest) (c : Char) (cs : List Char)
    (hsign : (∀ c ∈ rest.head?, c ≠ '+' ∧ c ≠ '-') ∨ ∃ t, (ofChars c cs).1 = .token t) :
    ofChars c (cs ++ rest) = ((ofChars c cs).1, (ofChars c cs).2 ++ rest) := by
  unfold ofChars at hsign ⊢
  rw [startsFraction_append hrest]
  match hmark : Token.ofChar? c with
  | some t => rfl
  | none =>
    simp only [hmark] at hsign ⊢
    split
    · next hdigit =>
      rw [if_pos hdigit] at hsign
      have hwhole := NumeralFront.whole_append hrest
        (hsign.imp_right fun ⟨_, ht⟩ => NumeralFront.complete_of_piece ht)
      rw [← List.cons_append, hwhole, NumeralFront.piece_before]
    · next hdigit =>
      rw [if_neg hdigit] at hsign
      split
      · next hpoint =>
        rw [if_pos hpoint] at hsign
        have hfraction := NumeralFront.fraction_append hrest
          (hsign.imp_right fun ⟨_, ht⟩ => NumeralFront.complete_of_piece ht)
        rw [hfraction, NumeralFront.piece_before]
      · have hname : ∀ c ∈ rest.head?, isNamePart c = false := fun c hc => (hrest c hc).1
        split
        · rw [takeWhile_append_of_head hname, dropWhile_append_of_head hname]
        · rfl

/-- White space stops every piece. -/
theorem Piece.ofChars_append_of_isWhiteSpace {rest : List Char}
    (hrest : ∀ d ∈ rest.head?, isWhiteSpace d) (c : Char) (cs : List Char) :
    ofChars c (cs ++ rest) = ((ofChars c cs).1, (ofChars c cs).2 ++ rest) := by
  have hunsigned : ∀ d ∈ rest.head?, d ≠ '+' ∧ d ≠ '-' := by
    intro d hd
    constructor <;> (rintro rfl; exact absurd (hrest _ hd) (by decide))
  exact ofChars_append (.of_isWhiteSpace hrest) c cs (.inl hunsigned)

/-! ### Scans step by step -/

namespace Scanner

variable {s s' : Scanner} {l : Lexeme} {e : LexError} {ls : List Lexeme}

/-- A scanner in front of white space and a piece answers with the piece. -/
theorem step_of_piece (offset : Nat) {gap cs after : List Char} {c : Char} {p : Piece}
    (hgap : ∀ c ∈ gap, isWhiteSpace c) (hc : isWhiteSpace c = false)
    (hp : Piece.ofChars c cs = (p, after)) :
    step ⟨offset, gap ++ c :: cs⟩ = (some (p.answer (offset + gap.length)),
      ⟨offset + gap.length + p.chars.length, after⟩) := by
  have htake : (gap ++ c :: cs).takeWhile isWhiteSpace = gap := by
    rw [takeWhile_append_of_head (by simpa using hc), List.takeWhile_eq_self_iff]
    exact hgap
  have hdrop : (gap ++ c :: cs).dropWhile isWhiteSpace = c :: cs := by
    rw [List.dropWhile_append_of_pos hgap, List.dropWhile_cons, hc]
    rfl
  simp only [step, skipWhiteSpace, htake, hdrop, hp]

/-- A scanner has nothing to answer just if only white space is left. -/
theorem step_eq_none_iff : s.step.1 = none ↔ ∀ c ∈ s.rest, isWhiteSpace c := by
  have hskip : s.skipWhiteSpace.rest = [] ↔ ∀ c ∈ s.rest, isWhiteSpace c :=
    List.dropWhile_eq_nil_iff
  rw [← hskip]
  unfold step
  dsimp only
  split
  · next h => simp [h]
  · next h => simp [h]

theorem drain_of_none (h : s.step.1 = none) : s.drain ls = ⟨ls.reverse, none⟩ := by
  rw [drain]
  split <;> simp_all

theorem drain_of_error (h : s.step.1 = some (.error e)) : s.drain ls = ⟨ls.reverse, some e⟩ := by
  rw [drain]
  split <;> simp_all

theorem drain_of_ok (h : s.step = (some (.ok l), s')) : s.drain ls = s'.drain (l :: ls) := by
  rw [drain]
  split <;> simp_all

end Scanner

end AttrCalc
