import AttrCalc.Proofs.Token.Numeral
import AttrCalc.Proofs.Token.Segment

/-!
# Scanned tokens are well-formed

Digits, a point and an exponent are read in the order in which a numeral has them, so a numeral that
does not break off has the form of one; and a name goes on as far as its characters do.

## Main results

* `NumeralFront.isNumeral_whole`, `NumeralFront.isNumeral_fraction` : what a complete numeral looks
  like.
* `Token.wellFormed_of_mem_tokenize` : all tokens of a source are well-formed.
-/

namespace AttrCalc

open Text Unicode

/-! ### Numerals that do not break off -/

namespace NumeralFront

variable {text cs : List Char}

theorem exists_digits_of_complete (h : (digits text cs).complete) :
    ∃ ds, IsDigits ds ∧ (digits text cs).text = text ++ ds := by
  have hne : cs.takeWhile Char.isDigit ≠ [] := by simpa [digits] using h
  exact ⟨cs.takeWhile Char.isDigit, ⟨hne, fun c hc => List.mem_takeWhile_imp hc⟩, rfl⟩

theorem exists_exponent_of_complete (h : (exponent text cs).complete) :
    ∃ ex, IsExponent ex ∧ (exponent text cs).text = text ++ ex := by
  unfold exponent at h ⊢
  split
  · exact ⟨[], .none, by simp⟩
  · next c cs =>
    dsimp only at h
    split at h
    · next he =>
      rw [if_pos he]
      split at h
      · obtain ⟨ds, hds, htext⟩ := exists_digits_of_complete h
        exact ⟨c :: '+' :: ds, .signed he (.inl rfl) hds, by simp [htext]⟩
      · obtain ⟨ds, hds, htext⟩ := exists_digits_of_complete h
        exact ⟨c :: '-' :: ds, .signed he (.inr rfl) hds, by simp [htext]⟩
      · next ds hplus hminus =>
        obtain ⟨ds', hds, htext⟩ := exists_digits_of_complete h
        exact ⟨c :: ds', .unsigned he hds, by simp [htext]⟩
    · next he =>
      rw [if_neg he]
      exact ⟨[], .none, by simp⟩

theorem exists_fraction_of_complete (h : (fraction text cs).complete) :
    ∃ fs ex, IsDigits fs ∧ IsExponent ex ∧ (fraction text cs).text = text ++ (fs ++ ex) := by
  unfold fraction at h ⊢
  dsimp only at h ⊢
  split at h
  · next hdigits =>
    obtain ⟨fs, hfs, hdtext⟩ := exists_digits_of_complete hdigits
    obtain ⟨ex, hex, htext⟩ := exists_exponent_of_complete h
    refine ⟨fs, ex, hfs, hex, ?_⟩
    rw [if_pos hdigits, htext, hdtext, List.append_assoc]
  · next hdigits => exact absurd h hdigits

/-- A numeral that starts with a digit and does not break off has the form of a numeral. -/
theorem isNumeral_whole {c : Char} (hc : c.isDigit) (h : (whole (c :: cs)).complete) :
    IsNumeral (whole (c :: cs)).text := by
  have hds : IsDigits ((c :: cs).takeWhile Char.isDigit) :=
    ⟨by simp [hc], fun d hd => List.mem_takeWhile_imp hd⟩
  unfold whole at h ⊢
  dsimp only at h ⊢
  split at h
  · next rest hrest =>
    obtain ⟨fs, ex, hfs, hex, htext⟩ := exists_fraction_of_complete h
    simp only [htext, List.append_assoc, List.cons_append, List.nil_append]
    exact .decimal hds hfs hex
  · obtain ⟨ex, hex, htext⟩ := exists_exponent_of_complete h
    simp only [htext]
    exact .whole hds hex

/-- A numeral that starts with a point and does not break off has the form of a numeral. -/
theorem isNumeral_fraction (h : (fraction ['.'] cs).complete) :
    IsNumeral (fraction ['.'] cs).text := by
  obtain ⟨fs, ex, hfs, hex, htext⟩ := exists_fraction_of_complete h
  rw [htext, List.singleton_append]
  exact .fraction hfs hex

end NumeralFront

/-! ### Tokens -/

theorem Token.wellFormed_of_ofChar? {c : Char} {t : Token} (h : ofChar? c = some t) :
    t.WellFormed := by
  unfold ofChar? at h
  split at h <;> simp only [Option.some.injEq, reduceCtorEq] at h <;> subst h <;> trivial

theorem NumeralFront.wellFormed_of_piece {front : NumeralFront} {t : Token}
    (h : front.piece.1 = .token t) (hfront : front.complete → IsNumeral front.text) :
    t.WellFormed := by
  have hcomplete := complete_of_piece h
  obtain rfl : .num (String.ofList front.text) = t := by simpa [piece, hcomplete] using h
  simpa [Token.WellFormed] using hfront hcomplete

/-- A piece that is a token is a well-formed one. -/
theorem Piece.wellFormed_of_ofChars {c : Char} {cs : List Char} {t : Token}
    (h : (ofChars c cs).1 = .token t) : t.WellFormed := by
  unfold ofChars at h
  split at h
  · next t' ht' =>
    obtain rfl : t' = t := by simpa using h
    exact Token.wellFormed_of_ofChar? ht'
  · split at h
    · next hdigit => exact NumeralFront.wellFormed_of_piece h (NumeralFront.isNumeral_whole hdigit)
    · split at h
      · next hpoint =>
        obtain rfl := eq_point_of_startsFraction hpoint
        exact NumeralFront.wellFormed_of_piece h NumeralFront.isNumeral_fraction
      · split at h
        · next hstart =>
          obtain rfl : .ident (String.ofList (c :: cs.takeWhile isNamePart)) = t := by
            simpa using h
          simp [Token.WellFormed, isName, isNameChars, hstart]
        · simp at h

namespace Scanner

variable {s s' : Scanner} {l : Lexeme}

theorem wellFormed_of_step (h : s.step = (some (.ok l), s')) : l.token.WellFormed := by
  obtain ⟨gap, c, cs, -, -, -, hanswer, -⟩ := exists_piece_of_step h
  obtain ⟨t, ht, rfl⟩ := Piece.answer_eq_ok_iff.mp hanswer.symm
  exact Piece.wellFormed_of_ofChars ht

theorem wellFormed_drain {ls : List Lexeme} (h : ∀ l ∈ ls, l.token.WellFormed) :
    ∀ l ∈ (s.drain ls).lexemes, l.token.WellFormed := by
  fun_induction Scanner.drain s ls with
  | case1 | case2 => simpa using h
  | case3 s ls l s' hstep ih =>
    exact ih (List.forall_mem_cons.mpr ⟨wellFormed_of_step hstep, h⟩)

end Scanner

/-- **Scanned tokens are well-formed**: numerals have the form of numerals, and names that of
names. -/
theorem Token.wellFormed_of_mem_tokenize {source : String} {ls : List Lexeme} {l : Lexeme}
    (h : tokenize source = .ok ls) (hl : l ∈ ls) : l.token.WellFormed := by
  rw [← (tokenize_eq_ok_iff.mp h).2] at hl
  exact Scanner.wellFormed_drain (by simp) l hl

end AttrCalc
