import AttrCalc.Decimal.Reading
import AttrCalc.Proofs.Text.Words
import AttrCalc.Proofs.Token.Lookahead

/-!
# Texts that are read as numbers

A number is read up to the end of the text, and no part of it is white space: not the sign, the
digits, the point and the exponent, and not the letters of a word either.

## Main results

* `Decimal.solid_of_readChars?` : a text that is read as a number contains no white space.
-/

namespace AttrCalc.Decimal

open Text Unicode

variable {cs : List Char}

theorem isWhiteSpace_eq_false_of_isDigit {c : Char} (h : c.isDigit) : isWhiteSpace c = false :=
  isWhiteSpace_eq_false_of_isNamePart (isNamePart_of_isDigit h)

theorem isWhiteSpace_eq_false_of_isAlpha {c : Char} (h : c.isAlpha) : isWhiteSpace c = false := by
  have hle : c.val ≤ 'Z'.val ∨ c.val ≤ 'z'.val := by
    rcases Bool.or_eq_true_iff.mp h with hupper | hlower
    · exact .inl (of_decide_eq_true hupper).2
    · exact .inr (of_decide_eq_true (Bool.and_eq_true_iff.mp hlower).2)
  have hc : c.toNat < 0x80 := by
    rcases hle with hle | hle <;>
      exact Nat.lt_of_le_of_lt (UInt32.le_iff_toNat_le.mp hle) (by decide)
  refine isWhiteSpace_eq_false_of_isNamePart ?_
  simp [isNamePart, isAlphabetic, hc, h]

theorem isAlpha_of_isAlpha_toLower {c : Char} (h : c.toLower.isAlpha) : c.isAlpha := by
  unfold Char.toLower at h
  split at h
  · next hupper =>
    have hc : c.isUpper := decide_eq_true hupper
    exact Bool.or_eq_true_iff.mpr (.inl hc)
  · exact h

theorem solid_of_all_isDigit (h : ∀ c ∈ cs, c.isDigit) : Solid cs :=
  fun c hc => isWhiteSpace_eq_false_of_isDigit (h c hc)

theorem solid_takeWhile_isDigit (cs : List Char) : Solid (cs.takeWhile Char.isDigit) :=
  solid_of_all_isDigit fun _ hc => List.mem_takeWhile_imp hc

theorem solid_of_takeSign (h : Solid (takeSign cs).2) : Solid cs := by
  unfold takeSign at h
  split at h
  · exact List.forall_mem_cons.mpr ⟨by decide, h⟩
  · exact List.forall_mem_cons.mpr ⟨by decide, h⟩
  · exact h

theorem solid_of_readExponent? {exponent : Int} (h : readExponent? cs = some exponent) :
    Solid cs := by
  unfold readExponent? at h
  split at h
  · exact fun c hc => absurd hc List.not_mem_nil
  · next c cs =>
    split at h
    · next he =>
      split at h
      next negative ds hsign =>
        split at h
        · simp at h
        · next hds =>
          have hdigits : ∀ d ∈ (takeSign cs).2, d.isDigit := by
            rw [hsign]
            simp only [Bool.or_eq_true, Bool.not_eq_true', not_or, Bool.not_eq_false,
              List.all_eq_true] at hds
            exact hds.2
          refine List.forall_mem_cons.mpr ⟨?_, solid_of_takeSign (solid_of_all_isDigit hdigits)⟩
          rcases he with rfl | rfl <;> decide
    · simp at h

theorem solid_of_takeFraction (h : Solid (takeFraction cs).2) : Solid cs := by
  unfold takeFraction at h
  split at h
  · next cs =>
    refine List.forall_mem_cons.mpr ⟨by decide, ?_⟩
    rw [← List.takeWhile_append_dropWhile (p := Char.isDigit) (l := cs)]
    exact List.forall_mem_append.mpr ⟨solid_takeWhile_isDigit cs, h⟩
  · exact h

theorem solid_of_readUnsigned? {x : Float} (h : readUnsigned? cs = some x) : Solid cs := by
  unfold readUnsigned? at h
  dsimp only at h
  split at h
  · simp at h
  · obtain ⟨exponent, hexponent, -⟩ := Option.map_eq_some_iff.mp h
    rw [← List.takeWhile_append_dropWhile (p := Char.isDigit) (l := cs)]
    exact List.forall_mem_append.mpr ⟨solid_takeWhile_isDigit cs,
      solid_of_takeFraction (solid_of_readExponent? hexponent)⟩

theorem solid_of_readWord? {x : Float} (h : readWord? cs = some x) : Solid cs := by
  have hword {w : String} (hw : String.ofList (cs.map Char.toLower) = w)
      (halpha : w.toList.all Char.isAlpha) : Solid cs := by
    intro c hc
    have hmem : c.toLower ∈ w.toList := by
      rw [← hw, String.toList_ofList]
      exact List.mem_map_of_mem hc
    exact isWhiteSpace_eq_false_of_isAlpha
      (isAlpha_of_isAlpha_toLower (List.all_eq_true.mp halpha _ hmem))
  unfold readWord? at h
  split at h
  · next hw => exact hword hw (by decide)
  · next hw => exact hword hw (by decide)
  · next hw => exact hword hw (by decide)
  · simp at h

/-- **A text that is read as a number contains no white space.** -/
theorem solid_of_readChars? {x : Float} (h : readChars? cs = some x) : Solid cs := by
  obtain ⟨y, hy, -⟩ := Option.map_eq_some_iff.mp h
  rcases Option.or_eq_some_iff.mp hy with hunsigned | ⟨-, hword⟩
  · exact solid_of_takeSign (solid_of_readUnsigned? hunsigned)
  · exact solid_of_takeSign (solid_of_readWord? hword)

/-- Normalisation makes no difference to the number that a trimmed text stands for. -/
theorem readChars?_trimChars (cs : List Char) :
    readChars? (trimChars cs) = readChars? (normalizeChars cs) := by
  match htrim : readChars? (trimChars cs), hnormal : readChars? (normalizeChars cs) with
  | none, none => rfl
  | some x, _ =>
    rw [trimChars_eq_of_solid (.inl (solid_of_readChars? htrim)), hnormal] at htrim
    exact htrim.symm
  | none, some y =>
    rw [← trimChars_eq_of_solid (.inr (solid_of_readChars? hnormal)), htrim] at hnormal
    exact hnormal

end AttrCalc.Decimal
