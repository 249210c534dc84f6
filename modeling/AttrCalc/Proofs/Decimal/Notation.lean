import AttrCalc.Decimal.Notation
import AttrCalc.Proofs.Decimal.Reading

/-!
# The characters of written numbers

A number is written with letters, digits, points and minus signs only.

## Main definitions

* `Decimal.IsNumberChar`, `Decimal.IsNumberText` : the characters of written numbers, and texts of
  them.

## Main results

* `Decimal.isNumberText_write` : every number is written with them.
-/

namespace AttrCalc.Decimal

open Unicode

/-- A letter, a digit, a point or a minus sign. -/
def IsNumberChar (c : Char) : Prop :=
  c.isAlpha ∨ c.isDigit ∨ c = '.' ∨ c = '-'

instance (c : Char) : Decidable (IsNumberChar c) :=
  inferInstanceAs (Decidable (_ ∨ _))

theorem isWhiteSpace_eq_false_of_isNumberChar {c : Char} (h : IsNumberChar c) :
    isWhiteSpace c = false := by
  rcases h with h | h | rfl | rfl
  · exact isWhiteSpace_eq_false_of_isAlpha h
  · exact isWhiteSpace_eq_false_of_isDigit h
  · decide
  · decide

/-- All characters of a text are those of written numbers. -/
def IsNumberText (s : String) : Prop :=
  ∀ c ∈ s.toList, IsNumberChar c

instance (s : String) : Decidable (IsNumberText s) :=
  List.decidableBAll _ _

theorem isNumberText_append {s t : String} (hs : IsNumberText s) (ht : IsNumberText t) :
    IsNumberText (s ++ t) := by
  simp only [IsNumberText, String.toList_append, List.forall_mem_append]
  exact ⟨hs, ht⟩

theorem isNumberText_ofList {cs : List Char} (h : ∀ c ∈ cs, c.isDigit) :
    IsNumberText (String.ofList cs) := by
  simp only [IsNumberText, String.toList_ofList]
  exact fun c hc => .inr (.inl (h c hc))

theorem isNumberText_repr (n : Nat) : IsNumberText n.repr :=
  isNumberText_ofList fun _ => Nat.isDigit_of_mem_toDigits (by decide) (by decide)

theorem isNumberText_toString (i : Int) : IsNumberText (toString i) := by
  rw [Int.toString_eq_repr]
  cases i with
  | ofNat n => exact isNumberText_repr n
  | negSucc n => exact isNumberText_append (by decide) (isNumberText_repr _)

section Digits

variable {digits : List Char} {point : Int}

theorem isNumberText_take (h : ∀ c ∈ digits, c.isDigit) (n : Nat) :
    IsNumberText (String.ofList (digits.take n)) :=
  isNumberText_ofList fun c hc => h c (List.mem_of_mem_take hc)

theorem isNumberText_drop (h : ∀ c ∈ digits, c.isDigit) (n : Nat) :
    IsNumberText (String.ofList (digits.drop n)) :=
  isNumberText_ofList fun c hc => h c (List.mem_of_mem_drop hc)

theorem isNumberText_positionalText {wholeEnd : String} (hwhole : IsNumberText wholeEnd)
    (h : ∀ c ∈ digits, c.isDigit) : IsNumberText (positionalText wholeEnd digits point) := by
  have hzeros (n : Nat) : ∀ c ∈ List.replicate n '0', c.isDigit :=
    fun c hc => by rw [List.eq_of_mem_replicate hc]; rfl
  unfold positionalText
  split
  · exact isNumberText_append (by decide)
      (isNumberText_ofList (List.forall_mem_append.mpr ⟨hzeros _, h⟩))
  · split
    · exact isNumberText_append
        (isNumberText_ofList (List.forall_mem_append.mpr ⟨h, hzeros _⟩)) hwhole
    · exact isNumberText_append (isNumberText_append (isNumberText_take h _) (by decide))
        (isNumberText_drop h _)

theorem isNumberText_exponentText (h : ∀ c ∈ digits, c.isDigit) :
    IsNumberText (exponentText digits point) := by
  have hfraction :
      IsNumberText (if digits.length ≤ 1 then "" else "." ++ String.ofList (digits.drop 1)) := by
    split
    · decide
    · exact isNumberText_append (by decide) (isNumberText_drop h 1)
  have hmantissa := isNumberText_append (isNumberText_take h 1) hfraction
  exact isNumberText_append (isNumberText_append hmantissa (by decide)) (isNumberText_toString _)

end Digits

/-- **Numbers are written with letters, digits, points and minus signs**, if whole numbers end
so. -/
theorem isNumberText_write {style : Style} (h : IsNumberText style.wholeEnd) (x : Float) :
    IsNumberText (write style x) := by
  have hsign (negative : Bool) : IsNumberText (signText negative) := by
    cases negative <;> decide
  unfold write
  split
  · decide
  · exact isNumberText_append (hsign _) (by decide)
  · refine isNumberText_append (hsign _) ?_
    have hdigits (n : Nat) : ∀ c ∈ Nat.toDigits 10 n, c.isDigit :=
      fun _ => Nat.isDigit_of_mem_toDigits (by decide) (by decide)
    unfold Scientific.text
    dsimp only
    split
    · exact isNumberText_positionalText h (hdigits _)
    · exact isNumberText_exponentText (hdigits _)

theorem isNumberText_valueText (x : Float) : IsNumberText (valueText x) :=
  isNumberText_write (by decide) x

end AttrCalc.Decimal
