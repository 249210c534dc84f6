import AttrCalc.Proofs.Eval.Fault
import AttrCalc.Proofs.Token.WellFormed

/-!
# Scanned numerals are numbers

The texts that are read as numbers have a wider form than the numerals of an expression: they may be
signed, and digits may be missing on one side of the point.  So a numeral that comes out of the
scanner can always be read, and an expression that has been scanned is never refused because of one.

## Main results

* `Decimal.isSome_readUnsigned?` : numerals spell decimals.
* `isSome_read?_of_mem_tokenize` : the numerals of a source are numbers.
* `evaluate_ne_badNumber` : what has been scanned has no bad numbers.
-/

namespace AttrCalc

namespace Decimal

variable {cs ds fs ex : List Char}

/-! ### Parts of a number -/

theorem takeSign_of_head (h : ∀ c ∈ cs.head?, c ≠ '+' ∧ c ≠ '-') : takeSign cs = (false, cs) := by
  unfold takeSign
  split
  · exact absurd rfl (h '-' rfl).2
  · exact absurd rfl (h '+' rfl).1
  · rfl

theorem takeSign_of_isDigits (h : IsDigits ds) : takeSign ds = (false, ds) := by
  obtain ⟨d, ds', rfl, hd⟩ := h.exists_cons
  exact takeSign_of_head (by simpa using ne_sign_of_isDigit hd)

theorem isSome_readExponent?_of_takeSign {e : Char} (he : e = 'e' ∨ e = 'E')
    (h : IsDigits (takeSign cs).2) : (readExponent? (e :: cs)).isSome := by
  have hdigits : ((takeSign cs).2.isEmpty || !(takeSign cs).2.all Char.isDigit) = false := by
    simpa [IsDigits] using h
  simp only [readExponent?, if_pos he, hdigits, Bool.false_eq_true, if_false]
  split <;> rfl

/-- The exponent of a numeral is that of a number. -/
theorem isSome_readExponent? (h : IsExponent ex) : (readExponent? ex).isSome := by
  cases h with
  | none => rfl
  | @unsigned e ds he hds =>
    refine isSome_readExponent?_of_takeSign he ?_
    rwa [takeSign_of_isDigits hds]
  | @signed e sign ds he hsign hds =>
    refine isSome_readExponent?_of_takeSign he ?_
    rcases hsign with rfl | rfl <;> exact hds

theorem takeFraction_of_isExponent (h : IsExponent ex) : takeFraction ex = ([], ex) := by
  unfold takeFraction
  split
  · exact absurd rfl (h.head '.' rfl).2
  · rfl

theorem takeFraction_of_isDigits (hfs : IsDigits fs) (hex : IsExponent ex) :
    takeFraction ('.' :: (fs ++ ex)) = (fs, ex) := by
  have hhead := hex.isDigit_head_eq_false
  simp only [takeFraction, NumeralFront.takeWhile_of_isDigits hfs hhead,
    NumeralFront.dropWhile_of_isDigits hfs hhead]

/-! ### Numerals -/

theorem isSome_readUnsigned?_of_parts {whole fraction : List Char}
    (hwhole : cs.takeWhile Char.isDigit = whole)
    (hfraction : takeFraction (cs.dropWhile Char.isDigit) = (fraction, ex))
    (hdigits : whole ≠ [] ∨ fraction ≠ []) (hex : IsExponent ex) : (readUnsigned? cs).isSome := by
  have hsome : (whole.isEmpty && fraction.isEmpty) = false := by
    rw [← Bool.not_eq_true, Bool.and_eq_true, List.isEmpty_iff, List.isEmpty_iff, not_and_or]
    exact hdigits
  simp [readUnsigned?, hwhole, hfraction, hsome, isSome_readExponent? hex]

/-- A numeral spells a decimal. -/
theorem isSome_readUnsigned? (h : IsNumeral cs) : (readUnsigned? cs).isSome := by
  cases h with
  | @whole ds ex hds hex =>
    have hhead := hex.isDigit_head_eq_false
    have hfraction : takeFraction ((ds ++ ex).dropWhile Char.isDigit) = ([], ex) := by
      rw [NumeralFront.dropWhile_of_isDigits hds hhead, takeFraction_of_isExponent hex]
    exact isSome_readUnsigned?_of_parts (NumeralFront.takeWhile_of_isDigits hds hhead) hfraction
      (.inl hds.1) hex
  | @decimal ds fs ex hds hfs hex =>
    have hhead : ∀ c ∈ ('.' :: (fs ++ ex)).head?, c.isDigit = false := by simp
    have hfraction :
        takeFraction ((ds ++ '.' :: (fs ++ ex)).dropWhile Char.isDigit) = (fs, ex) := by
      rw [NumeralFront.dropWhile_of_isDigits hds hhead, takeFraction_of_isDigits hfs hex]
    exact isSome_readUnsigned?_of_parts (NumeralFront.takeWhile_of_isDigits hds hhead) hfraction
      (.inl hds.1) hex
  | @fraction fs ex hfs hex =>
    exact isSome_readUnsigned?_of_parts rfl (takeFraction_of_isDigits hfs hex) (.inr hfs.1) hex

theorem takeSign_of_isNumeral (h : IsNumeral cs) : takeSign cs = (false, cs) := by
  refine takeSign_of_head fun c hc => ?_
  obtain ⟨cs', rfl⟩ := List.head?_eq_some_iff.mp hc
  by_cases hdigit : c.isDigit
  · exact ne_sign_of_isDigit hdigit
  · obtain ⟨rfl, -⟩ := h.exists_fraction (by simpa using hdigit)
    decide

/-- A numeral is read as a number. -/
theorem isSome_read? {text : String} (h : IsNumeral text.toList) : (read? text).isSome := by
  simp [read?, readChars?, takeSign_of_isNumeral h, isSome_readUnsigned? h]

end Decimal

/-! ### Scanned lexemes -/

/-- The numerals of a source are numbers. -/
theorem isSome_read?_of_mem_tokenize {source text : String} {tokens : List Lexeme} {offset : Nat}
    (h : tokenize source = .ok tokens) (hmem : ⟨.num text, offset⟩ ∈ tokens) :
    (Decimal.read? text).isSome :=
  Decimal.isSome_read? (Token.wellFormed_of_mem_tokenize h hmem)

/-- A bad number is a numeral among the lexemes that cannot be read. -/
theorem exists_mem_of_badNumber {env : Env} {tokens : List Lexeme} {text : String} {offset : Nat}
    (h : evaluate env tokens = .error (.badNumber text offset)) :
    ⟨.num text, offset⟩ ∈ tokens ∧ Decimal.read? text = none := by
  cases Eval.fault_of_evaluate h with
  | badNumber hposition htext => exact ⟨hposition.mem, htext⟩

/-- **What has been scanned has no bad numbers.** The numerals among the lexemes of a source are
read as numbers, so whatever the table holds and however zero divisors are dealt with, the
evaluation of the lexemes fails at none of them. -/
theorem evaluate_ne_badNumber (source : String) (tokens : List Lexeme)
    (h : tokenize source = .ok tokens) :
    (∀ text offset, ⟨.num text, offset⟩ ∈ tokens → (Decimal.read? text).isSome) ∧
      ∀ env text offset, evaluate env tokens ≠ .error (.badNumber text offset) := by
  refine ⟨fun text offset => isSome_read?_of_mem_tokenize h, fun env text offset herror => ?_⟩
  obtain ⟨hmem, htext⟩ := exists_mem_of_badNumber herror
  have hsome : (Decimal.read? text).isSome := isSome_read?_of_mem_tokenize h hmem
  simp [htext] at hsome

/-- Numerals of all forms, one of them beyond all doubles. -/
theorem evaluate_ne_badNumber_forms :
    let tokens : List Lexeme :=
      [⟨.num "2.5E-2", 0⟩, ⟨.op .add, 6⟩, ⟨.num ".5", 7⟩, ⟨.op .mul, 9⟩, ⟨.num "1e+400", 10⟩]
    tokenize "2.5E-2+.5*1e+400" = .ok tokens ∧
      (∀ text offset, ⟨.num text, offset⟩ ∈ tokens → (Decimal.read? text).isSome) ∧
      ∀ env text offset, evaluate env tokens ≠ .error (.badNumber text offset) := by
  intro tokens
  have htokens : tokenize "2.5E-2+.5*1e+400" = .ok tokens := by decide +kernel
  exact ⟨htokens, evaluate_ne_badNumber _ _ htokens⟩

end AttrCalc
