import AttrCalc.Proofs.Token.Lookahead

/-!
# How tokens are spelled

A numeral is written with digits, a point among or before them, and an exponent; a name with
letters, numbers and `_`.  The scanner reads every text of these forms as one token.

## Main definitions

* `IsDigits`, `IsExponent`, `IsNumeral` : the forms of a numeral and of its parts.
* `Token.IsMark`, `Token.WellFormed` : operators and parentheses, and tokens whose text has the form
  of their kind.

## Main results

* `NumeralFront.whole_of_isNumeral`, `NumeralFront.fraction_of_isNumeral` : numerals are read to
  their end.
* `Piece.ofChars_of_wellFormed` : the spelling of a well-formed token is read as this token.
-/

namespace AttrCalc

open Text Unicode

/-! ### Numerals -/

/-- Digits, at least one. -/
def IsDigits (ds : List Char) : Prop :=
  ds ≠ [] ∧ ∀ c ∈ ds, c.isDigit

/-- An exponent with an optional sign, or none at all. -/
inductive IsExponent : List Char → Prop
  | none : IsExponent []
  | unsigned {e : Char} {ds : List Char} (he : e = 'e' ∨ e = 'E') (hds : IsDigits ds) :
      IsExponent (e :: ds)
  | signed {e sign : Char} {ds : List Char} (he : e = 'e' ∨ e = 'E')
      (hsign : sign = '+' ∨ sign = '-') (hds : IsDigits ds) : IsExponent (e :: sign :: ds)

/-- A numeral without a point, with digits on both sides of it, or with none in front of it. -/
inductive IsNumeral : List Char → Prop
  | whole {ds ex : List Char} (hds : IsDigits ds) (hex : IsExponent ex) : IsNumeral (ds ++ ex)
  | decimal {ds fs ex : List Char} (hds : IsDigits ds) (hfs : IsDigits fs) (hex : IsExponent ex) :
      IsNumeral (ds ++ '.' :: (fs ++ ex))
  | fraction {fs ex : List Char} (hfs : IsDigits fs) (hex : IsExponent ex) :
      IsNumeral ('.' :: (fs ++ ex))

theorem isDigit_eq_false_of_exponent {e : Char} (he : e = 'e' ∨ e = 'E') : e.isDigit = false := by
  rcases he with rfl | rfl <;> rfl

theorem IsDigits.exists_cons {ds : List Char} (h : IsDigits ds) :
    ∃ d ds', ds = d :: ds' ∧ d.isDigit := by
  obtain ⟨d, ds', rfl⟩ := List.exists_cons_of_ne_nil h.1
  exact ⟨d, ds', rfl, h.2 d List.mem_cons_self⟩

theorem ne_sign_of_isDigit {c : Char} (h : c.isDigit) : c ≠ '+' ∧ c ≠ '-' := by
  constructor <;> (rintro rfl; exact absurd h (by decide))

theorem IsNumeral.ne_nil {cs : List Char} (h : IsNumeral cs) : cs ≠ [] := by
  cases h with
  | whole hds _ => simp [hds.1]
  | decimal | fraction => simp

theorem IsExponent.head {ex : List Char} (h : IsExponent ex) :
    ∀ c ∈ ex.head?, c.isDigit = false ∧ c ≠ '.' := by
  intro c hc
  cases h with
  | none => simp at hc
  | unsigned he _ | signed he _ _ =>
    obtain rfl : _ = c := Option.some.inj hc
    exact ⟨isDigit_eq_false_of_exponent he, by rintro rfl; simp at he⟩

theorem IsExponent.isDigit_head_eq_false {ex : List Char} (h : IsExponent ex) :
    ∀ c ∈ ex.head?, c.isDigit = false :=
  fun c hc => (h.head c hc).1

/-- A numeral that does not start with a digit is a fraction. -/
theorem IsNumeral.exists_fraction {c : Char} {cs : List Char} (h : IsNumeral (c :: cs))
    (hc : c.isDigit = false) :
    c = '.' ∧ ∃ fs ex, cs = fs ++ ex ∧ IsDigits fs ∧ IsExponent ex := by
  have hdigit {ds rest : List Char} (hds : IsDigits ds) (hall : c :: cs = ds ++ rest) : False := by
    obtain ⟨d, ds', rfl, hd⟩ := hds.exists_cons
    obtain rfl : c = d := (List.cons.inj hall).1
    exact absurd hd (by simp [hc])
  generalize hall : c :: cs = all at h
  cases h with
  | whole hds _ | decimal hds _ _ => exact (hdigit hds hall).elim
  | @fraction fs ex hfs hex =>
    obtain ⟨rfl, rfl⟩ := List.cons.inj hall
    exact ⟨rfl, fs, ex, rfl, hfs, hex⟩

/-! ### Numerals are read to their end -/

namespace NumeralFront

variable {text ds fs ex rest : List Char}

theorem takeWhile_of_isDigits (hds : IsDigits ds) (hrest : ∀ c ∈ rest.head?, c.isDigit = false) :
    (ds ++ rest).takeWhile Char.isDigit = ds := by
  rw [takeWhile_append_of_head hrest, List.takeWhile_eq_self_iff]
  exact hds.2

theorem dropWhile_of_isDigits (hds : IsDigits ds) (hrest : ∀ c ∈ rest.head?, c.isDigit = false) :
    (ds ++ rest).dropWhile Char.isDigit = rest := by
  rw [dropWhile_append_of_head hrest, List.dropWhile_eq_nil_iff.mpr hds.2, List.nil_append]

theorem digits_of_isDigits (text : List Char) (hds : IsDigits ds)
    (hrest : ∀ c ∈ rest.head?, c.isDigit = false) :
    digits text (ds ++ rest) = ⟨text ++ ds, true, rest⟩ := by
  simp only [digits, takeWhile_of_isDigits hds hrest, dropWhile_of_isDigits hds hrest,
    List.isEmpty_eq_false_iff.mpr hds.1, Bool.not_false]

theorem exponent_of_isExponent (hex : IsExponent ex) :
    exponent text ex = ⟨text ++ ex, true, []⟩ := by
  have hdigits (text : List Char) {ds : List Char} (hds : IsDigits ds) :
      digits text ds = ⟨text ++ ds, true, []⟩ := by
    have hread := @digits_of_isDigits ds [] text hds (by simp)
    rwa [List.append_nil] at hread
  cases hex with
  | none => simp [exponent]
  | @unsigned e ds he hds =>
    obtain ⟨d, ds', rfl, hd⟩ := hds.exists_cons
    rw [exponent_unsigned he (by simpa using ne_sign_of_isDigit hd), hdigits _ hds]
    simp
  | @signed e sign ds he hsign hds =>
    rcases hsign with rfl | rfl
    · rw [exponent_plus he, hdigits _ hds]
      simp
    · rw [exponent_minus he, hdigits _ hds]
      simp

theorem fraction_of_isDigits (hfs : IsDigits fs) (hex : IsExponent ex) :
    fraction text (fs ++ ex) = ⟨text ++ (fs ++ ex), true, []⟩ := by
  have hhead := hex.isDigit_head_eq_false
  simp only [fraction, digits_of_isDigits _ hfs hhead, if_true, exponent_of_isExponent hex,
    List.append_assoc]

/-- A numeral that starts with a digit is read to its end. -/
theorem whole_of_isNumeral {c : Char} {cs : List Char} (h : IsNumeral (c :: cs)) (hc : c.isDigit) :
    whole (c :: cs) = ⟨c :: cs, true, []⟩ := by
  generalize hall : c :: cs = all at h
  cases h with
  | @whole ds ex hds hex =>
    have hhead := hex.isDigit_head_eq_false
    have hdrop := dropWhile_of_isDigits hds hhead
    rw [whole_of_ne (by rw [hdrop]; exact fun c hc => (hex.head c hc).2), hdrop,
      takeWhile_of_isDigits hds hhead, exponent_of_isExponent hex]
  | @decimal ds fs ex hds hfs hex =>
    have hhead : ∀ c ∈ ('.' :: (fs ++ ex)).head?, c.isDigit = false := by simp
    rw [whole_point (dropWhile_of_isDigits hds hhead), takeWhile_of_isDigits hds hhead,
      fraction_of_isDigits hfs hex]
    simp
  | fraction _ _ =>
    obtain rfl : c = '.' := (List.cons.inj hall).1
    exact absurd hc (by decide)

theorem startsFraction_of_isDigits (hfs : IsDigits fs) (rest : List Char) :
    startsFraction '.' (fs ++ rest) := by
  obtain ⟨d, fs', rfl, hd⟩ := hfs.exists_cons
  simp [startsFraction, hd]

/-- A numeral that starts with something else starts with a point and a digit. -/
theorem fraction_of_isNumeral {c : Char} {cs : List Char} (h : IsNumeral (c :: cs))
    (hc : c.isDigit = false) :
    startsFraction c cs ∧ fraction [c] cs = ⟨c :: cs, true, []⟩ := by
  obtain ⟨rfl, fs, ex, rfl, hfs, hex⟩ := h.exists_fraction hc
  exact ⟨startsFraction_of_isDigits hfs ex, fraction_of_isDigits hfs hex⟩

end NumeralFront

/-! ### Tokens -/

namespace Token

/-- Operators and parentheses. -/
def IsMark : Token → Prop
  | op _ | leftParen | rightParen => True
  | num _ | ident _ => False

/-- The text of a numeral has the form of a numeral, and that of a name the form of a name. -/
def WellFormed : Token → Prop
  | op _ | leftParen | rightParen => True
  | num text => IsNumeral text.toList
  | ident name => isName name

/-- A mark is spelled by a single character, which is part of nothing else. -/
theorem IsMark.exists_char {t : Token} (h : t.IsMark) :
    ∃ c, t.spelling.toList = [c] ∧ ofChar? c = some t ∧ isNamePart c = false ∧ c ≠ '.' ∧
      isWhiteSpace c = false := by
  match t with
  | op .add => exact ⟨'+', rfl, rfl, by decide⟩
  | op .sub => exact ⟨'-', rfl, rfl, by decide⟩
  | op .mul => exact ⟨'*', rfl, rfl, by decide⟩
  | op .div => exact ⟨'/', rfl, rfl, by decide⟩
  | leftParen => exact ⟨'(', rfl, rfl, by decide⟩
  | rightParen => exact ⟨')', rfl, rfl, by decide⟩

theorem ofChar?_eq_none {c : Char} (h : isNamePart c ∨ c = '.') : ofChar? c = none := by
  by_contra hsome
  obtain ⟨t, ht⟩ := Option.ne_none_iff_exists'.mp hsome
  have hmark : t.IsMark := by
    unfold ofChar? at ht
    split at ht <;> simp_all only [Option.some.injEq, reduceCtorEq] <;> subst ht <;> trivial
  obtain ⟨d, hspelling, -, hpart, hpoint, -⟩ := hmark.exists_char
  obtain rfl : c = d := by simpa [spelling_ofChar? ht] using hspelling
  exact h.elim (by simp [hpart]) hpoint

end Token

namespace Piece

/-! ### What the first character decides -/

theorem isDigit_eq_false_of_isNameStart {c : Char} (h : isNameStart c) : c.isDigit = false := by
  by_contra hdigit
  rw [Bool.not_eq_false] at hdigit
  simp only [isNameStart, isAlphabetic_eq_false_of_isDigit hdigit, Bool.false_or, beq_iff_eq] at h
  subst h
  exact absurd hdigit (by decide)

theorem eq_point_of_startsFraction {c : Char} {cs : List Char} (h : startsFraction c cs) :
    c = '.' := by
  simp only [startsFraction, Bool.and_eq_true, beq_iff_eq] at h
  exact h.1

theorem ofChars_of_isDigit {c : Char} (h : c.isDigit) (cs : List Char) :
    ofChars c cs = (NumeralFront.whole (c :: cs)).piece := by
  simp only [ofChars, Token.ofChar?_eq_none (.inl (isNamePart_of_isDigit h)), h, if_true]

theorem ofChars_of_startsFraction {c : Char} {cs : List Char} (h : startsFraction c cs) :
    ofChars c cs = (NumeralFront.fraction [c] cs).piece := by
  obtain rfl := eq_point_of_startsFraction h
  have hdigit : ¬ '.'.isDigit := by decide
  simp only [ofChars, Token.ofChar?_eq_none (.inr rfl), if_neg hdigit, h, if_true]

theorem ofChars_of_isNameStart {c : Char} (h : isNameStart c) (cs : List Char) :
    ofChars c cs =
      (.token (.ident (String.ofList (c :: cs.takeWhile isNamePart))),
        cs.dropWhile isNamePart) := by
  have hpart := isNamePart_of_isNameStart h
  have hfraction : startsFraction c cs = false := by
    rw [← Bool.not_eq_true]
    intro hfraction
    obtain rfl := eq_point_of_startsFraction hfraction
    exact absurd hpart (by decide)
  simp only [ofChars, Token.ofChar?_eq_none (.inl hpart), isDigit_eq_false_of_isNameStart h,
    hfraction, h, if_true, Bool.false_eq_true, if_false]

/-! ### Well-formed tokens are read -/

/-- A numeral is read as a token. -/
theorem ofChars_of_isNumeral {c : Char} {cs : List Char} (h : IsNumeral (c :: cs)) :
    isWhiteSpace c = false ∧ ofChars c cs = (.token (.num (String.ofList (c :: cs))), []) := by
  by_cases hdigit : c.isDigit
  · refine ⟨isWhiteSpace_eq_false_of_isNamePart (isNamePart_of_isDigit hdigit), ?_⟩
    rw [ofChars_of_isDigit hdigit, NumeralFront.whole_of_isNumeral h hdigit]
    rfl
  · obtain ⟨hstarts, hfraction⟩ := NumeralFront.fraction_of_isNumeral h (by simpa using hdigit)
    refine ⟨?_, ?_⟩
    · obtain rfl := eq_point_of_startsFraction hstarts
      decide
    · rw [ofChars_of_startsFraction hstarts, hfraction]
      rfl

/-- A name is read as a token. -/
theorem ofChars_of_isName {c : Char} {cs : List Char} (h : isNameChars (c :: cs)) :
    isWhiteSpace c = false ∧ ofChars c cs = (.token (.ident (String.ofList (c :: cs))), []) := by
  obtain ⟨hstart, hcs⟩ : isNameStart c ∧ ∀ d ∈ cs, isNamePart d := by
    simpa [isNameChars] using h
  refine ⟨isWhiteSpace_eq_false_of_isNamePart (isNamePart_of_isNameStart hstart), ?_⟩
  rw [ofChars_of_isNameStart hstart, List.takeWhile_eq_self_iff.mpr hcs,
    List.dropWhile_eq_nil_iff.mpr hcs]

/-- The spelling of a well-formed token is read as this token. -/
theorem ofChars_of_wellFormed {t : Token} (h : t.WellFormed) :
    ∃ c cs, t.spelling.toList = c :: cs ∧ isWhiteSpace c = false ∧
      ofChars c cs = (.token t, []) := by
  have hmark (h : t.IsMark) : ∃ c cs, t.spelling.toList = c :: cs ∧ isWhiteSpace c = false ∧
      ofChars c cs = (.token t, []) := by
    obtain ⟨c, hspelling, hchar, -, -, hwhite⟩ := h.exists_char
    exact ⟨c, [], hspelling, hwhite, by simp only [ofChars, hchar]⟩
  match t with
  | .op o | .leftParen | .rightParen => exact hmark trivial
  | .num text =>
    match htext : text.toList with
    | [] => exact absurd htext (IsNumeral.ne_nil h)
    | c :: cs =>
      obtain ⟨hwhite, hread⟩ := ofChars_of_isNumeral (htext ▸ h : IsNumeral (c :: cs))
      exact ⟨c, cs, rfl, hwhite, by rw [hread, ← htext, String.ofList_toList]⟩
  | .ident name =>
    match hname : name.toList with
    | [] => simp [Token.WellFormed, isName, hname, isNameChars] at h
    | c :: cs =>
      obtain ⟨hwhite, hread⟩ := ofChars_of_isName (hname ▸ h : isNameChars (c :: cs))
      exact ⟨c, cs, rfl, hwhite, by rw [hread, ← hname, String.ofList_toList]⟩

end Piece

end AttrCalc
