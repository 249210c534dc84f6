import AttrCalc.Proofs.Token.WellFormed
import Mathlib.Data.List.Basic

/-!
# The longest token

The scanner decides with one character of lookahead and never goes back.  Still it reads the
longest token that stands in front of it.  It can miss this token in two ways only: at a point
without digits behind it, and at an exponent without digits.  There it does not fall back on the
numeral that it has read before, but fails.

## Main definitions

* `IsTokenText`, `IsLongestToken` : the texts of tokens, and the longest one that some characters
  begin with.
* `Resumes`, `BreaksOff` : what a numeral would go on with, and a numeral with this behind it.
* `Piece.Settles` : what a piece says about the characters that it is read from.

## Main results

* `Piece.prefix_ofChars` : a piece is at least as long as any token in front.
* `Piece.settles_ofChars` : what a piece says is true.
* `TokenStream.step_takes_longest` : when a stream answers with which token, and when it fails.
-/

namespace AttrCalc

open Text Unicode

/-! ### Token texts -/

/-- The texts of tokens: those of the six marks, the names and the numerals. -/
def IsTokenText (cs : List Char) : Prop :=
  ∃ t : Token, t.WellFormed ∧ t.spelling.toList = cs

/-- The longest text of a token that the characters begin with. -/
structure IsLongestToken (p cs : List Char) : Prop where
  front : p <+: cs
  isTokenText : IsTokenText p
  longest : ∀ q, q <+: cs → IsTokenText q → q.length ≤ p.length

theorem IsLongestToken.unique {p q cs : List Char} (hp : IsLongestToken p cs)
    (hq : IsLongestToken q cs) : p = q := by
  have hle := hq.longest p hp.front hp.isTokenText
  have hge := hp.longest q hq.front hq.isTokenText
  exact (List.prefix_of_prefix_length_le hp.front hq.front hle).eq_of_length_le hge

theorem IsTokenText.of_isNumeral {cs : List Char} (h : IsNumeral cs) : IsTokenText cs :=
  ⟨.num (String.ofList cs), by simpa [Token.WellFormed] using h, String.toList_ofList⟩

/-- A token text is read as a token. -/
theorem IsTokenText.exists_read {c : Char} {cs : List Char} (h : IsTokenText (c :: cs)) :
    ∃ t : Token, t.WellFormed ∧ t.spelling.toList = c :: cs ∧
      Piece.ofChars c cs = (.token t, []) := by
  obtain ⟨t, ht, hspelling⟩ := h
  obtain ⟨c', cs', hspelling', -, hread⟩ := Piece.ofChars_of_wellFormed ht
  obtain ⟨rfl, rfl⟩ := List.cons.inj (hspelling'.symm.trans hspelling)
  exact ⟨t, ht, hspelling, hread⟩

theorem IsTokenText.ne_nil {cs : List Char} (h : IsTokenText cs) : cs ≠ [] := by
  obtain ⟨t, ht, rfl⟩ := h
  obtain ⟨c, cs, hspelling, -⟩ := Piece.ofChars_of_wellFormed ht
  simp [hspelling]

theorem IsTokenText.exists_cons {c : Char} {cs q : List Char} (h : IsTokenText q)
    (hq : q <+: c :: cs) : ∃ q' rest, q = c :: q' ∧ cs = q' ++ rest := by
  obtain ⟨d, q', rfl⟩ := List.exists_cons_of_ne_nil h.ne_nil
  obtain ⟨rest, heq⟩ := hq
  obtain ⟨rfl, rfl⟩ := List.cons.inj heq
  exact ⟨q', rest, rfl, rfl⟩

/-- A token that starts with a digit or a point is a numeral. -/
theorem IsTokenText.isNumeral {c : Char} {cs q : List Char} (h : IsTokenText q)
    (hq : q <+: c :: cs) (hc : c.isDigit ∨ c = '.') : IsNumeral q := by
  obtain ⟨q', rest, rfl, rfl⟩ := h.exists_cons hq
  obtain ⟨t, ht, hspelling⟩ := h
  have hmark (ht : t.IsMark) : False := by
    obtain ⟨d, hd, -, hpart, hpoint, -⟩ := ht.exists_char
    obtain ⟨rfl, -⟩ := List.cons.inj (hspelling.symm.trans hd)
    exact hc.elim (fun hdigit => by simp [isNamePart_of_isDigit hdigit] at hpart) hpoint
  match t with
  | .op _ | .leftParen | .rightParen => exact (hmark trivial).elim
  | .num text => exact hspelling ▸ ht
  | .ident name =>
    have hname : isNameChars (c :: q') := hspelling ▸ ht
    obtain ⟨hstart, -⟩ : isNameStart c ∧ ∀ d ∈ q', isNamePart d := by
      simpa [isNameChars] using hname
    rcases hc with hdigit | rfl
    · simp [Piece.isDigit_eq_false_of_isNameStart hstart] at hdigit
    · exact absurd (isNamePart_of_isNameStart hstart) (by decide)

/-! ### Numerals that break off -/

/-- The letter of an exponent occurs. -/
def HasExponent (cs : List Char) : Prop :=
  'e' ∈ cs ∨ 'E' ∈ cs

/-- A numeral would go on with what stands behind it: a point, if it has neither a point nor an
exponent, or the letter of an exponent, if it has none. -/
def Resumes (p rest : List Char) : Prop :=
  ¬ HasExponent p ∧ ∃ c ∈ rest.head?, c = '.' ∧ '.' ∉ p ∨ c = 'e' ∨ c = 'E'

/-- A numeral in front of something with which it would go on. -/
def BreaksOff (p cs : List Char) : Prop :=
  IsNumeral p ∧ ∃ rest, cs = p ++ rest ∧ Resumes p rest

theorem breaksOff_append_iff {p rest : List Char} :
    BreaksOff p (p ++ rest) ↔ IsNumeral p ∧ Resumes p rest := by
  simp [BreaksOff]

theorem Resumes.append {p rest : List Char} (h : Resumes p rest) (after : List Char) :
    Resumes p (rest ++ after) := by
  obtain ⟨hexponent, c, hc, hresumes⟩ := h
  refine ⟨hexponent, c, ?_, hresumes⟩
  rw [List.head?_append, Option.mem_def, Option.mem_def.mp hc, Option.some_or]

theorem IsDigits.notMem {ds : List Char} (h : IsDigits ds) {c : Char} (hc : c.isDigit = false) :
    c ∉ ds :=
  fun hmem => by simp [h.2 c hmem] at hc

theorem IsDigits.not_hasExponent {ds : List Char} (h : IsDigits ds) : ¬ HasExponent ds :=
  not_or.mpr ⟨h.notMem rfl, h.notMem rfl⟩

theorem hasExponent_append {cs ds : List Char} :
    HasExponent (cs ++ ds) ↔ HasExponent cs ∨ HasExponent ds := by
  simp only [HasExponent, List.mem_append]
  exact or_or_or_comm

/-- Characters that begin with a numeral start like one. -/
theorem IsNumeral.starts {c : Char} {cs : List Char} (h : IsNumeral (c :: cs)) (rest : List Char) :
    c.isDigit ∨ startsFraction c (cs ++ rest) := by
  by_cases hdigit : c.isDigit
  · exact .inl hdigit
  · obtain ⟨rfl, fs, ex, rfl, hfs, -⟩ := h.exists_fraction (by simpa using hdigit)
    rw [List.append_assoc]
    exact .inr (NumeralFront.startsFraction_of_isDigits hfs (ex ++ rest))

/-- A numeral ends with digits. -/
theorem IsNumeral.exists_digits {cs : List Char} (h : IsNumeral cs) :
    ∃ before ds, cs = before ++ ds ∧ IsDigits ds := by
  have hdigits {ds ex : List Char} (hds : IsDigits ds) (hex : IsExponent ex) :
      ∃ before ds', ds ++ ex = before ++ ds' ∧ IsDigits ds' := by
    cases hex with
    | none => exact ⟨[], ds, by simp, hds⟩
    | @unsigned e ds' _ hds' => exact ⟨ds ++ [e], ds', by simp, hds'⟩
    | @signed e sign ds' _ _ hds' => exact ⟨ds ++ [e, sign], ds', by simp, hds'⟩
  cases h with
  | whole hds hex => exact hdigits hds hex
  | @decimal ds fs ex _ hfs hex =>
    obtain ⟨before, ds', heq, hds'⟩ := hdigits hfs hex
    exact ⟨ds ++ '.' :: before, ds', by simp [heq], hds'⟩
  | fraction hfs hex =>
    obtain ⟨before, ds', heq, hds'⟩ := hdigits hfs hex
    exact ⟨'.' :: before, ds', by simp [heq], hds'⟩

/-- What has no digits cannot end a numeral. -/
theorem IsNumeral.eq_nil_of_append {p tail : List Char} (h : IsNumeral (p ++ tail))
    (htail : ∀ c ∈ tail, c.isDigit = false) : tail = [] := by
  obtain ⟨before, ds, heq, hne, hds⟩ := h.exists_digits
  rcases List.eq_nil_or_concat' tail with rfl | ⟨init, c, rfl⟩
  · rfl
  · obtain ⟨ds', d, rfl⟩ := (List.eq_nil_or_concat' ds).resolve_left hne
    obtain rfl : c = d := by
      have hlast := congrArg List.getLast? heq
      simpa [← List.append_assoc] using hlast
    exact absurd (hds c (by simp)) (by simp [htail c (by simp)])

/-! ### No token in front is longer -/

namespace NumeralFront

variable {text cs ds fs ex rest : List Char}

/-- Each reader goes on at least as far as the part of a numeral that it finds. -/
theorem prefix_digits_append (text : List Char) (hds : ∀ c ∈ ds, c.isDigit) (rest : List Char) :
    text ++ ds <+: (digits text (ds ++ rest)).text := by
  simp only [digits, List.takeWhile_append_of_pos hds, ← List.append_assoc]
  exact List.prefix_append ..

theorem prefix_exponent_append (text : List Char) (hex : IsExponent ex) (rest : List Char) :
    text ++ ex <+: (exponent text (ex ++ rest)).text := by
  cases hex with
  | none => simpa using prefix_exponent text rest
  | @unsigned e ds he hds =>
    have hunsigned : ∀ d ∈ (ds ++ rest).head?, d ≠ '+' ∧ d ≠ '-' := by
      obtain ⟨d, ds', rfl, hd⟩ := hds.exists_cons
      simpa using ne_sign_of_isDigit hd
    rw [List.cons_append, exponent_unsigned he hunsigned]
    simpa using prefix_digits_append (text ++ [e]) hds.2 rest
  | @signed e sign ds he hsign hds =>
    rw [List.cons_append, List.cons_append]
    rcases hsign with rfl | rfl
    · rw [exponent_plus he]
      simpa using prefix_digits_append (text ++ [e, '+']) hds.2 rest
    · rw [exponent_minus he]
      simpa using prefix_digits_append (text ++ [e, '-']) hds.2 rest

theorem prefix_fraction_digits (text cs : List Char) :
    (digits text cs).text <+: (fraction text cs).text := by
  unfold fraction
  dsimp only
  split
  · exact prefix_exponent ..
  · exact List.prefix_rfl

theorem head_append (hex : IsExponent ex) (hne : ex ≠ []) (rest : List Char) :
    ∀ c ∈ (ex ++ rest).head?, c.isDigit = false ∧ c ≠ '.' := by
  obtain ⟨c, cs, rfl⟩ := List.exists_cons_of_ne_nil hne
  exact hex.head

theorem prefix_fraction_append (text : List Char) (hfs : IsDigits fs) (hex : IsExponent ex)
    (rest : List Char) : text ++ (fs ++ ex) <+: (fraction text (fs ++ (ex ++ rest))).text := by
  -- Without an exponent, more digits can follow.
  by_cases hne : ex = []
  · rw [hne, List.append_nil, List.nil_append]
    exact (prefix_digits_append text hfs.2 rest).trans (prefix_fraction_digits ..)
  · have hhead := fun c hc => (head_append hex hne rest c hc).1
    simp only [fraction, digits_of_isDigits text hfs hhead, if_true]
    rw [← List.append_assoc]
    exact prefix_exponent_append (text ++ fs) hex rest

theorem prefix_whole_append {c : Char} (h : IsNumeral (c :: cs)) (hc : c.isDigit)
    (rest : List Char) : c :: cs <+: (whole (c :: (cs ++ rest))).text := by
  rw [← List.cons_append]
  generalize hall : c :: cs = all at h
  cases h with
  | @whole ds ex hds hex =>
    rw [List.append_assoc]
    by_cases hne : ex = []
    · rw [hne, List.append_nil, List.nil_append]
      refine List.IsPrefix.trans ?_ (prefix_whole (ds ++ rest))
      rw [List.takeWhile_append_of_pos hds.2]
      exact List.prefix_append ..
    · have hhead := head_append hex hne rest
      have hdrop := dropWhile_of_isDigits hds fun c hc => (hhead c hc).1
      have htake := takeWhile_of_isDigits hds fun c hc => (hhead c hc).1
      rw [whole_of_ne (by rw [hdrop]; exact fun c hc => (hhead c hc).2), hdrop, htake]
      exact prefix_exponent_append ds hex rest
  | @decimal ds fs ex hds hfs hex =>
    have hhead : ∀ c ∈ ('.' :: (fs ++ (ex ++ rest))).head?, c.isDigit = false := by simp
    rw [List.append_assoc, List.cons_append, List.append_assoc,
      whole_point (dropWhile_of_isDigits hds hhead), takeWhile_of_isDigits hds hhead]
    simpa using prefix_fraction_append (ds ++ ['.']) hfs hex rest
  | fraction _ _ =>
    obtain rfl : c = '.' := (List.cons.inj hall).1
    exact absurd hc (by decide)

end NumeralFront

theorem Piece.prefix_ofChars_append {c : Char} {cs : List Char} (h : IsTokenText (c :: cs))
    (rest : List Char) : c :: cs <+: (ofChars c (cs ++ rest)).1.chars := by
  obtain ⟨t, ht, hspelling⟩ := id h
  have hmark (ht : t.IsMark) : c :: cs <+: (ofChars c (cs ++ rest)).1.chars := by
    obtain ⟨d, hd, hchar, -⟩ := ht.exists_char
    obtain ⟨rfl, rfl⟩ := List.cons.inj (hspelling.symm.trans hd)
    simp only [ofChars, hchar, chars, hd]
    exact List.prefix_rfl
  cases t with
  | op | leftParen | rightParen => exact hmark trivial
  | num text =>
    have hnumeral : IsNumeral (c :: cs) := hspelling ▸ ht
    by_cases hdigit : c.isDigit
    · rw [ofChars_of_isDigit hdigit, NumeralFront.chars_piece_eq]
      exact NumeralFront.prefix_whole_append hnumeral hdigit rest
    · obtain ⟨rfl, fs, ex, rfl, hfs, hex⟩ := hnumeral.exists_fraction (by simpa using hdigit)
      rw [List.append_assoc,
        ofChars_of_startsFraction (NumeralFront.startsFraction_of_isDigits hfs (ex ++ rest)),
        NumeralFront.chars_piece_eq]
      exact NumeralFront.prefix_fraction_append ['.'] hfs hex rest
  | ident name =>
    have hname : isNameChars (c :: cs) := hspelling ▸ ht
    obtain ⟨hstart, hcs⟩ : isNameStart c ∧ ∀ d ∈ cs, isNamePart d := by
      simpa [isNameChars] using hname
    rw [ofChars_of_isNameStart hstart, List.takeWhile_append_of_pos hcs]
    simp [chars, Token.spelling]

/-- **A piece is at least as long as any token in front.** -/
theorem Piece.prefix_ofChars {c : Char} {cs q : List Char} (hq : q <+: c :: cs)
    (h : IsTokenText q) : q <+: (ofChars c cs).1.chars := by
  obtain ⟨q', rest, rfl, rfl⟩ := h.exists_cons hq
  exact prefix_ofChars_append h rest

/-! ### Where a numeral ends -/

namespace NumeralFront

variable {text cs : List Char}

/-- A complete front is a numeral that does not go on behind it.  One that is not complete is a
numeral and the beginning of what it would go on with, up to where digits are missing. -/
structure Accurate (front : NumeralFront) : Prop where
  complete : front.complete → IsNumeral front.text ∧ ¬ Resumes front.text front.rest
  broken : front.complete = false → ∃ p tail, front.text = p ++ tail ∧ IsNumeral p ∧
    Resumes p tail ∧ ∀ c ∈ tail, c.isDigit = false

theorem text_of_not_complete (h : (digits text cs).complete = false) :
    (digits text cs).text = text := by
  have hnil : cs.takeWhile Char.isDigit = [] := by simpa [digits] using h
  simp [digits, hnil]

theorem complete_of_startsFraction {c : Char} (h : startsFraction c cs) :
    (digits text cs).complete := by
  match cs with
  | [] => simp [startsFraction] at h
  | d :: cs =>
    have hd : d.isDigit := by
      simp only [startsFraction, Bool.and_eq_true] at h
      exact h.2
    simp [digits, hd]

/-- The digits of an exponent, behind its letter and an optional sign. -/
theorem accurate_digits {e : Char} {sign : List Char} (he : e = 'e' ∨ e = 'E')
    (hsign : ∀ c ∈ sign, c.isDigit = false) (hexponent : ¬ HasExponent text)
    (hnumeral : IsNumeral text)
    (hdigits : ∀ ds, IsDigits ds → IsNumeral (text ++ e :: (sign ++ ds))) (cs : List Char) :
    (digits (text ++ e :: sign) cs).Accurate where
  complete h := by
    obtain ⟨ds, hds, htext⟩ := exists_digits_of_complete h
    have hall : (digits (text ++ e :: sign) cs).text = text ++ e :: (sign ++ ds) := by simp [htext]
    rw [hall]
    refine ⟨hdigits ds hds, fun h => h.1 ?_⟩
    rcases he with rfl | rfl <;> simp [HasExponent]
  broken h := by
    refine ⟨text, e :: sign, text_of_not_complete h, hnumeral, ⟨hexponent, e, rfl, .inr he⟩, ?_⟩
    exact List.forall_mem_cons.mpr ⟨isDigit_eq_false_of_exponent he, hsign⟩

/-- The exponent behind a numeral that has none. -/
theorem accurate_exponent (hnumeral : ∀ ex, IsExponent ex → IsNumeral (text ++ ex))
    (hexponent : ¬ HasExponent text) (hpoint : '.' ∈ text ∨ ∀ c ∈ cs.head?, c ≠ '.') :
    (exponent text cs).Accurate := by
  have htext : IsNumeral text := by simpa using hnumeral [] .none
  match cs with
  | [] => exact ⟨fun _ => ⟨htext, by simp [Resumes, exponent]⟩, by simp [exponent]⟩
  | c :: cs =>
    by_cases hc : c = 'e' ∨ c = 'E'
    · by_cases hsigned : ∃ sign ∈ cs.head?, sign = '+' ∨ sign = '-'
      · obtain ⟨sign, hhead, hsign⟩ := hsigned
        obtain ⟨cs, rfl⟩ := List.head?_eq_some_iff.mp hhead
        have hdigit : ∀ d ∈ [sign], d.isDigit = false := by
          rcases hsign with rfl | rfl <;> simp
        have hdigits := accurate_digits hc hdigit hexponent htext
          (fun ds hds => hnumeral _ (.signed hc hsign hds)) cs
        rcases hsign with rfl | rfl
        · rwa [exponent_plus hc]
        · rwa [exponent_minus hc]
      · rw [exponent_unsigned hc fun d hd => not_or.mp fun h => hsigned ⟨d, hd, h⟩]
        have hnone : ∀ d ∈ ([] : List Char), d.isDigit = false := by simp
        exact accurate_digits hc hnone hexponent htext
          (fun ds hds => hnumeral _ (.unsigned hc hds)) cs
    · rw [exponent_of_ne hc]
      refine ⟨fun _ => ⟨htext, ?_⟩, by simp⟩
      rintro ⟨-, d, hd, hresumes⟩
      obtain rfl : c = d := by simpa using hd
      rcases hresumes with ⟨rfl, hnot⟩ | hresumes
      · exact hpoint.elim hnot fun hne => hne '.' rfl rfl
      · exact hc hresumes

/-- The digits behind a point, if there are any, and the exponent behind them. -/
theorem accurate_fraction
    (hnumeral : ∀ fs ex, IsDigits fs → IsExponent ex → IsNumeral (text ++ (fs ++ ex)))
    (hexponent : ¬ HasExponent text) (hpoint : '.' ∈ text) (h : (digits text cs).complete) :
    (fraction text cs).Accurate := by
  obtain ⟨fs, hfs, htext⟩ := exists_digits_of_complete h
  simp only [fraction, h, if_true, htext]
  refine accurate_exponent (fun ex hex => ?_) (fun he => ?_) (.inl ?_)
  · rw [List.append_assoc]
    exact hnumeral fs ex hfs hex
  · exact (hasExponent_append.mp he).elim hexponent hfs.not_hasExponent
  · exact List.mem_append_left fs hpoint

theorem accurate_whole {c : Char} (hc : c.isDigit) (cs : List Char) :
    (whole (c :: cs)).Accurate := by
  let ds := (c :: cs).takeWhile Char.isDigit
  have hds : IsDigits ds := ⟨by simp [ds, hc], fun d hd => List.mem_takeWhile_imp hd⟩
  by_cases hpoint : ∃ rest, (c :: cs).dropWhile Char.isDigit = '.' :: rest
  · obtain ⟨rest, hrest⟩ := hpoint
    rw [whole_point hrest]
    have hexponent : ¬ HasExponent (ds ++ ['.']) := fun h =>
      (hasExponent_append.mp h).elim hds.not_hasExponent (by simp [HasExponent])
    cases hdigits : (digits (ds ++ ['.']) rest).complete with
    | true =>
      refine accurate_fraction (fun fs ex hfs hex => ?_) hexponent (by simp) hdigits
      simpa using IsNumeral.decimal hds hfs hex
    | false =>
      have hfraction : fraction (ds ++ ['.']) rest = digits (ds ++ ['.']) rest := by
        simp [fraction, hdigits]
      have hnumeral : IsNumeral ds := by simpa using IsNumeral.whole hds .none
      have hresumes : Resumes ds ['.'] :=
        ⟨hds.not_hasExponent, '.', rfl, .inl ⟨rfl, hds.notMem rfl⟩⟩
      rw [hfraction]
      exact ⟨by simp [hdigits], fun h => ⟨ds, ['.'], text_of_not_complete h, hnumeral, hresumes,
        by simp⟩⟩
  · have hne : ∀ d ∈ ((c :: cs).dropWhile Char.isDigit).head?, d ≠ '.' := by
      rintro d hd rfl
      exact hpoint (List.head?_eq_some_iff.mp hd)
    rw [whole_of_ne hne]
    exact accurate_exponent (fun ex hex => .whole hds hex) hds.not_hasExponent (.inr hne)

end NumeralFront

/-! ### Pieces -/

theorem startsFraction_append_right {c : Char} {cs : List Char} (h : startsFraction c cs)
    (rest : List Char) : startsFraction c (cs ++ rest) := by
  match cs with
  | [] => simp [startsFraction] at h
  | d :: cs => exact h

namespace Piece

variable {c : Char} {cs : List Char}

/-- What a piece says about the characters that it is read from.  A token is the longest one in
front, and a numeral does not break off.  An unknown character begins no token.  A malformed numeral
breaks off behind the longest token. -/
def Settles (cs : List Char) : Piece → Prop
  | token t => t.WellFormed ∧ IsLongestToken t.spelling.toList cs ∧ ¬ BreaksOff t.spelling.toList cs
  | unknown _ => ∀ p, p <+: cs → ¬ IsTokenText p
  | malformed _ => ∃ p, IsLongestToken p cs ∧ BreaksOff p cs

theorem settles_of_accurate {front : NumeralFront} (hread : ofChars c cs = front.piece)
    (hc : c.isDigit ∨ c = '.') (hfront : front.Accurate) : (ofChars c cs).1.Settles (c :: cs) := by
  have hsource : front.text ++ front.rest = c :: cs := by
    rw [← chars_ofChars c cs, hread, NumeralFront.chars_piece_eq]
    rfl
  have hwithin {q : List Char} (hq : q <+: c :: cs) (ht : IsTokenText q) : q <+: front.text := by
    rw [← NumeralFront.chars_piece_eq, ← hread]
    exact prefix_ofChars hq ht
  rw [hread, NumeralFront.piece]
  cases hcomplete : front.complete with
  | true =>
    obtain ⟨hnumeral, hresumes⟩ := hfront.complete hcomplete
    simp only [if_true, Settles, Token.spelling, String.toList_ofList]
    refine ⟨by simpa [Token.WellFormed] using hnumeral, ⟨⟨front.rest, hsource⟩,
      .of_isNumeral hnumeral, fun q hq ht => (hwithin hq ht).length_le⟩, ?_⟩
    rw [← hsource, breaksOff_append_iff]
    exact fun h => hresumes h.2
  | false =>
    obtain ⟨p, tail, htext, hnumeral, hresumes, htail⟩ := hfront.broken hcomplete
    rw [htext] at hsource hwithin
    rw [List.append_assoc] at hsource
    simp only [Bool.false_eq_true, if_false, Settles]
    refine ⟨p, ⟨⟨_, hsource⟩, .of_isNumeral hnumeral, fun q hq ht => ?_⟩, ?_⟩
    · by_contra hlonger
      -- A longer token would be a numeral that ends in `tail`, where there are no digits.
      obtain ⟨tail', rfl⟩ := List.prefix_of_prefix_length_le (List.prefix_append p tail)
        (hwithin hq ht) (Nat.le_of_not_le hlonger)
      have hsub : tail' <+: tail := (List.prefix_append_right_inj p).mp (hwithin hq ht)
      have hq' : IsNumeral (p ++ tail') := ht.isNumeral hq hc
      have hnil : tail' = [] := hq'.eq_nil_of_append fun d hd => htail d (hsub.subset hd)
      simp [hnil] at hlonger
    · rw [← hsource, breaksOff_append_iff]
      exact ⟨hnumeral, hresumes.append front.rest⟩

theorem settles_of_token {t : Token} (h : (ofChars c cs).1 = .token t) (hc : ¬ c.isDigit)
    (hpoint : ¬ startsFraction c cs) : (ofChars c cs).1.Settles (c :: cs) := by
  have hwell := wellFormed_of_ofChars h
  have hchars : t.spelling.toList ++ (ofChars c cs).2 = c :: cs := by
    rw [← chars_ofChars c cs, h]
    rfl
  rw [h]
  refine ⟨hwell, ⟨⟨_, hchars⟩, ⟨t, hwell, rfl⟩, fun q hq ht => ?_⟩, fun hbreaks => ?_⟩
  · have hle := (prefix_ofChars hq ht).length_le
    rwa [h] at hle
  · obtain ⟨p, rest, hp, rfl⟩ := IsTokenText.exists_cons ⟨t, hwell, rfl⟩ ⟨_, hchars⟩
    have hnumeral : IsNumeral (c :: p) := hp ▸ hbreaks.1
    exact (hnumeral.starts rest).elim hc hpoint

/-- **What a piece says is true.** -/
theorem settles_ofChars (c : Char) (cs : List Char) : (ofChars c cs).1.Settles (c :: cs) := by
  by_cases hdigit : c.isDigit
  · exact settles_of_accurate (ofChars_of_isDigit hdigit cs) (.inl hdigit)
      (NumeralFront.accurate_whole hdigit cs)
  by_cases hpoint : startsFraction c cs
  · obtain rfl := eq_point_of_startsFraction hpoint
    have hnumeral {fs ex : List Char} (hfs : IsDigits fs) (hex : IsExponent ex) :
        IsNumeral (['.'] ++ (fs ++ ex)) := @IsNumeral.fraction fs ex hfs hex
    refine settles_of_accurate (ofChars_of_startsFraction hpoint) (.inr rfl) ?_
    exact NumeralFront.accurate_fraction (fun _ _ => hnumeral) (by simp [HasExponent]) (by simp)
      (NumeralFront.complete_of_startsFraction hpoint)
  match hmark : Token.ofChar? c with
  | some t => exact settles_of_token (t := t) (by simp [ofChars, hmark]) hdigit hpoint
  | none =>
    by_cases hstart : isNameStart c
    · exact settles_of_token (by rw [ofChars_of_isNameStart hstart]) hdigit hpoint
    · have hunknown (cs : List Char) (hpoint : ¬ startsFraction c cs) :
          ofChars c cs = (.unknown c, cs) := by
        simp [ofChars, hmark, hdigit, hpoint, hstart]
      rw [hunknown cs hpoint]
      intro p hp ht
      obtain ⟨p', rest, rfl, rfl⟩ := ht.exists_cons hp
      obtain ⟨t, -, hspelling, hread⟩ := ht.exists_read
      have hpoint' : ¬ startsFraction c p' := fun h => hpoint (startsFraction_append_right h rest)
      simp [hunknown p' hpoint'] at hread

/-! ### What happens when -/

variable {p : Piece} {q : List Char}

theorem Settles.token_iff (h : p.Settles cs) :
    (∃ t, p = .token t ∧ t.spelling.toList = q) ↔ IsLongestToken q cs ∧ ¬ BreaksOff q cs := by
  cases p with
  | token t =>
    obtain ⟨-, hlongest, hbreaks⟩ := h
    constructor
    · rintro ⟨t, ⟨⟩, rfl⟩
      exact ⟨hlongest, hbreaks⟩
    · rintro ⟨hq, -⟩
      exact ⟨t, rfl, hlongest.unique hq⟩
  | unknown c => exact iff_of_false (by simp) fun hq => h q hq.1.front hq.1.isTokenText
  | malformed text =>
    obtain ⟨p, hlongest, hbreaks⟩ := h
    exact iff_of_false (by simp) fun hq => hq.2 (hlongest.unique hq.1 ▸ hbreaks)

theorem Settles.unknown_iff (h : p.Settles cs) :
    (∃ c, p = .unknown c) ↔ ∀ q, q <+: cs → ¬ IsTokenText q := by
  cases p with
  | token t =>
    obtain ⟨-, hlongest, -⟩ := h
    exact iff_of_false (by simp) fun hq => hq _ hlongest.front hlongest.isTokenText
  | unknown c => exact iff_of_true ⟨c, rfl⟩ h
  | malformed text =>
    obtain ⟨p, hlongest, -⟩ := h
    exact iff_of_false (by simp) fun hq => hq p hlongest.front hlongest.isTokenText

theorem Settles.malformed_iff (h : p.Settles cs) :
    (∃ text, p = .malformed text) ↔ ∃ q, IsLongestToken q cs ∧ BreaksOff q cs := by
  cases p with
  | token t =>
    obtain ⟨-, hlongest, hbreaks⟩ := h
    exact iff_of_false (by simp) fun ⟨q, hq, hqbreaks⟩ => hbreaks (hlongest.unique hq ▸ hqbreaks)
  | unknown c => exact iff_of_false (by simp) fun ⟨q, hq, _⟩ => h q hq.front hq.isTokenText
  | malformed text => exact iff_of_true ⟨text, rfl⟩ h

end Piece

/-! ### Answers -/

theorem Piece.exists_answer_unknownChar_iff {p : Piece} {offset : Nat} :
    (∃ c offset', p.answer offset = .error (.unknownChar c offset')) ↔ ∃ c, p = .unknown c := by
  cases p <;> simp [answer]

theorem Piece.exists_answer_malformedNumber_iff {p : Piece} {offset : Nat} :
    (∃ text offset', p.answer offset = .error (.malformedNumber text offset')) ↔
      ∃ text, p = .malformed text := by
  cases p <;> simp [answer]

theorem Scanner.exists_answer {s : Scanner} {c : Char} {cs : List Char}
    (h : s.rest.dropWhile isWhiteSpace = c :: cs) :
    ∃ offset, s.step.1 = some ((Piece.ofChars c cs).1.answer offset) := by
  refine ⟨s.skipWhiteSpace.offset, ?_⟩
  have hrest : s.skipWhiteSpace.rest = c :: cs := h
  simp only [step, hrest]

/-- **The scanner takes the longest token and fails only where it must.** Whatever a stream has been
asked before, let `rest` be the characters that are left behind white space.  The stream answers
with a token just if the longest token in front of `rest` is there and does not break off, and it is
this token.  It fails with an unknown character just if there are characters but no token in front
of them, and with a malformed numeral just if the longest token is a numeral that breaks off. -/
theorem TokenStream.step_takes_longest (s : TokenStream) :
    let rest := s.scanner.rest.dropWhile isWhiteSpace
    (∀ l, s.step.1 = some (.ok l) → l.token.WellFormed) ∧
      (∀ p, (∃ l, s.step.1 = some (.ok l) ∧ l.token.spelling.toList = p) ↔
        IsLongestToken p rest ∧ ¬ BreaksOff p rest) ∧
      ((∃ c offset, s.step.1 = some (.error (.unknownChar c offset))) ↔
        rest ≠ [] ∧ ∀ p, p <+: rest → ¬ IsTokenText p) ∧
      ((∃ text offset, s.step.1 = some (.error (.malformedNumber text offset))) ↔
        ∃ p, IsLongestToken p rest ∧ BreaksOff p rest) := by
  intro rest
  match hrest : rest with
  | [] =>
    have hstep : s.step.1 = none :=
      Scanner.step_eq_none_iff.mpr (List.dropWhile_eq_nil_iff.mp hrest)
    have hlongest (p : List Char) : ¬ IsLongestToken p [] := fun h =>
      h.isTokenText.ne_nil (List.prefix_nil.mp h.front)
    simp [hstep, hlongest]
  | c :: cs =>
    obtain ⟨offset, hstep⟩ := Scanner.exists_answer hrest
    have hstep : s.step.1 = some ((Piece.ofChars c cs).1.answer offset) := hstep
    have hsettles := Piece.settles_ofChars c cs
    rw [hstep]
    refine ⟨fun l hl => ?_, fun p => ?_, ?_, ?_⟩
    · obtain ⟨t, ht, rfl⟩ := Piece.answer_eq_ok_iff.mp (Option.some.inj hl)
      exact Piece.wellFormed_of_ofChars ht
    · rw [← hsettles.token_iff]
      simp [Piece.answer_eq_ok_iff]
    · simp [← hsettles.unknown_iff, Piece.exists_answer_unknownChar_iff]
    · simp [← hsettles.malformed_iff, Piece.exists_answer_malformedNumber_iff]

/-- A second point belongs to the next token, and an exponent without digits to none. -/
theorem TokenStream.step_takes_longest_point :
    let s := TokenStream.ofString " 1.5.3"
    let t := TokenStream.ofString ".5e+"
    s.step.1 = some (.ok ⟨.num "1.5", 1⟩) ∧ (Token.num "1.5").WellFormed ∧
      IsLongestToken "1.5".toList "1.5.3".toList ∧ ¬ BreaksOff "1.5".toList "1.5.3".toList ∧
      t.step.1 = some (.error (.malformedNumber ".5e+" 0)) ∧
      ∃ p, IsLongestToken p ".5e+".toList ∧ BreaksOff p ".5e+".toList := by
  intro s t
  have hs : s.step.1 = some (.ok ⟨.num "1.5", 1⟩) := by decide
  have ht : t.step.1 = some (.error (.malformedNumber ".5e+" 0)) := by decide
  have hsrest : s.scanner.rest.dropWhile isWhiteSpace = "1.5.3".toList := by decide
  have htrest : t.scanner.rest.dropWhile isWhiteSpace = ".5e+".toList := by decide
  obtain ⟨hwell, htoken, -, -⟩ := step_takes_longest s
  obtain ⟨-, -, -, hmalformed⟩ := step_takes_longest t
  rw [hsrest] at htoken
  rw [htrest] at hmalformed
  obtain ⟨hlongest, hbreaks⟩ := (htoken "1.5".toList).mp ⟨_, hs, rfl⟩
  exact ⟨hs, hwell _ hs, hlongest, hbreaks, ht, hmalformed.mp ⟨_, _, ht⟩⟩

end AttrCalc
