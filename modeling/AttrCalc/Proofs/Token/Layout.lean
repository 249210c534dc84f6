import AttrCalc.Proofs.Token.Numeral
import AttrCalc.Proofs.Token.Segment
import Mathlib.Data.List.Chain

/-!
# Printed tokens are read back

Tokens are printed by their spellings, with white space in front of each and behind the last.  The
white space may be missing next to a mark, but two words, that is two numerals or names, would run
into one another.  The scanner reads such a text back as the tokens that were printed, each where it
was put.

## Main definitions

* `SpacedToken` : a token with the white space in front of it.
* `printed`, `placed` : the text of spaced tokens, and the lexemes that stand in it.
* `Legible` : which white space and which tokens may be printed.

## Main results

* `Scanner.drain_printed` : a scanner goes over a printed text token by token.
* `tokenize_printed` : printed tokens are read back.
* `tokenize_spelling` : the spelling of a single token is read as this token.
-/

namespace AttrCalc

open Text Unicode

/-- A token with the white space that is printed in front of it. -/
structure SpacedToken where
  gap : String
  token : Token
deriving DecidableEq, Repr

/-- The text of spaced tokens, with white space behind the last. -/
def printed : List SpacedToken → String → String
  | [], tail => tail
  | i :: is, tail => i.gap ++ i.token.spelling ++ printed is tail

/-- The lexemes of spaced tokens in a text that is printed from an offset on. -/
def placed : Nat → List SpacedToken → List Lexeme
  | _, [] => []
  | offset, i :: is =>
    ⟨i.token, offset + i.gap.length⟩ ::
      placed (offset + i.gap.length + i.token.spelling.length) is

/-- Well-formed tokens between which there is only white space, and some wherever two words meet. -/
structure Legible (is : List SpacedToken) (tail : String) : Prop where
  wellFormed : ∀ i ∈ is, i.token.WellFormed
  white_gap : ∀ i ∈ is, ∀ c ∈ i.gap.toList, isWhiteSpace c
  white_tail : ∀ c ∈ tail.toList, isWhiteSpace c
  separated : is.IsChain fun i j => j.gap = "" → i.token.IsMark ∨ j.token.IsMark

variable {i : SpacedToken} {is : List SpacedToken} {tail : String}

theorem Legible.of_cons (h : Legible (i :: is) tail) : Legible is tail where
  wellFormed := fun j hj => h.wellFormed j (List.mem_cons_of_mem i hj)
  white_gap := fun j hj => h.white_gap j (List.mem_cons_of_mem i hj)
  white_tail := h.white_tail
  separated := h.separated.tail

/-- Behind a word a legible text starts with something else. -/
theorem Legible.stops (h : Legible (i :: is) tail) :
    i.token.IsMark ∨ Stops (printed is tail).toList := by
  by_cases hi : i.token.IsMark
  · exact .inl hi
  refine .inr ?_
  match is with
  | [] => exact .of_isWhiteSpace fun c hc => h.white_tail c (List.mem_of_head? hc)
  | j :: is =>
    by_cases hgap : j.gap = ""
    · have hj : j.token.IsMark := ((List.isChain_cons_cons.mp h.separated).1 hgap).resolve_left hi
      obtain ⟨c, hspelling, -, hpart, hpoint, -⟩ := hj.exists_char
      simp [Stops, printed, hgap, hspelling, hpart, hpoint]
    · obtain ⟨c, cs, hcs⟩ := List.exists_cons_of_ne_nil (mt String.toList_eq_nil_iff.mp hgap)
      have hc : isWhiteSpace c := h.white_gap j (by simp) c (by simp [hcs])
      refine .of_isWhiteSpace ?_
      simpa [printed, hcs] using hc

namespace Scanner

/-- A scanner in front of white space and a well-formed token answers with the token, whatever stops
this if it is a word. -/
theorem step_of_wellFormed (offset : Nat) {gap rest : List Char} {t : Token}
    (hgap : ∀ c ∈ gap, isWhiteSpace c) (ht : t.WellFormed) (hrest : t.IsMark ∨ Stops rest) :
    step ⟨offset, gap ++ (t.spelling.toList ++ rest)⟩ = (some (.ok ⟨t, offset + gap.length⟩),
      ⟨offset + gap.length + t.spelling.length, rest⟩) := by
  obtain ⟨c, cs, hspelling, hc, hread⟩ := Piece.ofChars_of_wellFormed ht
  have hread' : Piece.ofChars c (cs ++ rest) = (.token t, rest) := by
    -- A mark is read without a look at what follows.
    rcases hrest with hmark | hstops
    · obtain ⟨d, hd, hchar, -⟩ := hmark.exists_char
      obtain ⟨rfl, rfl⟩ : c = d ∧ cs = [] := by simpa [hspelling] using hd
      simp only [Piece.ofChars, hchar, List.nil_append]
    · rw [Piece.ofChars_append hstops c cs (.inr ⟨t, by rw [hread]⟩), hread, List.nil_append]
  rw [hspelling, List.cons_append, step_of_piece offset hgap hc hread', ← String.length_toList]
  rfl

/-- A scanner goes over a legible text token by token. -/
theorem drain_printed (h : Legible is tail) (offset : Nat) (ls : List Lexeme) :
    drain ⟨offset, (printed is tail).toList⟩ ls = ⟨ls.reverse ++ placed offset is, none⟩ := by
  induction is generalizing offset ls with
  | nil => rw [drain_of_none (step_eq_none_iff.mpr h.white_tail), placed, List.append_nil]
  | cons i is ih =>
    have hstep := step_of_wellFormed offset (h.white_gap i List.mem_cons_self)
      (h.wellFormed i List.mem_cons_self) h.stops
    have hprinted : (printed (i :: is) tail).toList =
        i.gap.toList ++ (i.token.spelling.toList ++ (printed is tail).toList) := by
      simp [printed]
    rw [hprinted, drain_of_ok hstep, ih h.of_cons, List.reverse_cons, List.append_assoc,
      String.length_toList]
    rfl

end Scanner

/-- The spelling of a well-formed token is read as this token alone. -/
theorem tokenize_spelling {t : Token} (h : t.WellFormed) : tokenize t.spelling = .ok [⟨t, 0⟩] := by
  have hlegible : Legible [⟨"", t⟩] "" := {
    wellFormed := by simpa using h
    white_gap := by simp
    white_tail := by simp
    separated := .singleton _ }
  have hprinted : printed [⟨"", t⟩] "" = t.spelling := by simp [printed]
  have hscan : scan (printed [⟨"", t⟩] "") = ⟨placed 0 [⟨"", t⟩], none⟩ :=
    Scanner.drain_printed hlegible 0 []
  rw [← hprinted, tokenize_eq_ok_iff, hscan]
  exact ⟨rfl, rfl⟩

/-- **Printed tokens are read back.** The text of well-formed tokens, with any white space in front
of them and behind the last, but some between neighbouring words, is read as just these tokens, each
at the offset where it was put. -/
theorem tokenize_printed (is : List SpacedToken) (tail : String) (h : Legible is tail) :
    tokenize (printed is tail) = .ok (placed 0 is) := by
  have hscan : scan (printed is tail) = ⟨placed 0 is, none⟩ := Scanner.drain_printed h 0 []
  rw [tokenize_eq_ok_iff, hscan]
  exact ⟨rfl, rfl⟩

/-- A minus is not taken for the sign of an exponent, nor a point for that of the numeral before
it. -/
theorem tokenize_printed_signs :
    let is : List SpacedToken := [⟨"", .ident "e"⟩, ⟨"", .op .sub⟩, ⟨"\t", .num ".5e-3"⟩,
      ⟨" ", .num ".5"⟩, ⟨"", .rightParen⟩]
    Legible is "\n" ∧ printed is "\n" = "e-\t.5e-3 .5)\n" ∧
      tokenize (printed is "\n") = .ok [⟨.ident "e", 0⟩, ⟨.op .sub, 1⟩, ⟨.num ".5e-3", 3⟩,
        ⟨.num ".5", 9⟩, ⟨.rightParen, 11⟩] := by
  intro is
  have hsmall : IsNumeral ".5e-3".toList :=
    @IsNumeral.fraction ['5'] ['e', '-', '3'] ⟨by decide, List.all_eq_true.mp rfl⟩
      (.signed (.inl rfl) (.inr rfl) ⟨by decide, List.all_eq_true.mp rfl⟩)
  have hhalf : IsNumeral ".5".toList :=
    @IsNumeral.fraction ['5'] [] ⟨by decide, List.all_eq_true.mp rfl⟩ .none
  have hlegible : Legible is "\n" := {
    wellFormed := by
      have hname : isName "e" := by decide
      simpa [is, Token.WellFormed] using ⟨hname, hsmall, hhalf⟩
    white_gap := by
      have hwhite : isWhiteSpace '\t' ∧ isWhiteSpace ' ' := by decide
      simpa [is] using hwhite
    white_tail := by
      have hwhite : isWhiteSpace '\n' := by decide
      simpa using hwhite
    separated := by simp [is, Token.IsMark] }
  refine ⟨hlegible, by decide, ?_⟩
  rw [tokenize_printed is "\n" hlegible]
  rfl

end AttrCalc
