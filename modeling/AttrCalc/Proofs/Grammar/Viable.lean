import AttrCalc.Proofs.Expr.Progress
import AttrCalc.Proofs.Grammar.Arithmetic
import Mathlib.Data.Set.List

/-!
# Beginnings of sentences

A sentence is a list of terminals that is derived from the start symbol, and what a sentence can
begin with is viable.  For arithmetic expressions the machine that follows a beginning tells both:
viable is what it can read, and a sentence is what leaves it in front of an operator with no group
open.

## Main definitions

* `Grammar.Sentence`, `Grammar.Viable` : sentences and what they begin with.
* `kinds` : the terminals of some lexemes.

## Main results

* `sentence_kinds_iff`, `viable_kinds_iff` : sentences and viable beginnings of arithmetic.
-/

namespace AttrCalc

namespace Grammar

variable {g : Grammar} {form : List Symbol}

/-- The terminals are derived from the start symbol. -/
def Sentence (g : Grammar) (w : List Symbol) : Prop :=
  g.Derives [g.start] w ∧ ∀ s ∈ w, ¬ g.isNonterminal s

/-- A sentence begins with the symbols. -/
def Viable (g : Grammar) (u : List Symbol) : Prop :=
  ∃ v, g.Sentence (u ++ v)

/-- The symbols of a derived form come from the bodies. -/
theorem Derives.mem_body (h : g.Derives [g.start] form) {s : Symbol} (hs : s ∈ form) :
    s = g.start ∨ ∃ p ∈ g.productions, s ∈ p.body := by
  induction h with
  | refl => exact .inl (List.mem_singleton.mp hs)
  | tail _ hstep ih =>
    obtain ⟨p, hp, u, v, rfl, rfl⟩ := hstep
    simp only [List.mem_append, List.mem_cons] at hs ih
    rcases hs with (hs | hs) | hs
    · exact ih (.inl hs)
    · exact .inr ⟨p, hp, (List.mem_filter.mp hs).1⟩
    · exact ih (.inr (.inr hs))

end Grammar

/-- The terminals of lexemes. -/
def kinds (ls : List Lexeme) : List Symbol :=
  ls.map fun l => l.token.kind

theorem kinds_eq (ls : List Lexeme) : kinds ls = (ls.map (·.token)).map Token.kind := by
  rw [kinds, List.map_map, Function.comp_def]

theorem kinds_append (ls ls' : List Lexeme) : kinds (ls ++ ls') = kinds ls ++ kinds ls' :=
  List.map_append

/-- Every terminal of the grammar is the kind of a token. -/
theorem exists_kind_eq {p : Production} (hp : p ∈ arithmetic.productions) {s : Symbol}
    (hs : s ∈ p.body) (hterminal : ¬ arithmetic.isNonterminal s) : ∃ a : Token, a.kind = s := by
  have hkinds : ∀ p ∈ arithmetic.productions, ∀ s ∈ p.body, ¬ arithmetic.isNonterminal s →
      s ∈ [Token.op .add, .op .sub, .op .mul, .op .div, .leftParen, .rightParen, .num "",
        .ident ""].map Token.kind := by decide
  obtain ⟨a, -, ha⟩ := List.mem_map.mp (hkinds p hp s hs hterminal)
  exact ⟨a, ha⟩

/-- A sentence of the grammar consists of the kinds of lexemes. -/
theorem Grammar.Sentence.exists_kinds_eq {w : List Symbol} (hw : arithmetic.Sentence w) :
    ∃ ls, kinds ls = w := by
  have hrange : w ∈ {w | ∀ s ∈ w, s ∈ Set.range fun l : Lexeme => l.token.kind} := by
    intro s hs
    have hterminal := hw.2 s hs
    rcases hw.1.mem_body hs with rfl | ⟨p, hp, hbody⟩
    · exact absurd Category.sum.isNonterminal_symbol hterminal
    · obtain ⟨a, ha⟩ := exists_kind_eq hp hbody hterminal
      exact ⟨⟨a, 0⟩, ha⟩
  rwa [← Set.range_list_map] at hrange

theorem sentence_kinds_iff_exists_fits {ls : List Lexeme} :
    arithmetic.Sentence (kinds ls) ↔ ∃ t, Fits .sum t ∧ t.tokens = ls.map (·.token) := by
  rw [← derives_kind_iff, ← kinds_eq]
  refine and_iff_left_of_imp fun _ s hs => ?_
  obtain ⟨l, -, rfl⟩ := List.mem_map.mp hs
  exact l.token.not_isNonterminal_kind

/-- **Sentences.** Lexemes are a sentence just if the machine reads them, stops in front of an
operator and has no group open. -/
theorem sentence_kinds_iff {ls : List Lexeme} :
    arithmetic.Sentence (kinds ls) ↔ progress ls = some ⟨.operator, []⟩ := by
  rw [sentence_kinds_iff_exists_fits]
  constructor
  · rintro ⟨t, -, htokens⟩
    exact Progress.run_tokens t [] ls htokens.symm
  · exact exists_tokens_eq_of_progress

/-- **Viable beginnings.** A sentence begins with lexemes just if the machine reads them. -/
theorem viable_kinds_iff {ls : List Lexeme} :
    arithmetic.Viable (kinds ls) ↔ ∃ st, progress ls = some st := by
  constructor
  · rintro ⟨v, hv⟩
    obtain ⟨ls', hls'⟩ := hv.exists_kinds_eq
    obtain ⟨-, rest, -, -, rfl⟩ := List.map_eq_append_iff.mp hls'
    have hrun : progress (ls ++ rest) = some ⟨.operator, []⟩ :=
      sentence_kinds_iff.mp (by rwa [kinds_append])
    rw [progress, Progress.run_append] at hrun
    obtain ⟨st, hst, -⟩ := Option.bind_eq_some_iff.mp hrun
    exact ⟨st, hst⟩
  · rintro ⟨st, hst⟩
    obtain ⟨t, ts, ht, htokens⟩ := exists_tokens_eq_append_of_progress hst
    let rest : List Lexeme := ts.map fun a => ⟨a, 0⟩
    have hsentence : arithmetic.Sentence (kinds (ls ++ rest)) :=
      sentence_kinds_iff_exists_fits.mpr ⟨t, ht, by simp [htokens, rest, Function.comp_def]⟩
    rw [kinds_append] at hsentence
    exact ⟨kinds rest, hsentence⟩

end AttrCalc
