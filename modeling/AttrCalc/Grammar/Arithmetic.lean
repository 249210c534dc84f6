import AttrCalc.Grammar.Basic

/-!
# The grammar of arithmetic expressions

Sums of terms, terms of factors, and factors that are names, numerals or sums in parentheses.  The
operators associate to the left, so the grammar is left recursive.

## Main definitions

* `arithmetic` : the grammar.
-/

namespace AttrCalc

/-- The productions of arithmetic expressions. -/
def arithmeticProductions : List Production :=
  [⟨"E", "E", ["+", "T"]⟩,
   ⟨"E", "E", ["-", "T"]⟩,
   ⟨"E", "T", []⟩,
   ⟨"T", "T", ["*", "F"]⟩,
   ⟨"T", "T", ["/", "F"]⟩,
   ⟨"T", "F", []⟩,
   ⟨"F", "(", ["E", ")"]⟩,
   ⟨"F", "id", []⟩,
   ⟨"F", "num", []⟩]

/-- The grammar of arithmetic expressions. -/
def arithmetic : Grammar where
  start := "E"
  productions := arithmeticProductions
  start_mem := by decide
  lhs_ne := by decide
  endMarker_notMem := by decide

end AttrCalc
