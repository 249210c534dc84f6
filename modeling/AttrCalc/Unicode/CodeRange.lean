/-!
# Ranges of code points

A property of characters is kept as a list of closed ranges of code points.  `covers` decides
whether a character has the property.

## Main definitions

* `CodeRange` : the code points from one bound to another, both included.
* `covers` : membership of a character in a list of ranges.

## Main results

* `not_covers_of_disjoint` : a character of one table is in no table whose ranges all lie apart
  from those of the first.
-/

namespace AttrCalc.Unicode

/-- The code points from `lo` to `hi`, both included. -/
structure CodeRange where
  lo : Nat
  hi : Nat
deriving DecidableEq, Repr

namespace CodeRange

/-- Whether the code point of `c` lies in the range. -/
def holds (r : CodeRange) (c : Char) : Bool :=
  r.lo ≤ c.toNat && c.toNat ≤ r.hi

/-- Two ranges without a common code point. -/
def Apart (r s : CodeRange) : Prop :=
  r.hi < s.lo ∨ s.hi < r.lo

instance (r s : CodeRange) : Decidable (r.Apart s) :=
  inferInstanceAs (Decidable (_ ∨ _))

theorem holds_iff {r : CodeRange} {c : Char} : r.holds c ↔ r.lo ≤ c.toNat ∧ c.toNat ≤ r.hi := by
  simp [holds]

end CodeRange

/-- Whether `c` lies in one of the ranges. -/
def covers (rs : List CodeRange) (c : Char) : Bool :=
  rs.any (·.holds c)

theorem covers_iff {rs : List CodeRange} {c : Char} : covers rs c ↔ ∃ r ∈ rs, r.holds c := by
  simp [covers]

/-- No character is covered by two tables whose ranges lie apart. -/
theorem not_covers_of_disjoint {rs ss : List CodeRange}
    (apart : ∀ r ∈ rs, ∀ s ∈ ss, r.Apart s) {c : Char} (h : covers rs c) : ¬ covers ss c := by
  rw [covers_iff] at h ⊢
  rintro ⟨s, hs, hsc⟩
  obtain ⟨r, hr, hrc⟩ := h
  rw [CodeRange.holds_iff] at hrc hsc
  rcases apart r hr s hs with h | h <;> omega

end AttrCalc.Unicode
