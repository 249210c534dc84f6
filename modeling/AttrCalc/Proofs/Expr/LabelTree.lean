import AttrCalc.Expr.Basic
import AttrCalc.Token.Basic
import Mathlib.Data.List.Infix

/-!
# Label trees

A label tree is what is left of an expression without identifiers, tags and values.  Written from
left to right, it gives tokens.  The trees that can be read back from their tokens are the canonical
ones: operations of one level grow to the left, and a sum stands inside a product only as a group.

## Main definitions

* `LabelTree`, `Expr.labels` : the labels of an expression.
* `LabelTree.tokens` : a tree written from left to right.
* `LabelTree.nesting` : how many groups stand inside one another.
* `LabelTree.Canonical` : no operation has a child that needs parentheses.
* `Category`, `Fits` : what can stand in the three kinds of places of an expression.
* `openGroups` : the excess of opening over closing parentheses.

## Main results

* `fits_iff` : a canonical tree fits a place unless its root is an operation that binds too loosely.
* `LabelTree.openGroups_le_nesting`, `LabelTree.exists_prefix_openGroups_eq` : the nesting of a tree
  is the greatest excess of opening parentheses in a prefix of its tokens.
-/

namespace AttrCalc

/-- The labels of an expression. -/
inductive LabelTree where
  | atom (a : Atom)
  | group (inner : LabelTree)
  | binary (o : Operator) (left right : LabelTree)
deriving DecidableEq, Repr

/-- The labels of an expression. -/
def Expr.labels : Expr → LabelTree
  | .atom _ a .. => .atom a
  | .group _ _ inner => .group inner.labels
  | .binary _ o _ left right => .binary o left.labels right.labels

/-- The token of a leaf. -/
def Atom.token : Atom → Token
  | num text => .num text
  | ident name => .ident name

namespace LabelTree

/-- The tree written from left to right. -/
def tokens : LabelTree → List Token
  | atom a => [a.token]
  | group inner => .leftParen :: inner.tokens ++ [.rightParen]
  | binary o left right => left.tokens ++ .op o :: right.tokens

/-- The greatest number of groups on a path from the root. -/
def nesting : LabelTree → Nat
  | atom _ => 0
  | group inner => inner.nesting + 1
  | binary _ left right => max left.nesting right.nesting

/-- The root is an operation of the level. -/
def IsOperation (level : Level) : LabelTree → Prop
  | binary o .. => o.level = level
  | _ => False

/-- No operation of the level of sums has one as its right child; no operation of the level of
products has one of sums as its left child, or any operation as its right child. -/
def Canonical : LabelTree → Prop
  | atom _ => True
  | group inner => inner.Canonical
  | binary o left right =>
    left.Canonical ∧ right.Canonical ∧
      match o.level with
      | .sum => ¬ right.IsOperation .sum
      | .product => ¬ left.IsOperation .sum ∧ ∀ level, ¬ right.IsOperation level

end LabelTree

/-! ### Places for a tree -/

/-- The kinds of places of an expression: for any expression, for one that is no sum, and for one
that is no operation at all. -/
inductive Category where
  | sum
  | product
  | factor
deriving DecidableEq, Repr

/-- The place for a chain of operations of the level. -/
def Level.whole : Level → Category
  | sum => .sum
  | product => .product

/-- The place for an operand of such a chain. -/
def Level.operand : Level → Category
  | sum => .product
  | product => .factor

/-- The root is not an operation that binds too loosely for the place. -/
def Category.Admits : Category → LabelTree → Prop
  | sum, _ => True
  | product, t => ¬ t.IsOperation .sum
  | factor, t => ∀ level, ¬ t.IsOperation level

/-- What fits a place: chains grow to the left, and an operand of a chain binds more tightly. -/
inductive Fits : Category → LabelTree → Prop
  | atom (a : Atom) : Fits .factor (.atom a)
  | group {inner : LabelTree} (h : Fits .sum inner) : Fits .factor (.group inner)
  | operand (level : Level) {t : LabelTree} (h : Fits level.operand t) : Fits level.whole t
  | operation {o : Operator} {left right : LabelTree} (hl : Fits o.level.whole left)
      (hr : Fits o.level.operand right) : Fits o.level.whole (.binary o left right)

theorem Category.Admits.whole {level : Level} {t : LabelTree} (h : level.operand.Admits t) :
    level.whole.Admits t := by
  cases level with
  | sum => trivial
  | product => exact h .sum

theorem LabelTree.canonical_binary_iff {o : Operator} {left right : LabelTree} :
    (binary o left right).Canonical ↔ left.Canonical ∧ right.Canonical ∧
      o.level.whole.Admits left ∧ o.level.operand.Admits right := by
  cases h : o.level <;> simp [Canonical, h, Level.whole, Level.operand, Category.Admits]

theorem Fits.canonical {c : Category} {t : LabelTree} (h : Fits c t) :
    t.Canonical ∧ c.Admits t := by
  induction h with
  | atom => simp [LabelTree.Canonical, Category.Admits, LabelTree.IsOperation]
  | group _ ih => exact ⟨ih.1, by simp [Category.Admits, LabelTree.IsOperation]⟩
  | operand level _ ih => exact ⟨ih.1, ih.2.whole⟩
  | @operation o left right _ _ ihl ihr =>
    refine ⟨LabelTree.canonical_binary_iff.mpr ⟨ihl.1, ihr.1, ihl.2, ihr.2⟩, ?_⟩
    cases h : o.level <;> simp [Level.whole, Category.Admits, LabelTree.IsOperation, h]

/-- What fits the tightest place fits every place. -/
theorem Fits.of_factor {t : LabelTree} (h : Fits .factor t) : (c : Category) → Fits c t
  | .factor => h
  | .product => .operand .product h
  | .sum => .operand .sum (.operand .product h)

theorem LabelTree.Canonical.fits :
    (t : LabelTree) → t.Canonical → (c : Category) → c.Admits t → Fits c t
  | .atom a, _, c, _ => (Fits.atom a).of_factor c
  | .group inner, h, c, _ => (Fits.group (fits inner h .sum trivial)).of_factor c
  | .binary o left right, h, c, hc => by
    obtain ⟨hl, hr, hal, har⟩ := canonical_binary_iff.mp h
    have hfits : Fits o.level.whole (.binary o left right) :=
      .operation (fits left hl _ hal) (fits right hr _ har)
    cases ho : o.level with
    | sum =>
      rw [ho] at hfits
      cases c with
      | sum => exact hfits
      | product => exact absurd ho hc
      | factor => exact absurd ho (hc .sum)
    | product =>
      rw [ho] at hfits
      cases c with
      | sum => exact .operand .sum hfits
      | product => exact hfits
      | factor => exact absurd ho (hc .product)

/-- A canonical tree fits a place unless its root is an operation that binds too loosely. -/
theorem fits_iff {c : Category} {t : LabelTree} : Fits c t ↔ t.Canonical ∧ c.Admits t :=
  ⟨Fits.canonical, fun h => h.1.fits t c h.2⟩

theorem fits_sum_iff {t : LabelTree} : Fits .sum t ↔ t.Canonical :=
  fits_iff.trans (and_iff_left trivial)

/-! ### Open groups -/

/-- The excess of opening over closing parentheses. -/
def openGroups (ts : List Token) : Int :=
  ts.count .leftParen - ts.count .rightParen

theorem openGroups_append (ts us : List Token) :
    openGroups (ts ++ us) = openGroups ts + openGroups us := by
  simp only [openGroups, List.count_append]
  omega

theorem openGroups_cons (a : Token) (ts : List Token) :
    openGroups (a :: ts) = openGroups [a] + openGroups ts :=
  openGroups_append [a] ts

theorem openGroups_atom (a : Atom) : openGroups [a.token] = 0 := by
  cases a <;> simp [openGroups, Atom.token]

theorem openGroups_op (o : Operator) : openGroups [.op o] = 0 := by
  simp [openGroups]

theorem openGroups_leftParen : openGroups [.leftParen] = 1 :=
  rfl

theorem openGroups_rightParen : openGroups [.rightParen] = -1 :=
  rfl

/-- A prefix of two lists in a row ends in the first one or comprises it. -/
theorem prefix_left_or_beyond {α : Type} {p l r : List α} (h : p <+: l ++ r) :
    p <+: l ∨ ∃ q, q <+: r ∧ p = l ++ q := by
  obtain ⟨rest, h⟩ := h
  rcases List.append_eq_append_iff.mp h with ⟨q, rfl, -⟩ | ⟨q, rfl, rfl⟩
  · exact .inl (List.prefix_append p q)
  · exact .inr ⟨q, List.prefix_append q rest, rfl⟩

namespace LabelTree

/-- A tree closes all groups that it opens. -/
theorem openGroups_tokens : (t : LabelTree) → openGroups t.tokens = 0
  | atom a => openGroups_atom a
  | group inner => by
    rw [tokens, openGroups_append, openGroups_cons, openGroups_tokens inner, openGroups_leftParen,
      openGroups_rightParen]
    rfl
  | binary o left right => by
    rw [tokens, openGroups_append, openGroups_cons, openGroups_tokens left,
      openGroups_tokens right, openGroups_op]
    rfl

/-- A prefix of the tokens of a tree has no more groups open than the tree has inside one
another. -/
theorem openGroups_le_nesting :
    (t : LabelTree) → (p : List Token) → p <+: t.tokens → openGroups p ≤ t.nesting
  | atom a, p, h => by
    rcases List.prefix_cons_iff.mp h with rfl | ⟨q, rfl, hq⟩
    · simp [openGroups, nesting]
    · rw [List.prefix_nil.mp hq, openGroups_atom]
      simp [nesting]
  | group inner, p, h => by
    rw [tokens, List.cons_append] at h
    rcases List.prefix_cons_iff.mp h with rfl | ⟨q, rfl, hq⟩
    · simp only [openGroups, List.count_nil, nesting]
      omega
    · rw [openGroups_cons, openGroups_leftParen, nesting]
      rcases prefix_left_or_beyond hq with hq | ⟨q', hq', rfl⟩
      · have := openGroups_le_nesting inner q hq
        omega
      · rw [openGroups_append, openGroups_tokens]
        rcases List.prefix_cons_iff.mp hq' with rfl | ⟨q'', rfl, hq''⟩
        · simp only [openGroups, List.count_nil]
          omega
        · rw [List.prefix_nil.mp hq'', openGroups_rightParen]
          omega
  | binary o left right, p, h => by
    rw [tokens] at h
    rw [nesting]
    rcases prefix_left_or_beyond h with h | ⟨q, hq, rfl⟩
    · have := openGroups_le_nesting left p h
      omega
    · rw [openGroups_append, openGroups_tokens]
      rcases List.prefix_cons_iff.mp hq with rfl | ⟨q', rfl, hq'⟩
      · simp only [openGroups, List.count_nil]
        omega
      · have := openGroups_le_nesting right q' hq'
        rw [openGroups_cons, openGroups_op]
        omega

/-- Some prefix of the tokens of a tree has as many groups open as the tree has inside one
another. -/
theorem exists_prefix_openGroups_eq :
    (t : LabelTree) → ∃ p, p <+: t.tokens ∧ openGroups p = t.nesting
  | atom a => ⟨[], List.nil_prefix, rfl⟩
  | group inner => by
    obtain ⟨p, hp, hopen⟩ := exists_prefix_openGroups_eq inner
    refine ⟨.leftParen :: p, ?_, ?_⟩
    · rw [tokens, List.cons_append, List.prefix_cons_inj]
      exact hp.trans (List.prefix_append _ _)
    · rw [openGroups_cons, openGroups_leftParen, hopen, nesting]
      omega
  | binary o left right => by
    obtain ⟨p, hp, hpopen⟩ := exists_prefix_openGroups_eq left
    obtain ⟨q, hq, hqopen⟩ := exists_prefix_openGroups_eq right
    rw [tokens, nesting]
    rcases Nat.le_total left.nesting right.nesting with hle | hle
    · refine ⟨left.tokens ++ .op o :: q, ?_, ?_⟩
      · rwa [List.prefix_append_right_inj, List.prefix_cons_inj]
      · rw [openGroups_append, openGroups_cons, openGroups_tokens, openGroups_op, hqopen]
        omega
    · exact ⟨p, hp.trans (List.prefix_append _ _), by omega⟩

/-- The nesting of a tree is the greatest number of open groups in a prefix of its tokens. -/
theorem nesting_le_iff {t : LabelTree} {n : Nat} :
    t.nesting ≤ n ↔ ∀ p, p <+: t.tokens → openGroups p ≤ n := by
  constructor
  · intro h p hp
    exact Int.le_trans (t.openGroups_le_nesting p hp) (Int.ofNat_le.mpr h)
  · intro h
    obtain ⟨p, hp, hopen⟩ := t.exists_prefix_openGroups_eq
    exact Int.ofNat_le.mp (hopen ▸ h p hp)

end LabelTree

end AttrCalc
