import AttrCalc.Proofs.Expr.LabelTree
import AttrCalc.Proofs.Grammar.Derivation
import AttrCalc.Rule

/-!
# Derivation trees of arithmetic expressions

A label tree that fits a place has a derivation tree there: a node for each of its own nodes, and
above an operand the unit productions that lead down to it.  There are no others: a derivation tree
over the kinds of some tokens belongs to a label tree that is written with these tokens.

## Main definitions

* `Token.kind`, `Category.symbol` : the terminal of a token, and the nonterminal of a place.
* `LabelTree.derivation` : the derivation tree of a label tree at a place.
* `LabelTree.skeleton` : the productions of the nodes of a label tree.

## Main results

* `Fits.isTreeOf_derivation` : the derivation tree of a label tree derives what is written.
* `isDerivation_of_valid` : a derivation tree over tokens is one of a label tree.
* `LabelTree.contract_derivation` : without unit productions, only the skeleton is left.
* `derives_kind_iff` : the grammar derives what is written for canonical label trees.
-/

namespace AttrCalc

open DerivationTree

/-! ### Terminals and nonterminals -/

/-- The terminal that stands for a token. -/
def Token.kind : Token → Symbol
  | op o => String.singleton o.symbol
  | leftParen => "("
  | rightParen => ")"
  | num _ => "num"
  | ident _ => "id"

/-- The nonterminal of a place. -/
def Category.symbol : Category → Symbol
  | sum => "E"
  | product => "T"
  | factor => "F"

/-- The rule of a leaf. -/
def Atom.rule : Atom → Rule
  | num _ => .num
  | ident _ => .ident

theorem Token.not_isNonterminal_kind : (a : Token) → ¬ arithmetic.isNonterminal a.kind
  | op o => by cases o <;> decide
  | leftParen => by decide
  | rightParen => by decide
  | num _ => by rw [kind]; decide
  | ident _ => by rw [kind]; decide

theorem Category.isNonterminal_symbol (c : Category) : arithmetic.isNonterminal c.symbol := by
  cases c <;> decide

theorem Category.symbol_injective {c c' : Category} (h : c.symbol = c'.symbol) : c = c' := by
  cases c <;> cases c' <;> simp_all [symbol]

theorem Token.kind_eq_op_iff {a : Token} {o : Operator} :
    a.kind = String.singleton o.symbol ↔ a = .op o := by
  rcases a with o' | _ | _ | _ | _
  · cases o' <;> cases o <;> simp [kind, Operator.symbol]
  all_goals cases o <;> simp [kind, Operator.symbol]

theorem Token.kind_eq_leftParen_iff {a : Token} : a.kind = "(" ↔ a = .leftParen := by
  rcases a with (_ | _ | _ | _) | _ | _ | _ | _ <;> simp [kind, Operator.symbol]

theorem Token.kind_eq_rightParen_iff {a : Token} : a.kind = ")" ↔ a = .rightParen := by
  rcases a with (_ | _ | _ | _) | _ | _ | _ | _ <;> simp [kind, Operator.symbol]

theorem Token.kind_eq_num_iff {a : Token} : a.kind = "num" ↔ ∃ text, a = .num text := by
  rcases a with (_ | _ | _ | _) | _ | _ | _ | _ <;> simp [kind, Operator.symbol]

theorem Token.kind_eq_ident_iff {a : Token} : a.kind = "id" ↔ ∃ name, a = .ident name := by
  rcases a with (_ | _ | _ | _) | _ | _ | _ | _ <;> simp [kind, Operator.symbol]

/-! ### Productions -/

theorem Operator.production_rule (o : Operator) :
    o.rule.production = ⟨o.level.whole.symbol, o.level.whole.symbol,
      [String.singleton o.symbol, o.level.operand.symbol]⟩ := by
  cases o <;> rfl

theorem Level.production_rule (level : Level) :
    level.rule.production = ⟨level.whole.symbol, level.operand.symbol, []⟩ := by
  cases level <;> rfl

theorem Atom.production_rule (a : Atom) : a.rule.production = ⟨"F", a.token.kind, []⟩ := by
  cases a <;> rfl

theorem Rule.production_mem (r : Rule) : r.production ∈ arithmetic.productions := by
  rw [← map_production_eq]
  exact List.mem_map_of_mem (by cases r <;> decide)

theorem exists_rule_of_mem {p : Production} (hp : p ∈ arithmetic.productions) :
    ∃ r : Rule, r.production = p := by
  rw [← Rule.map_production_eq] at hp
  obtain ⟨r, -, h⟩ := List.mem_map.mp hp
  exact ⟨r, h⟩

/-- No body of the grammar holds `ε`. -/
theorem Rule.expansion_production (r : Rule) : r.production.expansion = r.production.body := by
  cases r <;> decide

/-! ### The derivation tree of a label tree -/

/-- The tree `d` for the place `own` with the unit productions above it that lead there from the
place `c`. -/
def Category.above (c own : Category) (d : DerivationTree) : DerivationTree :=
  match c, own with
  | sum, product => .node Rule.ofTerm.production [d]
  | sum, factor => .node Rule.ofTerm.production [.node Rule.ofFactor.production [d]]
  | product, factor => .node Rule.ofFactor.production [d]
  | _, _ => d

namespace LabelTree

/-- The derivation tree of a label tree at a place. -/
def derivation : LabelTree → Category → DerivationTree
  | atom a, c => c.above .factor (.node a.rule.production [.leaf a.token.kind])
  | group inner, c => c.above .factor
      (.node Rule.group.production [.leaf "(", inner.derivation .sum, .leaf ")"])
  | binary o left right, c => c.above o.level.whole
      (.node o.rule.production [left.derivation o.level.whole,
        .leaf (String.singleton o.symbol), right.derivation o.level.operand])

/-- The productions of the nodes of a label tree. -/
def skeleton : LabelTree → DerivationTree
  | atom a => .node a.rule.production [.leaf a.token.kind]
  | group inner => .node Rule.group.production [.leaf "(", inner.skeleton, .leaf ")"]
  | binary o left right => .node o.rule.production
      [left.skeleton, .leaf (String.singleton o.symbol), right.skeleton]

theorem derivation_binary (o : Operator) (left right : LabelTree) :
    (binary o left right).derivation o.level.whole =
      .node o.rule.production [left.derivation o.level.whole,
        .leaf (String.singleton o.symbol), right.derivation o.level.operand] := by
  cases h : o.level <;> simp [derivation, h, Level.whole, Category.above]

end LabelTree

/-- Above an operand stands the unit production of its level. -/
theorem Fits.derivation_whole {level : Level} {t : LabelTree} (h : Fits level.operand t) :
    t.derivation level.whole = .node level.rule.production [t.derivation level.operand] := by
  cases t with
  | atom | group => cases level <;> rfl
  | binary o left right =>
    have hadmits := h.canonical.2
    cases level with
    | sum =>
      have ho : o.level = .product := by
        cases ho : o.level with
        | sum => exact absurd ho hadmits
        | product => rfl
      simp [LabelTree.derivation, ho, Level.whole, Level.operand, Level.rule, Category.above]
    | product => exact absurd rfl (hadmits o.level)

/-! ### The derivation tree derives what is written -/

theorem isTreeOf_kind (a : Token) : (leaf a.kind).IsTreeOf arithmetic a.kind [a.kind] :=
  isTreeOf_leaf a.not_isNonterminal_kind

/-- A node over trees for the symbols of its body. -/
theorem isTreeOf_production {r : Rule} {a b : Symbol} {bs : List Symbol}
    (hr : r.production = ⟨a, b, bs⟩) {ts : List DerivationTree} {w : List Symbol}
    (h : IsForestOf ts arithmetic (b :: bs) w) :
    (node r.production ts).IsTreeOf arithmetic a w := by
  have hexpansion : r.production.expansion = b :: bs := by
    rw [r.expansion_production, hr, Production.body]
  have hlhs : r.production.lhs = a := by rw [hr]
  rw [← hexpansion] at h
  exact hlhs ▸ h.node r.production_mem

/-- The derivation tree of a label tree derives what is written. -/
theorem Fits.isTreeOf_derivation {c : Category} {t : LabelTree} (h : Fits c t) :
    (t.derivation c).IsTreeOf arithmetic c.symbol (t.tokens.map Token.kind) := by
  induction h with
  | atom a =>
    exact isTreeOf_production a.production_rule ((isTreeOf_kind a.token).cons isForestOf_nil)
  | @group inner _ ih =>
    rw [LabelTree.tokens, List.map_append, List.map_cons]
    exact isTreeOf_production (r := .group) rfl ((isTreeOf_kind .leftParen).cons (ih.cons
      ((isTreeOf_kind .rightParen).cons isForestOf_nil)))
  | operand level h ih =>
    rw [h.derivation_whole, ← List.append_nil (List.map _ _)]
    exact isTreeOf_production level.production_rule (ih.cons isForestOf_nil)
  | @operation o left right _ _ ihl ihr =>
    rw [LabelTree.derivation_binary, LabelTree.tokens, List.map_append, List.map_cons,
      ← List.append_nil (List.map _ right.tokens)]
    exact isTreeOf_production o.production_rule
      (ihl.cons ((isTreeOf_kind (.op o)).cons (ihr.cons isForestOf_nil)))

/-! ### There are no other derivation trees -/

theorem Rule.cases (r : Rule) : (∃ o : Operator, r = o.rule) ∨ (∃ level : Level, r = level.rule) ∨
    r = .group ∨ r = .num ∨ r = .ident := by
  cases r with
  | add => exact .inl ⟨.add, rfl⟩
  | sub => exact .inl ⟨.sub, rfl⟩
  | mul => exact .inl ⟨.mul, rfl⟩
  | div => exact .inl ⟨.div, rfl⟩
  | ofTerm => exact .inr (.inl ⟨.sum, rfl⟩)
  | ofFactor => exact .inr (.inl ⟨.product, rfl⟩)
  | group => exact .inr (.inr (.inl rfl))
  | num => exact .inr (.inr (.inr (.inl rfl)))
  | ident => exact .inr (.inr (.inr (.inr rfl)))

/-- The tree is the derivation tree of a label tree, whatever tokens its yield stands for. -/
def IsDerivation (d : DerivationTree) : Prop :=
  ∀ {c : Category} {ts : List Token}, d.IsTreeOf arithmetic c.symbol (ts.map Token.kind) →
    ∃ t, Fits c t ∧ t.tokens = ts ∧ t.derivation c = d

theorem exists_fits_of_operation {o : Operator} {us : List DerivationTree}
    (hus : ∀ u ∈ us, IsDerivation u) {ts : List Token}
    (h : IsForestOf us arithmetic o.rule.production.body (ts.map Token.kind)) :
    ∃ t, Fits o.level.whole t ∧ t.tokens = ts ∧
      t.derivation o.level.whole = .node o.rule.production us := by
  have hbody : o.rule.production.body = [o.level.whole.symbol, (Token.op o).kind,
      o.level.operand.symbol] := by rw [o.production_rule]; rfl
  rw [hbody] at h
  obtain ⟨d₁, us', w₁, w', rfl, hw, h₁, h'⟩ := isForestOf_cons_iff.mp h
  obtain ⟨us'', w₂, rfl, rfl, h''⟩ :=
    (isForestOf_cons_terminal_iff (Token.not_isNonterminal_kind _)).mp h'
  obtain ⟨d₂, rfl, h₂⟩ := isForestOf_singleton_iff.mp h''
  obtain ⟨ts₁, ts', rfl, rfl, hts'⟩ := List.map_eq_append_iff.mp hw
  obtain ⟨a, ts₂, rfl, ha, rfl⟩ := List.map_eq_cons_iff.mp hts'
  obtain rfl := Token.kind_eq_op_iff.mp ha
  obtain ⟨left, hleft, rfl, rfl⟩ := hus _ (by simp) h₁
  obtain ⟨right, hright, rfl, rfl⟩ := hus _ (by simp) h₂
  exact ⟨.binary o left right, .operation hleft hright, rfl,
    LabelTree.derivation_binary o left right⟩

theorem exists_fits_of_operand {level : Level} {us : List DerivationTree}
    (hus : ∀ u ∈ us, IsDerivation u) {ts : List Token}
    (h : IsForestOf us arithmetic level.rule.production.body (ts.map Token.kind)) :
    ∃ t, Fits level.whole t ∧ t.tokens = ts ∧
      t.derivation level.whole = .node level.rule.production us := by
  have hbody : level.rule.production.body = [level.operand.symbol] := by
    rw [level.production_rule]; rfl
  rw [hbody] at h
  obtain ⟨d, rfl, hd⟩ := isForestOf_singleton_iff.mp h
  obtain ⟨t, ht, rfl, rfl⟩ := hus d (by simp) hd
  exact ⟨t, .operand level ht, rfl, ht.derivation_whole⟩

theorem exists_fits_of_group {us : List DerivationTree} (hus : ∀ u ∈ us, IsDerivation u)
    {ts : List Token}
    (h : IsForestOf us arithmetic Rule.group.production.body (ts.map Token.kind)) :
    ∃ t, Fits .factor t ∧ t.tokens = ts ∧
      t.derivation .factor = .node Rule.group.production us := by
  have hbody : Rule.group.production.body = [Token.leftParen.kind, Category.sum.symbol,
      Token.rightParen.kind] := rfl
  rw [hbody] at h
  obtain ⟨us', w', rfl, hw, h'⟩ :=
    (isForestOf_cons_terminal_iff (Token.not_isNonterminal_kind _)).mp h
  obtain ⟨d, us'', w₁, w'', rfl, rfl, h₁, h''⟩ := isForestOf_cons_iff.mp h'
  obtain ⟨us₂, w₂, rfl, rfl, h₂⟩ :=
    (isForestOf_cons_terminal_iff (Token.not_isNonterminal_kind _)).mp h''
  obtain ⟨rfl, rfl⟩ := isForestOf_nil_iff.mp h₂
  obtain ⟨a, ts', rfl, ha, hts'⟩ := List.map_eq_cons_iff.mp hw
  obtain ⟨ts₁, ts₂, rfl, rfl, hts₂⟩ := List.map_eq_append_iff.mp hts'
  obtain ⟨b, rfl, hb⟩ := List.map_eq_singleton_iff.mp hts₂
  obtain rfl := Token.kind_eq_leftParen_iff.mp ha
  obtain rfl := Token.kind_eq_rightParen_iff.mp hb
  obtain ⟨inner, hinner, rfl, rfl⟩ := hus d (by simp) h₁
  exact ⟨.group inner, .group hinner, rfl, rfl⟩

theorem exists_fits_of_atom {k : Symbol} (hk : ¬ arithmetic.isNonterminal k)
    {us : List DerivationTree} {ts : List Token}
    (h : IsForestOf us arithmetic [k] (ts.map Token.kind)) :
    us = [leaf k] ∧ ∃ a, ts = [a] ∧ a.kind = k := by
  obtain ⟨us', w', rfl, hw, h'⟩ := (isForestOf_cons_terminal_iff hk).mp h
  obtain ⟨rfl, rfl⟩ := isForestOf_nil_iff.mp h'
  exact ⟨rfl, List.map_eq_singleton_iff.mp hw⟩

/-- Every derivation tree over tokens is the derivation tree of a label tree that is written with
them. -/
theorem isDerivation_of_valid {d : DerivationTree} (h : d.Valid arithmetic) : IsDerivation d := by
  induction h with
  | leaf hs =>
    rintro c ts ⟨-, rfl, -⟩
    exact absurd c.isNonterminal_symbol hs
  | @node p us hp hroots hvalid ih =>
    rintro c ts ⟨-, hlhs, hyield⟩
    obtain ⟨r, rfl⟩ := exists_rule_of_mem hp
    have hforest : IsForestOf us arithmetic r.production.body (ts.map Token.kind) :=
      ⟨hvalid, hroots.trans r.expansion_production, by rw [← hyield, yield]⟩
    rcases r.cases with ⟨o, rfl⟩ | ⟨level, rfl⟩ | rfl | rfl | rfl
    · obtain rfl : o.level.whole = c :=
        Category.symbol_injective (by rw [← hlhs, root, o.production_rule])
      exact exists_fits_of_operation ih hforest
    · obtain rfl : level.whole = c :=
        Category.symbol_injective (by rw [← hlhs, root, level.production_rule])
      exact exists_fits_of_operand ih hforest
    · obtain rfl : Category.factor = c := Category.symbol_injective hlhs
      exact exists_fits_of_group ih hforest
    · obtain rfl : Category.factor = c := Category.symbol_injective hlhs
      obtain ⟨rfl, a, rfl, ha⟩ := exists_fits_of_atom (by decide) hforest
      obtain ⟨text, rfl⟩ := Token.kind_eq_num_iff.mp ha
      exact ⟨.atom (.num text), .atom _, rfl, rfl⟩
    · obtain rfl : Category.factor = c := Category.symbol_injective hlhs
      obtain ⟨rfl, a, rfl, ha⟩ := exists_fits_of_atom (by decide) hforest
      obtain ⟨name, rfl⟩ := Token.kind_eq_ident_iff.mp ha
      exact ⟨.atom (.ident name), .atom _, rfl, rfl⟩

/-- The grammar derives what is written for canonical label trees. -/
theorem derives_kind_iff {c : Category} {ts : List Token} :
    arithmetic.Derives [c.symbol] (ts.map Token.kind) ↔ ∃ t, Fits c t ∧ t.tokens = ts := by
  have hterminal : ∀ s ∈ ts.map Token.kind, ¬ arithmetic.isNonterminal s := by
    intro s hs
    obtain ⟨a, -, rfl⟩ := List.mem_map.mp hs
    exact a.not_isNonterminal_kind
  rw [Grammar.derives_iff_exists_tree hterminal]
  constructor
  · rintro ⟨d, hd⟩
    obtain ⟨t, ht, htokens, -⟩ := isDerivation_of_valid hd.valid hd
    exact ⟨t, ht, htokens⟩
  · rintro ⟨t, ht, rfl⟩
    exact ⟨t.derivation c, ht.isTreeOf_derivation⟩

/-! ### Without unit productions -/

/-- A unit production leaves no node. -/
theorem Level.contract_node (level : Level) (d : DerivationTree) :
    (node level.rule.production [d]).contract arithmetic = d.contract arithmetic := by
  have hhead : arithmetic.isNonterminal level.rule.production.head := by
    rw [level.production_rule]
    exact level.operand.isNonterminal_symbol
  rw [contract, List.map_singleton, contractNode, if_pos hhead]

theorem Atom.contract_node (a : Atom) :
    (node a.rule.production [leaf a.token.kind]).contract arithmetic =
      node a.rule.production [leaf a.token.kind] := by
  have hhead : ¬ arithmetic.isNonterminal a.rule.production.head := by
    rw [a.production_rule]
    exact a.token.not_isNonterminal_kind
  rw [contract, List.map_singleton, contractNode, if_neg hhead, contract]

/-- A production with a body of three symbols leaves its node. -/
theorem contract_node_three (p : Production) (d₁ d₂ d₃ : DerivationTree) :
    (node p [d₁, d₂, d₃]).contract arithmetic =
      node p [d₁.contract arithmetic, d₂.contract arithmetic, d₃.contract arithmetic] := by
  rw [contract]
  rfl

namespace LabelTree

theorem contract_above (c own : Category) (d : DerivationTree) :
    (c.above own d).contract arithmetic = d.contract arithmetic := by
  have hterm (d : DerivationTree) :
      (node Rule.ofTerm.production [d]).contract arithmetic = d.contract arithmetic :=
    Level.sum.contract_node d
  have hfactor (d : DerivationTree) :
      (node Rule.ofFactor.production [d]).contract arithmetic = d.contract arithmetic :=
    Level.product.contract_node d
  cases c <;> cases own <;> simp only [Category.above, hterm, hfactor]

/-- Without unit productions, only the skeleton of a derivation tree is left. -/
theorem contract_derivation :
    (t : LabelTree) → (c : Category) → (t.derivation c).contract arithmetic = t.skeleton
  | atom a, c => by rw [derivation, contract_above, a.contract_node, skeleton]
  | group inner, c => by
    rw [derivation, contract_above, contract_node_three, contract_derivation inner, skeleton,
      contract, contract]
  | binary o left right, c => by
    rw [derivation, contract_above, contract_node_three, contract_derivation left,
      contract_derivation right, skeleton, contract]

end LabelTree

end AttrCalc
