import AttrCalc.Proofs.Eval.Numbering
import AttrCalc.Proofs.Eval.RoundTrip
import AttrCalc.Proofs.Eval.Trace

/-!
# The two division policies

An evaluation that refuses to divide by zero is one under IEEE division that is stopped early: at
each division it looks at the divisor before it goes on.  As long as no divisor is zero, both
evaluations are in the same state.  The first one that is zero is the one whose division is built
first, and the identifiers of the nodes tell which one this is.

## Main definitions

* `Expr.operations` : the operations of an expression, each with the index of its operator.
* `Expr.IsFirstZeroDivision` : of the divisions by zero, the one with the smallest identifier.
* `Eval.Checked` : how the answers of a parser under the two policies differ.

## Main results

* `Eval.Reads.upToZero` : what can be read under IEEE division, is read up to its first division by
  zero.
* `Eval.checked_run` : the answers of the parsers differ at most by a division by zero.
* `evaluate_fail_of_ieee` : the evaluations of all lexemes under the two policies.
-/

namespace AttrCalc

open Eval

/-! ### Divisions by zero -/

namespace Expr

/-- The root is a division by zero, of either sign. -/
def dividesByZero : Expr → Bool
  | binary _ .div _ _ right => right.value == 0
  | _ => false

/-- The operations in post-order, each with the index of its operator among the tokens of the
expression, of which the first one has the index `start`. -/
def operations (start : Nat) : Expr → List (Expr × Nat)
  | atom .. => []
  | group _ _ inner => inner.operations (start + 1)
  | binary id o value left right =>
    let index := start + left.labels.tokens.length
    left.operations start ++ right.operations (index + 1) ++
      [(binary id o value left right, index)]

/-- The operations that are divisions by zero, in post-order. -/
def zeroDivisions (start : Nat) (e : Expr) : List (Expr × Nat) :=
  (e.operations start).filter (·.1.dividesByZero)

/-- Of the operations that are divisions by zero, the one with the smallest identifier. -/
def IsFirstZeroDivision (e : Expr) (d : Expr × Nat) : Prop :=
  d ∈ e.operations 0 ∧ d.1.dividesByZero ∧
    ∀ d' ∈ e.operations 0, d'.1.dividesByZero → d' = d ∨ d.1.id < d'.1.id

theorem zeroDivisions_group (start id : Nat) (tag : TypeTag) (inner : Expr) :
    (group id tag inner).zeroDivisions start = inner.zeroDivisions (start + 1) :=
  rfl

theorem zeroDivisions_binary (start id : Nat) (o : Operator) (value : Float) (left right : Expr) :
    (binary id o value left right).zeroDivisions start =
      left.zeroDivisions start ++
        (right.zeroDivisions (start + left.labels.tokens.length + 1) ++
          if (binary id o value left right).dividesByZero then
            [(binary id o value left right, start + left.labels.tokens.length)]
          else []) := by
  simp [zeroDivisions, operations, List.filter_append, List.filter_cons]

theorem operations_sublist_postorder :
    (e : Expr) → (start : Nat) → ((e.operations start).map (·.1)).Sublist e.postorder
  | atom .., _ => List.nil_sublist _
  | group _ _ inner, start =>
    (operations_sublist_postorder inner (start + 1)).trans (List.sublist_append_left ..)
  | binary _ _ _ left right, start => by
    rw [operations, postorder, List.map_append, List.map_append]
    exact ((operations_sublist_postorder left start).append
      (operations_sublist_postorder right _)).append (List.Sublist.refl _)

/-- If nodes are numbered in post-order, the first division by zero is the first one listed. -/
theorem isFirstZeroDivision_head {e : Expr}
    (hids : e.postorder.Pairwise fun e₁ e₂ => e₁.id < e₂.id) {d : Expr × Nat}
    {ds : List (Expr × Nat)} (h : e.zeroDivisions 0 = d :: ds) : e.IsFirstZeroDivision d := by
  have hlisted : ∀ d', d' ∈ e.operations 0 ∧ d'.1.dividesByZero ↔ d' ∈ d :: ds := by
    intro d'
    rw [← h, zeroDivisions, List.mem_filter]
  have hsorted : (d :: ds).Pairwise fun d₁ d₂ => d₁.1.id < d₂.1.id := by
    rw [← h]
    exact (List.pairwise_map.mp (hids.sublist (operations_sublist_postorder e 0))).filter _
  obtain ⟨hd, hzero⟩ := (hlisted d).mpr List.mem_cons_self
  refine ⟨hd, hzero, fun d' hd' hzero' => ?_⟩
  rcases List.mem_cons.mp ((hlisted d').mp ⟨hd', hzero'⟩) with rfl | hmem
  · exact .inl rfl
  · exact .inr (List.rel_of_pairwise_cons hsorted hmem)

end Expr

theorem DivisionPolicy.apply?_fail (o : Operator) (id : Nat) (value : Float) (left right : Expr) :
    DivisionPolicy.fail.apply? o left.value right.value =
      if (Expr.binary id o value left right).dividesByZero then none
      else DivisionPolicy.ieee.apply? o left.value right.value := by
  cases o <;> simp [Expr.dividesByZero, DivisionPolicy.apply?]

/-- Only a division divides by zero. -/
theorem Expr.eq_div_of_dividesByZero {id : Nat} {o : Operator} {value : Float} {left right : Expr}
    (h : (Expr.binary id o value left right).dividesByZero) : o = .div := by
  cases o <;> simp_all [Expr.dividesByZero]

namespace Eval

variable {table : SymbolTable} {tokens ls rest : List Lexeme} {room : Nat} {c : Category}
  {s s' : State} {e : Expr} {l : Lexeme}

/-! ### Where the first division by zero stops an evaluation -/

/-- The lexemes behind some that are read. -/
theorem drop_of_reads {env : Env} {start : Nat} (h : Reads env room c s e s')
    (hs : tokens.drop start = s.rest) :
    tokens.drop (start + e.labels.tokens.length) = s'.rest := by
  obtain ⟨ls, hrest, htokens⟩ := h.exists_lexemes
  rw [← List.drop_drop, hs, hrest, ← htokens, List.length_map, List.drop_left]

theorem getElem?_of_drop {start : Nat} (h : tokens.drop start = l :: rest) :
    tokens[start]? = some l ∧ tokens.drop (start + 1) = rest := by
  have hget : tokens[start]? = (tokens.drop start)[0]? := by rw [List.getElem?_drop, Nat.add_zero]
  rw [hget, ← List.drop_drop, h]
  exact ⟨rfl, rfl⟩

/-- The parser for a place, which refuses to divide by zero, stops at the division `d`. -/
def StopsAt (table : SymbolTable) (tokens : List Lexeme) (room : Nat) (c : Category) (s : State)
    (d : Expr × Nat) : Prop :=
  ∃ offset s', tokens[d.2]? = some ⟨.op .div, offset⟩ ∧
    (c.parser ⟨table, .fail⟩ room).run s = (.error (.divisionByZero offset), s')

namespace StopsAt

variable {d : Expr × Nat} {s₁ s₂ : State} {left right : Expr} {o : Operator} {offset : Nat}

theorem group (hs : s.rest = ⟨.leftParen, offset⟩ :: rest)
    (h : StopsAt table tokens room .sum (s.read rest .group) d) :
    StopsAt table tokens (room + 1) .factor s d := by
  obtain ⟨offset', s', hindex, hrun⟩ := h
  have hfactor : (Category.factor.parser ⟨table, .fail⟩ (room + 1)).run s =
      Parser.readFactor ⟨table, .fail⟩ (some (Category.sum.parser ⟨table, .fail⟩ room)) s := rfl
  refine ⟨offset', s', hindex, ?_⟩
  simp only [hfactor, Parser.readFactor, hs, hrun, Parser.closeGroup]

theorem operand (level : Level)
    (h : StopsAt table tokens room level.operand (s.fire level.rule) d) :
    StopsAt table tokens room level.whole s d := by
  obtain ⟨offset, s', hindex, hrun⟩ := h
  refine ⟨offset, s', hindex, ?_⟩
  rw [Level.parser_whole]
  exact run_chain_of_error hrun

/-- Behind a left operand, a chain stops where the next operand does. -/
theorem rightOperand (hl : Reads ⟨table, .fail⟩ room o.level.whole s left s₁)
    (hs₁ : s₁.rest = ⟨.op o, offset⟩ :: rest)
    (h : StopsAt table tokens room o.level.operand (s₁.read rest o.rule) d) :
    StopsAt table tokens room o.level.whole s d := by
  obtain ⟨offset', s', hindex, hrun⟩ := h
  refine ⟨offset', s', hindex, ?_⟩
  rw [runsTo_whole_iff.mp hl.runsTo (hs₁ ▸ Level.ends_operand o offset rest), extend_of_op hs₁]
  simp only [hrun]

/-- Behind both operands of a division by zero, a chain stops. -/
theorem division (hl : Reads ⟨table, .fail⟩ room .product s left s₁)
    (hs₁ : s₁.rest = ⟨.op .div, offset⟩ :: rest)
    (hr : Reads ⟨table, .fail⟩ room .factor (s₁.read rest .div) right s₂)
    (hvalue : DivisionPolicy.fail.apply? .div left.value right.value = none)
    (hindex : tokens[d.2]? = some ⟨.op .div, offset⟩) :
    StopsAt table tokens room .product s d := by
  refine ⟨offset, s₂, hindex, ?_⟩
  have hright : (factor ⟨table, .fail⟩ room).run (s₁.read rest Operator.div.rule) =
      (.ok right, s₂) := hr.runsTo
  have hchain : (product ⟨table, .fail⟩ room).run s = Parser.extend ⟨table, .fail⟩
      Operator.div.level (factor ⟨table, .fail⟩ room) left s₁ := hl.runsTo
  rw [Category.parser, hchain, extend_of_op hs₁]
  simp only [hright, hvalue]

end StopsAt

/-- From state `s`, where the lexemes from `start` on are left, the expression can be read although
division by zero is refused, if it divides nowhere by zero; else the first division by zero stops
the parser. -/
def ReadsUpToZero (table : SymbolTable) (tokens : List Lexeme) (start room : Nat) (c : Category)
    (s : State) (e : Expr) (s' : State) : Prop :=
  match e.zeroDivisions start with
  | [] => Reads ⟨table, .fail⟩ room c s e s'
  | d :: _ => StopsAt table tokens room c s d

theorem readsUpToZero_of_nil {start : Nat} (hnil : e.zeroDivisions start = []) :
    ReadsUpToZero table tokens start room c s e s' ↔ Reads ⟨table, .fail⟩ room c s e s' := by
  rw [ReadsUpToZero, hnil]

theorem readsUpToZero_of_cons {start : Nat} {d : Expr × Nat} {ds : List (Expr × Nat)}
    (hcons : e.zeroDivisions start = d :: ds) :
    ReadsUpToZero table tokens start room c s e s' ↔ StopsAt table tokens room c s d := by
  rw [ReadsUpToZero, hcons]

/-- An operation is read up to zero if its operands are: the first division by zero is in the left
one, or else in the right one, or else the operation itself. -/
theorem ReadsUpToZero.operation {start offset : Nat} {o : Operator} {left right : Expr}
    {s₁ s₂ : State} {value : Float}
    (hl : ReadsUpToZero table tokens start room o.level.whole s left s₁)
    (hs₁ : s₁.rest = ⟨.op o, offset⟩ :: rest)
    (hindex : tokens[start + left.labels.tokens.length]? = some ⟨.op o, offset⟩)
    (hr : ReadsUpToZero table tokens (start + left.labels.tokens.length + 1) room o.level.operand
      (s₁.read rest o.rule) right s₂)
    (hvalue : DivisionPolicy.ieee.apply? o left.value right.value = some value) :
    ReadsUpToZero table tokens start room o.level.whole s
      (.binary s₂.nextId o value left right) s₂.numbered := by
  have hlisted := Expr.zeroDivisions_binary start s₂.nextId o value left right
  cases hzl : left.zeroDivisions start with
  | cons d ds =>
    rw [readsUpToZero_of_cons hzl] at hl
    rw [hzl, List.cons_append] at hlisted
    exact (readsUpToZero_of_cons hlisted).mpr hl
  | nil =>
    rw [readsUpToZero_of_nil hzl] at hl
    rw [hzl, List.nil_append] at hlisted
    cases hzr : right.zeroDivisions (start + left.labels.tokens.length + 1) with
    | cons d ds =>
      rw [readsUpToZero_of_cons hzr] at hr
      rw [hzr, List.cons_append] at hlisted
      exact (readsUpToZero_of_cons hlisted).mpr (hr.rightOperand hl hs₁)
    | nil =>
      rw [readsUpToZero_of_nil hzr] at hr
      rw [hzr, List.nil_append] at hlisted
      have hfail := DivisionPolicy.apply?_fail o s₂.nextId value left right
      by_cases hzero : (Expr.binary s₂.nextId o value left right).dividesByZero
      · rw [if_pos hzero] at hlisted hfail
        obtain rfl := Expr.eq_div_of_dividesByZero hzero
        exact (readsUpToZero_of_cons hlisted).mpr (.division hl hs₁ hr hfail hindex)
      · rw [if_neg hzero] at hlisted hfail
        exact (readsUpToZero_of_nil hlisted).mpr (.operation hl hs₁ hr (hfail.trans hvalue))

/-- What can be read under IEEE division, is read up to its first division by zero when these are
refused. -/
theorem Reads.upToZero (h : Reads ⟨table, .ieee⟩ room c s e s') {start : Nat}
    (hs : tokens.drop start = s.rest) : ReadsUpToZero table tokens start room c s e s' := by
  induction h generalizing start with
  | ident hrest hentry => exact .ident hrest hentry
  | num hrest hvalue => exact .num hrest hvalue
  | @group room s s₁ inner offset offset' rest rest' hrest _ hs₁ ih =>
    rw [hrest] at hs
    have hinner := ih (getElem?_of_drop hs).2
    have hlisted := Expr.zeroDivisions_group start s₁.nextId (inner.tag?.getD .real) inner
    cases hz : inner.zeroDivisions (start + 1) with
    | nil =>
      rw [readsUpToZero_of_nil hz] at hinner
      exact (readsUpToZero_of_nil (hlisted.trans hz)).mpr (.group hrest hinner hs₁)
    | cons d ds =>
      rw [readsUpToZero_of_cons hz] at hinner
      exact (readsUpToZero_of_cons (hlisted.trans hz)).mpr (hinner.group hrest)
  | @operand room level s s' e _ ih =>
    have hoperand := ih hs
    cases hz : e.zeroDivisions start with
    | nil =>
      rw [readsUpToZero_of_nil hz] at hoperand ⊢
      exact .operand level hoperand
    | cons d ds =>
      rw [readsUpToZero_of_cons hz] at hoperand ⊢
      exact hoperand.operand level
  | @operation room s s₁ s₂ o left right offset rest value hl hrest _ hvalue ihl ihr =>
    have hdrop := drop_of_reads hl hs
    rw [hrest] at hdrop
    obtain ⟨hindex, hdrop'⟩ := getElem?_of_drop hdrop
    exact (ihl hs).operation hrest hindex (ihr hdrop') hvalue

/-! ### Answers that differ -/

/-- Goes on behind an expression that has been read. -/
def Reply.andThen (r : Reply) (k : Expr → State → Reply) : Reply :=
  match r with
  | (.ok e, s) => k e s
  | (.error err, s) => (.error err, s)

/-- Of the answers of a parser to some lexemes, the first one under IEEE division, the second one is
either the same or tells of a division by zero at a `/`; the first one tells of none. -/
def Checked (ls : List Lexeme) (r r' : Reply) : Prop :=
  (∀ offset, r.1 ≠ .error (.divisionByZero offset)) ∧
    (r' = r ∨ ∃ l ∈ ls, l.token = .op .div ∧ r'.1 = .error (.divisionByZero l.offset))

namespace Checked

variable {r r' : Reply} {err : EvalError} {ls' : List Lexeme}

theorem ok (ls : List Lexeme) (e : Expr) (s : State) : Checked ls (.ok e, s) (.ok e, s) :=
  ⟨by simp, .inl rfl⟩

theorem error (ls : List Lexeme) (s : State) (h : ∀ offset, err ≠ .divisionByZero offset) :
    Checked ls (.error err, s) (.error err, s) :=
  ⟨by simpa using h, .inl rfl⟩

theorem mono (h : Checked ls r r') (hls : ls ⊆ ls') : Checked ls' r r' := by
  obtain ⟨hne, heq | ⟨l, hl, hdiv, herr⟩⟩ := h
  · exact ⟨hne, .inl heq⟩
  · exact ⟨hne, .inr ⟨l, hls hl, hdiv, herr⟩⟩

/-- What goes on behind the same expression may check further divisors. -/
theorem andThen {k k' : Expr → State → Reply} (h : Checked ls r r')
    (hk : ∀ e s, r = (.ok e, s) → Checked ls (k e s) (k' e s)) :
    Checked ls (r.andThen k) (r'.andThen k') := by
  obtain ⟨r, s⟩ := r
  obtain ⟨hne, rfl | ⟨l, hl, hdiv, herr⟩⟩ := h
  · cases r with
    | ok e => exact hk e s rfl
    | error err => exact error ls s (by simpa using hne)
  · obtain ⟨r', s'⟩ := r'
    obtain rfl : r' = .error (.divisionByZero l.offset) := herr
    refine ⟨?_, .inr ⟨l, hl, hdiv, rfl⟩⟩
    cases r with
    | ok e => exact (hk e s rfl).1
    | error err => exact hne

end Checked

/-- The answers of the parser for a place under the two policies. -/
def PoliciesChecked (table : SymbolTable) (room : Nat) (c : Category) : Prop :=
  ∀ s, Checked s.rest ((c.parser ⟨table, .ieee⟩ room).run s) ((c.parser ⟨table, .fail⟩ room).run s)

/-- Where the next operand stops, a chain does. -/
theorem extend_eq_error {env : Env} {operand : Parser} {left : Expr} {o : Operator} {offset : Nat}
    {err : EvalError} (hs : s.rest = ⟨.op o, offset⟩ :: rest)
    (h : (operand.run (s.read rest o.rule)).1 = .error err) :
    (Parser.extend env o.level operand left s).1 = .error err := by
  rw [extend_of_op hs]
  split
  · next hr => simp [hr] at h
  · next hr => simpa [hr] using h

theorem checked_extend {level : Level} (hoperand : PoliciesChecked table room level.operand)
    (left : Expr) (s : State) :
    Checked s.rest
      (Parser.extend ⟨table, .ieee⟩ level (level.operand.parser ⟨table, .ieee⟩ room) left s)
      (Parser.extend ⟨table, .fail⟩ level (level.operand.parser ⟨table, .fail⟩ room) left s) := by
  fun_induction Parser.extend ⟨table, .ieee⟩ level (level.operand.parser ⟨table, .ieee⟩ room) left s
    with
  | case1 left s o offset rest hs ho right s₁ hr value hvalue ih =>
    subst ho
    have hmono : rest ⊆ s.rest := hs ▸ List.subset_cons_self _ _
    have hrecords := records_run ⟨table, .ieee⟩ room o.level.operand (s.read rest o.rule)
    rw [hr] at hrecords
    have hlater := ih.mono (List.Subset.trans hrecords.subset hmono)
    obtain ⟨-, heq | ⟨l, hl, hdiv, herr⟩⟩ := hoperand (s.read rest o.rule)
    · -- The operand is the same, so the policies part only at a zero divisor.
      have hfail := DivisionPolicy.apply?_fail o s₁.nextId value left right
      rw [extend_of_op hs, heq, hr]
      by_cases hzero : (Expr.binary s₁.nextId o value left right).dividesByZero
      · rw [if_pos hzero] at hfail
        obtain rfl := Expr.eq_div_of_dividesByZero hzero
        simp only [hfail]
        exact ⟨hlater.1, .inr ⟨_, hs ▸ List.mem_cons_self, rfl, rfl⟩⟩
      · rw [if_neg hzero, hvalue] at hfail
        simp only [hfail]
        exact hlater
    · exact ⟨hlater.1, .inr ⟨l, hmono hl, hdiv, extend_eq_error hs herr⟩⟩
  | case2 left s o offset rest hs ho right s₁ hr hvalue => simp at hvalue
  | case3 left s o offset rest hs ho e s₁ hr =>
    subst ho
    have hchecked := hoperand (s.read rest o.rule)
    rw [hr] at hchecked
    obtain ⟨hne, heq | ⟨l, hl, hdiv, herr⟩⟩ := hchecked
    · refine ⟨hne, .inl ?_⟩
      rw [extend_of_op hs, heq]
    · exact ⟨hne, .inr ⟨l, hs ▸ List.mem_cons_of_mem _ hl, hdiv, extend_eq_error hs herr⟩⟩
  | case4 left s o offset rest hs ho =>
    rw [extend_of_not_continues (by rw [hs]; exact ho)]
    exact .ok _ _ _
  | case5 left s hne =>
    rw [extend_of_not_continues (not_continues_of_ne hne)]
    exact .ok _ _ _

theorem run_chain_eq {env : Env} (level : Level) (operand : Parser) (s : State) :
    (Parser.chain env level operand).run s =
      (operand.run (s.fire level.rule)).andThen (Parser.extend env level operand) :=
  rfl

theorem policiesChecked_whole (level : Level)
    (hoperand : PoliciesChecked table room level.operand) :
    PoliciesChecked table room level.whole := by
  intro s
  have hrecords := records_run ⟨table, .ieee⟩ room level.operand (s.fire level.rule)
  rw [Level.parser_whole, Level.parser_whole, run_chain_eq, run_chain_eq]
  refine (hoperand (s.fire level.rule)).andThen fun left s₁ hr => ?_
  rw [hr] at hrecords
  exact (checked_extend hoperand left s₁).mono hrecords.subset

theorem checked_closeGroup {r r' : Reply} (offset : Nat) (h : Checked ls r r') :
    Checked ls (Parser.closeGroup offset r) (Parser.closeGroup offset r') := by
  have heq (r : Reply) : Parser.closeGroup offset r =
      r.andThen fun e s => Parser.closeGroup offset (.ok e, s) := by
    obtain ⟨_ | _, _⟩ := r <;> rfl
  rw [heq r, heq r']
  refine h.andThen fun e s _ => ?_
  unfold Parser.closeGroup
  dsimp only
  split
  · exact .ok _ _ _
  · exact .error _ _ (by simp)
  · exact .error _ _ (by simp)

theorem checked_readFactor {inner? inner?' : Option Parser}
    (hinner : Option.Rel (fun inner inner' : Parser =>
      ∀ s, Checked s.rest (inner.run s) (inner'.run s)) inner? inner?') (s : State) :
    Checked s.rest (Parser.readFactor ⟨table, .ieee⟩ inner? s)
      (Parser.readFactor ⟨table, .fail⟩ inner?' s) := by
  unfold Parser.readFactor
  split
  · exact .error _ _ (by simp)
  · next offset rest hs =>
    cases hinner with
    | none => exact .error _ _ (by simp)
    | some h =>
      exact (checked_closeGroup offset (h (s.read rest .group))).mono
        (hs ▸ List.subset_cons_self _ _)
  · next name offset rest hs =>
    dsimp only
    split
    · exact .ok _ _ _
    · next err hresolve =>
      obtain ⟨-, rfl⟩ := SymbolTable.resolve_eq_error_iff.mp hresolve
      exact .error _ _ (by simp)
  · next text offset rest hs =>
    dsimp only
    split
    · exact .ok _ _ _
    · exact .error _ _ (by simp)
  · exact .error _ _ (by simp)

/-- **What the policies have in common.** The answers of a parser under the two policies are the
same, unless a division by zero is refused. -/
theorem checked_run (table : SymbolTable) (room : Nat) (c : Category) :
    PoliciesChecked table room c := by
  induction room, c using parser_induction with
  | whole room level ih => exact policiesChecked_whole level ih
  | zero => exact checked_readFactor .none
  | succ room ih => exact checked_readFactor (.some ih)

theorem checked_parse (table : SymbolTable) (tokens : List Lexeme) :
    Checked tokens (parse ⟨table, .ieee⟩ tokens) (parse ⟨table, .fail⟩ tokens) := by
  have heq (division : DivisionPolicy) : parse ⟨table, division⟩ tokens =
      ((sum ⟨table, division⟩ maxDepth).run (.start tokens)).andThen fun e s =>
        s.rest.head?.elim (.ok e, s) fun l =>
          (.error (.trailingInput l.token.spelling l.offset), s) := by
    rcases hrun : (sum ⟨table, division⟩ maxDepth).run (.start tokens) with ⟨err | e, s⟩
    · simp [parse, hrun, Reply.andThen]
    · cases hs : s.rest <;> simp [parse, hrun, hs, Reply.andThen]
  rw [heq .ieee, heq .fail]
  refine Checked.andThen (checked_run table maxDepth .sum (.start tokens)) fun e s _ => ?_
  cases s.rest.head? with
  | none => exact .ok _ _ _
  | some l => exact .error _ _ (by simp)

/-- A division by zero is refused at a `/`. -/
theorem mem_of_divisionByZero {env : Env} {offset : Nat}
    (h : evaluate env tokens = .error (.divisionByZero offset)) : ⟨.op .div, offset⟩ ∈ tokens := by
  obtain ⟨table, division⟩ := env
  have hparse := evaluate_eq_error_iff.mp h
  obtain ⟨hne, hchecked⟩ := checked_parse table tokens
  cases division with
  | ieee => exact absurd hparse (hne offset)
  | fail =>
    rcases hchecked with heq | ⟨⟨token, offset'⟩, hl, rfl, herr⟩
    · exact absurd (heq ▸ hparse) (hne offset)
    · obtain rfl : offset = offset' := by simpa using hparse.symm.trans herr
      exact hl

end Eval

/-! ### Whole expressions -/

/-- **The division policies.** If an evaluation under IEEE division succeeds and divides nowhere by
zero, it is also what comes out when division by zero is refused; if it divides by zero, the first
such division is refused, at its `/`.  If it fails, which is never for a division by zero, it fails
in the same way when these are refused, or one of them is refused. -/
theorem evaluate_fail_of_ieee (table : SymbolTable) (tokens : List Lexeme) :
    match evaluate ⟨table, .ieee⟩ tokens with
    | .ok ev =>
      (∀ d ∈ ev.expr.operations 0, ¬ d.1.dividesByZero) ∧
          evaluate ⟨table, .fail⟩ tokens = .ok ev ∨
        ∃ d offset, ev.expr.IsFirstZeroDivision d ∧ tokens[d.2]? = some ⟨.op .div, offset⟩ ∧
          evaluate ⟨table, .fail⟩ tokens = .error (.divisionByZero offset)
    | .error err =>
      (∀ offset, err ≠ .divisionByZero offset) ∧
        (evaluate ⟨table, .fail⟩ tokens = .error err ∨
          ∃ l ∈ tokens, l.token = .op .div ∧
            evaluate ⟨table, .fail⟩ tokens = .error (.divisionByZero l.offset)) := by
  split
  · next ev hev =>
    obtain ⟨s', hreads, hrest, htrace⟩ := evaluate_eq_ok_iff.mp hev
    have hupToZero : ReadsUpToZero table tokens 0 maxDepth .sum (.start tokens) ev.expr s' :=
      hreads.upToZero rfl
    cases hzero : ev.expr.zeroDivisions 0 with
    | nil =>
      refine .inl ⟨List.filter_eq_nil_iff.mp hzero, ?_⟩
      exact evaluate_eq_ok_iff.mpr ⟨s', (readsUpToZero_of_nil hzero).mp hupToZero, hrest, htrace⟩
    | cons d ds =>
      obtain ⟨offset, s'', hindex, hrun⟩ := (readsUpToZero_of_cons hzero).mp hupToZero
      have hsum : (sum ⟨table, .fail⟩ maxDepth).run (.start tokens) =
          (.error (.divisionByZero offset), s'') := hrun
      refine .inr ⟨d, offset, Expr.isFirstZeroDivision_head hreads.pairwise_id_lt hzero, hindex, ?_⟩
      simp only [evaluate, parse, hsum]
  · next err herr =>
    rw [evaluate_eq_error_iff] at herr
    obtain ⟨hne, heq | ⟨l, hl, hdiv, hfail⟩⟩ := checked_parse table tokens
    · refine ⟨fun offset h => hne offset (h ▸ herr), .inl ?_⟩
      rw [evaluate_eq_error_iff, heq, herr]
    · refine ⟨fun offset h => hne offset (h ▸ herr), .inr ⟨l, hl, hdiv, ?_⟩⟩
      rw [evaluate_eq_error_iff, hfail]

end AttrCalc
