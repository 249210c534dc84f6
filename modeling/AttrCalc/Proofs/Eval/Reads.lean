import AttrCalc.Eval.Parser
import AttrCalc.Proofs.Expr.LabelTree

/-!
# What the parsers read

The parsers of the three levels grow a chain of operations in a loop.  The relation `Reads` says
what they read by the productions of the grammar instead: a chain is an operand, or a shorter chain
with an operator and one more operand.  The relation leaves open where a chain ends; the parsers go
on as long as an operator of their level or a tighter one comes next.

## Main definitions

* `Category.parser` : the parser for a place.
* `Eval.Reads` : from which state to which state an expression can be read at a place.
* `Category.Ends` : no operator comes next that goes on with an expression at the place.

## Main results

* `Eval.parser_induction` : what factors have and hand on to chains, all parsers have.
* `Eval.run_eq_ok_iff` : a parser succeeds just with what can be read, as far as it goes on.
* `evaluate_eq_ok_iff` : an evaluation succeeds just with what can be read from all lexemes.
-/

namespace AttrCalc

open Eval

/-- The parser for a place, when `room` more groups may be opened inside one another. -/
def Category.parser (env : Env) (room : Nat) : Category → Parser
  | sum => Eval.sum env room
  | product => Eval.product env room
  | factor => Eval.factor env room

theorem Level.parser_whole (env : Env) (room : Nat) (level : Level) :
    level.whole.parser env room = .chain env level (level.operand.parser env room) := by
  cases level <;> rfl

namespace Eval

/-! ### The parts of a state -/

namespace State

variable (s : State) (rest : List Lexeme) (rule : Rule)

@[simp] theorem rest_fire : (s.fire rule).rest = s.rest := rfl

@[simp] theorem nextId_fire : (s.fire rule).nextId = s.nextId := rfl

@[simp] theorem trace_fire : (s.fire rule).trace = s.trace.push rule := rfl

@[simp] theorem rest_read : (s.read rest rule).rest = rest := rfl

@[simp] theorem nextId_read : (s.read rest rule).nextId = s.nextId := rfl

@[simp] theorem trace_read : (s.read rest rule).trace = s.trace.push rule := rfl

@[simp] theorem rest_numbered : s.numbered.rest = s.rest := rfl

@[simp] theorem nextId_numbered : s.numbered.nextId = s.nextId + 1 := rfl

@[simp] theorem trace_numbered : s.numbered.trace = s.trace := rfl

end State

/-! ### What can be read -/

/-- From state `s`, with `room` groups at most inside one another, the expression `e` can be read at
the place `c`, which leaves state `s'`. -/
inductive Reads (env : Env) : Nat → Category → State → Expr → State → Prop
  | ident {room : Nat} {s : State} {name : String} {offset : Nat} {rest : List Lexeme}
      {entry : Entry} (hs : s.rest = ⟨.ident name, offset⟩ :: rest)
      (hentry : env.table.get? name = some entry) :
      Reads env room .factor s (.atom s.nextId (.ident name) entry.tag entry.value)
        (s.read rest .ident).numbered
  | num {room : Nat} {s : State} {text : String} {offset : Nat} {rest : List Lexeme}
      {value : Float} (hs : s.rest = ⟨.num text, offset⟩ :: rest)
      (hvalue : Decimal.read? text = some value) :
      Reads env room .factor s (.atom s.nextId (.num text) .real value) (s.read rest .num).numbered
  | group {room : Nat} {s s₁ : State} {inner : Expr} {offset offset' : Nat}
      {rest rest' : List Lexeme} (hs : s.rest = ⟨.leftParen, offset⟩ :: rest)
      (hinner : Reads env room .sum (s.read rest .group) inner s₁)
      (hs₁ : s₁.rest = ⟨.rightParen, offset'⟩ :: rest') :
      Reads env (room + 1) .factor s (.group s₁.nextId (inner.tag?.getD .real) inner)
        { s₁ with rest := rest' }.numbered
  | operand {room : Nat} (level : Level) {s s' : State} {e : Expr}
      (h : Reads env room level.operand (s.fire level.rule) e s') :
      Reads env room level.whole s e s'
  | operation {room : Nat} {s s₁ s₂ : State} {o : Operator} {left right : Expr} {offset : Nat}
      {rest : List Lexeme} {value : Float} (hl : Reads env room o.level.whole s left s₁)
      (hs₁ : s₁.rest = ⟨.op o, offset⟩ :: rest)
      (hr : Reads env room o.level.operand (s₁.read rest o.rule) right s₂)
      (hvalue : env.division.apply? o left.value right.value = some value) :
      Reads env room o.level.whole s (.binary s₂.nextId o value left right) s₂.numbered

/-! ### Where a chain ends -/

/-- An operator of the level comes next. -/
def Continues (level : Level) : List Lexeme → Prop
  | ⟨.op o, _⟩ :: _ => o.level = level
  | _ => False

end Eval

/-- No operator comes next that goes on with an expression at the place. -/
def Category.Ends : Category → List Lexeme → Prop
  | sum, rest => ¬ Continues .sum rest ∧ ¬ Continues .product rest
  | product, rest => ¬ Continues .product rest
  | factor, _ => True

theorem Level.ends_whole_iff {level : Level} {rest : List Lexeme} :
    level.whole.Ends rest ↔ ¬ Continues level rest ∧ level.operand.Ends rest := by
  cases level <;> simp [Level.whole, Level.operand, Category.Ends]

/-- An operator of a level ends the operand before it. -/
theorem Level.ends_operand (o : Operator) (offset : Nat) (rest : List Lexeme) :
    o.level.operand.Ends (⟨.op o, offset⟩ :: rest) := by
  cases h : o.level <;> simp [Level.operand, Category.Ends, Continues, h]

namespace Eval

theorem not_continues_of_ne {level : Level} {rest : List Lexeme}
    (h : ∀ o offset rest', rest = ⟨.op o, offset⟩ :: rest' → False) : ¬ Continues level rest := by
  unfold Continues
  split
  · next o offset rest' => exact (h o offset rest' rfl).elim
  · exact not_false

variable {env : Env} {room : Nat}

/-! ### The loop over a chain -/

theorem extend_of_not_continues {level : Level} {operand : Parser} {left : Expr} {s : State}
    (h : ¬ Continues level s.rest) : Parser.extend env level operand left s = (.ok left, s) := by
  rw [Parser.extend]
  split
  · next o offset rest hs =>
    rw [hs] at h
    exact if_neg h
  · rfl

/-- In front of an operator of its level, the loop reads one more operand. -/
theorem extend_of_op {operand : Parser} {left : Expr} {s : State} {o : Operator} {offset : Nat}
    {rest : List Lexeme} (hs : s.rest = ⟨.op o, offset⟩ :: rest) :
    Parser.extend env o.level operand left s =
      match operand.run (s.read rest o.rule) with
      | (.ok right, s₁) =>
        match env.division.apply? o left.value right.value with
        | some value =>
          Parser.extend env o.level operand (.binary s₁.nextId o value left right) s₁.numbered
        | none => (.error (.divisionByZero offset), s₁)
      | (.error e, s₁) => (.error e, s₁) := by
  rw [Parser.extend]
  split
  · next o' offset' rest' hs' =>
    obtain ⟨⟨⟨rfl⟩, rfl⟩, rfl⟩ : (o' = o ∧ offset' = offset) ∧ rest' = rest := by simp_all
    rw [if_pos rfl]
    split
    · next hr => exact hr.symm ▸ rfl
    · next hr => exact hr.symm ▸ rfl
  · next hne => exact absurd hs (hne o offset rest)

theorem extend_of_operation {operand : Parser} {left right : Expr} {s s₁ : State} {o : Operator}
    {offset : Nat} {rest : List Lexeme} {value : Float} (hs : s.rest = ⟨.op o, offset⟩ :: rest)
    (hr : operand.run (s.read rest o.rule) = (.ok right, s₁))
    (hvalue : env.division.apply? o left.value right.value = some value) :
    Parser.extend env o.level operand left s =
      Parser.extend env o.level operand (.binary s₁.nextId o value left right) s₁.numbered := by
  simp only [extend_of_op hs, hr, hvalue]

/-- A chain stops where its first operand does. -/
theorem run_chain_of_error {level : Level} {operand : Parser} {s s' : State} {err : EvalError}
    (h : operand.run (s.fire level.rule) = (.error err, s')) :
    (Parser.chain env level operand).run s = (.error err, s') := by
  simp only [Parser.chain, h]

/-- What the loop returns extends the chain that has been read before it. -/
theorem reads_of_extend {level : Level} {operand : Parser}
    (hoperand : ∀ {s : State} {e : Expr} {s' : State}, operand.run s = (.ok e, s') →
      Reads env room level.operand s e s' ∧ level.operand.Ends s'.rest)
    {s₀ : State} {left : Expr} {s : State} (hleft : Reads env room level.whole s₀ left s)
    (hends : level.operand.Ends s.rest) {e : Expr} {s' : State}
    (h : Parser.extend env level operand left s = (.ok e, s')) :
    Reads env room level.whole s₀ e s' ∧ level.whole.Ends s'.rest := by
  fun_induction Parser.extend env level operand left s with
  | case1 left s o offset rest hs ho right s₁ hr value hvalue ih =>
    subst ho
    obtain ⟨hright, hends'⟩ := hoperand hr
    exact ih (.operation hleft hs hright hvalue) hends' h
  | case2 | case3 => simp at h
  | case4 left s o offset rest hs ho =>
    obtain ⟨rfl, rfl⟩ : left = e ∧ s = s' := by simpa using h
    refine ⟨hleft, Level.ends_whole_iff.mpr ⟨?_, hends⟩⟩
    rw [hs]
    exact ho
  | case5 left s hne =>
    obtain ⟨rfl, rfl⟩ : left = e ∧ s = s' := by simpa using h
    exact ⟨hleft, Level.ends_whole_iff.mpr ⟨not_continues_of_ne hne, hends⟩⟩

/-! ### The parsers -/

/-- What is handed on from operands to chains, and from the inside of a group to the group, holds of
the parsers for all places.  There is less room inside a group. -/
theorem parser_induction {motive : Nat → Category → Prop}
    (whole : ∀ (room : Nat) (level : Level), motive room level.operand → motive room level.whole)
    (zero : motive 0 .factor) (succ : ∀ room, motive room .sum → motive (room + 1) .factor)
    (room : Nat) (c : Category) : motive room c := by
  have hlevels {room : Nat} (hfactor : motive room .factor) (c : Category) : motive room c := by
    have hproduct : motive room .product := whole room .product hfactor
    cases c with
    | sum => exact whole room .sum hproduct
    | product => exact hproduct
    | factor => exact hfactor
  induction room generalizing c with
  | zero => exact hlevels zero c
  | succ room ih => exact hlevels (succ room (ih .sum)) c

/-- What a factor parser returns can be read, if its parser for the inside of a group returns only
what can be read with room for one group less. -/
theorem reads_of_readFactor {inner? : Option Parser}
    (hinner : ∀ inner ∈ inner?, ∃ room', room = room' + 1 ∧
      ∀ {s : State} {e : Expr} {s' : State}, inner.run s = (.ok e, s') →
        Reads env room' .sum s e s')
    {s : State} {e : Expr} {s' : State} (h : Parser.readFactor env inner? s = (.ok e, s')) :
    Reads env room .factor s e s' := by
  unfold Parser.readFactor at h
  split at h
  · simp at h
  · next offset rest hs =>
    split at h
    · next inner =>
      obtain ⟨room', rfl, hreads⟩ := hinner inner rfl
      cases hr : inner.run (s.read rest .group) with | mk r s₁ =>
      rw [hr] at h
      unfold Parser.closeGroup at h
      split at h
      · next i s₁' hi =>
        obtain ⟨rfl, rfl⟩ : r = .ok i ∧ s₁ = s₁' := by simpa using hi
        split at h
        · next offset' rest' hs₁ =>
          obtain ⟨rfl, rfl⟩ : Expr.group s₁.nextId (i.tag?.getD .real) i = e ∧
              State.numbered { s₁ with rest := rest' } = s' := by simpa using h
          exact .group hs (hreads hr) hs₁
        · simp at h
        · simp at h
      · simp at h
    · simp at h
  · next name offset rest hs =>
    simp only at h
    split at h
    · next entry hentry =>
      obtain ⟨rfl, rfl⟩ : Expr.atom s.nextId (.ident name) entry.tag entry.value = e ∧
          (s.read rest .ident).numbered = s' := by simpa using h
      exact .ident hs (SymbolTable.resolve_eq_ok_iff.mp hentry)
    · simp at h
  · next text offset rest hs =>
    simp only at h
    split at h
    · next value hvalue =>
      obtain ⟨rfl, rfl⟩ : Expr.atom s.nextId (.num text) .real value = e ∧
          (s.read rest .num).numbered = s' := by simpa using h
      exact .num hs hvalue
    · simp at h
  · simp at h

/-- What a chain parser returns is a chain, if its operands are. -/
theorem reads_of_chain (level : Level) {operand : Parser}
    (hoperand : ∀ {s : State} {e : Expr} {s' : State}, operand.run s = (.ok e, s') →
      Reads env room level.operand s e s' ∧ level.operand.Ends s'.rest)
    {s : State} {e : Expr} {s' : State}
    (h : (Parser.chain env level operand).run s = (.ok e, s')) :
    Reads env room level.whole s e s' ∧ level.whole.Ends s'.rest := by
  simp only [Parser.chain] at h
  split at h
  · next left s₁ hleft =>
    obtain ⟨hreads, hends⟩ := hoperand hleft
    exact reads_of_extend hoperand (.operand level hreads) hends h
  · simp at h

/-- What the parser for a place returns can be read there, and no operator follows that goes on with
it. -/
theorem reads_of_run {c : Category} {s : State} {e : Expr} {s' : State}
    (h : (c.parser env room).run s = (.ok e, s')) : Reads env room c s e s' ∧ c.Ends s'.rest := by
  induction room, c using parser_induction generalizing s e s' with
  | whole room level ih =>
    rw [Level.parser_whole] at h
    exact reads_of_chain level ih h
  | zero =>
    have h : Parser.readFactor env none s = (.ok e, s') := h
    exact ⟨reads_of_readFactor (by simp) h, trivial⟩
  | succ room ih =>
    have h : Parser.readFactor env (some (sum env room)) s = (.ok e, s') := h
    refine ⟨reads_of_readFactor ?_ h, trivial⟩
    rintro inner ⟨⟩
    exact ⟨room, rfl, fun h => (ih h).1⟩

/-- An operand that is read up to where it ends is what its parser returns; a chain that is read is
what the loop of its parser goes on with. -/
def RunsTo (env : Env) (room : Nat) (c : Category) (s : State) (e : Expr) (s' : State) : Prop :=
  match c with
  | .sum => Category.product.Ends s'.rest →
      (sum env room).run s = Parser.extend env .sum (product env room) e s'
  | .product => (product env room).run s = Parser.extend env .product (factor env room) e s'
  | .factor => (factor env room).run s = (.ok e, s')

theorem runsTo_whole_iff {level : Level} {s : State} {e : Expr} {s' : State} :
    RunsTo env room level.whole s e s' ↔
      (level.operand.Ends s'.rest → (level.whole.parser env room).run s =
        Parser.extend env level (level.operand.parser env room) e s') := by
  cases level with
  | sum => exact Iff.rfl
  | product => exact ⟨fun h _ => h, fun h => h trivial⟩

theorem RunsTo.run {c : Category} {s : State} {e : Expr} {s' : State}
    (h : RunsTo env room c s e s') (hends : c.Ends s'.rest) :
    (c.parser env room).run s = (.ok e, s') := by
  cases c with
  | sum => exact (h hends.2).trans (extend_of_not_continues hends.1)
  | product => exact h.trans (extend_of_not_continues hends)
  | factor => exact h

theorem exists_run_factor_eq (env : Env) :
    (room : Nat) → ∃ inner?, (factor env room).run = Parser.readFactor env inner?
  | 0 => ⟨none, rfl⟩
  | room + 1 => ⟨some (sum env room), rfl⟩

theorem Reads.runsTo {c : Category} {s : State} {e : Expr} {s' : State}
    (h : Reads env room c s e s') : RunsTo env room c s e s' := by
  induction h with
  | @ident room s name offset rest entry hs hentry =>
    obtain ⟨inner?, hrun⟩ := exists_run_factor_eq env room
    have hresolve : env.table.resolve name offset = .ok entry :=
      SymbolTable.resolve_eq_ok_iff.mpr hentry
    simp only [RunsTo, hrun, Parser.readFactor, hs, hresolve, State.nextId_read]
  | @num room s text offset rest value hs hvalue =>
    obtain ⟨inner?, hrun⟩ := exists_run_factor_eq env room
    simp only [RunsTo, hrun, Parser.readFactor, hs, hvalue, State.nextId_read]
  | @group room s s₁ inner offset offset' rest rest' hs _ hs₁ ih =>
    have hends : Category.sum.Ends s₁.rest := by
      rw [hs₁]
      exact ⟨not_false, not_false⟩
    have hinner : (sum env room).run (s.read rest .group) = (.ok inner, s₁) := ih.run hends
    change Parser.readFactor env (some (sum env room)) s = _
    simp only [Parser.readFactor, hs, hinner, Parser.closeGroup, hs₁]
  | @operand room level s s' e _ ih =>
    refine runsTo_whole_iff.mpr fun hends => ?_
    rw [Level.parser_whole]
    simp only [Parser.chain, ih.run hends]
  | @operation room s s₁ s₂ o left right offset rest value _ hs₁ _ hvalue ihl ihr =>
    refine runsTo_whole_iff.mpr fun hends => ?_
    rw [runsTo_whole_iff.mp ihl (by rw [hs₁]; exact Level.ends_operand o offset rest)]
    exact extend_of_operation hs₁ (ihr.run hends) hvalue

/-- **What the parsers read.** The parser for a place succeeds just with what can be read there, up
to where no operator follows that goes on with it. -/
theorem run_eq_ok_iff {c : Category} {s : State} {e : Expr} {s' : State} :
    (c.parser env room).run s = (.ok e, s') ↔ Reads env room c s e s' ∧ c.Ends s'.rest :=
  ⟨reads_of_run, fun h => h.1.runsTo.run h.2⟩

theorem parse_eq_ok_iff {tokens : List Lexeme} {e : Expr} {s' : State} :
    parse env tokens = (.ok e, s') ↔
      Reads env maxDepth .sum (.start tokens) e s' ∧ s'.rest = [] := by
  constructor
  · intro h
    unfold parse at h
    split at h
    · next e₁ s₁ hrun =>
      split at h
      · next hrest =>
        obtain ⟨rfl, rfl⟩ : e₁ = e ∧ s₁ = s' := by simpa using h
        exact ⟨(reads_of_run (c := .sum) hrun).1, hrest⟩
      · simp at h
    · simp at h
  · rintro ⟨h, hrest⟩
    have hends : Category.sum.Ends s'.rest := by
      rw [hrest]
      exact ⟨not_false, not_false⟩
    have hrun : (sum env maxDepth).run (.start tokens) = (.ok e, s') := h.runsTo.run hends
    simp only [parse, hrun, hrest]

end Eval

/-- An evaluation succeeds just with what can be read from all lexemes. -/
theorem evaluate_eq_ok_iff {env : Env} {tokens : List Lexeme} {ev : Evaluation} :
    evaluate env tokens = .ok ev ↔
      ∃ s', Reads env maxDepth .sum (.start tokens) ev.expr s' ∧ s'.rest = [] ∧
        s'.trace = ev.trace := by
  have hsplit : evaluate env tokens = .ok ev ↔
      ∃ s', parse env tokens = (.ok ev.expr, s') ∧ s'.trace = ev.trace := by
    unfold evaluate
    obtain ⟨expr, trace⟩ := ev
    split
    · next e s h => simp [h]
    · next e s h => simp [h]
  simp only [hsplit, parse_eq_ok_iff, and_assoc]

theorem evaluate_eq_error_iff {env : Env} {tokens : List Lexeme} {err : EvalError} :
    evaluate env tokens = .error err ↔ (parse env tokens).1 = .error err := by
  unfold evaluate
  split
  · next h => simp [h]
  · next h => simp [h]

end AttrCalc
