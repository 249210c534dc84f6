import AttrCalc.Decimal.Reading
import AttrCalc.Eval.Basic

/-!
# Evaluation by recursive descent

An expression is read from left to right in one pass, which builds its tree, computes the values of
its nodes and records the attribute rules.  A level of operators is a chain of operands of the next
tighter level; the chain grows its tree to the left, so operators associate to the left.  The
number of groups that may still be opened inside one another is the argument on which the recursion
descends.

## Main definitions

* `Parser` : a function on states that reads at least one lexeme when it succeeds.
* `Parser.chain` : operands of one parser, joined by the operators of a level.
* `factor`, `product`, `sum` : the parsers of the three levels.
* `parse`, `evaluate` : the evaluation of a whole expression.
-/

namespace AttrCalc

namespace Eval

/-- The number of groups that may be open inside one another. -/
def maxDepth : Nat := 256

/-- A function on states that reads at least one lexeme when it succeeds. -/
structure Parser where
  run : State → Reply
  shortens : ∀ {s : State} {e : Expr} {s' : State},
    run s = (.ok e, s') → s'.rest.length < s.rest.length

variable (env : Env)

/-! ### Chains -/

namespace Parser

/-- Extends `left` by further operands as long as an operator of the level comes next. -/
def extend (level : Level) (operand : Parser) (left : Expr) (s : State) : Reply :=
  match _hs : s.rest with
  | ⟨.op o, offset⟩ :: rest =>
    if o.level = level then
      match _ho : operand.run (s.read rest o.rule) with
      | (.ok right, s₁) =>
        match env.division.apply? o left.value right.value with
        | some value =>
          extend level operand (.binary s₁.nextId o value left right) s₁.numbered
        | none => (.error (.divisionByZero offset), s₁)
      | (.error e, s₁) => (.error e, s₁)
    else (.ok left, s)
  | _ => (.ok left, s)
termination_by s.rest.length
decreasing_by
  have := operand.shortens _ho
  simp only [State.read] at this
  simp only [State.numbered, _hs, List.length_cons]
  omega

/-- A chain leaves no more lexemes than it finds. -/
theorem length_rest_of_extend {level : Level} {operand : Parser} {left e : Expr} {s s' : State}
    (h : extend env level operand left s = (.ok e, s')) : s'.rest.length ≤ s.rest.length := by
  fun_induction extend env level operand left s with
  | case1 left s o offset rest hs ho right s₁ hr value hv ih =>
    have := operand.shortens hr
    have := ih h
    simp only [State.read, State.numbered] at *
    rw [hs, List.length_cons]
    omega
  | case4 | case5 => simp_all
  | case2 | case3 => simp at h

/-- Operands joined by the operators of a level.  The rule of the level is applied on entry. -/
def chain (level : Level) (operand : Parser) : Parser where
  run s :=
    match operand.run (s.fire level.rule) with
    | (.ok left, s₁) => extend env level operand left s₁
    | (.error e, s₁) => (.error e, s₁)
  shortens := by
    intro s e s' h
    split at h
    · next left s₁ ho =>
      have hlt : s₁.rest.length < (s.fire level.rule).rest.length := operand.shortens ho
      exact Nat.lt_of_le_of_lt (length_rest_of_extend env h) hlt
    · simp at h

/-! ### Factors -/

/-- Closes the group opened at `offset` when its inner expression has been read. -/
def closeGroup (offset : Nat) : Reply → Reply
  | (.ok inner, s) =>
    match s.rest with
    | ⟨.rightParen, _⟩ :: rest =>
      (.ok (.group s.nextId (inner.tag?.getD .real) inner), { s with rest }.numbered)
    | l :: _ => (.error (.unexpectedToken l.token.spelling l.offset), s)
    | [] => (.error (.unclosedParen offset), s)
  | (.error e, s) => (.error e, s)

/-- Reads a name, a numeral or a group.  `inner?` is the parser for the inside of a group, unless
too many are open already. -/
def readFactor (inner? : Option Parser) (s : State) : Reply :=
  match s.rest with
  | [] => (.error .unexpectedEnd, s)
  | ⟨.leftParen, offset⟩ :: rest =>
    match inner? with
    | some inner => closeGroup offset (inner.run (s.read rest .group))
    | none => (.error (.tooDeep offset maxDepth), s)
  | ⟨.ident name, offset⟩ :: rest =>
    let s := s.read rest .ident
    match env.table.resolve name offset with
    | .ok entry => (.ok (.atom s.nextId (.ident name) entry.tag entry.value), s.numbered)
    | .error e => (.error e, s)
  | ⟨.num text, offset⟩ :: rest =>
    let s := s.read rest .num
    match Decimal.read? text with
    | some value => (.ok (.atom s.nextId (.num text) .real value), s.numbered)
    | none => (.error (.badNumber text offset), s)
  | l :: _ => (.error (.unexpectedToken l.token.spelling l.offset), s)

theorem length_rest_of_closeGroup {offset : Nat} {r : Reply} {e : Expr} {s' : State}
    (h : closeGroup offset r = (.ok e, s')) :
    ∃ inner, r.1 = .ok inner ∧ s'.rest.length < r.2.rest.length := by
  unfold closeGroup at h
  split at h
  · next inner s =>
    refine ⟨inner, rfl, ?_⟩
    split at h
    · next rest hs =>
      simp only [Prod.mk.injEq] at h
      rw [← h.2]
      simp [State.numbered, hs]
    · simp at h
    · simp at h
  · simp at h

/-- A name, a numeral or a group. -/
def factorWith (inner? : Option Parser) : Parser where
  run := readFactor env inner?
  shortens := by
    intro s e s' h
    unfold readFactor at h
    split at h
    · simp at h
    · next offset rest hs =>
      split at h
      · next inner =>
        obtain ⟨i, hi, hlt⟩ := length_rest_of_closeGroup h
        have hrun : inner.run (s.read rest .group) =
            (.ok i, (inner.run (s.read rest .group)).2) := by
          rw [← hi]
        have := inner.shortens hrun
        simp only [State.read] at this hlt
        rw [hs, List.length_cons]
        omega
      · simp at h
    · next name offset rest hs =>
      simp only at h
      split at h
      · simp only [Prod.mk.injEq] at h
        rw [← h.2, hs]
        simp [State.read, State.numbered]
      · simp at h
    · next text offset rest hs =>
      simp only at h
      split at h
      · simp only [Prod.mk.injEq] at h
        rw [← h.2, hs]
        simp [State.read, State.numbered]
      · simp at h
    · simp at h

end Parser

/-! ### The three levels -/

/-- A name, a numeral or a group, when `room` more groups may be opened inside one another. -/
def factor : Nat → Parser
  | 0 => .factorWith env none
  | room + 1 => .factorWith env (some (.chain env .sum (.chain env .product (factor room))))

/-- Factors joined by `*` and `/`. -/
def product (room : Nat) : Parser :=
  .chain env .product (factor env room)

/-- Products joined by `+` and `-`. -/
def sum (room : Nat) : Parser :=
  .chain env .sum (product env room)

/-! ### Whole expressions -/

/-- Reads a whole expression, behind which nothing may be left. -/
def parse (tokens : List Lexeme) : Reply :=
  match (sum env maxDepth).run (.start tokens) with
  | (.ok e, s) =>
    match s.rest with
    | [] => (.ok e, s)
    | l :: _ => (.error (.trailingInput l.token.spelling l.offset), s)
  | (.error e, s) => (.error e, s)

/-- The rules that an evaluation applies, up to its end or its error. -/
def fired (tokens : List Lexeme) : Trace :=
  (parse env tokens).2.trace

end Eval

/-- The result of an evaluation: the tree with its values, and the rules applied. -/
structure Evaluation where
  expr : Expr
  trace : Trace

/-- The value of the whole expression. -/
def Evaluation.value (e : Evaluation) : Float :=
  e.expr.value

/-- Evaluates the lexemes of an expression. -/
def evaluate (env : Env) (tokens : List Lexeme) : Except EvalError Evaluation :=
  match Eval.parse env tokens with
  | (.ok expr, s) => .ok ⟨expr, s.trace⟩
  | (.error e, _) => .error e

end AttrCalc
