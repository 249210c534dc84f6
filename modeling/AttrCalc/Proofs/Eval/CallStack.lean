import AttrCalc.Proofs.Eval.Numbering
import AttrCalc.Proofs.Eval.RoundTrip
import AttrCalc.Proofs.Eval.Trace
import Mathlib.Computability.StateTransition

/-!
# The calls of the parsers

A parser is told how many groups may still be opened, and its recursion descends on this number.
Seen from outside, its calls stand on a stack: a chain waits for an operand, a factor for the inside
of its group.  The machine of this module makes these calls one step at a time.  It counts the open
groups itself, up at an opening parenthesis and down at a closing one, and refuses to open one when
the limit is reached.  It gives the answers of the parsers, and between two calls for a sum on its
stack there is always a group, so the limit for groups is one for the stack as well.

## Main definitions

* `Frame`, `Control`, `Config`, `step` : the machine.
* `Answers` : the machine comes to an answer, whatever calls wait below.
* `Config.calls` : the places of all calls on the stack.
* `Waits`, `Below` : the stacks that calls build up, and their limits.
* `Config.Within` : the invariant of the machine.
* `Exact` : what a parser has done to the state when it returns an expression.

## Main results

* `answers_run` : the machine gives the answers of the parsers.
* `Config.Within.reaches` : a run stays within the limits.
* `run_exact` : what the parsers do to the state, and what their calls need.
-/

namespace AttrCalc

theorem Level.whole_ne_factor (level : Level) : level.whole ≠ .factor := by
  cases level <;> decide

namespace Eval

open StateTransition

/-! ### The machine -/

/-- What a call on the stack waits for: the first operand of a chain, the right operand of an
operation, or the inside of the group that is opened at an offset. -/
inductive Frame where
  | operand (level : Level)
  | rightOperand (o : Operator) (offset : Nat) (left : Expr)
  | inside (offset : Nat)

/-- What the call on top of the stack does: it has just been made for an expression at a place, it
goes on with a chain, or it has its answer. -/
inductive Control where
  | call (c : Category)
  | extend (level : Level) (left : Expr)
  | answer (r : Except EvalError Expr)

/-- The call on top, the calls below that wait, the state of the reading and the number of groups
that are open. -/
structure Config where
  control : Control
  frames : List Frame
  state : State
  depth : Nat

/-- The answer of a reply. -/
def Reply.config (r : Reply) (frames : List Frame) (depth : Nat) : Config :=
  ⟨.answer r.1, frames, r.2, depth⟩

variable (env : Env)

/-- A call is made.  A chain calls for its first operand; a factor is read, unless it is a group
that may still be opened, in which case it calls for the inside. -/
def makeCall (frames : List Frame) (s : State) (depth : Nat) : Category → Config
  | .sum => ⟨.call .product, .operand .sum :: frames, s.fire Level.sum.rule, depth⟩
  | .product => ⟨.call .factor, .operand .product :: frames, s.fire Level.product.rule, depth⟩
  | .factor =>
    match s.rest with
    | ⟨.leftParen, offset⟩ :: rest =>
      if depth = maxDepth then Reply.config (Parser.readFactor env none s) frames depth
      else ⟨.call .sum, .inside offset :: frames, s.read rest .group, depth + 1⟩
    | _ => Reply.config (Parser.readFactor env none s) frames depth

/-- A chain goes on in front of an operator of its level, and calls for the right operand. -/
def goOn (level : Level) (left : Expr) (frames : List Frame) (s : State) (depth : Nat) : Config :=
  match s.rest with
  | ⟨.op o, offset⟩ :: rest =>
    if o.level = level then
      ⟨.call level.operand, .rightOperand o offset left :: frames, s.read rest o.rule, depth⟩
    else ⟨.answer (.ok left), frames, s, depth⟩
  | _ => ⟨.answer (.ok left), frames, s, depth⟩

/-- A call that waits gets an expression. -/
def resume (e : Expr) (frames : List Frame) (s : State) (depth : Nat) : Frame → Config
  | .operand level => ⟨.extend level e, frames, s, depth⟩
  | .rightOperand o offset left =>
    match env.division.apply? o left.value e.value with
    | some value => ⟨.extend o.level (.binary s.nextId o value left e), frames, s.numbered, depth⟩
    | none => ⟨.answer (.error (.divisionByZero offset)), frames, s, depth⟩
  | .inside offset =>
    match Parser.closeGroup offset (.ok e, s) with
    | (.ok group, s') => ⟨.answer (.ok group), frames, s', depth - 1⟩
    | (.error err, s') => ⟨.answer (.error err), frames, s', depth⟩

/-- A step of the machine.  An error goes through all calls that wait. -/
def step : Config → Option Config
  | ⟨.call c, frames, s, depth⟩ => some (makeCall env frames s depth c)
  | ⟨.extend level left, frames, s, depth⟩ => some (goOn level left frames s depth)
  | ⟨.answer (.ok e), frame :: frames, s, depth⟩ => some (resume env e frames s depth frame)
  | ⟨.answer (.error err), _ :: frames, s, depth⟩ => some ⟨.answer (.error err), frames, s, depth⟩
  | ⟨.answer _, [], _, _⟩ => none

variable {env} {frames : List Frame} {s s' s₁ : State} {depth depth' : Nat} {e left : Expr}
  {level : Level}

theorem makeCall_whole (env : Env) (level : Level) (frames : List Frame) (s : State)
    (depth : Nat) : makeCall env frames s depth level.whole =
      ⟨.call level.operand, .operand level :: frames, s.fire level.rule, depth⟩ := by
  cases level <;> rfl

theorem makeCall_of_group {offset : Nat} {rest : List Lexeme}
    (hs : s.rest = ⟨.leftParen, offset⟩ :: rest) (hdepth : depth ≠ maxDepth) :
    makeCall env frames s depth .factor =
      ⟨.call .sum, .inside offset :: frames, s.read rest .group, depth + 1⟩ := by
  simp only [makeCall, hs, if_neg hdepth]

/-- A factor that is no group, or a group that may not be opened, is read at once. -/
theorem makeCall_of_no_group
    (h : ∀ offset rest, s.rest = ⟨.leftParen, offset⟩ :: rest → depth = maxDepth) :
    makeCall env frames s depth .factor =
      Reply.config (Parser.readFactor env none s) frames depth := by
  simp only [makeCall]
  split
  · next offset rest hs => rw [if_pos (h offset rest hs)]
  · rfl

/-- The parser for the inside of a group does not matter where there is no group. -/
theorem readFactor_of_no_group (inner? : Option Parser)
    (h : ∀ offset rest, s.rest ≠ ⟨.leftParen, offset⟩ :: rest) :
    Parser.readFactor env inner? s = Parser.readFactor env none s := by
  unfold Parser.readFactor
  split
  · rfl
  · next offset rest hs => exact absurd hs (h offset rest)
  · rfl
  · rfl
  · rfl

theorem goOn_of_op {o : Operator} {offset : Nat} {rest : List Lexeme}
    (hs : s.rest = ⟨.op o, offset⟩ :: rest) :
    goOn o.level left frames s depth =
      ⟨.call o.level.operand, .rightOperand o offset left :: frames, s.read rest o.rule,
        depth⟩ := by
  simp only [goOn, hs, if_true]

theorem goOn_of_not_continues (h : ¬ Continues level s.rest) :
    goOn level left frames s depth = ⟨.answer (.ok left), frames, s, depth⟩ := by
  unfold goOn
  split
  · next o offset rest hs =>
    rw [hs] at h
    exact if_neg h
  · rfl

/-! ### Answers -/

variable {control control' : Control} {r : Reply} {err : EvalError} {frame : Frame}

/-- Whatever calls wait below, the machine comes to the answer; if this is an expression, `depth'`
groups are open then. -/
def Answers (env : Env) (depth' : Nat) (control : Control) (s : State) (depth : Nat) (r : Reply) :
    Prop :=
  ∀ frames, ∃ final, Reaches (step env) ⟨control, frames, s, depth⟩ (r.config frames final) ∧
    (r.1.isOk → final = depth')

namespace Answers

theorem refl (env : Env) (depth : Nat) (r : Reply) :
    Answers env depth (.answer r.1) r.2 depth r :=
  fun _ => ⟨depth, .refl, fun _ => rfl⟩

theorem ok (env : Env) (depth : Nat) (e : Expr) (s : State) :
    Answers env depth (.answer (.ok e)) s depth (.ok e, s) :=
  refl env depth (.ok e, s)

theorem error (env : Env) (depth' depth : Nat) (err : EvalError) (s : State) :
    Answers env depth' (.answer (.error err)) s depth (.error err, s) :=
  fun _ => ⟨depth, .refl, nofun⟩

/-- A step that leaves the stack alone. -/
theorem head {depth₁ : Nat} (h : Answers env depth' control' s₁ depth₁ r)
    (hstep : ∀ frames,
      step env ⟨control, frames, s, depth⟩ = some ⟨control', frames, s₁, depth₁⟩) :
    Answers env depth' control s depth r := by
  intro frames
  obtain ⟨final, hreaches, hfinal⟩ := h frames
  exact ⟨final, .head (hstep frames) hreaches, hfinal⟩

/-- A call that fails, behind a step that lets another call wait for it. -/
theorem push_error {depth₁ : Nat} (hcall : Answers env depth₁ control' s₁ depth₁ (.error err, s'))
    (hstep : ∀ frames,
      step env ⟨control, frames, s, depth⟩ = some ⟨control', frame :: frames, s₁, depth₁⟩) :
    Answers env depth' control s depth (.error err, s') := by
  intro frames
  obtain ⟨final, hreaches, -⟩ := hcall (frame :: frames)
  have hpop : step env (Reply.config (.error err, s') (frame :: frames) final) =
      some (Reply.config (.error err, s') frames final) := rfl
  exact ⟨final, .head (hstep frames) (hreaches.tail hpop), nofun⟩

/-- A call that succeeds, behind a step that lets another call wait for it.  The call that waits
goes on with the expression. -/
theorem push_ok {depth₁ depth₂ : Nat} {control₂ : Control} {s₂ : State}
    (hcall : Answers env depth₁ control' s₁ depth₁ (.ok e, s'))
    (hstep : ∀ frames,
      step env ⟨control, frames, s, depth⟩ = some ⟨control', frame :: frames, s₁, depth₁⟩)
    (hresume : ∀ frames, resume env e frames s' depth₁ frame = ⟨control₂, frames, s₂, depth₂⟩)
    (h : Answers env depth' control₂ s₂ depth₂ r) : Answers env depth' control s depth r := by
  intro frames
  obtain ⟨final₁, hreaches₁, hfinal₁⟩ := hcall (frame :: frames)
  obtain rfl : final₁ = depth₁ := hfinal₁ rfl
  obtain ⟨final, hreaches, hfinal⟩ := h frames
  have hpop : step env (Reply.config (.ok e, s') (frame :: frames) final₁) =
      some ⟨control₂, frames, s₂, depth₂⟩ := congrArg some (hresume frames)
  exact ⟨final, .head (hstep frames) (hreaches₁.trans (.head hpop hreaches)), hfinal⟩

end Answers

/-- The loop over a chain. -/
theorem answers_extend {operand : Parser}
    (hoperand : ∀ s, Answers env depth (.call level.operand) s depth (operand.run s))
    (left : Expr) (s : State) :
    Answers env depth (.extend level left) s depth (Parser.extend env level operand left s) := by
  have hends {left : Expr} {s : State} (h : ¬ Continues level s.rest) :
      Answers env depth (.extend level left) s depth (.ok left, s) :=
    (Answers.ok env depth left s).head fun frames => congrArg some (goOn_of_not_continues h)
  fun_induction Parser.extend env level operand left s with
  | case1 left s o offset rest hs ho right s₁ hr value hvalue ih =>
    subst ho
    have hcall := hoperand (s.read rest o.rule)
    rw [hr] at hcall
    refine hcall.push_ok (fun frames => congrArg some (goOn_of_op hs)) (fun frames => ?_) ih
    simp only [resume, hvalue]
  | case2 left s o offset rest hs ho right s₁ hr hvalue =>
    -- The call for the right operand succeeds, and the call that waits for it turns this down.
    subst ho
    have hcall := hoperand (s.read rest o.rule)
    rw [hr] at hcall
    have hanswer := Answers.error env depth depth (.divisionByZero offset) s₁
    refine hcall.push_ok (fun frames => congrArg some (goOn_of_op hs)) (fun frames => ?_) hanswer
    simp only [resume, hvalue]
  | case3 left s o offset rest hs ho err s₁ hr =>
    subst ho
    have hcall := hoperand (s.read rest o.rule)
    rw [hr] at hcall
    exact hcall.push_error fun frames => congrArg some (goOn_of_op hs)
  | case4 left s o offset rest hs ho => exact hends (by rw [hs]; exact ho)
  | case5 left s hne => exact hends (not_continues_of_ne hne)

theorem answers_chain (level : Level) {operand : Parser}
    (hoperand : ∀ s, Answers env depth (.call level.operand) s depth (operand.run s)) (s : State) :
    Answers env depth (.call level.whole) s depth ((Parser.chain env level operand).run s) := by
  have hcall := hoperand (s.fire level.rule)
  have hstep (frames : List Frame) : step env ⟨.call level.whole, frames, s, depth⟩ =
      some ⟨.call level.operand, .operand level :: frames, s.fire level.rule, depth⟩ :=
    congrArg some (makeCall_whole env level frames s depth)
  simp only [Parser.chain]
  split
  · next left s₁ hr =>
    rw [hr] at hcall
    exact hcall.push_ok hstep (fun frames => rfl) (answers_extend hoperand left s₁)
  · next err s₁ hr =>
    rw [hr] at hcall
    exact hcall.push_error hstep

/-- The inside of a group has been read, and the group is closed. -/
theorem answers_closeGroup {offset : Nat} {rest : List Lexeme}
    (hs : s.rest = ⟨.leftParen, offset⟩ :: rest) (hdepth : depth ≠ maxDepth)
    (hinner : Answers env (depth + 1) (.call .sum) (s.read rest .group) (depth + 1) r) :
    Answers env depth (.call .factor) s depth (Parser.closeGroup offset r) := by
  have hstep (frames : List Frame) : step env ⟨.call .factor, frames, s, depth⟩ =
      some ⟨.call .sum, .inside offset :: frames, s.read rest .group, depth + 1⟩ :=
    congrArg some (makeCall_of_group hs hdepth)
  obtain ⟨err | e, s₁⟩ := r
  · exact hinner.push_error hstep
  · cases hclose : Parser.closeGroup offset (.ok e, s₁) with | mk r s₂ =>
    cases r with
    | ok group =>
      refine hinner.push_ok hstep (fun frames => ?_) (Answers.ok env depth group s₂)
      simp only [resume, hclose, Nat.add_sub_cancel]
    | error err =>
      refine hinner.push_ok hstep (fun frames => ?_) (Answers.error env depth (depth + 1) err s₂)
      simp only [resume, hclose]

theorem answers_readFactor {inner? : Option Parser} (hnone : inner? = none → depth = maxDepth)
    (hsome : ∀ inner ∈ inner?, depth ≠ maxDepth ∧
      ∀ s, Answers env (depth + 1) (.call .sum) s (depth + 1) (inner.run s)) (s : State) :
    Answers env depth (.call .factor) s depth (Parser.readFactor env inner? s) := by
  have hread (h : ∀ offset rest, s.rest = ⟨.leftParen, offset⟩ :: rest → depth = maxDepth) :
      Answers env depth (.call .factor) s depth (Parser.readFactor env none s) :=
    (Answers.refl env depth _).head fun frames => congrArg some (makeCall_of_no_group h)
  by_cases hgroup : ∃ offset rest, s.rest = ⟨.leftParen, offset⟩ :: rest
  · obtain ⟨offset, rest, hs⟩ := hgroup
    cases inner? with
    | none => exact hread fun _ _ _ => hnone rfl
    | some inner =>
      obtain ⟨hdepth, hinner⟩ := hsome inner rfl
      simp only [Parser.readFactor, hs]
      exact answers_closeGroup hs hdepth (hinner _)
  · have hne : ∀ offset rest, s.rest ≠ ⟨.leftParen, offset⟩ :: rest :=
      fun offset rest hs => hgroup ⟨offset, rest, hs⟩
    rw [readFactor_of_no_group inner? hne]
    exact hread fun offset rest hs => absurd hs (hne offset rest)

/-- The machine gives the answers of the parsers.  The number of groups that may still be opened and
the number of those that are open make up the limit. -/
theorem answers_run (env : Env) {room depth : Nat} (hroom : depth + room = maxDepth) (c : Category)
    (s : State) : Answers env depth (.call c) s depth ((c.parser env room).run s) := by
  induction room, c using parser_induction generalizing depth s with
  | whole room level ih =>
    rw [Level.parser_whole]
    exact answers_chain level (ih hroom) s
  | zero => exact answers_readFactor (fun _ => hroom) (by simp) s
  | succ room ih =>
    refine answers_readFactor (by simp) ?_ s
    rintro inner ⟨⟩
    have hdepth : depth ≠ maxDepth := by omega
    exact ⟨hdepth, ih (by omega)⟩

/-! ### The stack -/

/-- The place for which the call that waits was made. -/
def Frame.caller : Frame → Category
  | operand level => level.whole
  | rightOperand o _ _ => o.level.whole
  | inside _ => .factor

/-- The place for which it has made a call itself. -/
def Frame.callee : Frame → Category
  | operand level => level.operand
  | rightOperand o _ _ => o.level.operand
  | inside _ => .sum

/-- The place for which the call on top was made, unless it has returned. -/
def Control.place? : Control → Option Category
  | call c => some c
  | extend level _ => some level.whole
  | answer _ => none

/-- The places of the calls that wait, from the top of the stack on. -/
def callers (frames : List Frame) : List Category :=
  frames.map Frame.caller

/-- The places of all calls on the stack, from the top on. -/
def Config.calls (cfg : Config) : List Category :=
  cfg.control.place?.toList ++ callers cfg.frames

/-- The stack below a call for a place: each call has made the one above it. -/
inductive Waits : Category → List Frame → Prop
  | nil (c : Category) : Waits c []
  | cons (frame : Frame) {frames : List Frame} (h : Waits frame.caller frames) :
      Waits frame.callee (frame :: frames)

/-- Between two calls for a sum there is one for a factor, which waits for the inside of a group. -/
theorem Waits.count_sum_le {c : Category} (h : Waits c frames) :
    (c :: callers frames).count .sum ≤ (callers frames).count .factor + 1 := by
  induction h with
  | nil c => cases c <;> decide
  | @cons frame frames _ ih =>
    cases frame with
    | operand level =>
      cases level <;>
        simpa [callers, Frame.caller, Frame.callee, Level.whole, Level.operand] using ih
    | rightOperand o offset left =>
      cases h : o.level <;>
        simpa [callers, Frame.caller, Frame.callee, Level.whole, Level.operand, h] using ih
    | inside offset => simpa [callers, Frame.caller, Frame.callee] using ih

/-- What stands below a call for a place.  For each call that waits for the inside of a group a
group is open, and no more groups are open than may be. -/
structure Below (c : Category) (frames : List Frame) (depth : Nat) : Prop where
  waits : Waits c frames
  groups_le : (callers frames).count .factor ≤ depth
  depth_le : depth ≤ maxDepth

namespace Below

variable {c : Category} {offset : Nat}

/-- A call for a chain waits for an operand. -/
theorem push (frame : Frame) (hframe : frame.caller ≠ .factor)
    (h : Below frame.caller frames depth) : Below frame.callee (frame :: frames) depth := by
  refine ⟨.cons frame h.waits, ?_, h.depth_le⟩
  rw [callers, List.map_cons, List.count_cons_of_ne hframe]
  exact h.groups_le

/-- A call for a factor opens a group. -/
theorem push_inside (h : Below .factor frames depth) (hdepth : depth ≠ maxDepth) (offset : Nat) :
    Below .sum (.inside offset :: frames) (depth + 1) := by
  refine ⟨.cons (.inside offset) h.waits, ?_, Nat.lt_of_le_of_ne h.depth_le hdepth⟩
  rw [callers, List.map_cons, Frame.caller, List.count_cons_self]
  exact Nat.succ_le_succ h.groups_le

theorem pop (h : Below c (frame :: frames) depth) : Below frame.caller frames depth := by
  obtain ⟨hwaits, hgroups, hdepth⟩ := h
  cases hwaits with
  | cons _ hwaits => exact ⟨hwaits, List.count_le_count_cons.trans hgroups, hdepth⟩

/-- The call for a group no longer waits, so its group need not be open any more. -/
theorem pop_inside (h : Below c (.inside offset :: frames) depth) :
    Below .factor frames (depth - 1) := by
  have hgroups := h.groups_le
  rw [callers, List.map_cons, Frame.caller, List.count_cons_self] at hgroups
  exact ⟨h.pop.waits, Nat.le_sub_one_of_lt hgroups, (Nat.sub_le depth 1).trans h.depth_le⟩

end Below

/-- The configurations that calls come to: those below the call on top wait for it. -/
def Config.Within (cfg : Config) : Prop :=
  ∃ c, (∀ p ∈ cfg.control.place?, p = c) ∧ Below c cfg.frames cfg.depth

namespace Config.Within

variable {cfg cfg' : Config} {c : Category}

theorem depth_le (h : cfg.Within) : cfg.depth ≤ maxDepth := by
  obtain ⟨c, -, hbelow⟩ := h
  exact hbelow.depth_le

theorem count_sum_le (h : cfg.Within) : cfg.calls.count .sum ≤ maxDepth + 1 := by
  obtain ⟨c, hplace, hbelow⟩ := h
  have hcalls : cfg.calls.count .sum ≤ (c :: callers cfg.frames).count .sum := by
    unfold Config.calls
    cases hp : cfg.control.place? with
    | none => exact List.count_le_count_cons
    | some p =>
      rw [hplace p hp]
      exact Nat.le_refl _
  calc cfg.calls.count .sum
    _ ≤ (c :: callers cfg.frames).count .sum := hcalls
    _ ≤ (callers cfg.frames).count .factor + 1 := hbelow.waits.count_sum_le
    _ ≤ maxDepth + 1 := Nat.succ_le_succ (hbelow.groups_le.trans hbelow.depth_le)

theorem call (h : Below c frames depth) (s : State) : Within ⟨.call c, frames, s, depth⟩ :=
  ⟨c, by simp [Control.place?], h⟩

theorem extend (h : Below level.whole frames depth) (left : Expr) (s : State) :
    Within ⟨.extend level left, frames, s, depth⟩ :=
  ⟨level.whole, by simp [Control.place?], h⟩

theorem answer (h : Below c frames depth) (r : Except EvalError Expr) (s : State) :
    Within ⟨.answer r, frames, s, depth⟩ :=
  ⟨c, by simp [Control.place?], h⟩

theorem makeCall (h : Below c frames depth) : (makeCall env frames s depth c).Within := by
  cases c with
  | sum => exact call (Below.push (.operand .sum) (Level.whole_ne_factor .sum) h) _
  | product => exact call (Below.push (.operand .product) (Level.whole_ne_factor .product) h) _
  | factor =>
    simp only [Eval.makeCall]
    split
    · next offset rest _ =>
      split
      · exact answer h _ _
      · next hdepth => exact call (h.push_inside hdepth offset) _
    · exact answer h _ _

theorem goOn (h : Below level.whole frames depth) : (goOn level left frames s depth).Within := by
  unfold Eval.goOn
  split
  · next o offset rest _ =>
    split
    · next ho =>
      subst ho
      have hpushed := Below.push (.rightOperand o offset left) (Level.whole_ne_factor o.level) h
      exact call hpushed _
    · exact answer h _ _
  · exact answer h _ _

theorem resume (h : Below c (frame :: frames) depth) :
    (resume env e frames s depth frame).Within := by
  cases frame with
  | operand level => exact extend h.pop _ _
  | rightOperand o offset left =>
    simp only [Eval.resume]
    split
    · exact extend h.pop _ _
    · exact answer h.pop _ _
  | inside offset =>
    simp only [Eval.resume]
    split
    · exact answer h.pop_inside _ _
    · exact answer h.pop _ _

/-- A step stays within the limits. -/
theorem step (h : cfg.Within) (hstep : step env cfg = some cfg') : cfg'.Within := by
  obtain ⟨control, frames, s, depth⟩ := cfg
  obtain ⟨c, hplace, hbelow⟩ := h
  cases control with
  | call c' =>
    obtain rfl : c' = c := hplace c' rfl
    obtain rfl := Option.some.inj hstep
    exact makeCall hbelow
  | extend level left =>
    obtain rfl : level.whole = c := hplace _ rfl
    obtain rfl := Option.some.inj hstep
    exact goOn hbelow
  | answer r =>
    cases frames with
    | nil => cases r <;> cases hstep
    | cons frame frames =>
      cases r with
      | ok e =>
        obtain rfl := Option.some.inj hstep
        exact resume hbelow
      | error err =>
        obtain rfl := Option.some.inj hstep
        exact answer hbelow.pop _ _

/-- A run stays within the limits. -/
theorem reaches (h : cfg.Within) (hreaches : Reaches (Eval.step env) cfg cfg') : cfg'.Within := by
  induction hreaches with
  | refl => exact h
  | tail _ hstep ih => exact ih.step hstep

end Config.Within

/-! ### What a parser has done -/

/-- What a parser for a place has done to the state when it returns an expression. -/
structure Exact (c : Category) (s : State) (e : Expr) (s' : State) : Prop where
  /-- At least one lexeme has been read. -/
  shortens : s'.rest.length < s.rest.length
  /-- The lexemes that have been read write the expression. -/
  writes : ∃ ls, s.rest = ls ++ s'.rest ∧ ls.map (·.token) = e.labels.tokens
  /-- Each node has been given an identifier. -/
  numbers : s'.nextId = s.nextId + e.size
  /-- The rules that had been applied before are still recorded. -/
  records : s.trace.toList <+: s'.trace.toList
  /-- No operator comes next that goes on with the expression. -/
  ends : c.Ends s'.rest

theorem exact_of_run {c : Category} {room : Nat} (h : (c.parser env room).run s = (.ok e, s')) :
    Exact c s e s' := by
  obtain ⟨hreads, hends⟩ := reads_of_run h
  have hrecords := records_run env room c s
  rw [h] at hrecords
  obtain ⟨ls, -, htrace⟩ := hrecords
  refine ⟨(c.parser env room).shortens h, hreads.exists_lexemes, hreads.nextId_eq, ?_, hends⟩
  rw [htrace, List.append_assoc]
  exact List.prefix_append _ _

/-- **A parser is exact about the state.** An expression that the parser for a place returns is
written by the lexemes that have been read, which are at least one; as many identifiers have been
given away as it has nodes, the rules recorded before are still there, and no operator comes next
that goes on with it.  Its calls, made one step at a time from any number of open groups within the
limit, come to an end with its answer, and if this is an expression, all groups opened have been
closed.  At no time in between more than `maxDepth` groups are open, nor do more than `maxDepth + 1`
calls for a sum stand on the stack. -/
theorem run_exact (env : Env) (c : Category) (s : State) (depth : Nat) (hdepth : depth ≤ maxDepth) :
    let r := (c.parser env (maxDepth - depth)).run s
    (∀ e s', r = (.ok e, s') → Exact c s e s') ∧
      (∃ final, r.config [] final ∈ eval (step env) ⟨.call c, [], s, depth⟩ ∧
        (r.1.isOk → final = depth)) ∧
      ∀ cfg, Reaches (step env) ⟨.call c, [], s, depth⟩ cfg →
        cfg.depth ≤ maxDepth ∧ cfg.calls.count .sum ≤ maxDepth + 1 := by
  intro r
  refine ⟨fun e s' h => exact_of_run h, ?_, fun cfg hreaches => ?_⟩
  · obtain ⟨final, hreaches, hfinal⟩ := answers_run env (Nat.add_sub_cancel' hdepth) c s []
    have hstop : step env (r.config [] final) = none := by
      unfold Reply.config
      cases r.1 <;> rfl
    exact ⟨final, mem_eval.mpr ⟨hreaches, hstop⟩, hfinal⟩
  · have hstart : Config.Within ⟨.call c, [], s, depth⟩ :=
      .call ⟨.nil c, Nat.zero_le depth, hdepth⟩ s
    have hwithin := hstart.reaches hreaches
    exact ⟨hwithin.depth_le, hwithin.count_sum_le⟩

/-- The last group that may be opened, as a factor of a product in a sum. -/
theorem run_exact_last_group :
    let env : Env := ⟨.empty, .ieee⟩
    let t : LabelTree := .binary .mul (.group (.atom (.num "3"))) (.atom (.num "4"))
    let ls : List Lexeme :=
      [⟨.leftParen, 1⟩, ⟨.num "3", 2⟩, ⟨.rightParen, 3⟩, ⟨.op .mul, 5⟩, ⟨.num "4", 7⟩]
    let rest : List Lexeme := [⟨.op .add, 9⟩, ⟨.num "5", 11⟩]
    let s : State := .start (ls ++ rest)
    255 ≤ maxDepth ∧ ∃ e s', (product env (maxDepth - 255)).run s = (.ok e, s') ∧
      e.labels = t ∧ s'.rest = rest ∧ Exact .product s e s' ∧
      Reply.config (.ok e, s') [] 255 ∈ eval (step env) ⟨.call .product, [], s, 255⟩ ∧
      ∀ cfg, Reaches (step env) ⟨.call .product, [], s, 255⟩ cfg →
        cfg.depth ≤ maxDepth ∧ cfg.calls.count .sum ≤ maxDepth + 1 := by
  intro env t ls rest s
  have hdepth : 255 ≤ maxDepth := by decide
  have hfits : Fits .product t :=
    .operation (o := .mul) (.of_factor (.group (.of_factor (.atom _) .sum)) .product) (.atom _)
  have hnesting : t.nesting ≤ maxDepth - 255 := by decide
  have hnumerals : (Decimal.read? "3").isSome ∧ (Decimal.read? "4").isSome := by decide +kernel
  have hreadable : ∀ a ∈ t.tokens, a.Readable env.table := by
    simpa [t, LabelTree.tokens, Atom.token, Token.Readable] using hnumerals
  have hls : ls.map (·.token) = t.tokens := rfl
  have hs : s.rest = ls ++ rest := rfl
  obtain ⟨e, s', hreads, hrest, hlabels⟩ := hfits.exists_reads hnesting hreadable hls hs
  have hends : Category.product.Ends s'.rest := by
    rw [hrest]
    change Level.sum ≠ Level.product
    decide
  have hrun : (Category.product.parser env (maxDepth - 255)).run s = (.ok e, s') :=
    run_eq_ok_iff.mpr ⟨hreads, hends⟩
  have hexact := run_exact env .product s 255 hdepth
  rw [hrun] at hexact
  obtain ⟨hstate, ⟨final, heval, hfinal⟩, hlimits⟩ := hexact
  obtain rfl : final = 255 := hfinal rfl
  exact ⟨hdepth, e, s', hrun, hlabels, hrest, hstate e s' rfl, heval, hlimits⟩

end Eval

end AttrCalc
