import AttrCalc.Proofs.Expr.LabelTree

/-!
# Beginnings of expressions

The beginning of an expression awaits an operand or an operator, and has some groups open.  That is
all it takes to tell which token can come next.  So a machine that remembers just this reads exactly
the beginnings of expressions: a tree takes it from an operand to an operator and leaves the groups
alone, and conversely what the machine has read is a chain in front of the next operand inside each
of the open groups, which can be closed.

## Main definitions

* `unclosed` : the opening parentheses of some lexemes that no closing one belongs to.
* `Progress`, `Progress.step`, `progress` : what a beginning awaits, as far as it is one.
* `Progress.Steps` : the steps of the machine, case by case.
* `Opens`, `Inside` : beginnings in front of an operand, and in front of an expression in groups.

## Main results

* `Progress.run_tokens` : the tokens of a tree take the machine from an operand to an operator.
* `opened_of_progress` : the machine remembers the unclosed parentheses.
* `exists_tokens_eq_append_of_progress` : what the machine reads can be completed.
-/

namespace AttrCalc

/-! ### Parentheses that belong together -/

/-- The opening parentheses that are still open after a lexeme, the last one first.  A closing one
belongs to the last opening one that is still open. -/
def Lexeme.track (opened : List Lexeme) (l : Lexeme) : List Lexeme :=
  match l.token with
  | .leftParen => l :: opened
  | .rightParen => opened.tail
  | _ => opened

/-- The opening parentheses that no closing one belongs to, the last one first. -/
def unclosed (ls : List Lexeme) : List Lexeme :=
  ls.foldl Lexeme.track []

theorem Lexeme.track_subset (opened : List Lexeme) (l : Lexeme) :
    l.track opened ⊆ l :: opened := by
  unfold track
  split
  · exact List.Subset.refl _
  · exact List.subset_cons_of_subset _ (List.tail_subset _)
  · exact List.subset_cons_self _ _

theorem foldl_track_subset (opened ls : List Lexeme) :
    ls.foldl Lexeme.track opened ⊆ opened ++ ls := by
  induction ls generalizing opened with
  | nil => simp
  | cons l ls ih =>
    intro l' hl'
    rcases List.mem_append.mp (ih (l.track opened) hl') with hopened | hls
    · rcases List.mem_cons.mp (l.track_subset opened hopened) with rfl | hopened
      · simp
      · exact List.mem_append_left _ hopened
    · simp [hls]

theorem unclosed_subset (ls : List Lexeme) : unclosed ls ⊆ ls :=
  foldl_track_subset [] ls

/-! ### The machine -/

/-- What can come next. -/
inductive Awaits where
  | operand
  | operator
deriving DecidableEq, Repr

/-- What can come next, and the opening parentheses of the groups around it, the last one first. -/
structure Progress where
  awaits : Awaits
  opened : List Lexeme
deriving DecidableEq, Repr

namespace Progress

/-- The progress with a further lexeme, if it can come next. -/
def step : Progress → Lexeme → Option Progress
  | ⟨.operand, opened⟩, ⟨.leftParen, offset⟩ => some ⟨.operand, ⟨.leftParen, offset⟩ :: opened⟩
  | ⟨.operand, opened⟩, ⟨.num _, _⟩ => some ⟨.operator, opened⟩
  | ⟨.operand, opened⟩, ⟨.ident _, _⟩ => some ⟨.operator, opened⟩
  | ⟨.operator, opened⟩, ⟨.op _, _⟩ => some ⟨.operand, opened⟩
  | ⟨.operator, _ :: opened⟩, ⟨.rightParen, _⟩ => some ⟨.operator, opened⟩
  | _, _ => none

/-- The steps of the machine.  An operand is an atom, or a group, which is opened; behind an operand
comes an operator, or the end of the group around it. -/
inductive Steps : Progress → Lexeme → Progress → Prop
  | atom (a : Atom) (offset : Nat) (opened : List Lexeme) :
      Steps ⟨.operand, opened⟩ ⟨a.token, offset⟩ ⟨.operator, opened⟩
  | openGroup (offset : Nat) (opened : List Lexeme) :
      Steps ⟨.operand, opened⟩ ⟨.leftParen, offset⟩ ⟨.operand, ⟨.leftParen, offset⟩ :: opened⟩
  | op (o : Operator) (offset : Nat) (opened : List Lexeme) :
      Steps ⟨.operator, opened⟩ ⟨.op o, offset⟩ ⟨.operand, opened⟩
  | closeGroup (offset : Nat) (l : Lexeme) (opened : List Lexeme) :
      Steps ⟨.operator, l :: opened⟩ ⟨.rightParen, offset⟩ ⟨.operator, opened⟩

/-- The progress with further lexemes. -/
def run (st : Progress) (ls : List Lexeme) : Option Progress :=
  ls.foldlM step st

variable {st st' : Progress} {opened : List Lexeme} {l : Lexeme} {ls : List Lexeme}

theorem step_eq_some_iff : st.step l = some st' ↔ Steps st l st' := by
  constructor
  · intro h
    unfold step at h
    split at h
    · obtain rfl := Option.some.inj h
      exact .openGroup _ _
    · next text _ =>
      obtain rfl := Option.some.inj h
      exact .atom (.num text) _ _
    · next name _ =>
      obtain rfl := Option.some.inj h
      exact .atom (.ident name) _ _
    · obtain rfl := Option.some.inj h
      exact .op _ _ _
    · obtain rfl := Option.some.inj h
      exact .closeGroup _ _ _
    · simp at h
  · rintro (⟨a, offset, opened⟩ | _ | _ | _)
    · cases a <;> rfl
    · rfl
    · rfl
    · rfl

theorem run_nil : st.run [] = some st :=
  rfl

theorem run_cons : st.run (l :: ls) = (st.step l).bind (·.run ls) :=
  List.foldlM_cons

theorem run_append {ls' : List Lexeme} : st.run (ls ++ ls') = (st.run ls).bind (·.run ls') :=
  List.foldlM_append

theorem run_singleton : st.run [l] = st.step l := by
  rw [run_cons]
  exact Option.bind_fun_some _

theorem opened_of_step (h : st.step l = some st') : st'.opened = l.track st.opened := by
  cases step_eq_some_iff.mp h with
  | atom a => cases a <;> rfl
  | openGroup | op | closeGroup => rfl

theorem opened_of_run (h : st.run ls = some st') :
    st'.opened = ls.foldl Lexeme.track st.opened := by
  induction ls generalizing st with
  | nil =>
    obtain rfl : st = st' := by simpa [run_nil] using h
    rfl
  | cons l ls ih =>
    rw [run_cons] at h
    obtain ⟨st₁, hstep, hrun⟩ := Option.bind_eq_some_iff.mp h
    rw [ih hrun, opened_of_step hstep, List.foldl_cons]

/-! ### Trees are read -/

/-- The tokens of a tree take the machine from an operand to an operator.  The groups around the
tree stay open. -/
theorem run_tokens : (t : LabelTree) → (opened ls : List Lexeme) → ls.map (·.token) = t.tokens →
    run ⟨.operand, opened⟩ ls = some ⟨.operator, opened⟩
  | .atom a, opened, ls, h => by
    obtain ⟨⟨_, offset⟩, rfl, rfl⟩ := List.map_eq_singleton_iff.mp h
    exact run_singleton.trans (step_eq_some_iff.mpr (.atom a offset opened))
  | .group inner, opened, ls, h => by
    obtain ⟨ls', ls'', rfl, h', h''⟩ := List.map_eq_append_iff.mp h
    obtain ⟨⟨_, offset⟩, ls, rfl, rfl, hinner⟩ := List.map_eq_cons_iff.mp h'
    obtain ⟨⟨_, offset'⟩, rfl, rfl⟩ := List.map_eq_singleton_iff.mp h''
    have hrun := run_tokens inner (⟨.leftParen, offset⟩ :: opened) ls hinner
    rw [List.cons_append, run_cons, step, Option.bind_some, run_append, hrun]
    rfl
  | .binary o left right, opened, ls, h => by
    obtain ⟨ls₁, ls', rfl, hleft, h'⟩ := List.map_eq_append_iff.mp h
    obtain ⟨⟨_, offset⟩, ls₂, rfl, rfl, hright⟩ := List.map_eq_cons_iff.mp h'
    rw [run_append, run_tokens left opened ls₁ hleft, Option.bind_some, run_cons, step,
      Option.bind_some, run_tokens right opened ls₂ hright]

end Progress

/-- What the lexemes await, if an expression can begin with them. -/
def progress (ls : List Lexeme) : Option Progress :=
  Progress.run ⟨.operand, []⟩ ls

theorem progress_concat {ls : List Lexeme} {l : Lexeme} :
    progress (ls ++ [l]) = (progress ls).bind (·.step l) := by
  simp only [progress, Progress.run_append, Progress.run_singleton]

theorem opened_of_progress {ls : List Lexeme} {st : Progress} (h : progress ls = some st) :
    st.opened = unclosed ls :=
  Progress.opened_of_run h

/-! ### The last lexeme -/

/-- The last token behind which an operand is awaited, or an operator. -/
def Awaits.Follows : Awaits → Token → Prop
  | operand, a => a = .leftParen ∨ ∃ o, a = .op o
  | operator, a => a = .rightParen ∨ ∃ b : Atom, a = b.token

theorem Progress.follows_of_step {st st' : Progress} {l : Lexeme} (h : st.step l = some st') :
    st'.awaits.Follows l.token := by
  cases step_eq_some_iff.mp h with
  | atom a => exact .inr ⟨a, rfl⟩
  | openGroup => exact .inl rfl
  | op o => exact .inr ⟨o, rfl⟩
  | closeGroup => exact .inl rfl

/-- What is awaited, follows the last lexeme, unless nothing has been read. -/
theorem follows_of_progress {ls : List Lexeme} {l : Lexeme} {st : Progress}
    (h : progress (ls ++ [l]) = some st) : st.awaits.Follows l.token := by
  rw [progress_concat] at h
  obtain ⟨st', -, hstep⟩ := Option.bind_eq_some_iff.mp h
  exact Progress.follows_of_step hstep

/-! ### What has been read -/

/-- Tokens in front of an operand: with any operand behind them, an expression is written. -/
def Opens (c : List Token) : Prop :=
  ∀ {f : LabelTree}, Fits .factor f → ∃ t, Fits .sum t ∧ t.tokens = c ++ f.tokens

theorem opens_nil : Opens [] := fun {f} hf => ⟨f, hf.of_factor .sum, rfl⟩

/-- An operation with the expression before the operator and a further operand. -/
theorem Fits.exists_operation {e f : LabelTree} (he : Fits .sum e) (hf : Fits .factor f)
    (o : Operator) : ∃ t, Fits .sum t ∧ t.tokens = e.tokens ++ .op o :: f.tokens := by
  have hchain {c : Category} (hc : o.level.whole = c) {e : LabelTree} (he : Fits c e) :
      Fits c (.binary o e f) := by
    subst hc
    exact .operation he (hf.of_factor _)
  cases ho : o.level with
  | sum => exact ⟨.binary o e f, hchain (by rw [ho]; rfl) he, rfl⟩
  | product =>
    have hproduct : o.level.whole = .product := by rw [ho]; rfl
    by_cases hsum : e.IsOperation .sum
    · cases e with
      | atom | group => exact hsum.elim
      | binary o' left right =>
        -- The new operation binds more tightly, so it takes the place of the right operand.
        have ho' : o'.level = .sum := hsum
        obtain ⟨hl, hr, -, hadmits⟩ := LabelTree.canonical_binary_iff.mp he.canonical.1
        rw [ho'] at hadmits
        have hright : Fits .product (.binary o right f) :=
          hchain hproduct (fits_iff.mpr ⟨hr, hadmits⟩)
        have hwhole : Fits o'.level.whole (.binary o' left (.binary o right f)) := by
          refine .operation ?_ ?_ <;> rw [ho']
          · exact fits_sum_iff.mpr hl
          · exact hright
        rw [ho'] at hwhole
        exact ⟨_, hwhole, by simp [LabelTree.tokens]⟩
    · have he' : Fits .product e := fits_iff.mpr ⟨he.canonical.1, hsum⟩
      exact ⟨.binary o e f, .operand .sum (hchain hproduct he'), rfl⟩

theorem Fits.opens_op {e : LabelTree} (he : Fits .sum e) (o : Operator) :
    Opens (e.tokens ++ [.op o]) := by
  intro f hf
  obtain ⟨t, ht, htokens⟩ := he.exists_operation hf o
  exact ⟨t, ht, by simp [htokens]⟩

/-- Tokens in front of an expression inside a number of groups: in each group, what precedes the
next one stands in front of an operand. -/
inductive Inside : Nat → List Token → Prop
  | nil : Inside 0 []
  | group {n : Nat} {q c : List Token} (hq : Inside n q) (hc : Opens c) :
      Inside (n + 1) (q ++ (c ++ [.leftParen]))

/-- With the groups closed behind an expression, an expression is written. -/
theorem Inside.exists_close {n : Nat} {q : List Token} (hq : Inside n q) {e : LabelTree}
    (he : Fits .sum e) :
    ∃ t, Fits .sum t ∧ t.tokens = q ++ e.tokens ++ List.replicate n .rightParen := by
  induction hq generalizing e with
  | nil => exact ⟨e, he, by simp⟩
  | @group n q c _ hc ih =>
    obtain ⟨t, ht, htokens⟩ := hc (Fits.group he)
    obtain ⟨u, hu, hutokens⟩ := ih ht
    refine ⟨u, hu, ?_⟩
    rw [hutokens, htokens]
    simp [LabelTree.tokens, List.replicate_succ]

/-- The tokens that the last group, or the whole, begins with, by what they await: they stand in
front of an operand, or are an expression. -/
def Awaits.Reached : Awaits → List Token → Prop
  | operand, c => Opens c
  | operator, c => ∃ e, Fits .sum e ∧ e.tokens = c

/-- The tokens lead into as many groups as the progress says, and from there to what it awaits. -/
def Progress.Describes (st : Progress) (ts : List Token) : Prop :=
  ∃ q c, ts = q ++ c ∧ Inside st.opened.length q ∧ st.awaits.Reached c

namespace Progress

variable {st st' : Progress} {l : Lexeme} {ls : List Lexeme} {ts : List Token}

theorem Describes.step (h : st.Describes ts) (hstep : st.step l = some st') :
    st'.Describes (ts ++ [l.token]) := by
  obtain ⟨q, c, rfl, hq, hc⟩ := h
  cases step_eq_some_iff.mp hstep with
  | atom a =>
    obtain ⟨e, he, htokens⟩ := hc (.atom a)
    exact ⟨q, c ++ [a.token], by simp, hq, e, he, by rw [htokens, LabelTree.tokens]⟩
  | openGroup => exact ⟨q ++ (c ++ [.leftParen]), [], by simp, .group hq hc, opens_nil⟩
  | op o =>
    obtain ⟨e, he, rfl⟩ := hc
    exact ⟨q, e.tokens ++ [.op o], by simp, hq, he.opens_op o⟩
  | closeGroup =>
    obtain ⟨e, he, rfl⟩ := hc
    cases hq with
    | @group _ q c hq hc =>
      -- The group is an operand behind what has been read in front of it.
      obtain ⟨t, ht, htokens⟩ := hc (.group he)
      exact ⟨q, t.tokens, by simp [htokens, LabelTree.tokens], hq, t, ht, rfl⟩

theorem Describes.run (h : st.Describes ts) (hrun : st.run ls = some st') :
    st'.Describes (ts ++ ls.map (·.token)) := by
  induction ls generalizing st ts with
  | nil =>
    obtain rfl : st = st' := by simpa [run_nil] using hrun
    simpa using h
  | cons l ls ih =>
    rw [run_cons] at hrun
    obtain ⟨st₁, hstep, hrun⟩ := Option.bind_eq_some_iff.mp hrun
    simpa using ih (h.step hstep) hrun

end Progress

theorem describes_of_progress {ls : List Lexeme} {st : Progress} (h : progress ls = some st) :
    st.Describes (ls.map (·.token)) := by
  have hstart : Progress.Describes ⟨.operand, []⟩ [] := ⟨[], [], rfl, .nil, opens_nil⟩
  simpa using hstart.run h

/-- What has been read can be completed: an operand is added if one is awaited, and all groups are
closed. -/
theorem exists_tokens_eq_append_of_progress {ls : List Lexeme} {st : Progress}
    (h : progress ls = some st) :
    ∃ t ts, Fits .sum t ∧ t.tokens = ls.map (·.token) ++ ts := by
  obtain ⟨q, c, hls, hq, hc⟩ := describes_of_progress h
  rw [hls]
  cases hawaits : st.awaits with
  | operand =>
    rw [hawaits] at hc
    obtain ⟨e, he, htokens⟩ := hc (.atom (.ident ""))
    obtain ⟨t, ht, hwhole⟩ := hq.exists_close he
    exact ⟨t, .ident "" :: List.replicate st.opened.length .rightParen, ht, by
      simp [hwhole, htokens, LabelTree.tokens, Atom.token]⟩
  | operator =>
    rw [hawaits] at hc
    obtain ⟨e, he, rfl⟩ := hc
    obtain ⟨t, ht, hwhole⟩ := hq.exists_close he
    exact ⟨t, List.replicate st.opened.length .rightParen, ht, hwhole⟩

/-- What has been read is an expression, if an operator could come next and no group is open. -/
theorem exists_tokens_eq_of_progress {ls : List Lexeme} (h : progress ls = some ⟨.operator, []⟩) :
    ∃ t, Fits .sum t ∧ t.tokens = ls.map (·.token) := by
  obtain ⟨q, c, hls, hq, e, he, rfl⟩ := describes_of_progress h
  cases hq
  exact ⟨e, he, hls.symm⟩

end AttrCalc
