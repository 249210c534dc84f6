import AttrCalc.Proofs.Token.Lookahead
import AttrCalc.Proofs.Token.Segment

/-!
# What a stream answers

A stream can be asked in two ways: by `step`, which goes on behind an error, and by `next`, which
answers nothing for ever once it has answered with an error.  However the requests are mixed, the
scanner only moves forward.  So the answers cut the source into segments with nothing but white
space between them, and it is the end of the last segment that decides whether anything is left.

## Main definitions

* `TokenStream.Request`, `TokenStream.replies`, `TokenStream.after` : requests to a stream, its
  replies to them, and the stream behind them.
* `Blank`, `Tiles` : white space between two offsets of a source, and answers that stand in it one
  behind another with nothing but white space between them.

## Main results

* `TokenStream.tiles_answers` : the answers of a stream tile its source.
* `TokenStream.halted_after_iff` : a stream is halted once `next` has answered with an error.
* `TokenStream.replies_segment_source` : what the replies to any requests say about the source.
-/

namespace AttrCalc

open Unicode

/-! ### Tilings -/

/-- The offset behind a place. -/
def Span.stop (s : Span) : Nat :=
  s.offset + s.length

/-- Only white space lies between two offsets of a source. -/
structure Blank (source : String) (start stop : Nat) : Prop where
  le : start ≤ stop
  white : ∀ c ∈ (source.toList.drop start).take (stop - start), isWhiteSpace c

namespace Blank

variable {source : String} {i j k : Nat}

theorem refl (source : String) (i : Nat) : Blank source i i :=
  ⟨Nat.le_refl i, by simp⟩

theorem trans (hij : Blank source i j) (hjk : Blank source j k) : Blank source i k := by
  refine ⟨Nat.le_trans hij.le hjk.le, fun c hc => ?_⟩
  have hlength : k - i = j - i + (k - j) := by
    have := hij.le
    have := hjk.le
    omega
  have hdrop : (source.toList.drop i).drop (j - i) = source.toList.drop j := by
    rw [List.drop_drop, Nat.add_sub_cancel' hij.le]
  rw [hlength, List.take_add, hdrop, List.mem_append] at hc
  exact hc.elim (hij.white c) (hjk.white c)

/-- Whether only white space is left does not depend on white space in front of it. -/
theorem white_drop_iff (h : Blank source i j) :
    (∀ c ∈ source.toList.drop i, isWhiteSpace c) ↔
      ∀ c ∈ source.toList.drop j, isWhiteSpace c := by
  have hdrop : (source.toList.drop i).take (j - i) ++ source.toList.drop j =
      source.toList.drop i := by
    have hj : (source.toList.drop i).drop (j - i) = source.toList.drop j := by
      rw [List.drop_drop, Nat.add_sub_cancel' h.le]
    rw [← hj, List.take_append_drop]
  rw [← hdrop]
  simp only [List.mem_append, or_imp, forall_and]
  exact and_iff_right h.white

end Blank

/-- The answers stand in the source from `start` on, one behind another.  Each has its text where it
says, and nothing but white space in front of it. -/
inductive Tiles (source : String) : Nat → List Answer → Prop
  | nil {start : Nat} : Tiles source start []
  | cons {start : Nat} {a : Answer} {as : List Answer} (gap : Blank source start a.span.offset)
      (spells : a.span.Spells source a.text) (rest : Tiles source a.span.stop as) :
      Tiles source start (a :: as)

/-- Where the last answer ends, if there is any. -/
def reach (start : Nat) (as : List Answer) : Nat :=
  as.foldl (fun _ a => a.span.stop) start

namespace Tiles

variable {source : String} {start : Nat} {as bs : List Answer}

theorem append (has : Tiles source start as) (hbs : Tiles source (reach start as) bs) :
    Tiles source start (as ++ bs) := by
  induction has with
  | nil => exact hbs
  | cons gap spells _ ih => exact .cons gap spells (ih hbs)

theorem start_le (h : Tiles source start as) : ∀ a ∈ as, start ≤ a.span.offset := by
  induction h with
  | nil => simp
  | cons gap _ _ ih =>
    refine List.forall_mem_cons.mpr ⟨gap.le, fun b hb => ?_⟩
    exact Nat.le_trans (Nat.le_trans gap.le (Nat.le_add_right ..)) (ih b hb)

/-- Answers that tile a source do not overlap. -/
theorem pairwise (h : Tiles source start as) :
    as.Pairwise fun a b => a.span.stop ≤ b.span.offset := by
  induction h with
  | nil => exact .nil
  | cons _ _ rest ih => exact .cons rest.start_le ih

end Tiles

/-! ### One step -/

namespace Scanner

variable {source : String} {s s' : Scanner} {a : Answer} {start : Nat}

theorem Within.rest_eq (hs : s.Within source) : s.rest = source.toList.drop s.offset := by
  obtain ⟨before, hsource, hcount⟩ := hs
  rw [← hsource, ← hcount, List.drop_left]

theorem within_skipWhiteSpace (hs : s.Within source) :
    s.skipWhiteSpace.Within source ∧ Blank source s.offset s.skipWhiteSpace.offset := by
  obtain ⟨before, hsource, hcount⟩ := id hs
  have hskipped : s.rest.takeWhile isWhiteSpace ++ s.skipWhiteSpace.rest = s.rest :=
    List.takeWhile_append_dropWhile
  refine ⟨⟨before ++ s.rest.takeWhile isWhiteSpace, ?_, ?_⟩, Nat.le_add_right .., fun c hc => ?_⟩
  · rw [List.append_assoc, hskipped, hsource]
  · rw [List.length_append, hcount]
    rfl
  · rw [← hs.rest_eq, ← hskipped, skipWhiteSpace, Nat.add_sub_cancel_left, List.take_left] at hc
    exact List.mem_takeWhile_imp hc

/-- A step without an answer passes over white space. -/
theorem Within.step_none (hs : s.Within source) (h : s.step = (none, s')) :
    s'.Within source ∧ Blank source s.offset s'.offset := by
  unfold Scanner.step at h
  dsimp only at h
  split at h
  · obtain rfl : s.skipWhiteSpace = s' := by simpa using h
    exact within_skipWhiteSpace hs
  · simp at h

/-- A step with an answer passes over white space up to the answer, and ends behind it. -/
theorem Within.blank_step (hs : s.Within source) (h : s.step = (some a, s')) :
    Blank source s.offset a.span.offset ∧ s'.offset = a.span.stop := by
  obtain ⟨gap, hgap, hrest, -, hspan, hoffset⟩ := step_eq_some h
  refine ⟨⟨by rw [hspan]; exact Nat.le_add_right .., fun c hc => ?_⟩, hoffset⟩
  rw [← hs.rest_eq, hrest, hspan, Nat.add_sub_cancel_left, List.take_left] at hc
  exact hgap c hc

end Scanner

/-! ### Requests -/

namespace TokenStream

/-- The two ways to ask a stream for its next answer. -/
inductive Request where
  | next
  | step
deriving DecidableEq, Repr

/-- The reply to a request, and the stream behind it. -/
def ask (s : TokenStream) : Request → Option Answer × TokenStream
  | .next => s.next
  | .step => s.step

/-- The requests with their replies. -/
def replies : TokenStream → List Request → List (Request × Option Answer)
  | _, [] => []
  | s, r :: rs => (r, (s.ask r).1) :: (s.ask r).2.replies rs

/-- The answers among the replies. -/
def answers (s : TokenStream) (rs : List Request) : List Answer :=
  (s.replies rs).filterMap (·.2)

/-- The stream after some requests. -/
def after (s : TokenStream) (rs : List Request) : TokenStream :=
  rs.foldl (fun s r => (s.ask r).2) s

variable {source : String} {s : TokenStream} {r : Request} {rs : List Request} {start : Nat}

theorem next_of_halted (h : s.halted) : s.next = (none, s) := by
  rw [next, if_pos h]

/-- A stream that is not halted answers `next` as it answers `step`, and goes as far. -/
theorem next_of_not_halted (h : ¬ s.halted) :
    s.next.1 = s.step.1 ∧ s.next.2.scanner = s.step.2.scanner := by
  rw [next, if_neg h]
  unfold step
  dsimp only
  split
  · next hs => simp [hs]
  · next hs => simp [hs]

/-- A request is served by a step of the scanner, unless the stream is halted. -/
theorem ask_eq (s : TokenStream) (r : Request) :
    (s.ask r).1 = s.scanner.step.1 ∧ (s.ask r).2.scanner = s.scanner.step.2 ∨
      s.halted ∧ r = .next ∧ s.ask r = (none, s) := by
  cases r with
  | step => exact .inl ⟨rfl, rfl⟩
  | next =>
    by_cases h : s.halted
    · exact .inr ⟨h, rfl, next_of_halted h⟩
    · exact .inl (next_of_not_halted h)

/-- A stream is halted by an error that it gives as the reply to `next`, and then for good. -/
theorem halted_ask_iff : (s.ask r).2.halted ↔
    s.halted ∨ ∃ e, (.next, some (.error e)) = (r, (s.ask r).1) := by
  cases r with
  | step => simp [ask, step]
  | next =>
    by_cases h : s.halted
    · simp [ask, next_of_halted h, h]
    · simp only [ask, next, if_neg h, Prod.mk.injEq, true_and]
      split
      · simp
      · next hanswer _ =>
        refine iff_of_false Bool.false_ne_true ?_
        rintro (hs | ⟨e, he⟩)
        · exact h hs
        · exact hanswer e he.symm

theorem halted_after_iff : (s.after rs).halted ↔
    s.halted ∨ ∃ e, (.next, some (.error e)) ∈ s.replies rs := by
  induction rs generalizing s with
  | nil => simp [after, replies]
  | cons r rs ih =>
    have hafter : s.after (r :: rs) = (s.ask r).2.after rs := rfl
    simp only [hafter, ih, halted_ask_iff, replies, List.mem_cons, exists_or, or_assoc]

/-- The invariant of a stream: it is at a place of its source, with nothing but white space behind
the last answer, which ended at `start`. -/
theorem ask_within (hs : s.scanner.Within source) (hstart : Blank source start s.scanner.offset) :
    (s.ask r).2.scanner.Within source ∧ Tiles source start (s.ask r).1.toList ∧
      Blank source (reach start (s.ask r).1.toList) (s.ask r).2.scanner.offset := by
  rcases s.ask_eq r with ⟨hanswer, hscanner⟩ | ⟨-, -, hask⟩
  · rw [hanswer, hscanner]
    match hstep : s.scanner.step with
    | (none, s') =>
      obtain ⟨hs', hblank⟩ := hs.step_none hstep
      exact ⟨hs', .nil, hstart.trans hblank⟩
    | (some a, s') =>
      obtain ⟨hspells, hs'⟩ := hs.step hstep
      obtain ⟨hblank, hoffset⟩ := hs.blank_step hstep
      refine ⟨hs', .cons (hstart.trans hblank) hspells .nil, ?_⟩
      rw [hoffset]
      exact .refl ..
  · rw [hask]
    exact ⟨hs, .nil, hstart⟩

theorem answers_cons (s : TokenStream) (r : Request) (rs : List Request) :
    s.answers (r :: rs) = (s.ask r).1.toList ++ (s.ask r).2.answers rs := by
  rw [answers, replies, List.filterMap_cons, answers]
  cases (s.ask r).1 <;> rfl

/-- **The answers of a stream tile its source**, and the stream stays behind the last one. -/
theorem tiles_answers (rs : List Request) (hs : s.scanner.Within source)
    (hstart : Blank source start s.scanner.offset) :
    (s.after rs).scanner.Within source ∧ Tiles source start (s.answers rs) ∧
      Blank source (reach start (s.answers rs)) (s.after rs).scanner.offset := by
  induction rs generalizing s start with
  | nil => exact ⟨hs, .nil, hstart⟩
  | cons r rs ih =>
    obtain ⟨hs', htiles, hblank⟩ := ask_within (r := r) hs hstart
    obtain ⟨hs'', htiles', hblank'⟩ := ih hs' hblank
    rw [answers_cons]
    refine ⟨hs'', htiles.append htiles', ?_⟩
    rw [reach, List.foldl_append]
    exact hblank'

/-- **Scanning loses nothing and invents nothing.** Let a stream serve any requests.  Its answers
are segments of the source: each spells its text at its place, they do not overlap, and only white
space lies in front of the first and between neighbours.  Then `step` has nothing to answer just if
only white space is left behind the last segment; and `next` answers nothing and consumes nothing if
it has answered with an error before, and what `step` would otherwise. -/
theorem replies_segment_source (source : String) (rs : List Request) :
    let answers := (ofString source).answers rs
    let s := (ofString source).after rs
    let failed := ∃ e, (.next, some (.error e)) ∈ (ofString source).replies rs
    Tiles source 0 answers ∧
      answers.Pairwise (fun a b => a.span.stop ≤ b.span.offset) ∧
      (s.step.1 = none ↔ ∀ c ∈ source.toList.drop (reach 0 answers), isWhiteSpace c) ∧
      (failed → s.next = (none, s)) ∧
      (¬ failed → s.next.1 = s.step.1 ∧ s.next.2.scanner = s.step.2.scanner) := by
  intro answers s failed
  have hstart : (ofString source).scanner.Within source := Scanner.within_ofString source
  obtain ⟨hs, htiles, hblank⟩ := tiles_answers rs hstart (.refl source 0)
  have hhalted : s.halted ↔ failed := by
    simp only [s, halted_after_iff, failed, ofString, Bool.false_eq_true, false_or]
  refine ⟨htiles, htiles.pairwise, ?_, ?_, ?_⟩
  · have hleft := Scanner.step_eq_none_iff (s := s.scanner)
    rw [hs.rest_eq] at hleft
    exact hleft.trans hblank.white_drop_iff.symm
  · exact fun h => next_of_halted (hhalted.mpr h)
  · exact fun h => next_of_not_halted (fun hh => h (hhalted.mp hh))

end TokenStream

end AttrCalc
