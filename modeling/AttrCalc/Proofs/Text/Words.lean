import AttrCalc.Text.Words
import Mathlib.Data.List.TakeWhile

/-!
# Words and normalised texts

White space cuts a text into words, and normalisation puts a single blank between neighbours.  A
normalised text has the same words, so whatever depends on the words alone does not see the
difference.  Where a character other than white space cuts a text, normalisation works on both sides
of it apart, up to a blank next to the character.

## Main definitions

* `White`, `Solid` : characters all of which are white space, or none.
* `blankBefore` : the blank that normalisation leaves behind a character, if another word follows.

## Main results

* `splitOnP_flatMap_concat` : lines that are ended by a separator each.
* `words_append_of_head` : white space ends a word.
* `exists_of_words_eq_cons` : where the first word of a text stands.
* `words_normalizeChars` : normalisation keeps the words.
* `normalizeChars_append` : normalisation in front of a character that is not white space.
* `trimChars_eq_of_solid` : a trimmed text that is a single word is already normalised.
-/

namespace AttrCalc.Text

open Unicode

/-- All of the characters are white space. -/
def White (cs : List Char) : Prop :=
  ∀ c ∈ cs, isWhiteSpace c

instance (cs : List Char) : Decidable (White cs) :=
  List.decidableBAll _ _

/-- None of the characters is white space. -/
def Solid (cs : List Char) : Prop :=
  ∀ c ∈ cs, isWhiteSpace c = false

variable {c : Char} {cs ds gap w : List Char} {ws : List (List Char)}

/-! ### Lines -/

section Lines

variable {α : Type} [BEq α] [LawfulBEq α] {sep : α} {line : List α}

theorem splitOnP_of_notMem (h : sep ∉ line) : line.splitOnP (· == sep) = [line] :=
  List.splitOnP_eq_singleton fun _ hb => beq_eq_false_iff_ne.mpr (ne_of_mem_of_not_mem hb h)

/-- The first separator ends the first line. -/
theorem splitOnP_append_of_notMem (h : sep ∉ line) (rest : List α) :
    (line ++ sep :: rest).splitOnP (· == sep) = line :: rest.splitOnP (· == sep) :=
  List.splitOnP_append_cons_of_forall_mem
    (fun _ hb => beq_eq_false_iff_ne.mpr (ne_of_mem_of_not_mem hb h)) _ (beq_self_eq_true _) _

/-- What is ended by a separator each can be cut apart again, if the separator occurs nowhere
else. -/
theorem splitOnP_flatMap_concat (lines : List (List α)) (h : ∀ line ∈ lines, sep ∉ line) :
    (lines.flatMap (· ++ [sep])).splitOnP (· == sep) = lines ++ [[]] := by
  induction lines with
  | nil => rfl
  | cons line lines ih =>
    obtain ⟨hline, hlines⟩ := List.forall_mem_cons.mp h
    rw [List.flatMap_cons, List.append_assoc, List.singleton_append,
      splitOnP_append_of_notMem hline, ih hlines, List.cons_append]

end Lines

/-! ### Words -/

theorem words_nil : words [] = [] :=
  rfl

theorem words_append_cons (cs ds : List Char) (hc : isWhiteSpace c) :
    words (cs ++ c :: ds) = words cs ++ words ds := by
  simp only [words, List.splitOnP_append_cons cs ds hc, List.filter_append]

theorem words_cons_of_white (hc : isWhiteSpace c) : words (c :: cs) = words cs :=
  words_append_cons [] cs hc

theorem words_append_of_white (hgap : White gap) : words (gap ++ cs) = words cs := by
  induction gap with
  | nil => rfl
  | cons c gap ih =>
    rw [List.cons_append, words_cons_of_white (hgap c List.mem_cons_self)]
    exact ih fun d hd => hgap d (List.mem_cons_of_mem c hd)

theorem words_of_white (h : White cs) : words cs = [] := by
  rw [← List.append_nil cs, words_append_of_white h, words_nil]

/-- White space ends a word. -/
theorem words_append_of_head (h : ∀ d ∈ ds.head?, isWhiteSpace d) :
    words (cs ++ ds) = words cs ++ words ds := by
  match ds with
  | [] => simp [words_nil]
  | d :: ds =>
    have hd : isWhiteSpace d := h d rfl
    rw [words_append_cons _ _ hd, words_cons_of_white hd]

theorem words_of_solid (h : Solid w) (hw : w ≠ []) : words w = [w] := by
  simp [words, List.splitOnP_eq_singleton h, hw]

/-- The first word of a text that does not start with white space. -/
theorem words_cons_of_solid (cs : List Char) (hc : isWhiteSpace c = false) :
    ∃ w rest, cs = w ++ rest ∧ Solid (c :: w) ∧ (∀ d ∈ rest.head?, isWhiteSpace d) ∧
      words (c :: cs) = (c :: w) :: words rest := by
  let solid (d : Char) : Bool := !isWhiteSpace d
  have hw : Solid (c :: cs.takeWhile solid) := by
    refine List.forall_mem_cons.mpr ⟨hc, fun d hd => ?_⟩
    simpa [solid] using List.mem_takeWhile_imp hd
  have hrest : ∀ d ∈ (cs.dropWhile solid).head?, isWhiteSpace d := by
    intro d hd
    simpa [solid, Option.mem_def.mp hd] using List.head?_dropWhile_not solid cs
  refine ⟨cs.takeWhile solid, cs.dropWhile solid, List.takeWhile_append_dropWhile.symm, hw,
    hrest, ?_⟩
  have hsplit : c :: cs = (c :: cs.takeWhile solid) ++ cs.dropWhile solid := by
    rw [List.cons_append, List.takeWhile_append_dropWhile]
  rw [hsplit, words_append_of_head hrest, words_of_solid hw (by simp)]
  rfl

theorem words_eq_nil_iff : words cs = [] ↔ White cs := by
  refine ⟨fun h => ?_, words_of_white⟩
  induction cs with
  | nil => simp [White]
  | cons c cs ih =>
    by_cases hc : isWhiteSpace c
    · rw [words_cons_of_white hc] at h
      exact List.forall_mem_cons.mpr ⟨hc, ih h⟩
    · obtain ⟨w, rest, -, -, -, hwords⟩ := words_cons_of_solid cs (by simpa using hc)
      simp [hwords] at h

/-- Where the first word of a text stands. -/
theorem exists_of_words_eq_cons (h : words cs = w :: ws) :
    ∃ gap rest, cs = gap ++ (w ++ rest) ∧ White gap ∧ w ≠ [] ∧ Solid w ∧
      (∀ d ∈ rest.head?, isWhiteSpace d) ∧ words rest = ws := by
  induction cs with
  | nil => simp [words_nil] at h
  | cons c cs ih =>
    by_cases hc : isWhiteSpace c
    · rw [words_cons_of_white hc] at h
      obtain ⟨gap, rest, rfl, hgap, hword⟩ := ih h
      exact ⟨c :: gap, rest, rfl, List.forall_mem_cons.mpr ⟨hc, hgap⟩, hword⟩
    · obtain ⟨w', rest, rfl, hw', hrest, hwords⟩ :=
        words_cons_of_solid cs (by simpa using hc)
      obtain ⟨rfl, rfl⟩ := List.cons.inj (hwords.symm.trans h)
      exact ⟨[], rest, rfl, by simp [White], by simp, hw', hrest, rfl⟩

/-! ### Normalised texts -/

theorem normalizeChars_of_words_eq (h : words cs = words ds) :
    normalizeChars cs = normalizeChars ds := by
  rw [normalizeChars, normalizeChars, h]

theorem normalizeChars_of_white (h : White cs) : normalizeChars cs = [] := by
  rw [normalizeChars, words_of_white h]
  rfl

theorem normalizeChars_of_solid (h : Solid w) : normalizeChars w = w := by
  by_cases hw : w = []
  · rw [hw]
    rfl
  · rw [normalizeChars, words_of_solid h hw]
    simp [List.intercalate]

/-- The blank that normalisation leaves behind a character: there is one if white space follows and
then another word. -/
def blankBefore (cs : List Char) : List Char :=
  if cs.head?.any isWhiteSpace ∧ words cs ≠ [] then [' '] else []

theorem white_blankBefore (cs : List Char) : White (blankBefore cs) := by
  unfold blankBefore
  split
  · simpa [White] using (by decide : isWhiteSpace ' ')
  · simp [White]

theorem normalizeChars_cons_of_white (hc : isWhiteSpace c) :
    normalizeChars (c :: cs) = normalizeChars cs :=
  normalizeChars_of_words_eq (words_cons_of_white hc)

theorem intercalate_cons_cons (c : Char) (w : List Char) (ws : List (List Char)) :
    [' '].intercalate ((c :: w) :: ws) = c :: [' '].intercalate (w :: ws) := by
  cases ws <;> simp [List.intercalate]

theorem normalizeChars_cons_of_solid (hc : isWhiteSpace c = false) :
    normalizeChars (c :: cs) = c :: (blankBefore cs ++ normalizeChars cs) := by
  obtain ⟨w, rest, rfl, hw, hrest, hwords⟩ := words_cons_of_solid cs hc
  rw [normalizeChars, hwords, intercalate_cons_cons, normalizeChars]
  congr 1
  match w with
  | d :: w =>
    have hd : isWhiteSpace d = false := hw d (by simp)
    have hsolid : Solid (d :: w) := fun e he => hw e (List.mem_cons_of_mem c he)
    rw [words_append_of_head hrest, words_of_solid hsolid (by simp)]
    simp [blankBefore, hd]
  | [] =>
    rw [List.nil_append]
    match rest with
    | [] => simp [blankBefore, words_nil, List.intercalate]
    | d :: rest =>
      have hd : isWhiteSpace d := hrest d rfl
      by_cases hempty : words (d :: rest) = []
      · simp [blankBefore, hempty, List.intercalate]
      · obtain ⟨v, vs, hvs⟩ := List.exists_cons_of_ne_nil hempty
        rw [hvs, List.intercalate_cons_cons]
        simp [blankBefore, hd, hvs]

/-- Words stay what they are when they are joined by blanks. -/
theorem words_intercalate (h : ∀ w ∈ ws, w ≠ [] ∧ Solid w) : words ([' '].intercalate ws) = ws := by
  induction ws with
  | nil => rfl
  | cons w ws ih =>
    obtain ⟨⟨hne, hsolid⟩, hrest⟩ := List.forall_mem_cons.mp h
    match ws with
    | [] => rw [List.intercalate_singleton, words_of_solid hsolid hne]
    | v :: vs =>
      rw [List.intercalate_cons_cons, List.append_assoc, List.singleton_append,
        words_append_cons _ _ (by decide), ih hrest, words_of_solid hsolid hne]
      rfl

theorem solid_of_mem_words (h : w ∈ words cs) : w ≠ [] ∧ Solid w := by
  generalize hws : words cs = ws at h
  induction ws generalizing cs with
  | nil => exact absurd h List.not_mem_nil
  | cons v ws ih =>
    obtain ⟨gap, rest, -, -, hne, hsolid, -, hrest⟩ := exists_of_words_eq_cons hws
    rcases List.mem_cons.mp h with rfl | hmem
    · exact ⟨hne, hsolid⟩
    · exact ih hrest hmem

/-- Normalisation keeps the words. -/
theorem words_normalizeChars (cs : List Char) : words (normalizeChars cs) = words cs :=
  words_intercalate fun _ => solid_of_mem_words

theorem mem_normalizeChars (h : c ∈ normalizeChars cs) : c ∈ cs ∨ isWhiteSpace c := by
  induction cs with
  | nil => simp [normalizeChars, words_nil, List.intercalate] at h
  | cons d cs ih =>
    by_cases hd : isWhiteSpace d
    · rw [normalizeChars_cons_of_white hd] at h
      exact (ih h).imp_left (List.mem_cons_of_mem d)
    · rw [normalizeChars_cons_of_solid (by simpa using hd), List.mem_cons, List.mem_append] at h
      rcases h with rfl | hblank | h
      · exact .inl List.mem_cons_self
      · exact .inr (white_blankBefore cs c hblank)
      · exact (ih h).imp_left (List.mem_cons_of_mem d)

/-- Normalisation works on both sides of a character other than white space apart. -/
theorem normalizeChars_append (hc : isWhiteSpace c = false) (cs ds : List Char) :
    ∃ gap, White gap ∧ normalizeChars (cs ++ c :: ds) =
      normalizeChars cs ++ (gap ++ c :: (blankBefore ds ++ normalizeChars ds)) := by
  induction cs with
  | nil => exact ⟨[], by simp [White], normalizeChars_cons_of_solid hc⟩
  | cons b cs ih =>
    obtain ⟨gap, hgap, hih⟩ := ih
    rw [List.cons_append]
    by_cases hb : isWhiteSpace b
    · rw [normalizeChars_cons_of_white hb, normalizeChars_cons_of_white hb]
      exact ⟨gap, hgap, hih⟩
    · rw [normalizeChars_cons_of_solid (by simpa using hb),
        normalizeChars_cons_of_solid (by simpa using hb), hih]
      -- Without a word in `cs` the blank in front of `c` is the only one that is left.
      by_cases hempty : words cs = []
      · refine ⟨blankBefore (cs ++ c :: ds) ++ gap, ?_, ?_⟩
        · exact List.forall_mem_append.mpr ⟨white_blankBefore _, hgap⟩
        · rw [normalizeChars_of_white (words_eq_nil_iff.mp hempty)]
          simp [blankBefore, hempty]
      · have hblank : blankBefore (cs ++ c :: ds) = blankBefore cs := by
          obtain ⟨b', cs', rfl⟩ := List.exists_cons_of_ne_nil fun hnil =>
            hempty (congrArg words hnil)
          have hwords : words (b' :: cs' ++ c :: ds) ≠ [] := by
            rw [Ne, words_eq_nil_iff]
            intro hwhite
            simp [hwhite c (by simp)] at hc
          rw [List.cons_append] at hwords ⊢
          simp only [blankBefore, List.head?_cons, ne_eq, hempty, hwords]
        exact ⟨gap, hgap, by rw [hblank]; simp⟩

theorem normalizeChars_eq_nil_iff : normalizeChars cs = [] ↔ White cs := by
  refine ⟨fun h => ?_, normalizeChars_of_white⟩
  rw [← words_eq_nil_iff, ← words_normalizeChars, h, words_nil]

/-! ### Trimmed texts -/

/-- No white space stands at the ends of the characters. -/
def Trimmed (cs : List Char) : Prop :=
  (∀ c ∈ cs.head?, isWhiteSpace c = false) ∧ ∀ c ∈ cs.getLast?, isWhiteSpace c = false

theorem trimmed_normalizeChars (cs : List Char) : Trimmed (normalizeChars cs) := by
  induction cs with
  | nil => simp [Trimmed, normalizeChars, words_nil, List.intercalate]
  | cons c cs ih =>
    by_cases hc : isWhiteSpace c
    · rw [normalizeChars_cons_of_white hc]
      exact ih
    · have hc : isWhiteSpace c = false := by simpa using hc
      rw [normalizeChars_cons_of_solid hc]
      refine ⟨by simpa using hc, ?_⟩
      by_cases hempty : words cs = []
      · rw [normalizeChars_of_white (words_eq_nil_iff.mp hempty)]
        simpa [blankBefore, hempty] using hc
      · have hne : normalizeChars cs ≠ [] := by
          intro hnil
          rw [← words_normalizeChars, hnil] at hempty
          exact hempty words_nil
        rw [← List.cons_append, List.getLast?_append, List.getLast?_eq_some_getLast hne]
        simpa [List.getLast?_eq_some_getLast hne] using ih.2

theorem Solid.trimmed (h : Solid cs) : Trimmed cs :=
  ⟨fun c hc => h c (List.mem_of_head? hc), fun c hc => h c (List.mem_of_getLast? hc)⟩

theorem dropWhile_of_head (h : ∀ c ∈ cs.head?, isWhiteSpace c = false) :
    cs.dropWhile isWhiteSpace = cs := by
  match cs with
  | [] => rfl
  | c :: cs => rw [List.dropWhile_cons, h c rfl, if_neg Bool.false_ne_true]

theorem trimChars_append (hcs : Trimmed cs) (hgap : White gap) (hds : White ds) :
    trimChars (gap ++ (cs ++ ds)) = cs := by
  rw [trimChars, List.dropWhile_append_of_pos hgap]
  match cs with
  | [] => rw [List.nil_append, List.dropWhile_eq_nil_iff.mpr hds]; rfl
  | c :: cs =>
    have hdropped : (c :: cs ++ ds).dropWhile isWhiteSpace = c :: cs ++ ds :=
      dropWhile_of_head (by simpa using hcs.1)
    rw [hdropped, List.reverse_append,
      List.dropWhile_append_of_pos fun d hd => hds d (List.mem_reverse.mp hd),
      dropWhile_of_head (by rw [List.head?_reverse]; exact hcs.2), List.reverse_reverse]

/-- What trimming takes off. -/
theorem exists_eq_append_trimChars (cs : List Char) :
    ∃ gap ds, White gap ∧ White ds ∧ cs = gap ++ (trimChars cs ++ ds) := by
  let trailing := (cs.dropWhile isWhiteSpace).reverse.takeWhile isWhiteSpace
  refine ⟨cs.takeWhile isWhiteSpace, trailing.reverse, fun c hc => List.mem_takeWhile_imp hc,
    fun c hc => List.mem_takeWhile_imp (List.mem_reverse.mp hc), ?_⟩
  rw [trimChars, ← List.reverse_append, List.takeWhile_append_dropWhile, List.reverse_reverse,
    List.takeWhile_append_dropWhile]

theorem words_trimChars (cs : List Char) : words (trimChars cs) = words cs := by
  obtain ⟨gap, ds, hgap, hds, hcs⟩ := exists_eq_append_trimChars cs
  conv => rhs; rw [hcs]
  rw [words_append_of_white hgap, words_append_of_head fun c hc => hds c (List.mem_of_head? hc),
    words_of_white hds, List.append_nil]

theorem trimChars_eq_nil_iff : trimChars cs = [] ↔ White cs := by
  constructor
  · intro h
    rw [← words_eq_nil_iff, ← words_trimChars, h, words_nil]
  · intro h
    have hnil : Trimmed [] := by simp [Trimmed]
    simpa using trimChars_append hnil h (fun c hc => absurd hc List.not_mem_nil)

/-- A trimmed text that is a single word is already normalised. -/
theorem trimChars_eq_of_solid (h : Solid (trimChars cs) ∨ Solid (normalizeChars cs)) :
    trimChars cs = normalizeChars cs := by
  have hnormal : normalizeChars (trimChars cs) = normalizeChars cs :=
    normalizeChars_of_words_eq (words_trimChars cs)
  rcases h with h | h
  · rw [← hnormal, normalizeChars_of_solid h]
  · match hwords : words cs with
    | [] =>
      have hwhite : White cs := words_eq_nil_iff.mp hwords
      rw [normalizeChars_of_white hwhite, trimChars_eq_nil_iff.mpr hwhite]
    | w :: ws =>
      obtain ⟨gap, rest, hcs, hgap, -, hsolid, -, hrest⟩ := exists_of_words_eq_cons hwords
      have hne : normalizeChars cs ≠ [] := by
        intro hnil
        rw [← words_normalizeChars, hnil] at hwords
        exact absurd hwords (by simp [words_nil])
      rw [← words_normalizeChars, words_of_solid h hne] at hwords
      obtain ⟨hw, rfl⟩ := List.cons.inj hwords
      rw [hw, hcs]
      exact trimChars_append hsolid.trimmed hgap (words_eq_nil_iff.mp hrest)

end AttrCalc.Text
