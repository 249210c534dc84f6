import AttrCalc.Calculator
import AttrCalc.Proofs.Text.Words
import AttrCalc.Proofs.Token.Lookahead

/-!
# What normalisation leaves alone

No token contains white space, and a scanner does not look beyond it.  So the tokens of a source
depend on its words only, and normalisation keeps these.  An assignment is cut at its first `=`,
which is no white space; normalisation works on both sides of it apart, and trimming the target and
normalising the expression once more makes up for what it does next to the `=`.

## Main definitions

* `LexError.piece`, `unplaced` : what stops a scan, and the result of a scan, without places.
* `Error.normalized` : an error with a normalised target.

## Main results

* `unplaced_tokenize_of_words_eq` : the tokens of a source depend on its words only.
* `Assignment.read_normalize`, `SymbolTable.run_normalize` : an assignment and its run after
  normalisation.
* `normalize_irrelevant` : neither scans nor runs depend on the layout.
-/

namespace AttrCalc

open Text Unicode

/-! ### Scans -/

/-- What stops a scan, without its place. -/
def LexError.piece : LexError → Piece
  | unknownChar c _ => .unknown c
  | malformedNumber text _ => .malformed text.toList

/-- The tokens of a source, or what stops its scan, without their places. -/
def unplaced : Except LexError (List Lexeme) → Except Piece (List Token)
  | .ok ls => .ok (ls.map (·.token))
  | .error e => .error e.piece

/-- Two scans with the same tokens that are stopped by the same piece, if by any. -/
structure Scan.Alike (a b : Scan) : Prop where
  tokens_eq : a.lexemes.map (·.token) = b.lexemes.map (·.token)
  piece_eq : a.error?.map LexError.piece = b.error?.map LexError.piece

/-- A piece is a token, or else it stops a scan. -/
theorem Piece.answer_eq (p : Piece) : (∃ t, ∀ offset, p.answer offset = .ok ⟨t, offset⟩) ∨
    ∀ offset, ∃ e : LexError, p.answer offset = .error e ∧ e.piece = p := by
  cases p with
  | token t => exact .inl ⟨t, fun _ => rfl⟩
  | unknown c => exact .inr fun _ => ⟨_, rfl, rfl⟩
  | malformed text => exact .inr fun _ => ⟨_, rfl, by simp [LexError.piece]⟩

namespace Scanner

variable {s : Scanner}

/-- A scanner reads the first piece of the first word, and what is left of this word comes next. -/
theorem exists_step_of_words {c : Char} {w : List Char} {ws : List (List Char)}
    (h : words s.rest = (c :: w) :: ws) :
    ∃ offset s', s.step = (some ((Piece.ofChars c w).1.answer offset), s') ∧
      words s'.rest = words (Piece.ofChars c w).2 ++ ws := by
  obtain ⟨gap, rest, hs, hgap, -, hsolid, hrest, rfl⟩ := exists_of_words_eq_cons h
  have hread := Piece.ofChars_append_of_isWhiteSpace hrest c w
  have hstep := step_of_piece s.offset hgap (hsolid c List.mem_cons_self) hread
  rw [← List.cons_append, ← hs] at hstep
  exact ⟨_, _, hstep, words_append_of_head hrest⟩

/-- Scanners in front of the same words read the same. -/
theorem alike_drain (s t : Scanner) (ls ms : List Lexeme) (hwords : words s.rest = words t.rest)
    (hls : ls.map (·.token) = ms.map (·.token)) : (s.drain ls).Alike (t.drain ms) := by
  match hs : words s.rest with
  | [] =>
    have hnone (u : Scanner) (hu : words u.rest = []) : u.step.1 = none :=
      step_eq_none_iff.mpr (words_eq_nil_iff.mp hu)
    rw [drain_of_none (hnone s hs), drain_of_none (hnone t (hwords ▸ hs))]
    exact ⟨by simpa using hls, rfl⟩
  | [] :: ws =>
    obtain ⟨-, -, -, -, hne, -⟩ := exists_of_words_eq_cons hs
    exact absurd rfl hne
  | (c :: w) :: ws =>
    obtain ⟨i, s', hsstep, hs'⟩ := exists_step_of_words hs
    obtain ⟨j, t', htstep, ht'⟩ := exists_step_of_words (hwords ▸ hs)
    have hshorter := step_shortens hsstep
    -- Both have read the same piece, if at other offsets, and the same words come next.
    rcases (Piece.ofChars c w).1.answer_eq with ⟨tok, htok⟩ | hstopped
    · rw [htok] at hsstep htstep
      rw [drain_of_ok hsstep, drain_of_ok htstep]
      exact alike_drain s' t' _ _ (hs'.trans ht'.symm) (by simp [hls])
    · obtain ⟨e, he, hpiece⟩ := hstopped i
      obtain ⟨e', he', hpiece'⟩ := hstopped j
      rw [he] at hsstep
      rw [he'] at htstep
      rw [drain_of_error (congrArg Prod.fst hsstep), drain_of_error (congrArg Prod.fst htstep)]
      exact ⟨by simpa using hls, congrArg some (hpiece.trans hpiece'.symm)⟩
termination_by s.rest.length

end Scanner

/-- The tokens of a source, or what stops its scan, depend on its words only. -/
theorem unplaced_tokenize_of_words_eq {a b : String} (h : words a.toList = words b.toList) :
    unplaced (tokenize a) = unplaced (tokenize b) := by
  have halike : (scan a).Alike (scan b) := Scanner.alike_drain _ _ [] [] h rfl
  have hpiece := halike.piece_eq
  match ha : (scan a).error?, hb : (scan b).error? with
  | none, none => simp only [tokenize, ha, hb, unplaced, halike.tokens_eq]
  | none, some e | some e, none => simp [ha, hb] at hpiece
  | some e, some e' =>
    have hee' : e.piece = e'.piece := by simpa [ha, hb] using hpiece
    simp only [tokenize, ha, hb, unplaced, hee']

/-! ### Assignments -/

/-- An error with a normalised target. -/
def AssignError.normalized : AssignError → AssignError
  | missingAssignment => missingAssignment
  | badTarget target => badTarget (Text.normalize target)

/-- An error with a normalised target, if it is about a target. -/
def Error.normalized : Error → Error
  | assign e => assign e.normalized
  | e => e

theorem splitCharsOnce?_append {sep : Char} {cs ds : List Char} (h : sep ∉ cs) :
    splitCharsOnce? sep (cs ++ sep :: ds) = some (cs, ds) := by
  have hne : ∀ c ∈ cs, (c != sep) = true := by
    rintro c hc
    simpa using ne_of_mem_of_not_mem hc h
  simp only [splitCharsOnce?, List.dropWhile_append_of_pos hne, List.takeWhile_append_of_pos hne,
    List.dropWhile_cons, List.takeWhile_cons, bne_self_eq_false, Bool.false_eq_true, if_false,
    List.append_nil]

/-- What stands before and behind the first occurrence of a character is determined. -/
theorem append_cons_inj {sep : Char} {cs cs' ds ds' : List Char} (h : sep ∉ cs) (h' : sep ∉ cs')
    (heq : cs ++ sep :: ds = cs' ++ sep :: ds') : cs = cs' ∧ ds = ds' := by
  have hsplit := congrArg (splitCharsOnce? sep) heq
  rw [splitCharsOnce?_append h, splitCharsOnce?_append h'] at hsplit
  simpa using hsplit

theorem splitCharsOnce?_eq_none {sep : Char} {cs : List Char} (h : sep ∉ cs) :
    splitCharsOnce? sep cs = none := by
  have hnil : cs.dropWhile (· != sep) = [] := by
    rw [List.dropWhile_eq_nil_iff]
    rintro c hc
    simpa using ne_of_mem_of_not_mem hc h
  simp only [splitCharsOnce?, hnil]

theorem solid_of_isNameChars {cs : List Char} (h : isNameChars cs) : Solid cs := by
  match cs with
  | c :: cs =>
    obtain ⟨hstart, hcs⟩ : isNameStart c ∧ ∀ d ∈ cs, isNamePart d := by
      simpa [isNameChars] using h
    have hpart : ∀ d ∈ c :: cs, isNamePart d :=
      List.forall_mem_cons.mpr ⟨isNamePart_of_isNameStart hstart, hcs⟩
    exact fun d hd => isWhiteSpace_eq_false_of_isNamePart (hpart d hd)

/-- A trimmed text is a name just if the normalised text is, and then they are the same. -/
theorem isNameChars_trimChars (cs : List Char) :
    isNameChars (trimChars cs) = isNameChars (normalizeChars cs) ∧
      (isNameChars (normalizeChars cs) → trimChars cs = normalizeChars cs) := by
  have heq (h : isNameChars (normalizeChars cs)) : trimChars cs = normalizeChars cs :=
    trimChars_eq_of_solid (.inr (solid_of_isNameChars h))
  refine ⟨?_, heq⟩
  rw [Bool.eq_iff_iff]
  constructor
  · intro h
    rwa [← trimChars_eq_of_solid (.inl (solid_of_isNameChars h))]
  · intro h
    rwa [heq h]

namespace Assignment

/-- Reading an assignment that is cut at its first `=`. -/
theorem read_ofList_append {cs ds : List Char} (h : '=' ∉ cs) :
    read (String.ofList (cs ++ '=' :: ds)) =
      if isNameChars (trimChars cs) then
        .ok ⟨String.ofList (trimChars cs), String.ofList (normalizeChars ds)⟩
      else .error (.badTarget (String.ofList (trimChars cs))) := by
  simp only [read, splitOnce?, String.toList_ofList, splitCharsOnce?_append h, Option.map_some,
    trim, isName, Text.normalize]

/-- Normalisation changes the target of an assignment only if it is none. -/
theorem read_normalize (line : String) :
    read (Text.normalize line) = (read line).mapError AssignError.normalized := by
  obtain ⟨cs, rfl⟩ : ∃ cs, line = String.ofList cs := ⟨line.toList, String.ofList_toList.symm⟩
  rw [Text.normalize, String.toList_ofList]
  by_cases hmem : '=' ∈ cs
  · obtain ⟨left, right, rfl, hleft⟩ := List.eq_append_cons_of_mem hmem
    -- A blank may be left on either side of the `=`: trimming takes off the one in front, and
    -- normalising once more the one behind.
    obtain ⟨gap, hgap, hnormal⟩ := normalizeChars_append (c := '=') (by decide) left right
    have hleft' : '=' ∉ normalizeChars left ++ gap := by
      rw [List.mem_append]
      rintro (h | h)
      · exact (mem_normalizeChars h).elim hleft (by decide)
      · exact absurd (hgap _ h) (by decide)
    have htarget : trimChars (normalizeChars left ++ gap) = normalizeChars left :=
      trimChars_append (trimmed_normalizeChars left) (by simp [White] : White []) hgap
    have hexpression : normalizeChars (blankBefore right ++ normalizeChars right) =
        normalizeChars right :=
      normalizeChars_of_words_eq
        ((words_append_of_white (white_blankBefore right)).trans (words_normalizeChars right))
    obtain ⟨hname, heq⟩ := isNameChars_trimChars left
    rw [hnormal, ← List.append_assoc, read_ofList_append hleft', read_ofList_append hleft, htarget,
      hexpression, hname]
    split
    · next h => rw [heq h]; rfl
    · have htrimmed : normalizeChars (trimChars left) = normalizeChars left :=
        normalizeChars_of_words_eq (words_trimChars left)
      simp only [Except.mapError, AssignError.normalized, Text.normalize, String.toList_ofList,
        htrimmed]
  · have hnormal : '=' ∉ normalizeChars cs := fun h =>
      (mem_normalizeChars h).elim hmem (by decide)
    have hread {cs : List Char} (h : '=' ∉ cs) :
        read (String.ofList cs) = .error .missingAssignment := by
      simp only [read, splitOnce?, String.toList_ofList, splitCharsOnce?_eq_none h, Option.map_none]
    rw [hread hmem, hread hnormal]
    rfl

end Assignment

/-- Normalisation changes a run only if it fails with a target that is none. -/
theorem SymbolTable.run_normalize (t : SymbolTable) (division : DivisionPolicy) (line : String) :
    t.run division (Text.normalize line) = (t.run division line).mapError Error.normalized := by
  unfold run
  rw [Assignment.read_normalize]
  match Assignment.read line with
  | .error e => rfl
  | .ok ⟨target, expression⟩ =>
    simp only [Except.mapError]
    match tokenize expression with
    | .error e => rfl
    | .ok tokens =>
      dsimp only
      match evaluate ⟨t, division⟩ tokens with
      | .error e => rfl
      | .ok evaluation => rfl

/-- **Layout does not matter.** Scanning a normalised source gives the same tokens, or fails with
the same error up to its place.  Running a normalised line gives the same result and table, or fails
with the same error up to the layout of the target. -/
theorem normalize_irrelevant (source line : String) (t : SymbolTable) (division : DivisionPolicy) :
    unplaced (tokenize (Text.normalize source)) = unplaced (tokenize source) ∧
      t.run division (Text.normalize line) = (t.run division line).mapError Error.normalized := by
  refine ⟨unplaced_tokenize_of_words_eq ?_, t.run_normalize division line⟩
  rw [Text.normalize, String.toList_ofList]
  exact words_normalizeChars source.toList

end AttrCalc
