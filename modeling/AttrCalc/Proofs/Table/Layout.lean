import AttrCalc.Proofs.Decimal.Reading
import AttrCalc.Proofs.Normalization
import AttrCalc.Proofs.Table.History

/-!
# The layout of declarations

A name and a number are single words, so what a declaration declares depends on its words only.  A
line is cut at commas, which are no white space: normalisation of the line keeps the words of every
piece.  It may change how an error is worded, as this shows the text at fault, but no line declares
more or less for it.

## Main results

* `Declaration.toOption_read_of_words_eq` : what is declared depends on the words only.
* `Declaration.words_pieces_normalizeChars` : normalisation keeps the words of the pieces.
* `SymbolTable.declareLine_normalize` : a line declares the same after normalisation.
-/

namespace AttrCalc

open Text Unicode

namespace Declaration

variable {cs ds gap : List Char}

/-! ### Single declarations -/

/-- What is declared by a declaration that is cut at its first `=`. -/
theorem toOption_read_ofList_append (h : '=' ∉ cs) :
    (read (String.ofList (cs ++ '=' :: ds))).toOption =
      if isNameChars (trimChars cs) then
        (Decimal.readChars? (trimChars ds)).map fun x => ⟨String.ofList (trimChars cs), x⟩
      else none := by
  simp only [read, splitOnce?, String.toList_ofList, splitCharsOnce?_append h, Option.map_some,
    trim, isName, Decimal.read?]
  split
  · cases Decimal.readChars? (trimChars ds) <;> rfl
  · rfl

theorem toOption_read_of_notMem (h : '=' ∉ cs) : (read (String.ofList cs)).toOption = none := by
  simp only [read, splitOnce?, String.toList_ofList, splitCharsOnce?_eq_none h, Option.map_none]
  rfl

/-- Normalisation makes no difference to what is declared. -/
theorem toOption_read_normalizeChars (cs : List Char) :
    (read (String.ofList (normalizeChars cs))).toOption = (read (String.ofList cs)).toOption := by
  by_cases hmem : '=' ∈ cs
  · obtain ⟨left, right, rfl, hleft⟩ := List.eq_append_cons_of_mem hmem
    obtain ⟨gap, hgap, hnormal⟩ := normalizeChars_append (c := '=') (by decide) left right
    have hleft' : '=' ∉ normalizeChars left ++ gap := by
      rw [List.mem_append]
      rintro (h | h)
      · exact (mem_normalizeChars h).elim hleft (by decide)
      · exact absurd (hgap _ h) (by decide)
    have hname : trimChars (normalizeChars left ++ gap) = normalizeChars left :=
      trimChars_append (trimmed_normalizeChars left) (by simp [White] : White []) hgap
    have hvalue : trimChars (blankBefore right ++ normalizeChars right) = normalizeChars right := by
      simpa using trimChars_append (trimmed_normalizeChars right) (white_blankBefore right)
        (by simp [White] : White [])
    obtain ⟨hisName, heq⟩ := isNameChars_trimChars left
    rw [hnormal, ← List.append_assoc, toOption_read_ofList_append hleft',
      toOption_read_ofList_append hleft, hname, hvalue, hisName, Decimal.readChars?_trimChars]
    split
    · next h => rw [heq h]
    · rfl
  · have hnormal : '=' ∉ normalizeChars cs := fun h =>
      (mem_normalizeChars h).elim hmem (by decide)
    rw [toOption_read_of_notMem hmem, toOption_read_of_notMem hnormal]

/-- What is declared depends on the words only. -/
theorem toOption_read_of_words_eq (h : words cs = words ds) :
    (read (String.ofList cs)).toOption = (read (String.ofList ds)).toOption := by
  rw [← toOption_read_normalizeChars cs, normalizeChars_of_words_eq h, toOption_read_normalizeChars]

/-! ### The pieces of a line -/

theorem comma_notMem_of_white (h : White cs) : ',' ∉ cs :=
  fun hc => absurd (h _ hc) (by decide)

/-- White space in front of a line leaves the words of its pieces alone. -/
theorem words_pieces_append_of_white (hgap : White gap) (cs : List Char) :
    ((gap ++ cs).splitOnP (· == ',')).map words = (cs.splitOnP (· == ',')).map words := by
  have hcomma : ',' ∉ gap := comma_notMem_of_white hgap
  by_cases hmem : ',' ∈ cs
  · obtain ⟨left, right, rfl, hleft⟩ := List.eq_append_cons_of_mem hmem
    have hleft' : ',' ∉ gap ++ left := List.not_mem_append hcomma hleft
    rw [← List.append_assoc, splitOnP_append_of_notMem hleft',
      splitOnP_append_of_notMem hleft, List.map_cons, List.map_cons, words_append_of_white hgap]
  · rw [splitOnP_of_notMem (List.not_mem_append hcomma hmem), splitOnP_of_notMem hmem,
      List.map_singleton, List.map_singleton, words_append_of_white hgap]

/-- Normalisation keeps the words of the pieces. -/
theorem words_pieces_normalizeChars (cs : List Char) :
    ((normalizeChars cs).splitOnP (· == ',')).map words = (cs.splitOnP (· == ',')).map words := by
  by_cases hmem : ',' ∈ cs
  · obtain ⟨left, right, rfl, hleft⟩ := List.eq_append_cons_of_mem hmem
    obtain ⟨gap, hgap, hnormal⟩ := normalizeChars_append (c := ',') (by decide) left right
    have hleft' : ',' ∉ normalizeChars left ++ gap := by
      refine List.not_mem_append (fun h => ?_) (comma_notMem_of_white hgap)
      exact (mem_normalizeChars h).elim hleft (by decide)
    have hwords : words (normalizeChars left ++ gap) = words left := by
      rw [words_append_of_head fun c hc => hgap c (List.mem_of_head? hc), words_of_white hgap,
        List.append_nil, words_normalizeChars]
    rw [hnormal, ← List.append_assoc, splitOnP_append_of_notMem hleft',
      splitOnP_append_of_notMem hleft, List.map_cons, List.map_cons, hwords,
      words_pieces_append_of_white (white_blankBefore right), words_pieces_normalizeChars right]
  · have hnormal : ',' ∉ normalizeChars cs := fun h =>
      (mem_normalizeChars h).elim hmem (by decide)
    rw [splitOnP_of_notMem hmem, splitOnP_of_notMem hnormal, List.map_singleton,
      List.map_singleton, words_normalizeChars]
termination_by cs.length

/-- What the pieces of a line declare.  A blank piece declares nothing. -/
theorem filterMap_toOption_readLine (line : String) :
    (readLine line).filterMap Except.toOption =
      (line.toList.splitOnP (· == ',')).filterMap fun cs => (read (String.ofList cs)).toOption := by
  rw [readLine, pieces, splitAll, List.filterMap_map, List.map_map, List.filterMap_filter,
    List.filterMap_map]
  refine List.filterMap_congr fun cs _ => ?_
  have htrim : (read (String.ofList (trimChars cs))).toOption =
      (read (String.ofList cs)).toOption :=
    toOption_read_of_words_eq (words_trimChars cs)
  simp only [Function.comp_apply, trim, String.toList_ofList, ← htrim]
  split
  · rfl
  · next hempty =>
    obtain hnil : trimChars cs = [] := by simpa using hempty
    rw [hnil, toOption_read_of_notMem List.not_mem_nil]

/-- A line declares the same after normalisation. -/
theorem filterMap_toOption_readLine_normalize (line : String) :
    (readLine (normalize line)).filterMap Except.toOption =
      (readLine line).filterMap Except.toOption := by
  -- What a piece declares is a function of its words, which stand for the normalised piece.
  have hpieces (cs : List Char) :
      (cs.splitOnP (· == ',')).filterMap (fun ds => (read (String.ofList ds)).toOption) =
        ((cs.splitOnP (· == ',')).map words).filterMap fun ws =>
          (read (String.ofList ([' '].intercalate ws))).toOption := by
    rw [List.filterMap_map]
    exact List.filterMap_congr fun ds _ => (toOption_read_normalizeChars ds).symm
  rw [filterMap_toOption_readLine, filterMap_toOption_readLine, hpieces, hpieces, Text.normalize,
    String.toList_ofList, words_pieces_normalizeChars]

theorem writes_eq (readings : List (Except DeclError Declaration)) :
    writes readings = (readings.filterMap Except.toOption).map toWrite := by
  rw [writes, List.map_filterMap]
  refine List.filterMap_congr fun r _ => ?_
  cases r <;> rfl

end Declaration

/-- **A line declares the same after normalisation.** -/
theorem SymbolTable.declareLine_normalize (t : SymbolTable) (line : String) :
    (t.declareLine (normalize line)).2 = (t.declareLine line).2 := by
  rw [declareLine, declareLine, declareAll_eq_replay, declareAll_eq_replay, Declaration.writes_eq,
    Declaration.writes_eq, Declaration.filterMap_toOption_readLine_normalize]

end AttrCalc
