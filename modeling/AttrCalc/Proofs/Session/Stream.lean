import AttrCalc.Proofs.Text.Words
import AttrCalc.Session

/-!
# Sessions on arbitrary streams

A stream is cut into lines, and the first blank line divides them: the lines before it are the
declarations, and the first line after it that is not blank is the assignment.  Lines are decoded as
they are read, so malformed bytes matter up to the assignment and no further.  Reading goes through
the lines from the front, and what it has found does not change when more lines follow.

## Main definitions

* `CutInto` : the lines of a stream, by their ends.
* `isBlank` : whether a line is white space.
* `Session.declarationLines`, `Session.assignmentLine?`, `Session.inScope` : the parts of a stream.

## Main results

* `cutInto_cutLines` : a stream is cut at its line feeds.
* `Session.ofLines_spec` : what is read from lines, and when it fails.
* `Session.read_append_of_isSettled` : a settled session stays what it is.
* `Session.read_splits_stream` : what is read from a stream, and what it does not depend on.
-/

namespace AttrCalc

open Text

/-! ### Lines -/

/-- Every line feed ends a line, a carriage return in front of it is dropped, and what stands behind
the last one is a line if it is not empty. -/
inductive CutInto : List UInt8 → List (List UInt8) → Prop
  | nil : CutInto [] []
  | last {line : List UInt8} (hne : line ≠ []) (h : lineFeed ∉ line) : CutInto line [line]
  | ended {line bytes : List UInt8} {lines : List (List UInt8)} (h : lineFeed ∉ line)
      (hrest : CutInto bytes lines) :
      CutInto (line ++ lineFeed :: bytes) (dropCarriageReturn line :: lines)

/-- A line feed ends a line, whatever follows. -/
theorem cutLines_append_cons (head tail : List UInt8) :
    cutLines (head ++ lineFeed :: tail) =
      (head.splitOnP (· == lineFeed)).map dropCarriageReturn ++ cutLines tail := by
  have hcut := List.splitOnP_append_cons (p := (· == lineFeed)) head tail
    (beq_self_eq_true lineFeed)
  obtain ⟨init, line, htail⟩ := (List.eq_nil_or_concat (tail.splitOnP (· == lineFeed))).resolve_left
    (List.splitOnP_ne_nil _ _)
  simp only [cutLines, hcut, htail, List.concat_eq_append, ← List.append_assoc,
    List.dropLast_concat, List.getLast?_concat, List.map_append]
  cases line with
  | nil => rfl
  | cons b line => exact List.append_assoc _ _ _

theorem cutLines_of_notMem {line : List UInt8} (hne : line ≠ []) (h : lineFeed ∉ line) :
    cutLines line = [line] := by
  cases line with
  | nil => exact absurd rfl hne
  | cons b line => simp [cutLines, splitOnP_of_notMem h]

/-- A stream is cut at its line feeds. -/
theorem cutInto_cutLines (bytes : List UInt8) : CutInto bytes (cutLines bytes) := by
  by_cases hmem : lineFeed ∈ bytes
  · obtain ⟨line, rest, rfl, hline⟩ := List.eq_append_cons_of_mem hmem
    rw [cutLines_append_cons, splitOnP_of_notMem hline]
    exact .ended hline (cutInto_cutLines rest)
  · by_cases hne : bytes = []
    · rw [hne]
      exact .nil
    · rw [cutLines_of_notMem hne hmem]
      exact .last hne hmem
termination_by bytes.length

/-- Behind a line feed, lines are cut as if nothing stood in front. -/
theorem cutLines_append {head : List UInt8} (h : head = [] ∨ head.getLast? = some lineFeed)
    (tail : List UInt8) : cutLines (head ++ tail) = cutLines head ++ cutLines tail := by
  rcases h with rfl | h
  · rfl
  · obtain ⟨init, rfl⟩ := List.getLast?_eq_some_iff.mp h
    have hnil : cutLines [] = [] := rfl
    rw [List.append_assoc, List.singleton_append, cutLines_append_cons, cutLines_append_cons, hnil,
      List.append_nil]

/-- A line of white space. -/
def isBlank (line : List UInt8) : Bool :=
  (decodeText? line).any fun text => White text.toList

/-- The text of a line with normalised white space, if the line is well-formed. -/
def lineText? (line : List UInt8) : Option String :=
  (decodeText? line).map normalize

theorem isEmpty_of_lineText? {line : List UInt8} {text : String} (h : lineText? line = some text) :
    text.isEmpty = isBlank line := by
  obtain ⟨source, hsource, rfl⟩ := Option.map_eq_some_iff.mp h
  rw [isBlank, hsource, Option.any_some, Bool.eq_iff_iff, decide_eq_true_iff,
    ← normalizeChars_eq_nil_iff, Text.normalize, String.isEmpty_iff, String.ofList_eq_empty_iff]

theorem isSome_decodeText?_of_isBlank {line : List UInt8} (h : isBlank line) :
    (decodeText? line).isSome :=
  Option.isSome_of_any h

namespace Session

variable {lines more : List (List UInt8)}

/-! ### The parts of a stream -/

/-- The lines before the first blank one. -/
def declarationLines (lines : List (List UInt8)) : List (List UInt8) :=
  lines.takeWhile (!isBlank ·)

/-- The lines from the first blank one on. -/
def linesFromBlank (lines : List (List UInt8)) : List (List UInt8) :=
  lines.dropWhile (!isBlank ·)

/-- The first line after the first blank one that is not blank. -/
def assignmentLine? (lines : List (List UInt8)) : Option (List UInt8) :=
  (linesFromBlank lines).find? (!isBlank ·)

/-- The lines up to the assignment: the declarations, blank lines and the assignment itself.  If
there is no assignment, these are all lines. -/
def inScope (lines : List (List UInt8)) : List (List UInt8) :=
  declarationLines lines ++ (linesFromBlank lines).takeWhile isBlank ++
    (assignmentLine? lines).toList

/-- The lines up to the assignment, and the lines behind it. -/
theorem inScope_append (lines : List (List UInt8)) :
    inScope lines ++ ((linesFromBlank lines).dropWhile isBlank).tail = lines := by
  have hassignment : assignmentLine? lines = ((linesFromBlank lines).dropWhile isBlank).head? :=
    List.find?_not_eq_head?_dropWhile _ _
  have hcons (l : List (List UInt8)) : l.head?.toList ++ l.tail = l := by
    cases l <;> rfl
  rw [inScope, hassignment, List.append_assoc, hcons, List.append_assoc,
    List.takeWhile_append_dropWhile]
  exact List.takeWhile_append_dropWhile

theorem inScope_prefix (lines : List (List UInt8)) : inScope lines <+: lines :=
  ⟨_, inScope_append lines⟩

theorem inScope_eq_self (h : assignmentLine? lines = none) : inScope lines = lines := by
  have hnil : (linesFromBlank lines).dropWhile isBlank = [] := by
    rw [← List.head?_eq_none_iff, ← h]
    exact (List.find?_not_eq_head?_dropWhile _ _).symm
  simpa [hnil] using inScope_append lines

/-! ### Reading -/

theorem readLine_eq_ok_iff {line : List UInt8} {text : String} :
    readLine line = .ok text ↔ lineText? line = some text := by
  unfold readLine lineText?
  split
  · next h => simp [h]
  · next h => simp [h]

theorem readLine_eq_error_iff {line : List UInt8} {e : StreamError} :
    readLine line = .error e ↔ decodeText? line = none := by
  unfold readLine
  split
  · next h => simp [h]
  · next h => simp [h]

theorem isBlank_of_readLine_ok {line : List UInt8} {text : String} (h : readLine line = .ok text) :
    isBlank line = text.isEmpty :=
  (isEmpty_of_lineText? (readLine_eq_ok_iff.mp h)).symm

theorem isBlank_of_readLine_error {line : List UInt8} {e : StreamError}
    (h : readLine line = .error e) : isBlank line = false := by
  rw [isBlank, readLine_eq_error_iff.mp h, Option.any_none]

/-- The declarations that are read are the lines before the first blank one. -/
theorem readDeclarations_ok {read texts : List String} {rest : List (List UInt8)}
    (h : readDeclarations lines read = .ok (texts, rest)) :
    rest = (linesFromBlank lines).tail ∧ ∃ ds, texts = read.reverse ++ ds ∧
      (declarationLines lines).map lineText? = ds.map some := by
  fun_induction readDeclarations lines read with
  | case1 read =>
    obtain ⟨rfl, rfl⟩ : read.reverse = texts ∧ [] = rest := by simpa using h
    exact ⟨rfl, [], by simp, rfl⟩
  | case2 => simp at h
  | case3 line lines read text hline hempty =>
    obtain ⟨rfl, rfl⟩ : read.reverse = texts ∧ lines = rest := by simpa using h
    have hblank : isBlank line := (isBlank_of_readLine_ok hline).trans hempty
    exact ⟨by simp [linesFromBlank, hblank], [], by simp, by simp [declarationLines, hblank]⟩
  | case4 line lines read text hline hempty ih =>
    obtain ⟨hrest, ds, rfl, hds⟩ := ih h
    have hblank : isBlank line = false :=
      (isBlank_of_readLine_ok hline).trans (Bool.eq_false_iff.mpr hempty)
    refine ⟨by simpa [linesFromBlank, hblank] using hrest, text :: ds, by simp, ?_⟩
    simpa [declarationLines, hblank, readLine_eq_ok_iff.mp hline] using hds

theorem readDeclarations_error {read : List String} {e : StreamError}
    (h : readDeclarations lines read = .error e) :
    ∃ line ∈ declarationLines lines, decodeText? line = none := by
  fun_induction readDeclarations lines read with
  | case1 | case3 => simp at h
  | case2 line lines read e' hline =>
    exact ⟨line, by simp [declarationLines, isBlank_of_readLine_error hline],
      readLine_eq_error_iff.mp hline⟩
  | case4 line lines read text hline hempty ih =>
    have hblank : isBlank line = false :=
      (isBlank_of_readLine_ok hline).trans (Bool.eq_false_iff.mpr hempty)
    obtain ⟨line', hmem, hline'⟩ := ih h
    have hcons : declarationLines (line :: lines) = line :: declarationLines lines := by
      simp [declarationLines, hblank]
    exact ⟨line', hcons ▸ List.mem_cons_of_mem line hmem, hline'⟩

/-- The assignment that is read is the first line that is not blank. -/
theorem readAssignment_ok {assignment? : Option String}
    (h : readAssignment lines = .ok assignment?) :
    (lines.find? (!isBlank ·)).map lineText? = assignment?.map some := by
  fun_induction readAssignment lines with
  | case1 =>
    obtain rfl : none = assignment? := by simpa using h
    rfl
  | case2 => simp at h
  | case3 line lines text hline hempty ih =>
    have hblank : isBlank line := (isBlank_of_readLine_ok hline).trans hempty
    rw [List.find?_cons_of_neg (by simpa using hblank)]
    exact ih h
  | case4 line lines text hline hempty =>
    obtain rfl : some text = assignment? := by simpa using h
    have hblank : isBlank line = false :=
      (isBlank_of_readLine_ok hline).trans (Bool.eq_false_iff.mpr hempty)
    rw [List.find?_cons_of_pos (by simpa using hblank), Option.map_some, Option.map_some,
      readLine_eq_ok_iff.mp hline]

theorem readAssignment_error {e : StreamError} (h : readAssignment lines = .error e) :
    ∃ line ∈ lines.find? (!isBlank ·), decodeText? line = none := by
  fun_induction readAssignment lines with
  | case1 | case4 => simp at h
  | case2 line lines e' hline =>
    have hblank := isBlank_of_readLine_error hline
    exact ⟨line, List.find?_cons_of_pos (by simpa using hblank), readLine_eq_error_iff.mp hline⟩
  | case3 line lines text hline hempty ih =>
    have hblank : isBlank line := (isBlank_of_readLine_ok hline).trans hempty
    rw [List.find?_cons_of_neg (by simpa using hblank)]
    exact ih h

/-- The first line after a blank one that is not blank is found behind the blank one. -/
theorem find?_tail_linesFromBlank (lines : List (List UInt8)) :
    (linesFromBlank lines).tail.find? (!isBlank ·) = assignmentLine? lines := by
  unfold assignmentLine?
  match h : linesFromBlank lines with
  | [] => rfl
  | line :: rest =>
    have hblank : isBlank line := by
      have hhead := List.head?_dropWhile_not (!isBlank ·) lines
      rw [← linesFromBlank, h] at hhead
      simpa using hhead
    rw [List.find?_cons_of_neg (by simpa using hblank), List.tail_cons]

theorem ofLines_ok {session : Session} (h : ofLines lines = .ok session) :
    (declarationLines lines).map lineText? = session.declarations.map some ∧
      (assignmentLine? lines).map lineText? = session.assignment?.map some := by
  unfold ofLines at h
  split at h
  · simp at h
  · next declarations rest hdeclarations =>
    split at h
    · simp at h
    · next assignment? hassignment =>
      obtain rfl := Except.ok.inj h
      obtain ⟨rfl, ds, rfl, hds⟩ := readDeclarations_ok hdeclarations
      exact ⟨hds, find?_tail_linesFromBlank lines ▸ readAssignment_ok hassignment⟩

theorem ofLines_error {e : StreamError} (h : ofLines lines = .error e) :
    ∃ line ∈ inScope lines, decodeText? line = none := by
  unfold ofLines at h
  split at h
  · next e' hdeclarations =>
    obtain ⟨line, hmem, hline⟩ := readDeclarations_error hdeclarations
    exact ⟨line, List.mem_append_left _ (List.mem_append_left _ hmem), hline⟩
  · next declarations rest hdeclarations =>
    split at h
    · next e' hassignment =>
      obtain ⟨rfl, -⟩ := readDeclarations_ok hdeclarations
      obtain ⟨line, hmem, hline⟩ := readAssignment_error hassignment
      rw [find?_tail_linesFromBlank] at hmem
      exact ⟨line, List.mem_append_right _ (Option.mem_toList.mpr hmem), hline⟩
    · simp at h

/-- If a session is read, all lines up to the assignment are well-formed. -/
theorem isSome_decodeText?_of_ofLines_ok {session : Session} (h : ofLines lines = .ok session) :
    ∀ line ∈ inScope lines, (decodeText? line).isSome := by
  obtain ⟨hds, ha⟩ := ofLines_ok h
  have hsome {line : List UInt8} {text : String} (htext : lineText? line = some text) :
      (decodeText? line).isSome :=
    Option.isSome_map.symm.trans (Option.isSome_of_eq_some htext)
  intro line hline
  rcases List.mem_append.mp hline with hline | hline
  · rcases List.mem_append.mp hline with hline | hline
    · have hmem : lineText? line ∈ session.declarations.map some :=
        hds ▸ List.mem_map_of_mem hline
      obtain ⟨text, -, htext⟩ := List.mem_map.mp hmem
      exact hsome htext.symm
    · exact isSome_decodeText?_of_isBlank (List.mem_takeWhile_imp hline)
  · rw [Option.mem_toList.mp hline, Option.map_some] at ha
    obtain ⟨text, -, htext⟩ := Option.map_eq_some_iff.mp ha.symm
    exact hsome htext.symm

/-- What is read from lines, and when it fails. -/
theorem ofLines_spec (lines : List (List UInt8)) :
    match ofLines lines with
    | .ok session => (declarationLines lines).map lineText? = session.declarations.map some ∧
        (assignmentLine? lines).map lineText? = session.assignment?.map some ∧
        ∀ line ∈ inScope lines, (decodeText? line).isSome
    | .error _ => ∃ line ∈ inScope lines, decodeText? line = none := by
  split
  · next session h =>
    exact ⟨(ofLines_ok h).1, (ofLines_ok h).2, isSome_decodeText?_of_ofLines_ok h⟩
  · next e h => exact ofLines_error h

/-! ### More input -/

theorem readDeclarations_append_of_error {read : List String} {e : StreamError}
    (h : readDeclarations lines read = .error e) (more : List (List UInt8)) :
    readDeclarations (lines ++ more) read = .error e := by
  fun_induction readDeclarations lines read with
  | case1 | case3 => simp at h
  | case2 line lines read e' hline =>
    obtain rfl := Except.error.inj h
    simp [readDeclarations, hline]
  | case4 line lines read text hline hempty ih =>
    simpa [readDeclarations, hline, hempty] using ih h

/-- If lines are left behind the declarations, a blank one has been found. -/
theorem readDeclarations_append_of_ok {read texts : List String} {rest : List (List UInt8)}
    (h : readDeclarations lines read = .ok (texts, rest)) (hrest : rest ≠ [])
    (more : List (List UInt8)) :
    readDeclarations (lines ++ more) read = .ok (texts, rest ++ more) := by
  fun_induction readDeclarations lines read with
  | case1 read =>
    obtain ⟨-, rfl⟩ : read.reverse = texts ∧ [] = rest := by simpa using h
    exact absurd rfl hrest
  | case2 => simp at h
  | case3 line lines read text hline hempty =>
    obtain ⟨rfl, rfl⟩ : read.reverse = texts ∧ lines = rest := by simpa using h
    simp [readDeclarations, hline, hempty]
  | case4 line lines read text hline hempty ih =>
    simpa [readDeclarations, hline, hempty] using ih h

theorem readAssignment_append (h : readAssignment lines ≠ .ok none) (more : List (List UInt8)) :
    readAssignment (lines ++ more) = readAssignment lines := by
  fun_induction readAssignment lines with
  | case1 => exact absurd rfl h
  | case2 line lines e hline => simp [readAssignment, hline]
  | case3 line lines text hline hempty ih =>
    simpa [readAssignment, hline, hempty] using ih h
  | case4 line lines text hline hempty => simp [readAssignment, hline, hempty]

/-- Lines that hold an assignment, or cannot be read, stay what they are when more lines follow. -/
theorem ofLines_append (h : ∀ session, ofLines lines = .ok session → session.assignment?.isSome)
    (more : List (List UInt8)) : ofLines (lines ++ more) = ofLines lines := by
  unfold ofLines at h ⊢
  match hdeclarations : readDeclarations lines [] with
  | .error e => rw [readDeclarations_append_of_error hdeclarations]
  | .ok (declarations, rest) =>
    simp only [hdeclarations] at h
    have hassignment : readAssignment rest ≠ .ok none := by
      intro hnone
      have hsome := h ⟨declarations, none⟩ (by rw [hnone])
      exact Bool.false_ne_true hsome
    have hrest : rest ≠ [] := by
      rintro rfl
      exact hassignment rfl
    rw [readDeclarations_append_of_ok hdeclarations hrest]
    simp only [readAssignment_append hassignment]

/-- A stream that ends with a line and holds the assignment, or cannot be read, stays what it is
when more bytes follow. -/
theorem read_append {head : List UInt8} (hend : head = [] ∨ head.getLast? = some lineFeed)
    (h : ∀ session, read head = .ok session → session.assignment?.isSome) (tail : List UInt8) :
    read (head ++ tail) = read head := by
  rw [read, read, cutLines_append hend]
  exact ofLines_append h _

theorem endedLines_prefix (bytes : List UInt8) : endedLines bytes <+: bytes := by
  have hsuffix := List.dropWhile_suffix (l := bytes.reverse) (· != lineFeed)
  simpa [endedLines] using List.reverse_prefix.mpr hsuffix

theorem getLast?_endedLines (bytes : List UInt8) :
    endedLines bytes = [] ∨ (endedLines bytes).getLast? = some lineFeed := by
  rw [endedLines, List.getLast?_reverse]
  match h : bytes.reverse.dropWhile (· != lineFeed) with
  | [] => exact .inl rfl
  | b :: rest =>
    have hhead := List.head?_dropWhile_not (· != lineFeed) bytes.reverse
    rw [h] at hhead
    exact .inr (congrArg some (by simpa using hhead))

/-- A settled session stays what it is when more bytes follow. -/
theorem read_append_of_isSettled {bytes : List UInt8} (h : isSettled bytes) (tail : List UInt8) :
    read (bytes ++ tail) = read bytes := by
  obtain ⟨rest, hrest⟩ := endedLines_prefix bytes
  have hended (more : List UInt8) : read (endedLines bytes ++ more) = read (endedLines bytes) := by
    refine read_append (getLast?_endedLines bytes) (fun session hsession => ?_) more
    simpa only [isSettled, hsession] using h
  rw [← hrest, List.append_assoc, hended, hended]

/-- **A stream is split at its first blank line and read no further than its assignment.** Every
stream is cut at its line feeds.  The declarations are the texts of the lines before the first blank
one, the assignment is the text of the first line after it that is not blank, and reading fails just
if one of the lines up to the assignment is malformed, or any line if there is no assignment.  Once
the line of the assignment has ended, the bytes behind it make no difference. -/
theorem read_splits_stream :
    (∀ bytes : List UInt8,
      let lines := cutLines bytes
      CutInto bytes lines ∧
        inScope lines <+: lines ∧ (assignmentLine? lines = none → inScope lines = lines) ∧
        match read bytes with
        | .ok session => (declarationLines lines).map lineText? = session.declarations.map some ∧
            (assignmentLine? lines).map lineText? = session.assignment?.map some ∧
            ∀ line ∈ inScope lines, (decodeText? line).isSome
        | .error _ => ∃ line ∈ inScope lines, decodeText? line = none) ∧
      ∀ head tail tail' : List UInt8, head.getLast? = some lineFeed →
        (assignmentLine? (cutLines head)).isSome → read (head ++ tail) = read (head ++ tail') := by
  refine ⟨fun bytes => ⟨cutInto_cutLines bytes, inScope_prefix _, inScope_eq_self,
    ofLines_spec (cutLines bytes)⟩, ?_⟩
  intro head tail tail' hend hassignment
  have hsome : ∀ session, read head = .ok session → session.assignment?.isSome := by
    intro session h
    rw [← Option.isSome_map (f := some), ← (ofLines_ok h).2, Option.isSome_map]
    exact hassignment
  rw [read_append (.inr hend) hsome, read_append (.inr hend) hsome]

/-- A declaration, two blank lines and an assignment, with a malformed byte behind and without. -/
theorem read_splits_stream_malformed_rest :
    let head : List UInt8 := [120, 61, 49, 13, 10, 32, 10, 10, 99, 61, 120, 10]
    cutLines (head ++ [255]) = [[120, 61, 49], [32], [], [99, 61, 120], [255]] ∧
      CutInto (head ++ [255]) (cutLines (head ++ [255])) ∧
      head.getLast? = some lineFeed ∧ (assignmentLine? (cutLines head)).isSome ∧
      read (head ++ [255]) = read (head ++ []) := by
  intro head
  have hassignment : (assignmentLine? (cutLines head)).isSome := by decide +kernel
  exact ⟨by decide, (read_splits_stream.1 (head ++ [255])).1, rfl, hassignment,
    read_splits_stream.2 head [255] [] rfl hassignment⟩

end Session

end AttrCalc
