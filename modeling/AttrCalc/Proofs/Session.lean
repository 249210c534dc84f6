import AttrCalc.Proofs.Text.Words
import AttrCalc.Session
import Mathlib.Data.List.Basic

/-!
# Sessions that are typed

Entries that are typed line by line are read as they are, up to their layout: no byte of a text but
a line feed of its own ends a line, and a carriage return at the end of a line is white space.

## Main definitions

* `IsEntry` : a text that takes up a line of its own and is not blank.
* `Session.typed` : the stream of a session.

## Main results

* `cutLines_typed` : lines that are typed are the lines of the stream.
* `Session.read_typed` : a session that is typed is read.
-/

namespace AttrCalc

open Text Unicode

/-! ### Bytes of texts -/

theorem decodeText?_encodeText (s : String) : decodeText? (encodeText s) = some s := by
  have hvalid : (ByteArray.mk s.toUTF8.data).IsValidUTF8 := s.isValidUTF8
  rw [decodeText?, encodeText, Array.toArray_toList, String.fromUTF8?, dif_pos hvalid]
  rfl

theorem encodeText_ofList (cs : List Char) :
    encodeText (String.ofList cs) = cs.flatMap String.utf8EncodeChar := by
  rw [encodeText, String.toUTF8_eq_toByteArray, String.toByteArray_ofList, List.utf8Encode,
    List.data_toByteArray, List.toList_toArray]

/-- A byte below 128 is a character by itself. -/
theorem toNat_of_mem_utf8EncodeChar {c : Char} {b : UInt8} (hb : b ∈ String.utf8EncodeChar c)
    (hlt : b.toNat < 128) : c.toNat = b.toNat := by
  rw [String.utf8EncodeChar.eq_1] at hb
  change c.val.toNat = b.toNat
  split at hb
  · next h =>
    rw [List.mem_singleton.mp hb, UInt8.toNat_ofNat']
    omega
  · have hlarge {n : Nat} (hn : 128 ≤ n ∧ n < 256) : b ≠ UInt8.ofNat n := by
      rintro rfl
      rw [UInt8.toNat_ofNat', Nat.mod_eq_of_lt hn.2] at hlt
      omega
    exfalso
    split at hb
    · simp only [List.mem_cons, List.not_mem_nil, or_false] at hb
      rcases hb with h | h <;> exact hlarge (by omega) h
    · split at hb
      · simp only [List.mem_cons, List.not_mem_nil, or_false] at hb
        rcases hb with h | h | h <;> exact hlarge (by omega) h
      · simp only [List.mem_cons, List.not_mem_nil, or_false] at hb
        rcases hb with h | h | h | h <;> exact hlarge (by omega) h

theorem eq_of_mem_utf8EncodeChar {c d : Char} {b : UInt8} (hb : b ∈ String.utf8EncodeChar c)
    (hd : d.toNat = b.toNat) (hlt : b.toNat < 128) : c = d :=
  Char.toNat_inj.mp ((toNat_of_mem_utf8EncodeChar hb hlt).trans hd.symm)

theorem lineFeed_notMem_encodeText {s : String} (h : '\n' ∉ s.toList) :
    lineFeed ∉ encodeText s := by
  rw [← String.ofList_toList (s := s), encodeText_ofList, List.mem_flatMap]
  rintro ⟨c, hc, hb⟩
  exact h (eq_of_mem_utf8EncodeChar (d := '\n') hb rfl (by decide) ▸ hc)

/-- A carriage return at the end of a line makes no difference to its words. -/
theorem readLine_encodeText (s : String) :
    Session.readLine (dropCarriageReturn (encodeText s)) = .ok (normalize s) := by
  obtain ⟨cs, rfl⟩ : ∃ cs, s = String.ofList cs := ⟨s.toList, String.ofList_toList.symm⟩
  have hread (cs : List Char) :
      Session.readLine (encodeText (String.ofList cs)) = .ok (normalize (String.ofList cs)) := by
    simp only [Session.readLine, decodeText?_encodeText]
  obtain rfl | ⟨cs, c, rfl⟩ := cs.eq_nil_or_concat'
  · exact hread []
  · by_cases hc : c = '\r'
    · have hline : encodeText (String.ofList (cs ++ [c])) =
          encodeText (String.ofList cs) ++ [carriageReturn] := by
        rw [encodeText_ofList, encodeText_ofList, List.flatMap_append, hc]
        rfl
      have hwords : words (cs ++ [c]) = words cs := by
        rw [words_append_cons _ _ (by rw [hc]; decide), words_nil, List.append_nil]
      rw [hline, dropCarriageReturn, List.getLast?_concat, if_pos rfl, List.dropLast_concat, hread,
        Text.normalize, Text.normalize, String.toList_ofList, String.toList_ofList,
        normalizeChars_of_words_eq hwords]
    · have hlast : (encodeText (String.ofList (cs ++ [c]))).getLast? ≠ some carriageReturn := by
        rw [encodeText_ofList, List.flatMap_append, List.flatMap_singleton, List.getLast?_append,
          List.getLast?_eq_some_getLast String.utf8EncodeChar_ne_nil, Option.some_or]
        intro hlast
        have hmem := List.getLast_mem (String.utf8EncodeChar_ne_nil (c := c))
        rw [Option.some.inj hlast] at hmem
        exact hc (eq_of_mem_utf8EncodeChar (d := '\r') hmem rfl (by decide))
      rw [dropCarriageReturn, if_neg hlast, hread]

/-! ### Lines -/

/-- Lines that are typed are the lines of the stream. -/
theorem cutLines_typed (lines : List (List UInt8)) (h : ∀ line ∈ lines, lineFeed ∉ line) :
    cutLines (lines.flatMap (· ++ [lineFeed])) = lines.map dropCarriageReturn := by
  simp only [cutLines, splitOnP_flatMap_concat lines h, List.getLast?_concat, List.dropLast_concat]

/-! ### Sessions -/

/-- A text that takes up a line of its own and is not blank. -/
structure IsEntry (s : String) : Prop where
  lineFeed_notMem : '\n' ∉ s.toList
  not_white : ¬ White s.toList

instance (s : String) : Decidable (IsEntry s) :=
  decidable_of_iff ('\n' ∉ s.toList ∧ ¬ White s.toList)
    ⟨fun h => ⟨h.1, h.2⟩, fun h => ⟨h.lineFeed_notMem, h.not_white⟩⟩

theorem IsEntry.normalize_ne_empty {s : String} (h : IsEntry s) : normalize s ≠ "" := by
  intro hempty
  have hnil : normalizeChars s.toList = [] := by
    simpa [Text.normalize] using congrArg String.toList hempty
  exact h.not_white (normalizeChars_eq_nil_iff.mp hnil)

namespace Session

/-- The stream of a session: the declarations, a blank line and the assignment. -/
def typed (declarations : List String) (assignment : String) : List UInt8 :=
  (declarations.map encodeText ++ [[], encodeText assignment]).flatMap (· ++ [lineFeed])

theorem readDeclarations_typed (declarations : List String) (h : ∀ d ∈ declarations, IsEntry d)
    (rest : List (List UInt8)) (read : List String) :
    readDeclarations ((declarations.map encodeText).map dropCarriageReturn ++ [] :: rest) read =
      .ok (read.reverse ++ declarations.map normalize, rest) := by
  induction declarations generalizing read with
  | nil => simp [readDeclarations, show readLine [] = .ok "" from readLine_encodeText ""]
  | cons d declarations ih =>
    obtain ⟨hd, hdeclarations⟩ := List.forall_mem_cons.mp h
    have hne : (normalize d).isEmpty = false := by
      simpa using hd.normalize_ne_empty
    simp only [List.map_cons, List.cons_append, readDeclarations, readLine_encodeText, hne,
      Bool.false_eq_true, if_false, ih hdeclarations, List.reverse_cons, List.append_assoc,
      List.nil_append]

/-- **A session that is typed is read.** -/
theorem read_typed (declarations : List String) (assignment : String)
    (hd : ∀ d ∈ declarations, IsEntry d) (ha : IsEntry assignment) :
    read (typed declarations assignment) =
      .ok ⟨declarations.map normalize, some (normalize assignment)⟩ := by
  have hlines : ∀ line ∈ declarations.map encodeText ++ [[], encodeText assignment],
      lineFeed ∉ line := by
    simp only [List.mem_append, List.mem_map, List.mem_cons, List.not_mem_nil, or_false]
    rintro line (⟨d, hmem, rfl⟩ | rfl | rfl)
    · exact lineFeed_notMem_encodeText (hd d hmem).lineFeed_notMem
    · exact List.not_mem_nil
    · exact lineFeed_notMem_encodeText ha.lineFeed_notMem
  have hne : (normalize assignment).isEmpty = false := by
    simpa using ha.normalize_ne_empty
  have hblank : dropCarriageReturn [] = [] := rfl
  rw [read, typed, cutLines_typed _ hlines, List.map_append, List.map_cons, List.map_singleton,
    hblank, ofLines, readDeclarations_typed declarations hd]
  simp only [readAssignment, readLine_encodeText, hne, Bool.false_eq_true, if_false,
    List.reverse_nil, List.nil_append]

end Session

end AttrCalc
