import AttrCalc.Proofs.Table.History
import AttrCalc.Proofs.Text.Words

/-!
# Declarations of a line

A line is cut at its commas, and its pieces are declared one after the other.  What a piece
declares, or why it fails, does not depend on the table, and a piece that fails leaves the table to
the next one as it is.  So a line that is put together from two with a comma does what they do in a
row.

## Main definitions

* `SymbolTable.Makes` : declarations made one after the other, with the errors of those that fail.

## Main results

* `Declaration.pieces_append` : a comma ends a piece.
* `Declaration.pieces_eq` : the pieces of a line are those between its commas that are not blank.
* `SymbolTable.makes_declareEach` : a piece fails, or is an insertion.
* `SymbolTable.declareLine_goes_piece_by_piece` : what a line does, piece by piece.
-/

namespace AttrCalc

open Text Unicode

/-! ### Pieces -/

namespace Declaration

/-- The pieces of a line are those between its commas that are not blank. -/
theorem pieces_eq (line : String) :
    pieces line = ((splitAll ',' line).filter fun piece => ¬ White piece.toList).map trim := by
  rw [pieces, List.filter_map]
  congr 2
  funext piece
  have hempty : (trim piece).isEmpty ↔ White piece.toList := by
    rw [← trimChars_eq_nil_iff, trim, String.isEmpty_iff, String.ofList_eq_empty_iff]
  by_cases hwhite : White piece.toList
  · rw [Function.comp_apply, hempty.mpr hwhite, decide_eq_false (not_not_intro hwhite)]
    rfl
  · rw [Function.comp_apply, Bool.eq_false_iff.mpr (mt hempty.mp hwhite), decide_eq_true hwhite]
    rfl

/-- A comma ends a piece. -/
theorem pieces_append (l₁ l₂ : String) : pieces (l₁ ++ "," ++ l₂) = pieces l₁ ++ pieces l₂ := by
  have hsplit : splitAll ',' (l₁ ++ "," ++ l₂) = splitAll ',' l₁ ++ splitAll ',' l₂ := by
    have hchars : (l₁ ++ "," ++ l₂).toList = l₁.toList ++ ',' :: l₂.toList := by
      simp [String.toList_append]
    have hcut := List.splitOnP_append_cons (p := (· == ',')) l₁.toList l₂.toList
      (beq_self_eq_true ',')
    rw [splitAll, hchars, hcut, List.map_append]
    rfl
  rw [pieces, hsplit, List.map_append, List.filter_append]
  rfl

end Declaration

namespace SymbolTable

variable {t t' : SymbolTable} {texts : List String} {errors : List DeclError}
  {ds : List Declaration}

/-! ### One after the other -/

/-- Texts are declared one after the other, which leads from a table to another.  One that can be
read is inserted, whatever the table; one that cannot leaves the table as it is.  The errors and
what has been inserted are in order. -/
inductive Makes :
    SymbolTable → List String → List DeclError → List Declaration → SymbolTable → Prop
  | nil (t : SymbolTable) : Makes t [] [] [] t
  | made {t t' : SymbolTable} {text : String} {texts : List String} {errors : List DeclError}
      {d : Declaration} {ds : List Declaration} (hread : Declaration.read text = .ok d)
      (h : t.declare text = .ok (t.insert d.name ⟨d.value, .int⟩).2)
      (hrest : Makes (t.insert d.name ⟨d.value, .int⟩).2 texts errors ds t') :
      Makes t (text :: texts) errors (d :: ds) t'
  | failed {t t' : SymbolTable} {text : String} {texts : List String} {errors : List DeclError}
      {e : DeclError} {ds : List Declaration} (hread : Declaration.read text = .error e)
      (h : t.declare text = .error e) (hrest : Makes t texts errors ds t') :
      Makes t (text :: texts) (e :: errors) ds t'

/-- Every text is inserted or fails. -/
theorem Makes.length_add_length (h : t.Makes texts errors ds t') :
    errors.length + ds.length = texts.length := by
  induction h with
  | nil => rfl
  | made _ _ _ ih => rw [List.length_cons, List.length_cons, ← ih, Nat.add_assoc]
  | failed _ _ _ ih => rw [List.length_cons, List.length_cons, ← ih, Nat.add_right_comm]

theorem declare_of_read_ok {text : String} {d : Declaration} (h : Declaration.read text = .ok d)
    (t : SymbolTable) : t.declare text = .ok (t.insert d.name ⟨d.value, .int⟩).2 := by
  rw [declare, h]
  rfl

theorem declare_of_read_error {text : String} {e : DeclError}
    (h : Declaration.read text = .error e) (t : SymbolTable) : t.declare text = .error e := by
  rw [declare, h]
  rfl

theorem makes_declareEach (t : SymbolTable) (texts : List String) :
    ∃ ds, t.Makes texts (t.declareEach texts).1 ds (t.declareEach texts).2 := by
  induction texts generalizing t with
  | nil => exact ⟨[], .nil t⟩
  | cons text texts ih =>
    unfold declareEach
    cases h : Declaration.read text with
    | ok d =>
      obtain ⟨ds, hds⟩ := ih (t.insert d.name ⟨d.value, .int⟩).2
      rw [declare_of_read_ok h]
      exact ⟨d :: ds, .made h (declare_of_read_ok h t) hds⟩
    | error e =>
      obtain ⟨ds, hds⟩ := ih t
      rw [declare_of_read_error h]
      exact ⟨ds, .failed h (declare_of_read_error h t) hds⟩

theorem declareEach_append (t : SymbolTable) (texts texts' : List String) :
    t.declareEach (texts ++ texts') =
      ((t.declareEach texts).1 ++ ((t.declareEach texts).2.declareEach texts').1,
        ((t.declareEach texts).2.declareEach texts').2) := by
  induction texts generalizing t with
  | nil => rfl
  | cons text texts ih =>
    rw [List.cons_append]
    simp only [declareEach]
    cases t.declare text with
    | ok t₁ => exact ih t₁
    | error e => simp only [ih t, List.cons_append]

/-! ### Lines -/

/-- **A line is declared piece by piece.** A line that is put together from two with a comma leaves
the table that they leave in a row, and has the errors of the first and then those of the second.
The pieces of a line that are not blank are declared one after the other, so there are as many as
there are errors and insertions.  A piece is the same insertion, or has the same error, whatever the
table that the pieces before it have left. -/
theorem declareLine_goes_piece_by_piece :
    (∀ (t : SymbolTable) (l₁ l₂ : String),
      t.declareLine (l₁ ++ "," ++ l₂) =
        ((t.declareLine l₁).1 ++ ((t.declareLine l₁).2.declareLine l₂).1,
          ((t.declareLine l₁).2.declareLine l₂).2)) ∧
    (∀ (t : SymbolTable) (line : String),
      let pieces := (splitAll ',' line).filter fun piece => ¬ White piece.toList
      ∃ ds, t.Makes (pieces.map trim) (t.declareLine line).1 ds (t.declareLine line).2 ∧
        (t.declareLine line).1.length + ds.length = pieces.length) ∧
    ∀ text : String, (∃ d : Declaration, ∀ t : SymbolTable,
        t.declare text = .ok (t.insert d.name ⟨d.value, .int⟩).2) ∨
      ∃ e, ∀ t : SymbolTable, t.declare text = .error e := by
  refine ⟨fun t l₁ l₂ => ?_, fun t line => ?_, fun text => ?_⟩
  · rw [declareLine_eq, declareLine_eq, declareLine_eq, Declaration.pieces_append,
      declareEach_append]
  · intro pieces
    obtain ⟨ds, hds⟩ := t.makes_declareEach (Declaration.pieces line)
    have hcount := hds.length_add_length
    rw [← declareLine_eq, Declaration.pieces_eq] at hds hcount
    exact ⟨ds, hds, hcount.trans (List.length_map trim)⟩
  · cases h : Declaration.read text with
    | ok d => exact .inl ⟨d, declare_of_read_ok h⟩
    | error e => exact .inr ⟨e, declare_of_read_error h⟩

end SymbolTable

end AttrCalc
