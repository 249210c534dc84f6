import AttrCalc.Proofs.Decimal.Notation
import AttrCalc.Proofs.Eval.RoundTrip
import AttrCalc.Proofs.Expr.Walk
import AttrCalc.Proofs.Token.WellFormed

/-!
# What nodes show

Labels, values and tags are shown next to one another, between blanks, at the ends of lines and in
quotation marks, and nothing in them is escaped.  None of it is needed: tokens, numbers and tags
consist of plain characters only, so what is shown can be told apart again.

## Main definitions

* `IsPlain` : a text without white space, quotation marks and backslashes.
* `Node.Shown`, `Node.shown` : what all drawings show of a node.

## Main results

* `Label.text_injective` : a label is determined by its text.
* `isPlain_text_of_evaluate` : the labels of an expression that comes from a source are plain.
-/

namespace AttrCalc

open Text Unicode

/-! ### Plain texts -/

/-- Neither white space nor a quotation mark nor a backslash. -/
structure IsPlainChar (c : Char) : Prop where
  not_white : isWhiteSpace c = false
  ne_quote : c ≠ '"'
  ne_backslash : c ≠ '\\'

/-- A text of plain characters. -/
def IsPlain (s : String) : Prop :=
  ∀ c ∈ s.toList, IsPlainChar c

instance (c : Char) : Decidable (IsPlainChar c) :=
  decidable_of_iff (isWhiteSpace c = false ∧ c ≠ '"' ∧ c ≠ '\\')
    ⟨fun h => ⟨h.1, h.2.1, h.2.2⟩, fun h => ⟨h.1, h.2, h.3⟩⟩

instance (s : String) : Decidable (IsPlain s) :=
  List.decidableBAll _ _

theorem isPlain_append {s t : String} (hs : IsPlain s) (ht : IsPlain t) : IsPlain (s ++ t) := by
  simp only [IsPlain, String.toList_append, List.forall_mem_append]
  exact ⟨hs, ht⟩

theorem isPlainChar_of_isNamePart {c : Char} (h : isNamePart c) : IsPlainChar c where
  not_white := isWhiteSpace_eq_false_of_isNamePart h
  ne_quote := by
    rintro rfl
    exact absurd h (by decide +kernel)
  ne_backslash := by
    rintro rfl
    exact absurd h (by decide +kernel)

theorem isPlain_of_isNumberText {s : String} (h : Decimal.IsNumberText s) : IsPlain s := by
  refine fun c hc => ⟨Decimal.isWhiteSpace_eq_false_of_isNumberChar (h c hc), ?_, ?_⟩
  · rintro rfl
    exact absurd (h _ hc) (by decide)
  · rintro rfl
    exact absurd (h _ hc) (by decide)

theorem isPlain_valueText (x : Float) : IsPlain (Decimal.valueText x) :=
  isPlain_of_isNumberText (Decimal.isNumberText_valueText x)

theorem TypeTag.text_injective {tag tag' : TypeTag} (h : tag.text = tag'.text) : tag = tag' := by
  cases tag <;> cases tag' <;> simp [text] at h ⊢

theorem TypeTag.isPlain_text (tag : TypeTag) : IsPlain tag.text := by
  cases tag <;> decide

/-- A tag as it is shown, if there is one. -/
def tagParts (tag? : Option TypeTag) : List String :=
  (tag?.map fun tag => "tipo=" ++ tag.text).toList

theorem isPlain_of_mem_tagParts {tag? : Option TypeTag} : ∀ part ∈ tagParts tag?, IsPlain part := by
  intro part hpart
  obtain ⟨tag, -, rfl⟩ := Option.map_eq_some_iff.mp (Option.mem_toList.mp hpart)
  exact isPlain_append (by decide) tag.isPlain_text

theorem tagParts_injective : Function.Injective tagParts := by
  intro tag? tag?' h
  have hshown : Function.Injective fun tag : TypeTag => "tipo=" ++ tag.text := fun _ _ htext =>
    TypeTag.text_injective ((String.append_right_inj _).mp htext)
  refine Option.map_injective hshown (Option.ext fun part => ?_)
  rw [← Option.mem_toList, ← Option.mem_toList]
  exact Iff.of_eq (congrArg (part ∈ ·) h)

/-! ### Plain tokens -/

theorem IsDigits.isPlainChar {ds : List Char} (h : IsDigits ds) : ∀ c ∈ ds, IsPlainChar c :=
  fun c hc => isPlainChar_of_isNamePart (isNamePart_of_isDigit (h.2 c hc))

theorem IsExponent.isPlainChar {ex : List Char} (h : IsExponent ex) : ∀ c ∈ ex, IsPlainChar c := by
  have hletter {e : Char} (he : e = 'e' ∨ e = 'E') : IsPlainChar e := by
    rcases he with rfl | rfl <;> decide
  have hplus {sign : Char} (hsign : sign = '+' ∨ sign = '-') : IsPlainChar sign := by
    rcases hsign with rfl | rfl <;> decide
  cases h with
  | none => simp
  | unsigned he hds => exact List.forall_mem_cons.mpr ⟨hletter he, hds.isPlainChar⟩
  | signed he hsign hds =>
    exact List.forall_mem_cons.mpr ⟨hletter he,
      List.forall_mem_cons.mpr ⟨hplus hsign, hds.isPlainChar⟩⟩

theorem IsNumeral.isPlainChar {cs : List Char} (h : IsNumeral cs) : ∀ c ∈ cs, IsPlainChar c := by
  have hpoint : IsPlainChar '.' := by decide
  cases h with
  | whole hds hex => exact List.forall_mem_append.mpr ⟨hds.isPlainChar, hex.isPlainChar⟩
  | decimal hds hfs hex =>
    exact List.forall_mem_append.mpr ⟨hds.isPlainChar, List.forall_mem_cons.mpr ⟨hpoint,
      List.forall_mem_append.mpr ⟨hfs.isPlainChar, hex.isPlainChar⟩⟩⟩
  | fraction hfs hex =>
    exact List.forall_mem_cons.mpr ⟨hpoint,
      List.forall_mem_append.mpr ⟨hfs.isPlainChar, hex.isPlainChar⟩⟩

theorem isPlain_of_isName {name : String} (h : isName name) : IsPlain name := by
  unfold isName at h
  intro c hc
  match hname : name.toList with
  | [] => simp [hname] at hc
  | d :: ds =>
    rw [hname] at h hc
    obtain ⟨hstart, hds⟩ : isNameStart d ∧ ∀ d ∈ ds, isNamePart d := by
      simpa [isNameChars] using h
    have hparts : ∀ c ∈ d :: ds, isNamePart c :=
      List.forall_mem_cons.mpr ⟨isNamePart_of_isNameStart hstart, hds⟩
    exact isPlainChar_of_isNamePart (hparts c hc)

/-! ### Labels -/

theorem Atom.isPlain_text_of_wellFormed {a : Atom} (h : a.token.WellFormed) :
    IsPlain a.label.text := by
  cases a with
  | num text => exact isPlain_append (isPlain_append (by decide) h.isPlainChar) (by decide)
  | ident name =>
    exact isPlain_append (isPlain_append (by decide) (isPlain_of_isName h)) (by decide)

theorem Label.text_ne_empty (l : Label) : l.text ≠ "" := by
  intro h
  have hchars := congrArg String.toList h
  cases l <;> simp [text] at hchars

/-- A label is determined by its text. -/
theorem Label.text_injective {l l' : Label} (h : l.text = l'.text) : l = l' := by
  have hchars := congrArg String.toList h
  cases l <;> cases l' <;> simp [text] at hchars h ⊢
  · next o o' => cases o <;> cases o' <;> simp_all [Operator.symbol]
  · exact String.toList_injective hchars
  · exact String.toList_injective hchars

namespace Expr

/-- The labels of an expression that is written with well-formed tokens are plain. -/
theorem isPlain_text_of_wellFormed (e : Expr) (h : ∀ t ∈ e.labels.tokens, t.WellFormed) :
    ∀ s ∈ e.preorder, IsPlain s.label.text := by
  induction e with
  | atom id a tag value =>
    have ha : IsPlain a.label.text := Atom.isPlain_text_of_wellFormed (h _ List.mem_cons_self)
    simpa [preorder, label] using ha
  | group id tag inner ih =>
    have hgroup : IsPlain Label.group.text := by decide
    refine List.forall_mem_cons.mpr ⟨hgroup, ih fun t ht => h t ?_⟩
    simp [labels, LabelTree.tokens, ht]
  | binary id o value left right ihl ihr =>
    have hop : IsPlain (Label.op o).text := by cases o <;> decide
    refine List.forall_mem_cons.mpr ⟨hop, List.forall_mem_append.mpr ⟨?_, ?_⟩⟩
    · exact ihl fun t ht => h t (by simp [labels, LabelTree.tokens, ht])
    · exact ihr fun t ht => h t (by simp [labels, LabelTree.tokens, ht])

end Expr

/-- **The labels of an expression that comes from a source are plain.** -/
theorem isPlain_text_of_evaluate {source : String} {tokens : List Lexeme} {env : Env}
    {ev : Evaluation} (htokens : tokenize source = .ok tokens)
    (h : evaluate env tokens = .ok ev) : ∀ s ∈ ev.expr.preorder, IsPlain s.label.text := by
  refine ev.expr.isPlain_text_of_wellFormed fun t ht => ?_
  rw [tokens_labels_of_evaluate h] at ht
  obtain ⟨l, hl, rfl⟩ := List.mem_map.mp ht
  exact Token.wellFormed_of_mem_tokenize htokens hl

/-! ### Nodes -/

/-- What drawings show of a node.  Values are shown as texts. -/
structure Node.Shown where
  id : Nat
  label : Label
  tag? : Option TypeTag
  value : String
deriving DecidableEq, Repr

/-- What drawings show of a node. -/
def Node.shown (n : Node) : Shown :=
  ⟨n.id, n.label, n.tag?, Decimal.valueText n.value⟩

end AttrCalc
