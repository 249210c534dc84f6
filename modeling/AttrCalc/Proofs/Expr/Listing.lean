import AttrCalc.Proofs.Expr.Label

/-!
# Listings determine expressions

A listing has a line for each node, in pre-order, and a line is a row of words: the label, an arrow,
the tag if there is one, and the value.  None of these contains white space, so the words of a line
can be told apart whatever the level that it is indented by.  With them the labels in pre-order are
known, and they determine the tree.

## Main definitions

* `Node.Inscription`, `Node.inscription` : what a listing shows of a node.
* `Node.lineText`, `Expr.listingLines` : the lines of a listing without their ends.
* `Node.lineWords` : the words of a line.

## Main results

* `Node.words_lineText` : the words of a line do not depend on its level.
* `Expr.splitAll_listing` : the lines of a listing are those of the nodes.
* `listing_determines_expr` : the listing of an evaluated expression determines it.
-/

namespace AttrCalc

open Text Unicode

/-! ### Lines -/

namespace Node

/-- What a listing shows of a node: everything but its identifier. -/
structure Inscription where
  label : Label
  tag? : Option TypeTag
  value : String
deriving DecidableEq, Repr

/-- What a listing shows of a node. -/
def inscription (n : Node) : Inscription :=
  ⟨n.label, n.tag?, Decimal.valueText n.value⟩

/-- The line of a node without its end. -/
def lineText (level : Nat) (n : Node) : String :=
  String.ofList (List.replicate (2 * level) ' ') ++ n.label.text ++ " -> " ++
    (match n.tag? with
      | some tag => "tipo=" ++ tag.text ++ " "
      | none => "") ++
    "val=" ++ Decimal.valueText n.value

theorem line_eq (level : Nat) (n : Node) : n.line level = n.lineText level ++ "\n" :=
  rfl

/-- The words of the line of a node. -/
def lineWords (n : Node) : List String :=
  n.label.text :: "->" :: (tagParts n.tag? ++ ["val=" ++ Decimal.valueText n.value])

variable {n n' : Node}

theorem isPlain_of_mem_lineWords (h : IsPlain n.label.text) : ∀ w ∈ n.lineWords, IsPlain w := by
  have hvalue : IsPlain ("val=" ++ Decimal.valueText n.value) :=
    isPlain_append (by decide) (isPlain_valueText n.value)
  refine List.forall_mem_cons.mpr ⟨h, List.forall_mem_cons.mpr ⟨by decide, ?_⟩⟩
  exact List.forall_mem_append.mpr ⟨isPlain_of_mem_tagParts, List.forall_mem_singleton.mpr hvalue⟩

theorem ne_empty_of_mem_lineWords : ∀ w ∈ n.lineWords, w ≠ "" := by
  refine List.forall_mem_cons.mpr ⟨n.label.text_ne_empty, List.forall_mem_cons.mpr ⟨by decide, ?_⟩⟩
  cases n.tag? <;> simp [tagParts]

/-- A line has its words behind its indentation, with a blank between neighbours. -/
theorem toList_lineText (level : Nat) (n : Node) :
    (n.lineText level).toList =
      List.replicate (2 * level) ' ' ++ [' '].intercalate (n.lineWords.map String.toList) := by
  cases htag : n.tag? <;>
    simp [lineText, lineWords, tagParts, htag, List.intercalate_cons_cons, String.toList_append]

/-- The words of a line do not depend on its level. -/
theorem words_lineText (h : IsPlain n.label.text) (level : Nat) :
    words (n.lineText level).toList = n.lineWords.map String.toList := by
  have hindent : White (List.replicate (2 * level) ' ') := fun c hc => by
    rw [List.eq_of_mem_replicate hc]
    rfl
  rw [toList_lineText, words_append_of_white hindent]
  refine words_intercalate (List.forall_mem_map.mpr fun w hw => ⟨?_, fun c hc => ?_⟩)
  · simpa using ne_empty_of_mem_lineWords w hw
  · exact (isPlain_of_mem_lineWords h w hw c hc).not_white

/-- The only white space in a line are blanks. -/
theorem lineFeed_notMem_lineText (h : IsPlain n.label.text) (level : Nat) :
    '\n' ∉ (n.lineText level).toList := by
  have hplain {s : String} (hs : IsPlain s) : '\n' ∉ s.toList := fun hmem =>
    absurd (hs _ hmem).not_white (by decide)
  have hindent : '\n' ∉ List.replicate (2 * level) ' ' := by simp
  have hvalue : '\n' ∉ (Decimal.valueText n.value).toList := hplain (isPlain_valueText n.value)
  cases htag : n.tag? with
  | none => simp [lineText, htag, hplain h, hindent, hvalue]
  | some tag => simp [lineText, htag, hplain h, hindent, hvalue, hplain tag.isPlain_text]

/-- The words of a line determine what it shows. -/
theorem inscription_of_lineWords_eq (h : n.lineWords = n'.lineWords) :
    n.inscription = n'.inscription := by
  obtain ⟨hlabel, hrest⟩ := List.cons.inj h
  obtain ⟨htag, hvalue⟩ := List.append_inj' (List.cons.inj hrest).2 rfl
  have hvalue : Decimal.valueText n.value = Decimal.valueText n'.value := by simpa using hvalue
  rw [inscription, inscription, Label.text_injective hlabel, tagParts_injective htag, hvalue]

end Node

/-! ### Listings -/

namespace Expr

/-- The lines of a listing. -/
def listingLines (e : Expr) : List String :=
  e.levels.map fun p => p.2.node.lineText p.1

theorem length_listingLines (e : Expr) : e.listingLines.length = e.size := by
  rw [← e.length_preorder, ← e.subtrees_eq_preorder, subtrees, listingLines, List.length_map,
    List.length_map]

/-- The lines of a listing are those of the nodes, and each of them is ended. -/
theorem splitAll_listing {e : Expr} (h : ∀ s ∈ e.preorder, IsPlain s.label.text) :
    splitAll '\n' e.listing = e.listingLines ++ [""] := by
  have hended : e.listing.toList = (e.listingLines.map String.toList).flatMap (· ++ ['\n']) := by
    rw [listing, String.toList_join, listingLines]
    simp only [List.flatMap_map, Node.line_eq, String.toList_append]
    rfl
  have hfree : ∀ line ∈ e.listingLines.map String.toList, '\n' ∉ line := by
    rw [listingLines, List.forall_mem_map, List.forall_mem_map]
    intro p hp
    have hplain : IsPlain p.2.node.label.text := h p.2 (snd_mem_preorder hp)
    exact Node.lineFeed_notMem_lineText hplain p.1
  rw [splitAll, hended, splitOnP_flatMap_concat _ hfree]
  simp [Function.comp_def]

/-- The words of the lines show the nodes in pre-order. -/
theorem map_words_listingLines {e : Expr} (h : ∀ s ∈ e.preorder, IsPlain s.label.text) :
    e.listingLines.map (fun line => words line.toList) =
      (e.shownBy Node.lineWords).map (List.map String.toList) := by
  have hwords : ∀ p ∈ e.levels, words (p.2.node.lineText p.1).toList =
      p.2.node.lineWords.map String.toList := by
    intro p hp
    have hplain : IsPlain p.2.node.label.text := h p.2 (snd_mem_preorder hp)
    exact Node.words_lineText hplain p.1
  rw [shownBy, ← subtrees_eq_preorder, subtrees, listingLines]
  simp only [List.map_map, Function.comp_def]
  exact List.map_congr_left hwords

/-- Listings with plain labels determine the expression. -/
theorem agreeIn_of_listing_eq {e e' : Expr} (h : ∀ s ∈ e.preorder, IsPlain s.label.text)
    (h' : ∀ s ∈ e'.preorder, IsPlain s.label.text) (hlisting : e.listing = e'.listing) :
    e.AgreeIn Node.inscription e' := by
  have hlines : e.listingLines = e'.listingLines := by
    have hsplit := congrArg (splitAll '\n') hlisting
    rw [splitAll_listing h, splitAll_listing h'] at hsplit
    exact List.append_cancel_right hsplit
  have hshown : e.shownBy Node.lineWords = e'.shownBy Node.lineWords := by
    have hchars : Function.Injective (List.map String.toList) :=
      Function.Injective.list_map fun _ _ => String.toList_injective
    have hwords := congrArg (List.map fun line : String => words line.toList) hlines
    rw [map_words_listingLines h, map_words_listingLines h'] at hwords
    exact hchars.list_map hwords
  have hagree := (agreeIn_iff_shownBy_eq fun n n' hn =>
    congrArg Node.Inscription.label (Node.inscription_of_lineWords_eq hn)).mpr hshown
  exact hagree.mono fun n n' => Node.inscription_of_lineWords_eq

end Expr

/-- **The listing of an expression determines it.** It has one line for each node.  Expressions with
the same listing have the same shape, and the same labels, tags and written values. -/
theorem listing_determines_expr (source source' : String) (env env' : Env)
    (tokens tokens' : List Lexeme) (ev ev' : Evaluation) (htokens : tokenize source = .ok tokens)
    (hev : evaluate env tokens = .ok ev) (htokens' : tokenize source' = .ok tokens')
    (hev' : evaluate env' tokens' = .ok ev') :
    splitAll '\n' ev.expr.listing = ev.expr.listingLines ++ [""] ∧
      ev.expr.listingLines.length = ev.expr.size ∧
      (ev.expr.listing = ev'.expr.listing → ev.expr.AgreeIn Node.inscription ev'.expr) := by
  have hplain := isPlain_text_of_evaluate htokens hev
  have hplain' := isPlain_text_of_evaluate htokens' hev'
  exact ⟨Expr.splitAll_listing hplain, ev.expr.length_listingLines,
    Expr.agreeIn_of_listing_eq hplain hplain'⟩

/-- A difference with a group, in two layouts and under two policies. -/
theorem listing_determines_expr_layout :
    let table := SymbolTable.empty.write "x" ⟨4, .int⟩
    let tokens : List Lexeme := [⟨.ident "x", 0⟩, ⟨.op .sub, 1⟩, ⟨.leftParen, 2⟩, ⟨.num ".5", 3⟩,
      ⟨.rightParen, 5⟩]
    let tokens' : List Lexeme := [⟨.ident "x", 1⟩, ⟨.op .sub, 3⟩, ⟨.leftParen, 5⟩, ⟨.num ".5", 7⟩,
      ⟨.rightParen, 10⟩]
    ∃ ev ev', tokenize "x-(.5)" = .ok tokens ∧ evaluate ⟨table, .ieee⟩ tokens = .ok ev ∧
      tokenize " x - ( .5 )" = .ok tokens' ∧ evaluate ⟨table, .fail⟩ tokens' = .ok ev' ∧
      splitAll '\n' ev.expr.listing = ev.expr.listingLines ++ [""] ∧
      ev.expr.listingLines.length = ev.expr.size ∧
      (ev.expr.listing = ev'.expr.listing → ev.expr.AgreeIn Node.inscription ev'.expr) := by
  intro table tokens tokens'
  let t : LabelTree := .binary .sub (.atom (.ident "x")) (.group (.atom (.num ".5")))
  have hcanonical : t.Canonical := by
    simp [t, LabelTree.Canonical, LabelTree.IsOperation, Operator.level]
  have hvalue : (t.value? ⟨table, .ieee⟩).isSome ∧ (t.value? ⟨table, .fail⟩).isSome := by
    decide +kernel
  have htokens : tokenize "x-(.5)" = .ok tokens := tokenize_eq_ok_iff.mpr (by decide +kernel)
  have htokens' : tokenize " x - ( .5 )" = .ok tokens' :=
    tokenize_eq_ok_iff.mpr (by decide +kernel)
  obtain ⟨ev, hev⟩ := hcanonical.exists_evaluate (by decide) hvalue.1 tokens rfl
  obtain ⟨ev', hev'⟩ := hcanonical.exists_evaluate (by decide) hvalue.2 tokens' rfl
  exact ⟨ev, ev', htokens, hev, htokens', hev',
    listing_determines_expr _ _ _ _ _ _ ev ev' htokens hev htokens' hev'⟩

end AttrCalc
