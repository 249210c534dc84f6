import AttrCalc.Proofs.Expr.Label
import AttrCalc.Proofs.Normalization
import AttrCalc.Render.Dot
import Mathlib.Data.List.Nodup

/-!
# DOT graphs determine expressions

The graph of an expression has one statement for each node and one for each edge, and each of them
is a line.  Nothing in a label is escaped, but all that labels are made of is plain, so the lines,
the labels and their parts can be told apart again.  The nodes stand in pre-order, and with their
labels they determine the tree.

## Main definitions

* `Dot.labelParts`, `Dot.IsClean` : the lines of a label, and labels without characters that would
  have to be escaped.
* `Dot.Draws` : the statements of the graph of an expression.
* `Dot.lines` : the lines of a graph.

## Main results

* `Dot.draws_statements` : which statements the graph of an expression has.
* `Dot.splitAll_render` : the lines of a graph are its statements.
* `Dot.shown_of_text_eq` : the text of a node statement determines what is shown of the node.
* `Dot.render_determines_expr` : the graph of an expression determines it.
-/

namespace AttrCalc.Dot

open Text Unicode

/-! ### Labels -/

/-- The lines of a label. -/
def labelParts (n : Node) : List String :=
  n.label.text :: ("val=" ++ Decimal.valueText n.value) ::
    (n.tag?.map fun tag => "tipo=" ++ tag.text).toList

/-- A label whose lines are plain, so that its only backslashes are those between the lines. -/
def IsClean (n : Node) : Prop :=
  ∃ parts, labelText n = "\\n".intercalate parts ∧ ∀ part ∈ parts, IsPlain part

theorem labelText_eq (n : Node) : labelText n = "\\n".intercalate (labelParts n) := by
  apply String.toList_injective
  rw [labelText, labelParts]
  cases n.tag? <;> simp [String.toList_append]

/-- The breaks between the lines of a label are the places of its backslashes. -/
theorem toList_intercalate_break (part : String) (parts : List String) :
    ("\\n".intercalate (part :: parts)).toList =
      ['\\'].intercalate (part.toList :: parts.map fun p => 'n' :: p.toList) := by
  rw [String.toList_intercalate]
  induction parts generalizing part with
  | nil => rfl
  | cons next parts ih =>
    have hbreak : "\\n".toList = ['\\', 'n'] := rfl
    simp only [List.map_cons, List.intercalate_cons_cons, hbreak] at ih ⊢
    rw [ih next]
    cases parts with
    | nil => simp
    | cons => simp [List.intercalate_cons_cons]

/-- Plain lines of a label can be told apart. -/
theorem eq_of_intercalate_break_eq {p q : String} {ps qs : List String}
    (hp : ∀ part ∈ p :: ps, IsPlain part) (hq : ∀ part ∈ q :: qs, IsPlain part)
    (h : "\\n".intercalate (p :: ps) = "\\n".intercalate (q :: qs)) : p :: ps = q :: qs := by
  have hcut {r : String} {rs : List String} (hr : ∀ part ∈ r :: rs, IsPlain part) :
      ("\\n".intercalate (r :: rs)).toList.splitOn '\\' =
        r.toList :: rs.map fun part => 'n' :: part.toList := by
    rw [toList_intercalate_break, List.splitOn_intercalate _ _ (List.cons_ne_nil _ _)]
    rw [List.forall_mem_cons] at hr ⊢
    refine ⟨fun hmem => (hr.1 _ hmem).ne_backslash rfl,
      List.forall_mem_map.mpr fun part hpart => ?_⟩
    have hnot : '\\' ∉ part.toList := fun hmem => (hr.2 part hpart _ hmem).ne_backslash rfl
    simpa using hnot
  have hparts := hcut hp
  rw [h, hcut hq, List.cons.injEq] at hparts
  obtain ⟨hhead, htail⟩ := hparts
  have hinjective : Function.Injective fun part : String => 'n' :: part.toList :=
    fun a b hab => String.toList_injective (List.cons.inj hab).2
  rw [String.toList_injective hhead, hinjective.list_map htail]

section Labels

variable {n n' : Node}

theorem labelParts_eq (n : Node) :
    labelParts n =
      n.label.text :: ("val=" ++ Decimal.valueText n.value) :: tagParts n.tag? :=
  rfl

theorem isPlain_of_mem_labelParts (h : IsPlain n.label.text) :
    ∀ part ∈ labelParts n, IsPlain part := by
  have hvalue : IsPlain ("val=" ++ Decimal.valueText n.value) :=
    isPlain_append (by decide) (isPlain_valueText n.value)
  rw [labelParts_eq]
  exact List.forall_mem_cons.mpr ⟨h, List.forall_mem_cons.mpr ⟨hvalue, isPlain_of_mem_tagParts⟩⟩

theorem isClean_of_isPlain (h : IsPlain n.label.text) : IsClean n :=
  ⟨labelParts n, labelText_eq n, isPlain_of_mem_labelParts h⟩

/-- The characters of a clean label are plain, apart from its backslashes. -/
theorem isPlainChar_of_mem_labelText (h : IsPlain n.label.text) :
    ∀ c ∈ (labelText n).toList, IsPlainChar c ∨ c = '\\' := by
  have hplain {s : String} (hs : IsPlain s) : ∀ c ∈ s.toList, IsPlainChar c ∨ c = '\\' :=
    fun c hc => .inl (hs c hc)
  have hbreak {s : String} (hs : IsPlain s) : ∀ c ∈ '\\' :: s.toList, IsPlainChar c ∨ c = '\\' :=
    List.forall_mem_cons.mpr ⟨.inr rfl, hplain hs⟩
  have hvalue : IsPlain "nval=" := by decide
  have htag : IsPlain "ntipo=" := by decide
  simp only [labelText, String.toList_append, List.forall_mem_append]
  refine ⟨⟨⟨hplain h, hbreak hvalue⟩, hplain (isPlain_valueText _)⟩, ?_⟩
  cases n.tag? with
  | none => simp
  | some tag =>
    rw [String.toList_append, List.forall_mem_append]
    exact ⟨hbreak htag, hplain tag.isPlain_text⟩

/-- The text of a label determines what it shows. -/
theorem shown_of_labelText_eq (h : IsPlain n.label.text) (h' : IsPlain n'.label.text)
    (heq : labelText n = labelText n') :
    n.label = n'.label ∧ n.tag? = n'.tag? ∧
      Decimal.valueText n.value = Decimal.valueText n'.value := by
  rw [labelText_eq, labelText_eq] at heq
  have hparts := eq_of_intercalate_break_eq (isPlain_of_mem_labelParts h)
    (isPlain_of_mem_labelParts h') heq
  obtain ⟨hlabel, hrest⟩ := List.cons.inj hparts
  obtain ⟨hvalue, htag⟩ := List.cons.inj hrest
  exact ⟨Label.text_injective hlabel, tagParts_injective htag,
    (String.append_right_inj _).mp hvalue⟩

end Labels

/-! ### Statements -/

namespace Statement

/-- The node of a node statement. -/
def node? : Statement → Option Node
  | node n _ => some n
  | edge .. => none

/-- The ends of an edge statement. -/
def edge? : Statement → Option (Node × Node)
  | node .. => none
  | edge parent child => some (parent, child)

/-- What a node statement shows of its node. -/
def shown? (s : Statement) : Option Node.Shown :=
  s.node?.map Node.shown

/-- The label in the statement is plain. -/
def HasPlainLabel : Statement → Prop
  | node n _ => IsPlain n.label.text
  | edge .. => True

end Statement

/-- The identifiers of the nodes that the edges lead to. -/
def targets (ss : List Statement) : List Nat :=
  (ss.filterMap Statement.edge?).map fun ends => ends.2.id

/-- The statements of the graph of an expression: one for each node, with an identifier of its own,
and one for each edge from a node to one of its children.  Every node but the root is the end of one
edge, and the edge to a left child comes before that to the right one. -/
structure Draws (ss : List Statement) (e : Expr) : Prop where
  nodes : ss.filterMap Statement.node? = e.preorder.map Expr.node
  ids_nodup : (e.preorder.map Expr.id).Nodup
  edges : ss.filterMap Statement.edge? =
    e.preorder.flatMap fun s => s.children.map fun child => (s.node, child.node)
  one_edge : ∀ s ∈ e.preorder, (targets ss).count s.id = if s.id = e.id then 0 else 1
  left_first : ∀ s ∈ e.preorder, ∀ left right, s.children = [left, right] →
    [Statement.edge s.node left.node, .edge s.node right.node].Sublist ss

theorem statements_eq (e : Expr) : statements e = e.preorder.flatMap statementsAt := by
  rw [statements, Expr.subtrees_eq_preorder]

theorem filterMap_node?_statements (e : Expr) :
    (statements e).filterMap Statement.node? = e.preorder.map Expr.node := by
  have hat (s : Expr) : (statementsAt s).filterMap Statement.node? = [s.node] := by
    simp [statementsAt, Statement.node?, List.filterMap_map, Function.comp_def]
  simp only [statements_eq, List.filterMap_flatMap, hat, List.map_eq_flatMap]

theorem filterMap_edge?_statements (e : Expr) :
    (statements e).filterMap Statement.edge? =
      e.preorder.flatMap fun s => s.children.map fun child => (s.node, child.node) := by
  have hat (s : Expr) : (statementsAt s).filterMap Statement.edge? =
      s.children.map fun child => (s.node, child.node) := by
    simp [statementsAt, List.filterMap_cons, Statement.edge?, List.filterMap_map, Function.comp_def]
  simp only [statements_eq, List.filterMap_flatMap, hat]

/-- Edges lead to the nodes without the root. -/
theorem perm_targets (e : Expr) :
    (e.id :: targets (statements e)).Perm (e.preorder.map Expr.id) := by
  have htargets : targets (statements e) = (e.preorder.flatMap Expr.children).map Expr.id := by
    rw [targets, filterMap_edge?_statements]
    simp only [List.map_flatMap, List.map_map]
    rfl
  rw [htargets]
  exact e.cons_children_perm_preorder.map Expr.id

/-- If identifiers are not used twice, the statements of an expression draw it. -/
theorem draws_statements {e : Expr} (h : (e.preorder.map Expr.id).Nodup) :
    Draws (statements e) e where
  nodes := filterMap_node?_statements e
  ids_nodup := h
  edges := filterMap_edge?_statements e
  one_edge s hs := by
    have hcount := (perm_targets e).count_eq s.id
    rw [List.count_cons, List.count_eq_one_of_mem h (List.mem_map_of_mem hs)] at hcount
    by_cases hroot : s.id = e.id
    · simp only [hroot, beq_self_eq_true, if_true] at hcount ⊢
      omega
    · rw [if_neg (by simpa using Ne.symm hroot)] at hcount
      rwa [if_neg hroot]
  left_first s hs left right hchildren := by
    have hat : [Statement.edge s.node left.node, .edge s.node right.node].Sublist
        (statementsAt s) := by
      rw [statementsAt, hchildren]
      exact List.sublist_cons_self _ _
    rw [statements_eq]
    exact hat.trans (List.sublist_flatten_of_mem (List.mem_map_of_mem hs))

/-! ### Texts of statements -/

theorem toList_name (n : Node) : n.name.toList = 'n' :: Nat.toDigits 10 n.id := by
  rw [Node.name, Nat.toString_eq_repr, String.toList_append, Nat.toList_repr]
  rfl

theorem isNamePart_of_mem_name (n : Node) : ∀ c ∈ n.name.toList, isNamePart c := by
  rw [toList_name, List.forall_mem_cons]
  refine ⟨by decide +kernel, fun c hc => isNamePart_of_isDigit ?_⟩
  exact Nat.isDigit_of_mem_toDigits (by decide) (by decide) hc

theorem notMem_name {c : Char} (hc : isNamePart c = false) (n : Node) : c ∉ n.name.toList :=
  fun hmem => absurd (isNamePart_of_mem_name n c hmem) (by simp [hc])

theorem id_eq_of_name_eq {n n' : Node} (h : n.name.toList = n'.name.toList) : n.id = n'.id := by
  rw [toList_name, toList_name, List.cons.injEq] at h
  have hnumber := congrArg (Nat.ofDigitChars 10 · 0) h.2
  simpa [Nat.ofDigitChars_toDigits] using hnumber

/-- A node statement, cut where its label starts and where it ends. -/
theorem toList_text_node (n : Node) (isLeaf : Bool) :
    (Statement.node n isLeaf).text.toList =
      n.name.toList ++ '[' :: ("label=\"".toList ++ ((labelText n).toList ++
        '"' :: ((if isLeaf then ",shape=\"box\"" else "") ++ "]").toList)) := by
  simp [Statement.text]

theorem toList_text_edge (parent child : Node) :
    (Statement.edge parent child).text.toList =
      parent.name.toList ++ (" -> ".toList ++ child.name.toList) := by
  simp [Statement.text]

theorem notMem_text_edge {c : Char} (hc : isNamePart c = false) (harrow : c ∉ " -> ".toList)
    (parent child : Node) : c ∉ (Statement.edge parent child).text.toList := by
  rw [toList_text_edge, List.mem_append, List.mem_append]
  exact not_or.mpr ⟨notMem_name hc parent, not_or.mpr ⟨harrow, notMem_name hc child⟩⟩

section Text

variable {n n' : Node}

theorem quote_notMem_labelText (h : IsPlain n.label.text) : '"' ∉ (labelText n).toList := by
  intro hmem
  rcases isPlainChar_of_mem_labelText h _ hmem with hplain | hbackslash
  · exact hplain.ne_quote rfl
  · exact absurd hbackslash (by decide)

theorem lineFeed_notMem_labelText (h : IsPlain n.label.text) : '\n' ∉ (labelText n).toList := by
  intro hmem
  rcases isPlainChar_of_mem_labelText h _ hmem with hplain | hbackslash
  · exact absurd hplain.not_white (by decide)
  · exact absurd hbackslash (by decide)

/-- A statement stays on its line. -/
theorem lineFeed_notMem_text {s : Statement} (h : s.HasPlainLabel) : '\n' ∉ s.text.toList := by
  have hname : isNamePart '\n' = false := by decide +kernel
  cases s with
  | edge parent child => exact notMem_text_edge hname (by decide) parent child
  | node n isLeaf =>
    have hopen : '\n' ∉ "label=\"".toList := by decide
    have hclose : '\n' ∉ ((if isLeaf then ",shape=\"box\"" else "") ++ "]").toList := by
      cases isLeaf <;> decide
    rw [toList_text_node]
    simp only [List.mem_append, List.mem_cons, not_or]
    exact ⟨notMem_name hname n, by decide, hopen, lineFeed_notMem_labelText h, by decide, hclose⟩

/-- The text of a node statement determines what is shown of the node. -/
theorem shown_of_text_eq {isLeaf isLeaf' : Bool} (h : IsPlain n.label.text)
    (h' : IsPlain n'.label.text)
    (htext : (Statement.node n isLeaf).text = (Statement.node n' isLeaf').text) :
    n.shown = n'.shown := by
  have hname : isNamePart '[' = false := by decide +kernel
  have hchars := congrArg String.toList htext
  rw [toList_text_node, toList_text_node] at hchars
  obtain ⟨hnames, hrest⟩ := append_cons_inj (notMem_name hname n) (notMem_name hname n') hchars
  obtain ⟨hlabels, -⟩ := append_cons_inj (quote_notMem_labelText h) (quote_notMem_labelText h')
    (List.append_cancel_left hrest)
  obtain ⟨hlabel, htag, hvalue⟩ := shown_of_labelText_eq h h' (String.toList_injective hlabels)
  rw [Node.shown, Node.shown, id_eq_of_name_eq hnames, hlabel, htag, hvalue]

end Text

/-- Statements with the same text show the same: those of nodes can be told from those of edges by
their brackets. -/
theorem shown?_of_text_eq {s s' : Statement} (h : s.HasPlainLabel) (h' : s'.HasPlainLabel)
    (htext : s.text = s'.text) : s.shown? = s'.shown? := by
  have hbracket {s : Statement} (hs : '[' ∉ s.text.toList) : s.shown? = none := by
    cases s with
    | node n isLeaf => simp [toList_text_node] at hs
    | edge => rfl
  have hedge (parent child : Node) : '[' ∉ (Statement.edge parent child).text.toList :=
    notMem_text_edge (by decide +kernel) (by decide) parent child
  cases s with
  | edge parent child => rw [hbracket (hedge parent child), hbracket (htext ▸ hedge parent child)]
  | node n isLeaf =>
    cases s' with
    | edge parent child =>
      rw [hbracket (hedge parent child), hbracket (htext ▸ hedge parent child)]
    | node n' isLeaf' => exact congrArg some (shown_of_text_eq h h' htext)

/-! ### Graphs -/

/-- The lines of a graph. -/
def lines (e : Expr) : List String :=
  "digraph ast \x7b" :: ((statements e).map ("  " ++ ·.text) ++ ["\x7d"])

theorem render_eq (e : Expr) : render e = "\n".intercalate (lines e) := by
  have hne : (statements e).map ("  " ++ ·.text) ≠ [] := by
    rw [statements_eq, Expr.preorder_eq, List.flatMap_cons, statementsAt]
    exact List.cons_ne_nil _ _
  calc render e
      = "digraph ast \x7b" ++ "\n" ++ "\n".intercalate ((statements e).map ("  " ++ ·.text)) ++
          ("\n" ++ "\x7d") := rfl
    _ = "\n".intercalate (lines e) := by
        rw [lines, String.intercalate_cons_of_ne_nil (List.append_ne_nil_of_left_ne_nil hne _),
          String.intercalate_append_of_ne_nil hne (List.cons_ne_nil _ _),
          String.intercalate_singleton]
        simp only [String.append_assoc]

theorem hasPlainLabel_of_mem_statements {e : Expr} (h : ∀ s ∈ e.preorder, IsPlain s.label.text)
    {s : Statement} (hs : s ∈ statements e) : s.HasPlainLabel := by
  rw [statements_eq, List.mem_flatMap] at hs
  obtain ⟨t, ht, hs⟩ := hs
  rcases List.mem_cons.mp hs with rfl | hs
  · exact h t ht
  · obtain ⟨child, -, rfl⟩ := List.mem_map.mp hs
    trivial

/-- The lines of a graph are its statements, between an opening and a closing one. -/
theorem splitAll_render {e : Expr} (h : ∀ s ∈ e.preorder, IsPlain s.label.text) :
    splitAll '\n' (render e) = lines e := by
  have hopen : '\n' ∉ "digraph ast \x7b".toList := by decide
  have hclose : '\n' ∉ "\x7d".toList := by decide
  have hstatement : ∀ s ∈ statements e, '\n' ∉ ("  " ++ s.text).toList := by
    intro s hs
    have htext := lineFeed_notMem_text (hasPlainLabel_of_mem_statements h hs)
    simpa using htext
  have hfree : ∀ line ∈ (lines e).map String.toList, '\n' ∉ line := by
    rw [List.forall_mem_map, lines, List.forall_mem_cons, List.forall_mem_append,
      List.forall_mem_map, List.forall_mem_singleton]
    exact ⟨hopen, hstatement, hclose⟩
  have hsplit := List.splitOn_intercalate '\n' hfree (by simp [lines])
  rw [splitAll, render_eq, String.toList_intercalate]
  refine (congrArg (List.map String.ofList) hsplit).trans ?_
  simp [Function.comp_def]

/-- Lists with the same texts show the same, if equal texts do. -/
theorem filterMap_eq_of_map_eq {α β γ : Type} {f : α → β} {g : α → Option γ} {xs ys : List α}
    (hfg : ∀ x ∈ xs, ∀ y ∈ ys, f x = f y → g x = g y) (h : xs.map f = ys.map f) :
    xs.filterMap g = ys.filterMap g := by
  induction xs generalizing ys with
  | nil => rw [List.map_eq_nil_iff.mp h.symm]
  | cons x xs ih =>
    obtain ⟨y, ys, rfl, hxy, hrest⟩ := List.map_eq_cons_iff.mp h.symm
    have hhead := hfg x List.mem_cons_self y List.mem_cons_self hxy.symm
    have htail := ih (fun a ha b hb => hfg a (List.mem_cons_of_mem x ha) b
      (List.mem_cons_of_mem y hb)) hrest.symm
    rw [List.filterMap_cons, List.filterMap_cons, hhead, htail]

theorem filterMap_shown?_statements (e : Expr) :
    (statements e).filterMap Statement.shown? = e.shownBy Node.shown := by
  calc (statements e).filterMap Statement.shown?
      = ((statements e).filterMap Statement.node?).map Node.shown := List.map_filterMap.symm
    _ = (e.preorder.map Expr.node).map Node.shown := by rw [filterMap_node?_statements]
    _ = e.shownBy Node.shown := List.map_map

/-- Graphs with plain labels determine the expression. -/
theorem agreeIn_of_render_eq {e e' : Expr} (h : ∀ s ∈ e.preorder, IsPlain s.label.text)
    (h' : ∀ s ∈ e'.preorder, IsPlain s.label.text) (hrender : render e = render e') :
    e.AgreeIn Node.shown e' := by
  have hlines : lines e = lines e' := by rw [← splitAll_render h, hrender, splitAll_render h']
  have htexts : (statements e).map ("  " ++ ·.text) = (statements e').map ("  " ++ ·.text) :=
    List.append_cancel_right (List.cons.inj hlines).2
  have hsame : ∀ s ∈ statements e, ∀ s' ∈ statements e', "  " ++ s.text = "  " ++ s'.text →
      s.shown? = s'.shown? := fun s hs s' hs' htext =>
    shown?_of_text_eq (hasPlainLabel_of_mem_statements h hs)
      (hasPlainLabel_of_mem_statements h' hs') ((String.append_right_inj _).mp htext)
  have hshown := filterMap_eq_of_map_eq hsame htexts
  rw [filterMap_shown?_statements, filterMap_shown?_statements] at hshown
  exact (Expr.agreeIn_iff_shownBy_eq fun _ _ heq => congrArg Node.Shown.label heq).mpr hshown

/-- **The graph of an expression determines it.** No label has characters that would have to be
escaped, and each line is a statement: one for each node, and one for each edge.  Expressions with
the same graph have the same shape, and the same identifiers, labels, tags and written values. -/
theorem render_determines_expr (source source' : String) (env env' : Env)
    (tokens tokens' : List Lexeme) (ev ev' : Evaluation) (htokens : tokenize source = .ok tokens)
    (hev : evaluate env tokens = .ok ev) (htokens' : tokenize source' = .ok tokens')
    (hev' : evaluate env' tokens' = .ok ev') :
    (∀ s ∈ ev.expr.preorder, IsClean s.node) ∧
      splitAll '\n' (render ev.expr) = lines ev.expr ∧
      Draws (statements ev.expr) ev.expr ∧
      (render ev.expr = render ev'.expr → ev.expr.AgreeIn Node.shown ev'.expr) := by
  have hplain := isPlain_text_of_evaluate htokens hev
  have hplain' := isPlain_text_of_evaluate htokens' hev'
  exact ⟨fun s hs => isClean_of_isPlain (hplain s hs), splitAll_render hplain,
    draws_statements (nodup_id_of_evaluate hev), agreeIn_of_render_eq hplain hplain'⟩

/-- A quotient in a group, in two layouts. -/
theorem render_determines_expr_layout :
    let table := SymbolTable.empty.write "x" ⟨4, .int⟩
    let tokens : List Lexeme := [⟨.leftParen, 0⟩, ⟨.ident "x", 1⟩, ⟨.op .div, 2⟩,
      ⟨.num "2.5e-1", 3⟩, ⟨.rightParen, 9⟩]
    let tokens' : List Lexeme := [⟨.leftParen, 1⟩, ⟨.ident "x", 2⟩, ⟨.op .div, 4⟩,
      ⟨.num "2.5e-1", 6⟩, ⟨.rightParen, 12⟩]
    ∃ ev ev', tokenize "(x/2.5e-1)" = .ok tokens ∧ evaluate ⟨table, .ieee⟩ tokens = .ok ev ∧
      tokenize " (x / 2.5e-1)" = .ok tokens' ∧ evaluate ⟨table, .ieee⟩ tokens' = .ok ev' ∧
      (∀ s ∈ ev.expr.preorder, IsClean s.node) ∧
      splitAll '\n' (render ev.expr) = lines ev.expr ∧
      Draws (statements ev.expr) ev.expr ∧
      (render ev.expr = render ev'.expr → ev.expr.AgreeIn Node.shown ev'.expr) := by
  intro table tokens tokens'
  let t : LabelTree := .group (.binary .div (.atom (.ident "x")) (.atom (.num "2.5e-1")))
  have hfits : Fits .sum t := by
    rw [fits_sum_iff]
    simp [t, LabelTree.Canonical, LabelTree.IsOperation, Operator.level]
  have hname : table.contains "x" := by decide
  have hnumeral : (Decimal.read? "2.5e-1").isSome := by decide +kernel
  have hreadable : ∀ a ∈ t.tokens, a.Readable table := by
    simpa [t, LabelTree.tokens, Atom.token, Token.Readable] using ⟨hname, hnumeral⟩
  have htokens : tokenize "(x/2.5e-1)" = .ok tokens := tokenize_eq_ok_iff.mpr (by decide +kernel)
  have htokens' : tokenize " (x / 2.5e-1)" = .ok tokens' :=
    tokenize_eq_ok_iff.mpr (by decide +kernel)
  have hwritten : tokens.map (·.token) = t.tokens := rfl
  have hwritten' : tokens'.map (·.token) = t.tokens := rfl
  obtain ⟨ev, hev, -⟩ := hfits.exists_evaluate (by decide) hreadable hwritten
  obtain ⟨ev', hev', -⟩ := hfits.exists_evaluate (by decide) hreadable hwritten'
  exact ⟨ev, ev', htokens, hev, htokens', hev',
    render_determines_expr _ _ _ _ _ _ ev ev' htokens hev htokens' hev'⟩

end AttrCalc.Dot
