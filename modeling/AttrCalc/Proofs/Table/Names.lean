import AttrCalc.Proofs.Eval.Reads
import AttrCalc.Proofs.Table.History
import AttrCalc.Proofs.Token.Layout
import AttrCalc.Proofs.Token.WellFormed

/-!
# The names of a symbol table can be used

A text is a name just if the scanner reads it as one.  Declarations and assignments write nothing
but names, so whatever such commands have put into a table can be used as an expression, which has
the value and the tag of its entry.

## Main definitions

* `SymbolTable.WellNamed` : a table that lists names only.
* `SymbolTable.Command.FromText` : the commands that take the name they write from a text.

## Main results

* `isName_iff_tokenize` : the names are the texts that are read as names.
* `evaluate_ident` : the evaluation of a name alone.
* `SymbolTable.wellNamed_perform`, `SymbolTable.wellNamed_after` : commands keep a table well-named.
* `SymbolTable.names_read_back` : every name of a table stands for its entry.
-/

namespace AttrCalc

open Text Eval

/-! ### Names and tokens -/

/-- The names are the texts that the scanner reads as a single name. -/
theorem isName_iff_tokenize (s : String) : isName s ↔ tokenize s = .ok [⟨.ident s, 0⟩] :=
  ⟨tokenize_spelling (t := .ident s),
    fun h => Token.wellFormed_of_mem_tokenize (l := ⟨.ident s, 0⟩) h List.mem_cons_self⟩

/-- A name alone is evaluated to a leaf with its entry. -/
theorem evaluate_ident {t : SymbolTable} {name : String} {entry : Entry}
    (h : t.get? name = some entry) (division : DivisionPolicy) (offset : Nat) :
    ∃ ev, evaluate ⟨t, division⟩ [⟨.ident name, offset⟩] = .ok ev ∧
      ev.expr = .atom 0 (.ident name) entry.tag entry.value := by
  let env : Env := ⟨t, division⟩
  let s : State := ((State.start [⟨.ident name, offset⟩]).fire Level.sum.rule).fire
    Level.product.rule
  have hfactor : Reads env maxDepth .factor s (.atom 0 (.ident name) entry.tag entry.value)
      (s.read [] .ident).numbered := .ident rfl h
  have hsum : Reads env maxDepth .sum (.start [⟨.ident name, offset⟩])
      (.atom 0 (.ident name) entry.tag entry.value) (s.read [] .ident).numbered :=
    .operand .sum (.operand .product hfactor)
  exact ⟨⟨_, (s.read [] .ident).numbered.trace⟩, evaluate_eq_ok_iff.mpr ⟨_, hsum, rfl, rfl⟩, rfl⟩

/-! ### What is written is a name -/

theorem Declaration.isName_of_read {text : String} {d : Declaration} (h : read text = .ok d) :
    isName d.name := by
  unfold read at h
  split at h
  · simp at h
  · dsimp only at h
    split at h
    · next hname =>
      split at h
      · obtain rfl := Except.ok.inj h
        exact hname
      · simp at h
    · simp at h

theorem Assignment.isName_of_read {line : String} {a : Assignment} (h : read line = .ok a) :
    isName a.target := by
  unfold read at h
  split at h
  · simp at h
  · dsimp only at h
    split at h
    · next hname =>
      obtain rfl := Except.ok.inj h
      exact hname
    · simp at h

namespace SymbolTable

/-- All names that are listed have the form of names. -/
def WellNamed (t : SymbolTable) : Prop :=
  ∀ name ∈ t.names, isName name

/-- The command takes the name that it writes from a text: it declares or assigns.  An insertion
takes whatever name it is given. -/
def Command.FromText : Command → Prop
  | insert _ _ => False
  | declare _ | declareLine _ | run _ _ => True

variable {t : SymbolTable}

theorem isName_target_of_run {division : DivisionPolicy} {line : String} {c : Completed}
    (h : t.run division line = .ok c) : isName c.target := by
  unfold run at h
  split at h
  · simp at h
  · next target expression hread =>
    split at h
    · simp at h
    · split at h
      · simp at h
      · obtain rfl := Except.ok.inj h
        exact Assignment.isName_of_read hread

theorem isName_of_mem_declarationWrites (texts : List String) {w : Write}
    (hw : w ∈ Declaration.writes (texts.map Declaration.read)) : isName w.name := by
  obtain ⟨r, hr, hwrite⟩ := List.mem_filterMap.mp hw
  obtain ⟨text, -, hread⟩ := List.mem_map.mp hr
  match r with
  | .ok d =>
    obtain rfl := Option.some.inj hwrite
    exact Declaration.isName_of_read hread

/-- Commands that declare or assign write to names. -/
theorem isName_of_mem_writes {c : Command} (hc : c.FromText) {w : Write} (hw : w ∈ t.writes c) :
    isName w.name := by
  cases c with
  | insert => exact hc.elim
  | declare text => exact isName_of_mem_declarationWrites [text] hw
  | declareLine line => exact isName_of_mem_declarationWrites _ hw
  | run division line =>
    simp only [writes] at hw
    split at hw
    · next completed hrun =>
      rw [List.mem_singleton.mp hw]
      exact isName_target_of_run hrun
    · simp at hw

/-! ### Well-named tables -/

theorem wellNamed_empty : empty.WellNamed := by
  simp [WellNamed, names, empty]

theorem WellNamed.write (ht : t.WellNamed) {name : String} (hname : isName name) (entry : Entry) :
    (t.write name entry).WellNamed := by
  intro n hn
  rw [names_write] at hn
  split at hn
  · exact ht n hn
  · rcases List.mem_append.mp hn with hn | hn
    · exact ht n hn
    · rwa [List.mem_singleton.mp hn]

theorem WellNamed.replay {log : List Write} (ht : t.WellNamed) (hlog : ∀ w ∈ log, isName w.name) :
    (t.replay log).WellNamed := by
  induction log generalizing t with
  | nil => exact ht
  | cons w log ih =>
    obtain ⟨hw, hlog⟩ := List.forall_mem_cons.mp hlog
    exact ih (ht.write hw w.entry) hlog

/-- A command that declares or assigns leaves a well-named table well-named. -/
theorem wellNamed_perform (ht : t.WellNamed) {c : Command} (hc : c.FromText) :
    (t.perform c).WellNamed := by
  rw [perform_eq_replay]
  exact ht.replay fun w hw => isName_of_mem_writes hc hw

theorem wellNamed_after {cs : List Command} (ht : t.WellNamed) (hcs : ∀ c ∈ cs, c.FromText) :
    (t.after cs).WellNamed := by
  induction cs generalizing t with
  | nil => exact ht
  | cons c cs ih =>
    obtain ⟨hc, hcs⟩ := List.forall_mem_cons.mp hcs
    exact ih (wellNamed_perform ht hc) hcs

theorem exists_get?_of_mem_names {name : String} (h : name ∈ t.names) :
    ∃ entry, t.get? name = some entry := by
  obtain ⟨e, he, hname⟩ := List.mem_map.mp h
  have hfound : (t.entries.find? (·.1 == name)).isSome :=
    List.find?_isSome.mpr ⟨e, he, by simp [hname]⟩
  obtain ⟨e', he'⟩ := Option.isSome_iff_exists.mp hfound
  exact ⟨e'.2, by rw [get?, he', Option.map_some]⟩

/-- **Every name of a table stands for its entry.** A text is a name just if the scanner reads it as
this name and nothing else.  After any declarations, lines of them and assignments, every name that
the empty table has been given is read as itself, and evaluates to a leaf with the value and the tag
that the table holds under it. -/
theorem names_read_back :
    (∀ s, isName s ↔ tokenize s = .ok [⟨.ident s, 0⟩]) ∧
    ∀ cs : List Command, (∀ c ∈ cs, c.FromText) → ∀ name ∈ (empty.after cs).names,
      ∃ entry, (empty.after cs).get? name = some entry ∧
        tokenize name = .ok [⟨.ident name, 0⟩] ∧
        ∀ division, ∃ ev, evaluate ⟨empty.after cs, division⟩ [⟨.ident name, 0⟩] = .ok ev ∧
          ev.expr = .atom 0 (.ident name) entry.tag entry.value := by
  refine ⟨isName_iff_tokenize, fun cs hcs name hname => ?_⟩
  obtain ⟨entry, hentry⟩ := exists_get?_of_mem_names hname
  have htokenize : tokenize name = .ok [⟨.ident name, 0⟩] :=
    (isName_iff_tokenize name).mp (wellNamed_after wellNamed_empty hcs name hname)
  exact ⟨entry, hentry, htokenize, fun division => evaluate_ident hentry division 0⟩

/-- A line with a declaration that is refused, and an assignment. -/
theorem names_read_back_declared_assigned :
    let cs : List Command := [.declareLine "_1=4, 2=1", .run .fail "π=_1"]
    (∀ c ∈ cs, c.FromText) ∧ (empty.after cs).names = ["_1", "π"] ∧
      ∀ name ∈ ["_1", "π"], ∃ entry, (empty.after cs).get? name = some entry ∧
        tokenize name = .ok [⟨.ident name, 0⟩] ∧
        ∀ division, ∃ ev, evaluate ⟨empty.after cs, division⟩ [⟨.ident name, 0⟩] = .ok ev ∧
          ev.expr = .atom 0 (.ident name) entry.tag entry.value := by
  intro cs
  have hcs : ∀ c ∈ cs, c.FromText := by simp [cs, Command.FromText]
  have hnames : (empty.after cs).names = ["_1", "π"] := by decide +kernel
  exact ⟨hcs, hnames, fun name hname => names_read_back.2 cs hcs name (hnames ▸ hname)⟩

end SymbolTable

end AttrCalc
