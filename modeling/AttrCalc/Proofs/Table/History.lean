import AttrCalc.Calculator
import Mathlib.Data.Finset.Card

/-!
# The history of a symbol table

Insertions, declarations and assignments change a table by writing entries, and those that fail
write nothing.  So a table that commands have made from the empty one is the replay of its history,
the writes in the order in which they happened: a name is listed where it was first written, and
stands for what was last written to it.

## Main definitions

* `SymbolTable.Command`, `SymbolTable.perform`, `SymbolTable.after` : the commands on a table, and
  the table after some of them.
* `Write`, `SymbolTable.history` : a write with its cause, and the writes of commands.
* `SymbolTable.replay` : the table after some writes.
* `SymbolTable.declareEach` : declarations made one by one.
* `SymbolTable.Reflects` : a table with the entries that a history has left.

## Main results

* `SymbolTable.perform_eq_replay`, `SymbolTable.after_eq_replay` : commands do what they write.
* `SymbolTable.reflects_replay` : a replayed history is reflected.
* `SymbolTable.declareLine_eq` : a line makes its declarations one by one.
* `SymbolTable.after_reflects_history` : what a table is after any commands.
-/

namespace AttrCalc

/-- What caused a write. -/
inductive Cause where
  | insertion
  | declaration
  | assignment
deriving DecidableEq, Repr

/-- An entry written to a name. -/
structure Write where
  name : String
  entry : Entry
  cause : Cause
deriving DecidableEq

/-- The last write to a name. -/
def lastWrite? (log : List Write) (name : String) : Option Write :=
  log.reverse.find? (·.name == name)

/-- The write of a declaration. -/
def Declaration.toWrite (d : Declaration) : Write :=
  ⟨d.name, ⟨d.value, .int⟩, .declaration⟩

/-- The writes of the declarations that can be read. -/
def Declaration.writes (readings : List (Except DeclError Declaration)) : List Write :=
  readings.filterMap fun
    | .ok d => some d.toWrite
    | .error _ => none

namespace SymbolTable

/-! ### Commands -/

/-- What can be asked of a table. -/
inductive Command where
  | insert (name : String) (entry : Entry)
  | declare (text : String)
  | declareLine (line : String)
  | run (division : DivisionPolicy) (line : String)

/-- The table after a command.  A command that fails leaves the table as it is. -/
def perform (t : SymbolTable) : Command → SymbolTable
  | .insert name entry => (t.insert name entry).2
  | .declare text =>
    match t.declare text with
    | .ok t' => t'
    | .error _ => t
  | .declareLine line => (t.declareLine line).2
  | .run division line =>
    match t.run division line with
    | .ok c => c.table
    | .error _ => t

/-- The table after some commands. -/
def after (t : SymbolTable) (cs : List Command) : SymbolTable :=
  cs.foldl perform t

/-- The writes of a command. -/
def writes (t : SymbolTable) : Command → List Write
  | .insert name entry => [⟨name, entry, .insertion⟩]
  | .declare text => Declaration.writes [Declaration.read text]
  | .declareLine line => Declaration.writes (Declaration.readLine line)
  | .run division line =>
    match t.run division line with
    | .ok c => [⟨c.target, ⟨c.evaluation.value, .real⟩, .assignment⟩]
    | .error _ => []

/-- The writes of some commands. -/
def history : SymbolTable → List Command → List Write
  | _, [] => []
  | t, c :: cs => t.writes c ++ (t.perform c).history cs

/-- The table after some writes. -/
def replay (t : SymbolTable) (log : List Write) : SymbolTable :=
  log.foldl (fun t w => t.write w.name w.entry) t

/-! ### Commands do what they write -/

variable {t : SymbolTable}

theorem replay_append (t : SymbolTable) (log log' : List Write) :
    t.replay (log ++ log') = (t.replay log).replay log' :=
  List.foldl_append

theorem declareAll_eq_replay (t : SymbolTable)
    (readings : List (Except DeclError Declaration)) :
    (t.declareAll readings).2 = t.replay (Declaration.writes readings) := by
  induction readings generalizing t with
  | nil => rfl
  | cons r readings ih =>
    cases r with
    | error e => exact ih t
    | ok d => exact ih (t.define d)

/-- The table of a run that succeeds is the table before it with the value written to the target. -/
theorem table_of_run {division : DivisionPolicy} {line : String} {c : Completed}
    (h : t.run division line = .ok c) : c.table = t.write c.target ⟨c.evaluation.value, .real⟩ := by
  unfold run at h
  split at h
  · simp at h
  · split at h
    · simp at h
    · split at h
      · simp at h
      · obtain rfl := Except.ok.inj h
        rfl

/-- A command does what it writes. -/
theorem perform_eq_replay (t : SymbolTable) (c : Command) :
    t.perform c = t.replay (t.writes c) := by
  cases c with
  | insert name entry => rfl
  | declare text =>
    simp only [perform, writes, SymbolTable.declare]
    match Declaration.read text with
    | .error e => rfl
    | .ok d => rfl
  | declareLine line => exact declareAll_eq_replay t _
  | run division line =>
    simp only [perform, writes]
    match h : t.run division line with
    | .error e => rfl
    | .ok c => exact table_of_run h

theorem after_eq_replay (t : SymbolTable) (cs : List Command) :
    t.after cs = t.replay (t.history cs) := by
  induction cs generalizing t with
  | nil => rfl
  | cons c cs ih =>
    calc t.after (c :: cs) = (t.perform c).after cs := rfl
      _ = (t.perform c).replay ((t.perform c).history cs) := ih _
      _ = (t.replay (t.writes c)).replay ((t.perform c).history cs) := by rw [perform_eq_replay]
      _ = t.replay (t.history (c :: cs)) := (replay_append ..).symm

/-- Assignments write no entry that is tagged as declared. -/
theorem cause_ne_of_mem_writes {c : Command} {w : Write} (hw : w ∈ t.writes c)
    (htag : w.entry.tag = .int) : w.cause ≠ .assignment := by
  have hdeclared {readings : List (Except DeclError Declaration)}
      (hw : w ∈ Declaration.writes readings) : w.cause = .declaration := by
    obtain ⟨r, -, hr⟩ := List.mem_filterMap.mp hw
    match r with
    | .ok d => rw [← Option.some.inj hr]; rfl
  cases c with
  | insert name entry =>
    rw [List.mem_singleton.mp hw]
    simp
  | declare text => simp [hdeclared hw]
  | declareLine line => simp [hdeclared hw]
  | run division line =>
    simp only [writes] at hw
    split at hw
    · rw [List.mem_singleton.mp hw] at htag
      simp at htag
    · simp at hw

theorem cause_ne_of_mem_history {cs : List Command} {w : Write} (hw : w ∈ t.history cs)
    (htag : w.entry.tag = .int) : w.cause ≠ .assignment := by
  induction cs generalizing t with
  | nil => simp [history] at hw
  | cons c cs ih =>
    rcases List.mem_append.mp hw with hw | hw
    · exact cause_ne_of_mem_writes hw htag
    · exact ih hw

/-! ### Replayed histories -/

/-- The table has the entries that a history has left: the names are listed in the order of their
first writes, each stands for what was last written to it, and there are no others. -/
structure Reflects (t : SymbolTable) (log : List Write) : Prop where
  nodup_names : t.names.Nodup
  names_eq : t.names = (log.map (·.name)).eraseDups
  get?_eq : ∀ name, t.get? name = (lastWrite? log name).map (·.entry)
  size_eq : t.size = (log.map (·.name)).toFinset.card

theorem eraseDups_concat {α : Type*} [DecidableEq α] (l : List α) (a : α) :
    (l ++ [a]).eraseDups = if a ∈ l then l.eraseDups else l.eraseDups ++ [a] := by
  rw [List.eraseDups_append]
  by_cases h : a ∈ l <;> simp [List.removeAll, h, List.eraseDups_cons]

theorem lastWrite?_concat (log : List Write) (w : Write) (name : String) :
    lastWrite? (log ++ [w]) name = if name = w.name then some w else lastWrite? log name := by
  simp only [lastWrite?, List.reverse_append, List.reverse_singleton, List.singleton_append,
    List.find?_cons, beq_eq_decide]
  by_cases h : name = w.name
  · simp [h]
  · simp [h, Ne.symm h]

theorem names_replay (log : List Write) :
    (empty.replay log).names = (log.map (·.name)).eraseDups := by
  -- From the end of the log, as its last write is the last one made.
  induction log using List.reverseRecOn with
  | nil => rfl
  | append_singleton log w ih =>
    have hmem : w.name ∈ (log.map (·.name)).eraseDups ↔ w.name ∈ log.map (·.name) :=
      List.mem_eraseDups
    rw [replay_append, List.map_append, List.map_singleton, eraseDups_concat]
    change ((empty.replay log).write w.name w.entry).names = _
    simp only [names_write, ih, hmem]

theorem get?_replay (log : List Write) (name : String) :
    (empty.replay log).get? name = (lastWrite? log name).map (·.entry) := by
  induction log using List.reverseRecOn with
  | nil => rfl
  | append_singleton log w ih =>
    rw [replay_append, lastWrite?_concat]
    change ((empty.replay log).write w.name w.entry).get? name = _
    rw [get?_write, ih]
    split <;> rfl

/-- A replayed history is reflected. -/
theorem reflects_replay (log : List Write) : (empty.replay log).Reflects log where
  nodup_names := (empty.replay log).nodup
  names_eq := names_replay log
  get?_eq := get?_replay log
  size_eq := by
    have hsize : (empty.replay log).size = (empty.replay log).names.length := by
      simp [size, names]
    have hfinset : (empty.replay log).names.toFinset = (log.map (·.name)).toFinset := by
      ext name
      rw [List.mem_toFinset, List.mem_toFinset, names_replay, List.mem_eraseDups]
    have hcard : (empty.replay log).names.toFinset.card = (empty.replay log).names.length :=
      List.toFinset_card_of_nodup (empty.replay log).nodup
    rw [hsize, ← hcard, hfinset]

/-! ### Answers of commands -/

theorem writeEntry_fst (name : String) (entry : Entry) (es : List (String × Entry)) :
    (writeEntry name entry es).1 = (es.find? (·.1 == name)).map (·.2) := by
  induction es with
  | nil => rfl
  | cons e es ih =>
    obtain ⟨n, old⟩ := e
    unfold writeEntry
    by_cases h : n = name <;> simp [h, ih]

/-- An insertion returns the entry that was there before. -/
theorem insert_fst (t : SymbolTable) (name : String) (entry : Entry) :
    (t.insert name entry).1 = t.get? name :=
  writeEntry_fst name entry t.entries

/-- Makes declarations one by one.  One that fails is reported and leaves the table as it is. -/
def declareEach (t : SymbolTable) : List String → List DeclError × SymbolTable
  | [] => ([], t)
  | text :: texts =>
    match t.declare text with
    | .ok t' => t'.declareEach texts
    | .error e => (e :: (t.declareEach texts).1, (t.declareEach texts).2)

/-- A line makes its declarations one by one. -/
theorem declareLine_eq (t : SymbolTable) (line : String) :
    t.declareLine line = t.declareEach (Declaration.pieces line) := by
  unfold declareLine Declaration.readLine
  induction Declaration.pieces line generalizing t with
  | nil => rfl
  | cons text texts ih =>
    unfold declareEach declare
    match h : Declaration.read text with
    | .error e =>
      simp only [Except.map, ← ih, List.map_cons, h]
      rfl
    | .ok d =>
      simp only [Except.map, ← ih, List.map_cons, h]
      rfl

/-- **A symbol table is an insertion-ordered map over whole runs.** After any commands from the
empty table, the table reflects the history of what they wrote.  An insertion returns what the table
holds under its name.  A declaration or a run that fails changes nothing and leaves no trace in the
history, and so does a failing declaration of a line, which are made one by one.  What is tagged as
declared was last written by a declaration or by an insertion with this tag. -/
theorem after_reflects_history (cs : List Command) :
    let t := empty.after cs
    let log := empty.history cs
    t.Reflects log ∧
      (∀ name entry, (t.insert name entry).1 = t.get? name) ∧
      (∀ text e, t.declare text = .error e →
        t.perform (.declare text) = t ∧ t.writes (.declare text) = []) ∧
      (∀ division line e, t.run division line = .error e →
        t.perform (.run division line) = t ∧ t.writes (.run division line) = []) ∧
      (∀ line, t.declareLine line = t.declareEach (Declaration.pieces line)) ∧
      ∀ name entry, t.get? name = some entry → entry.tag = .int →
        ∃ cause, lastWrite? log name = some ⟨name, entry, cause⟩ ∧ cause ≠ .assignment := by
  intro t log
  have hreflects : t.Reflects log := by
    rw [show t = empty.replay log from after_eq_replay empty cs]
    exact reflects_replay log
  refine ⟨hreflects, t.insert_fst, ?_, ?_, t.declareLine_eq, ?_⟩
  · intro text e h
    refine ⟨by simp only [perform, h], ?_⟩
    match hread : Declaration.read text with
    | .error e' => simp [writes, Declaration.writes, hread]
    | .ok d => simp [declare, hread, Except.map] at h
  · intro division line e h
    exact ⟨by simp only [perform, h], by simp only [writes, h]⟩
  · intro name entry hget htag
    rw [hreflects.get?_eq, Option.map_eq_some_iff] at hget
    obtain ⟨w, hw, rfl⟩ := hget
    have hname : w.name = name := by simpa using List.find?_some hw
    have hmem : w ∈ log := List.mem_reverse.mp (List.mem_of_find?_eq_some hw)
    exact ⟨w.cause, by rw [hw, ← hname], cause_ne_of_mem_history hmem htag⟩

end SymbolTable

end AttrCalc
