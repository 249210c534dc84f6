import AttrCalc.Decimal.Notation

/-!
# Symbol tables

A symbol table gives names a value and a type tag.  It lists its names in the order in which they
were first written; writing a name again changes its entry in place.

## Main definitions

* `TypeTag`, `Entry` : what a name stands for.
* `SymbolTable` : entries under distinct names.
* `SymbolTable.get?`, `SymbolTable.insert` : reading and writing an entry.

## Main results

* `SymbolTable.names_write` : a write keeps the names, and adds a new one at the end.
* `SymbolTable.get?_write` : a write changes the entry of its name only.
-/

namespace AttrCalc

/-- Where a value comes from: declared variables are `INT`, numerals and results are `REAL`. -/
inductive TypeTag where
  | int
  | real
deriving DecidableEq, Repr

/-- A tag as it is listed. -/
def TypeTag.text : TypeTag → String
  | int => "INT"
  | real => "REAL"

/-- What a name stands for. -/
structure Entry where
  value : Float
  tag : TypeTag
deriving DecidableEq

/-- Writes an entry in place or at the end.  The first component is the entry that was there. -/
def writeEntry (name : String) (entry : Entry) :
    List (String × Entry) → Option Entry × List (String × Entry)
  | [] => (none, [(name, entry)])
  | (n, old) :: rest =>
    if n = name then (some old, (n, entry) :: rest)
    else
      let (previous, rest) := writeEntry name entry rest
      (previous, (n, old) :: rest)

/-- The names after a write: a new name comes last. -/
theorem names_writeEntry (name : String) (entry : Entry) (es : List (String × Entry)) :
    (writeEntry name entry es).2.map (·.1) =
      if name ∈ es.map (·.1) then es.map (·.1) else es.map (·.1) ++ [name] := by
  induction es with
  | nil => simp [writeEntry]
  | cons e es ih =>
    obtain ⟨n, old⟩ := e
    unfold writeEntry
    split
    · next h => simp [h]
    · next h =>
      simp only [List.map_cons, ih, List.mem_cons, Ne.symm h, false_or]
      split <;> rfl

/-- The entries after a write: only the one under the written name is another. -/
theorem find?_writeEntry (name n : String) (entry : Entry) (es : List (String × Entry)) :
    ((writeEntry name entry es).2.find? (·.1 == n)).map (·.2) =
      if n = name then some entry else (es.find? (·.1 == n)).map (·.2) := by
  induction es with
  | nil => by_cases h : n = name <;> simp [writeEntry, h, Ne.symm]
  | cons e es ih =>
    obtain ⟨m, old⟩ := e
    unfold writeEntry
    split
    · next hm =>
      subst hm
      by_cases h : n = m
      · simp [h]
      · simp [h, Ne.symm h]
    · next hm =>
      by_cases h : m = n
      · simp [h, h ▸ hm]
      · simp [h, ih]

/-- Entries under distinct names, in the order of their first writes. -/
structure SymbolTable where
  entries : List (String × Entry)
  nodup : (entries.map (·.1)).Nodup

namespace SymbolTable

/-- The table without names. -/
def empty : SymbolTable :=
  ⟨[], .nil⟩

instance : EmptyCollection SymbolTable :=
  ⟨empty⟩

instance : Inhabited SymbolTable :=
  ⟨∅⟩

variable (t : SymbolTable)

/-- The names in the order of their first writes. -/
def names : List String :=
  t.entries.map (·.1)

/-- The number of names. -/
def size : Nat :=
  t.entries.length

/-- Whether there are no names. -/
def isEmpty : Bool :=
  t.entries.isEmpty

/-- The entry of a name. -/
def get? (name : String) : Option Entry :=
  (t.entries.find? (·.1 == name)).map (·.2)

/-- Whether a name has an entry. -/
def contains (name : String) : Bool :=
  (t.get? name).isSome

/-- Writes an entry and also returns the one that was there before. -/
def insert (name : String) (entry : Entry) : Option Entry × SymbolTable :=
  let written := writeEntry name entry t.entries
  (written.1, {
    entries := written.2
    nodup := by
      rw [names_writeEntry]
      split
      · exact t.nodup
      · next h =>
        exact List.nodup_append.mpr ⟨t.nodup, by simp, by
          rintro a ha b hb rfl
          exact h (List.mem_singleton.mp hb ▸ ha)⟩ })

/-- Writes an entry. -/
def write (name : String) (entry : Entry) : SymbolTable :=
  (t.insert name entry).2

/-- The table as it is listed, a line for each name. -/
def listing : String :=
  String.join <| t.entries.map fun (name, entry) =>
    name ++ " -> \x7bval=" ++ Decimal.valueText entry.value ++ ", tipo=" ++ entry.tag.text ++
      "\x7d\n"

theorem names_write (name : String) (entry : Entry) :
    (t.write name entry).names = if name ∈ t.names then t.names else t.names ++ [name] :=
  names_writeEntry name entry t.entries

theorem get?_write (name n : String) (entry : Entry) :
    (t.write name entry).get? n = if n = name then some entry else t.get? n :=
  find?_writeEntry name n entry t.entries

end SymbolTable

end AttrCalc
