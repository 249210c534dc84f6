import AttrCalc.Grammar.Follow
import AttrCalc.Proofs.Grammar.First
import Mathlib.Order.Bounds.Basic

/-!
# FIRST and FOLLOW as least solutions

Sets under names are ordered by inclusion: the smaller ones have no other names, and under each name
no other symbols.  The rounds over a system of inclusions leave the least sets above those they
start from that satisfy the system.  For FIRST and FOLLOW the system is read off the productions, so
their sets can be described without it: by what each production, and each nonterminal in its body,
demands.

## Main definitions

* `SetMap.Solves` : the sets satisfy a system of inclusions.
* `Grammar.IsFirstSolution` : the sets satisfy what the productions demand of FIRST.
* `Grammar.IsFollowSolution` : the sets satisfy what the bodies demand of FOLLOW, given FIRST.

## Main results

* `SetMap.isLeast_settle` : the rounds leave the least solution of their system.
* `Grammar.firstFrom_isLeast` : FIRST from a seed is the least solution above it.
* `Grammar.followFrom_isLeast` : FOLLOW from a seed is the least solution above it.
-/

namespace AttrCalc

namespace SetMap

variable {system : List Inclusion} {m m' : SetMap} {a b x : Symbol}

/-! ### Inclusion of all sets -/

theorem mem_get_iff : x ∈ m.get a ↔ ∃ set, m[a]? = some set ∧ x ∈ set := by
  rw [get, Std.ExtTreeMap.getD_eq_getD_getElem?]
  cases m[a]? <;> simp

theorem getElem?_eq_some_get (h : a ∈ m) : m[a]? = some (m.get a) :=
  Std.ExtTreeMap.getElem?_eq_some_getD h

theorem mem_of_getElem?_eq_some {set : SymbolSet} (h : m[a]? = some set) : a ∈ m :=
  Std.ExtTreeMap.mem_iff_isSome_getElem?.mpr (Option.isSome_of_eq_some h)

theorem mem_of_mem_get (h : x ∈ m.get a) : a ∈ m := by
  obtain ⟨set, hset, -⟩ := mem_get_iff.mp h
  exact mem_of_getElem?_eq_some hset

/-- Sets are below others that have the same names, and all their symbols under the same name. -/
instance : PartialOrder SetMap where
  le m m' := ∀ (a : Symbol) (set : SymbolSet), m[a]? = some set →
    ∃ set' : SymbolSet, m'[a]? = some set' ∧ ∀ x ∈ set, x ∈ set'
  le_refl _ _ set h := ⟨set, h, fun _ hx => hx⟩
  le_trans _ _ _ h h' a set hset := by
    obtain ⟨set', hset', hsub⟩ := h a set hset
    obtain ⟨set'', hset'', hsub'⟩ := h' a set' hset'
    exact ⟨set'', hset'', fun x hx => hsub' x (hsub x hx)⟩
  le_antisymm m m' h h' := by
    refine Std.ExtTreeMap.ext_getElem? fun a => ?_
    cases hset : m[a]? with
    | none =>
      cases hset' : m'[a]? with
      | none => rfl
      | some set' =>
        obtain ⟨set, hset'', -⟩ := h' a set' hset'
        simp [hset] at hset''
    | some set =>
      obtain ⟨set', hset', hsub⟩ := h a set hset
      obtain ⟨set'', hset'', hsub'⟩ := h' a set' hset'
      obtain rfl : set = set'' := by simpa [hset] using hset''
      rw [hset', Std.ExtTreeSet.ext_mem fun x => ⟨hsub x, hsub' x⟩]

theorem le_iff : m ≤ m' ↔ (∀ a ∈ m, a ∈ m') ∧ ∀ a, ∀ x ∈ m.get a, x ∈ m'.get a := by
  constructor
  · intro h
    refine ⟨fun a ha => ?_, fun a x hx => ?_⟩
    · obtain ⟨set', hset', -⟩ := h a _ (getElem?_eq_some_get ha)
      exact mem_of_getElem?_eq_some hset'
    · obtain ⟨set, hset, hx⟩ := mem_get_iff.mp hx
      obtain ⟨set', hset', hsub⟩ := h a set hset
      exact mem_get_iff.mpr ⟨set', hset', hsub x hx⟩
  · rintro ⟨hkeys, hsub⟩ a set hset
    have ha : a ∈ m' := hkeys a (mem_of_getElem?_eq_some hset)
    exact ⟨m'.get a, getElem?_eq_some_get ha, fun x hx =>
      hsub a x (mem_get_iff.mpr ⟨set, hset, hx⟩)⟩

theorem empty_le (m : SetMap) : ∅ ≤ m :=
  le_iff.mpr ⟨fun _ ha => absurd ha Std.ExtTreeMap.not_mem_empty, fun _ _ hx =>
    absurd (mem_of_mem_get hx) Std.ExtTreeMap.not_mem_empty⟩

/-! ### The least solution of a system -/

/-- Every inclusion of the system holds. -/
def Solves (system : List Inclusion) (m : SetMap) : Prop :=
  ∀ i ∈ system, ∀ x ∈ m.members i.source, x ∈ m.get i.target

/-- What a system requires, is in all its solutions above the sets to start from. -/
theorem Required.mem_get (h : Required system m x a) (hm : m ≤ m') (hsolves : Solves system m') :
    x ∈ m'.get a := by
  induction h with
  | start h => exact (le_iff.mp hm).2 _ x h
  | symbols hi hx => exact hsolves _ hi x hx
  | setOf hi _ ih => exact hsolves _ hi x ih

/-- If all targets of the system have a set, the rounds add no further set. -/
theorem mem_settle_iff_of_targets (htargets : ∀ i ∈ system, i.target ∈ m) :
    a ∈ (settle system m).1 ↔ a ∈ m := by
  rw [mem_settle_iff, or_iff_left_iff_imp]
  intro ha
  obtain ⟨i, hi, rfl⟩ := List.mem_map.mp ha
  exact htargets i hi

/-- **The least solution.** If all targets of the system have a set, the rounds leave the least
solution above the sets they start from. -/
theorem isLeast_settle (htargets : ∀ i ∈ system, i.target ∈ m) :
    IsLeast {m' | m ≤ m' ∧ Solves system m'} (settle system m).1 := by
  refine ⟨⟨le_iff.mpr ⟨fun a ha => mem_settle_iff.mpr (.inl ha), fun a x hx =>
    mem_get_settle_iff.mpr (.start hx)⟩, fun i hi x => settledAt_settle system m x i hi⟩, ?_⟩
  rintro m' ⟨hm, hsolves⟩
  refine le_iff.mpr ⟨fun a ha => (le_iff.mp hm).1 a ?_, fun a x hx => ?_⟩
  · exact (mem_settle_iff_of_targets htargets).mp ha
  · exact (mem_get_settle_iff.mp hx).mem_get hm hsolves

end SetMap

namespace Grammar

variable {g : Grammar} {seed m : SetMap} {a x : Symbol}

theorem cover_le_iff : g.cover seed ≤ m ↔ (∀ a, g.isNonterminal a → a ∈ m) ∧ seed ≤ m := by
  simp only [SetMap.le_iff, mem_cover_iff, get_cover, or_imp, forall_and, and_assoc]

/-! ### FIRST -/

/-- The sets have the symbols of the seed, and what the first symbol of each body can begin with,
the left-hand side can begin with. -/
structure IsFirstSolution (g : Grammar) (seed m : SetMap) : Prop where
  covers : ∀ a, g.isNonterminal a → a ∈ m
  seed_le : seed ≤ m
  head_subset : ∀ p ∈ g.productions, g.isNonterminal p.head → ∀ x ∈ m.get p.head, x ∈ m.get p.lhs
  head_mem : ∀ p ∈ g.productions, ¬ g.isNonterminal p.head → p.head ∈ m.get p.lhs

theorem solves_firstInclusions_iff : SetMap.Solves g.firstInclusions m ↔
    ∀ p ∈ g.productions, ∀ x ∈ m.members (g.headSource p.head), x ∈ m.get p.lhs := by
  simp [SetMap.Solves, firstInclusions]

theorem isFirstSolution_iff :
    g.IsFirstSolution seed m ↔ g.cover seed ≤ m ∧ SetMap.Solves g.firstInclusions m := by
  rw [cover_le_iff, solves_firstInclusions_iff]
  constructor
  · intro h
    refine ⟨⟨h.covers, h.seed_le⟩, fun p hp x hx => ?_⟩
    rw [mem_headSource_iff] at hx
    split at hx
    · next hhead => exact h.head_subset p hp hhead x hx
    · next hhead =>
      subst hx
      exact h.head_mem p hp hhead
  · rintro ⟨⟨hcovers, hseed⟩, hsolves⟩
    refine ⟨hcovers, hseed, fun p hp hhead x hx => hsolves p hp x ?_,
      fun p hp hhead => hsolves p hp _ ?_⟩
    · rwa [mem_headSource_iff, if_pos hhead]
    · rw [mem_headSource_iff, if_neg hhead]

/-- FIRST is demanded of nonterminals only. -/
theorem isNonterminal_of_mem_firstInclusions {i : Inclusion} (hi : i ∈ g.firstInclusions) :
    g.isNonterminal i.target := by
  obtain ⟨p, hp, rfl⟩ := List.mem_map.mp hi
  exact isNonterminal_iff.mpr ⟨p, hp, rfl⟩

theorem mem_cover_of_target {i : Inclusion} (hi : i ∈ g.firstInclusions) :
    i.target ∈ g.cover seed :=
  mem_cover_iff.mpr (.inl (isNonterminal_of_mem_firstInclusions hi))

theorem isLeast_firstFrom (g : Grammar) (seed : SetMap) :
    IsLeast {m | g.IsFirstSolution seed m} (g.firstFrom seed) := by
  simp only [isFirstSolution_iff]
  exact SetMap.isLeast_settle fun i hi => mem_cover_of_target hi

theorem mem_firstFrom_iff : a ∈ g.firstFrom seed ↔ g.isNonterminal a ∨ a ∈ seed := by
  rw [← mem_cover_iff]
  exact SetMap.mem_settle_iff_of_targets fun i hi => mem_cover_of_target hi

theorem IsFirstSolution.of_perm {g' : Grammar} (h : g.IsFirstSolution seed m)
    (hperm : g'.productions.Perm g.productions) : g'.IsFirstSolution seed m := by
  have hsame (s : Symbol) : g'.isNonterminal s = g.isNonterminal s := hperm.any_eq
  constructor
  · simpa only [hsame] using h.covers
  · exact h.seed_le
  · simpa only [hsame, hperm.mem_iff] using h.head_subset
  · simpa only [hsame, hperm.mem_iff] using h.head_mem

theorem firstFrom_mono : Monotone g.firstFrom := by
  intro seed seed' hseed
  have h := (g.isLeast_firstFrom seed').1
  exact (g.isLeast_firstFrom seed).2 { h with seed_le := hseed.trans h.seed_le }

theorem firstFrom_eq_self (h : g.IsFirstSolution m m) : g.firstFrom m = m :=
  le_antisymm ((g.isLeast_firstFrom m).2 h) (g.isLeast_firstFrom m).1.seed_le

/-- **FIRST from a seed.** The result has a set for the nonterminals and the names of the seed, and
is the least solution above the seed.  So a larger seed gives no smaller sets, solving again changes
nothing, any seed below FIRST gives FIRST, and the order of the productions does not matter. -/
theorem firstFrom_isLeast (g : Grammar) (seed : SetMap) :
    (∀ a, a ∈ g.firstFrom seed ↔ g.isNonterminal a ∨ a ∈ seed) ∧
    IsLeast {m | g.IsFirstSolution seed m} (g.firstFrom seed) ∧
    (∀ seed', seed ≤ seed' → g.firstFrom seed ≤ g.firstFrom seed') ∧
    g.firstFrom (g.firstFrom seed) = g.firstFrom seed ∧
    (seed ≤ g.first → g.firstFrom seed = g.first) ∧
    ∀ g' : Grammar, g'.productions.Perm g.productions →
      g'.firstFrom seed = g.firstFrom seed := by
  have hleast := g.isLeast_firstFrom seed
  refine ⟨fun a => mem_firstFrom_iff, hleast, fun seed' hseed => firstFrom_mono hseed, ?_, ?_, ?_⟩
  · exact firstFrom_eq_self { hleast.1 with seed_le := le_refl _ }
  · intro hseed
    have hfirst : g.IsFirstSolution seed g.first :=
      { (g.isLeast_firstFrom ∅).1 with seed_le := hseed }
    exact le_antisymm (hleast.2 hfirst) (firstFrom_mono (SetMap.empty_le seed))
  · intro g' hperm
    have hsolution : {m | g'.IsFirstSolution seed m} = {m | g.IsFirstSolution seed m} :=
      Set.ext fun m => ⟨fun h => h.of_perm hperm.symm, fun h => h.of_perm hperm⟩
    have hleast' := g'.isLeast_firstFrom seed
    rw [hsolution] at hleast'
    exact hleast'.unique hleast

/-- Two productions in both orders, with a seed that FIRST comprises. -/
theorem firstFrom_isLeast_swapped :
    let g : Grammar := {
      start := "S"
      productions := [⟨"S", "A", ["b"]⟩, ⟨"A", "a", []⟩]
      start_mem := by decide
      lhs_ne := by decide
      endMarker_notMem := by decide }
    let g' : Grammar := {
      start := "A"
      productions := [⟨"A", "a", []⟩, ⟨"S", "A", ["b"]⟩]
      start_mem := by decide
      lhs_ne := by decide
      endMarker_notMem := by decide }
    let seed : SetMap := (∅ : SetMap).insert "A" {"a"}
    seed ≤ g.first ∧ g'.productions.Perm g.productions ∧
      g.firstFrom seed ≤ g.firstFrom g.first ∧ g.firstFrom seed = g.first ∧
      g'.firstFrom seed = g.firstFrom seed := by
  intro g g' seed
  have ha : "a" ∈ g.first.get "A" :=
    mem_first_of_head (p := ⟨"A", "a", []⟩) (by decide)
      (mem_headSource_iff.mpr (by rw [if_neg (by decide)]))
  obtain ⟨first, hfirst, hmem⟩ := SetMap.mem_get_iff.mp ha
  have hseed : seed ≤ g.first := by
    intro a set hset
    rw [Std.ExtTreeMap.getElem?_insert] at hset
    split at hset
    · next h =>
      obtain rfl := Std.LawfulEqCmp.compare_eq_iff_eq.mp h
      obtain rfl : {"a"} = set := Option.some.inj hset
      refine ⟨first, hfirst, fun x hx => ?_⟩
      obtain rfl : "a" = x := by simpa using hx
      exact hmem
    · simp at hset
  have hperm : g'.productions.Perm g.productions := .swap _ _ _
  obtain ⟨-, -, hmono, -, hbelow, horder⟩ := firstFrom_isLeast g seed
  exact ⟨hseed, hperm, hmono _ hseed, hbelow hseed, horder g' hperm⟩

/-! ### FOLLOW -/

/-- The sets have the symbols of the seed, the end marker follows the start symbol, and what comes
after a nonterminal in a body, follows it: what follows the left-hand side after the last symbol,
what is in FIRST of a nonterminal, and a terminal itself.  The empty string demands nothing. -/
structure IsFollowSolution (g : Grammar) (first seed m : SetMap) : Prop where
  covers : ∀ a, g.isNonterminal a → a ∈ m
  seed_le : seed ≤ m
  endMarker_mem : endMarker ∈ m.get g.start
  last : ∀ p ∈ g.productions, ∀ u b, p.body = u ++ [b] → g.isNonterminal b →
    ∀ x ∈ m.get p.lhs, x ∈ m.get b
  nonterminal : ∀ p ∈ g.productions, ∀ u b n v, p.body = u ++ b :: n :: v → g.isNonterminal b →
    g.isNonterminal n → ∀ x ∈ first.get n, x ≠ epsilon → x ∈ m.get b
  terminal : ∀ p ∈ g.productions, ∀ u b t v, p.body = u ++ b :: t :: v → g.isNonterminal b →
    ¬ g.isNonterminal t → t ≠ epsilon → t ∈ m.get b

variable {first : SetMap} {i : Inclusion} {lhs : Symbol}

theorem mem_bodyInclusions_iff : (body : List Symbol) → (i ∈ g.bodyInclusions first lhs body ↔
    ∃ u b after, body = u ++ b :: after ∧ g.isNonterminal b ∧
      i = ⟨b, g.afterSource first lhs after⟩)
  | [] => by simp [bodyInclusions]
  | s :: body => by
    have hhere : i ∈ g.bodyInclusions first lhs (s :: body) ↔
        (g.isNonterminal s ∧ i = ⟨s, g.afterSource first lhs body⟩) ∨
          i ∈ g.bodyInclusions first lhs body := by
      rw [bodyInclusions]
      split <;> simp_all
    rw [hhere, mem_bodyInclusions_iff body]
    constructor
    · rintro (⟨hs, rfl⟩ | ⟨u, b, after, rfl, hb, rfl⟩)
      · exact ⟨[], s, body, rfl, hs, rfl⟩
      · exact ⟨s :: u, b, after, rfl, hb, rfl⟩
    · rintro ⟨u, b, after, hbody, hb, rfl⟩
      rcases List.cons_eq_append_iff.mp hbody with ⟨rfl, hcons⟩ | ⟨u', rfl, rfl⟩
      · obtain ⟨rfl, rfl⟩ := List.cons.inj hcons
        exact .inl ⟨hb, rfl⟩
      · exact .inr ⟨u', b, after, rfl, hb, rfl⟩

theorem solves_followInclusions_iff : SetMap.Solves (g.followInclusions first) m ↔
    ∀ p ∈ g.productions, ∀ u b after, p.body = u ++ b :: after → g.isNonterminal b →
      ∀ x ∈ m.members (g.afterSource first p.lhs after), x ∈ m.get b := by
  constructor
  · intro h p hp u b after hbody hb
    refine h ⟨b, g.afterSource first p.lhs after⟩ (List.mem_flatMap.mpr ⟨p, hp, ?_⟩)
    exact (mem_bodyInclusions_iff p.body).mpr ⟨u, b, after, hbody, hb, rfl⟩
  · intro h i hi
    obtain ⟨p, hp, hi⟩ := List.mem_flatMap.mp hi
    obtain ⟨u, b, after, hbody, hb, rfl⟩ := (mem_bodyInclusions_iff p.body).mp hi
    exact h p hp u b after hbody hb

/-- What comes after a symbol, is what the next symbol begins with, except for the empty string. -/
theorem mem_members_afterSource_cons_iff {next : Symbol} {after : List Symbol} :
    x ∈ m.members (g.afterSource first lhs (next :: after)) ↔
      x ≠ epsilon ∧ x ∈ first.members (g.headSource next) := by
  rw [mem_headSource_iff, afterSource]
  split
  · rw [SetMap.members, Std.ExtTreeSet.mem_erase, ne_eq, Std.LawfulEqCmp.compare_eq_iff_eq,
      eq_comm]
  · split
    · next hnext => simp [SetMap.members, hnext, eq_comm]
    · next hnext =>
      have hmem : x ∈ m.members (.symbols {next}) ↔ next = x := by simp [SetMap.members]
      rw [hmem]
      exact ⟨fun h => ⟨h ▸ hnext, h⟩, And.right⟩

theorem start_isNonterminal (g : Grammar) : g.isNonterminal g.start :=
  isNonterminal_iff.mpr (List.mem_map.mp g.start_mem)

theorem mem_get_followStart_iff :
    x ∈ (g.followStart seed).get a ↔ x ∈ seed.get a ∨ a = g.start ∧ x = endMarker := by
  simp only [followStart, SetMap.get_insert]
  split
  · next h =>
    rw [Std.ExtTreeSet.mem_insert, Std.LawfulEqCmp.compare_eq_iff_eq, get_cover, h]
    simp [or_comm, eq_comm]
  · next h => simp [get_cover, Ne.symm h]

theorem mem_followStart_iff : a ∈ g.followStart seed ↔ g.isNonterminal a ∨ a ∈ seed := by
  simp only [followStart, Std.ExtTreeMap.mem_insert, Std.LawfulEqCmp.compare_eq_iff_eq,
    mem_cover_iff, or_iff_right_iff_imp]
  rintro rfl
  exact .inl g.start_isNonterminal

theorem followStart_le_iff : g.followStart seed ≤ m ↔
    (∀ a, g.isNonterminal a → a ∈ m) ∧ seed ≤ m ∧ endMarker ∈ m.get g.start := by
  have hend : (∀ a x, a = g.start ∧ x = endMarker → x ∈ m.get a) ↔ endMarker ∈ m.get g.start :=
    ⟨fun h => h _ _ ⟨rfl, rfl⟩, by rintro h a x ⟨rfl, rfl⟩; exact h⟩
  simp only [SetMap.le_iff, mem_followStart_iff, mem_get_followStart_iff, or_imp, forall_and,
    and_assoc, hend]

theorem isFollowSolution_iff : g.IsFollowSolution first seed m ↔
    g.followStart seed ≤ m ∧ SetMap.Solves (g.followInclusions first) m := by
  rw [followStart_le_iff, solves_followInclusions_iff]
  constructor
  · intro h
    refine ⟨⟨h.covers, h.seed_le, h.endMarker_mem⟩, fun p hp u b after hbody hb x hx => ?_⟩
    cases after with
    | nil => exact h.last p hp u b hbody hb x hx
    | cons next after =>
      obtain ⟨hne, hx⟩ := mem_members_afterSource_cons_iff.mp hx
      rw [mem_headSource_iff] at hx
      split at hx
      · next hnext => exact h.nonterminal p hp u b next after hbody hb hnext x hx hne
      · next hnext =>
        subst hx
        exact h.terminal p hp u b next after hbody hb hnext hne
  · rintro ⟨⟨hcovers, hseed, hend⟩, hsolves⟩
    refine ⟨hcovers, hseed, hend, fun p hp u b hbody hb x hx => hsolves p hp u b [] hbody hb x hx,
      fun p hp u b n v hbody hb hn x hx hne => hsolves p hp u b (n :: v) hbody hb x ?_,
      fun p hp u b t v hbody hb ht hne => hsolves p hp u b (t :: v) hbody hb t ?_⟩
    · exact mem_members_afterSource_cons_iff.mpr ⟨hne, by rwa [mem_headSource_iff, if_pos hn]⟩
    · exact mem_members_afterSource_cons_iff.mpr ⟨hne, by rw [mem_headSource_iff, if_neg ht]⟩

/-- FOLLOW is demanded of nonterminals only. -/
theorem isNonterminal_of_mem_followInclusions (hi : i ∈ g.followInclusions first) :
    g.isNonterminal i.target := by
  obtain ⟨p, -, hi⟩ := List.mem_flatMap.mp hi
  obtain ⟨u, b, after, -, hb, rfl⟩ := (mem_bodyInclusions_iff p.body).mp hi
  exact hb

theorem mem_followStart_of_target (hi : i ∈ g.followInclusions first) :
    i.target ∈ g.followStart seed :=
  mem_followStart_iff.mpr (.inl (isNonterminal_of_mem_followInclusions hi))

theorem isLeast_followFrom (g : Grammar) (first seed : SetMap) :
    IsLeast {m | g.IsFollowSolution first seed m} (g.followFrom first seed) := by
  simp only [isFollowSolution_iff]
  exact SetMap.isLeast_settle fun i hi => mem_followStart_of_target hi

theorem mem_followFrom_iff : a ∈ g.followFrom first seed ↔ g.isNonterminal a ∨ a ∈ seed := by
  rw [← mem_followStart_iff]
  exact SetMap.mem_settle_iff_of_targets fun i hi => mem_followStart_of_target hi

/-- **FOLLOW from a seed.** The result has a set for the nonterminals and the names of the seed, and
is the least solution above the seed, whatever sets are taken for FIRST. -/
theorem followFrom_isLeast (g : Grammar) (first seed : SetMap) :
    (∀ a, a ∈ g.followFrom first seed ↔ g.isNonterminal a ∨ a ∈ seed) ∧
    IsLeast {m | g.IsFollowSolution first seed m} (g.followFrom first seed) :=
  ⟨fun _ => mem_followFrom_iff, g.isLeast_followFrom first seed⟩

end Grammar

end AttrCalc
