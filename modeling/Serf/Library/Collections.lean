import Mathlib.Algebra.Order.BigOperators.Group.List
import Mathlib.Algebra.Order.Ring.Nat
import Mathlib.Data.List.AList
import Mathlib.Data.List.Count

/-!
Finite tables, finite sets and growable vectors. A table keeps one value per key
and fixes some order in which its entries are visited; no lemma here depends on
that order. A set is its distinct items in such an order. `swapRemove` is the
constant-time removal of a vector that moves the last element into the hole, so it
keeps the elements and not their order.
-/

namespace Serf.Library.Collections

abbrev Table (Key Value : Type) := AList fun _ : Key => Value

section Tables

variable {Key Value : Type} [DecidableEq Key]

variable (table : Table Key Value) (key other : Key)

theorem lookup_insert_eq (value : Value) :
    (table.insert key value).lookup other =
      if other = key then some value else table.lookup other := by
  by_cases same : other = key
  · subst other
    simp
  · simp [same, AList.lookup_insert_ne same]

theorem lookup_erase_eq :
    (table.erase key).lookup other = if other = key then none else table.lookup other := by
  by_cases same : other = key
  · subst other
    simp
  · simp [same, AList.lookup_erase_ne same]

def eraseAll (table : Table Key Value) (keys : List Key) : Table Key Value :=
  keys.foldl (fun table key => table.erase key) table

theorem lookup_eraseAll (keys : List Key) (key : Key) :
    (eraseAll table keys).lookup key = if key ∈ keys then none else table.lookup key := by
  induction keys generalizing table with
  | nil => simp [eraseAll]
  | cons first rest ih =>
    have tail := ih (table.erase first)
    rw [eraseAll, lookup_erase_eq] at tail
    rw [eraseAll, List.foldl_cons, tail]
    by_cases later : key ∈ rest
    · simp [later]
    · simp [later]

theorem mem_keys_iff : key ∈ table.keys ↔ ∃ value, table.lookup key = some value := by
  rw [← AList.mem_keys, ← AList.lookup_isSome, Option.isSome_iff_exists]

def collect (pairs : List (Key × Value)) : Table Key Value :=
  pairs.foldl (fun table pair => table.insert pair.1 pair.2) ∅

theorem lookup_foldl_insert (pairs : List (Key × Value)) (distinct : (pairs.map Prod.fst).Nodup)
    (table : Table Key Value) (key : Key) (value : Value) :
    (pairs.foldl (fun table pair => table.insert pair.1 pair.2) table).lookup key = some value ↔
      (key, value) ∈ pairs ∨ (key ∉ pairs.map Prod.fst ∧ table.lookup key = some value) := by
  induction pairs generalizing table with
  | nil => simp
  | cons pair rest ih =>
    rw [List.map_cons, List.nodup_cons] at distinct
    rw [List.foldl_cons, ih distinct.2, lookup_insert_eq]
    by_cases same : key = pair.1
    · -- The key does not come back in the rest.
      subst key
      have absent : (pair.1, value) ∉ rest :=
        fun later => distinct.1 (List.mem_map.mpr ⟨_, later, rfl⟩)
      have here : (pair.1, value) = pair ↔ pair.2 = value := by
        rw [Prod.ext_iff]
        exact ⟨fun both => both.2.symm, fun same => ⟨rfl, same.symm⟩⟩
      simp [absent, distinct.1, here]
    · have other : (key, value) ≠ pair := fun equal => same (congrArg Prod.fst equal)
      simp [same, other]

theorem lookup_collect (pairs : List (Key × Value)) (distinct : (pairs.map Prod.fst).Nodup)
    (key : Key) (value : Value) :
    (collect pairs).lookup key = some value ↔ (key, value) ∈ pairs := by
  rw [collect, lookup_foldl_insert pairs distinct]
  simp

def lastOf : List (Key × Value) → Key → Option Value
  | [], _ => none
  | pair :: rest, key => (lastOf rest key).or (if pair.1 = key then some pair.2 else none)

theorem lastOf_append (first second : List (Key × Value)) (key : Key) :
    lastOf (first ++ second) key = (lastOf second key).or (lastOf first key) := by
  induction first with
  | nil => simp [lastOf]
  | cons pair rest ih => rw [List.cons_append, lastOf, ih, lastOf, Option.or_assoc]

theorem lastOf_mem (pairs : List (Key × Value)) (key : Key) (value : Value)
    (last : lastOf pairs key = some value) : (key, value) ∈ pairs := by
  induction pairs with
  | nil => cases last
  | cons pair rest ih =>
    rw [lastOf, Option.or_eq_some_iff] at last
    rcases last with later | ⟨_, here⟩
    · exact List.mem_cons_of_mem pair (ih later)
    · split at here
      · rename_i same
        cases here
        exact List.mem_cons.mpr (Or.inl (Prod.ext same.symm rfl))
      · cases here

theorem lastOf_eq_none (pairs : List (Key × Value)) (key : Key) :
    lastOf pairs key = none ↔ key ∉ pairs.map Prod.fst := by
  induction pairs with
  | nil => simp [lastOf]
  | cons pair rest ih =>
    rw [lastOf, Option.or_eq_none_iff, ih, List.map_cons, List.mem_cons, not_or, and_comm]
    refine and_congr_left fun _ => ?_
    by_cases same : pair.1 = key
    · simp [same]
    · simp [same, Ne.symm same]

theorem lastOf_distinct (pairs : List (Key × Value)) (distinct : (pairs.map Prod.fst).Nodup)
    (key : Key) (value : Value) : lastOf pairs key = some value ↔ (key, value) ∈ pairs := by
  refine ⟨lastOf_mem pairs key value, fun member => ?_⟩
  cases last : lastOf pairs key with
  | none =>
    exact absurd (List.mem_map.mpr ⟨_, member, rfl⟩) ((lastOf_eq_none pairs key).mp last)
  | some other =>
    have same := List.inj_on_of_nodup_map distinct (lastOf_mem pairs key other last) member rfl
    rw [(Prod.mk.inj same).2]

theorem lookup_foldl_last (pairs : List (Key × Value)) (table : Table Key Value) (key : Key) :
    (pairs.foldl (fun table pair => table.insert pair.1 pair.2) table).lookup key =
      (lastOf pairs key).or (table.lookup key) := by
  induction pairs generalizing table with
  | nil => simp [lastOf]
  | cons pair rest ih =>
    rw [List.foldl_cons, ih, lastOf, Option.or_assoc, lookup_insert_eq]
    by_cases same : key = pair.1
    · simp [same]
    · simp [same, Ne.symm same]

def addTo {Item : Type} (table : Table Key (List Item)) (key : Key) (item : Item) :
    Table Key (List Item) :=
  table.insert key ((table.lookup key).getD [] ++ [item])

theorem lookup_foldl_addTo {Item : Type} (items : List (Key × Item))
    (table : Table Key (List Item)) (key : Key) :
    (items.foldl (fun table item => addTo table item.1 item.2) table).lookup key =
      if key ∈ items.map Prod.fst then
        some ((table.lookup key).getD [] ++
          (items.filter fun item => item.1 = key).map Prod.snd)
      else table.lookup key := by
  induction items generalizing table with
  | nil => simp
  | cons item rest ih =>
    rw [List.foldl_cons, ih, addTo, lookup_insert_eq]
    by_cases same : item.1 = key
    · subst same
      by_cases again : item.1 ∈ rest.map Prod.fst
      · simp [again]
      · have none : (rest.filter fun other => other.1 = item.1) = [] := by
          rw [List.filter_eq_nil_iff]
          intro other member equal
          exact again (List.mem_map.mpr ⟨other, member, by simpa using equal⟩)
        simp [again, none]
    · have skipped : key ∈ (item :: rest).map Prod.fst ↔ key ∈ rest.map Prod.fst := by
        rw [List.map_cons, List.mem_cons, or_iff_right (Ne.symm same)]
      simp only [skipped, Ne.symm same, same, if_false, decide_false, Bool.false_eq_true,
        not_false_eq_true, List.filter_cons_of_neg]

section Counts

def bump (table : Table Key Nat) (key : Key) : Table Key Nat :=
  table.insert key ((table.lookup key).getD 0 + 1)

def Tallies (table : Table Key Nat) (items : List Key) : Prop :=
  ∀ key, table.lookup key = if key ∈ items then some (items.count key) else none

theorem tallies_empty : Tallies (∅ : Table Key Nat) [] := by
  intro key
  rfl

theorem tallies_bump {table : Table Key Nat} {items : List Key} (tallied : Tallies table items)
    (item : Key) : Tallies (bump table item) (items ++ [item]) := by
  intro key
  rw [bump, lookup_insert_eq, tallied key, tallied item]
  by_cases same : key = item
  · subst same
    by_cases known : key ∈ items
    · simp [known]
    · simp [known, List.count_eq_zero_of_not_mem known]
  · simp [same, Ne.symm same]

theorem tallies_foldl_bump {table : Table Key Nat} {items : List Key}
    (tallied : Tallies table items) (more : List Key) :
    Tallies (more.foldl bump table) (items ++ more) := by
  induction more generalizing table items with
  | nil => simpa using tallied
  | cons item rest ih => simpa using ih (tallies_bump tallied item)

theorem tallies_iff {table : Table Key Nat} {items : List Key} (tallied : Tallies table items)
    (others : List Key) : Tallies table others ↔ items.Perm others := by
  constructor
  · intro alike
    refine List.perm_iff_count.mpr fun key => ?_
    have same := (tallied key).symm.trans (alike key)
    by_cases left : key ∈ items <;> by_cases right : key ∈ others
    · simpa [left, right] using same
    · simp [left, right] at same
    · simp [left, right] at same
    · rw [List.count_eq_zero_of_not_mem left, List.count_eq_zero_of_not_mem right]
  · intro alike key
    rw [tallied key, alike.count_eq key]
    simp only [alike.mem_iff]

end Counts

def pairs (table : Table Key Value) : List (Key × Value) :=
  table.entries.map fun entry => (entry.1, entry.2)

omit [DecidableEq Key] in
theorem pairs_distinct : ((pairs table).map Prod.fst).Nodup := by
  rw [pairs, List.map_map]
  exact table.nodupKeys

theorem mem_pairs (value : Value) : (key, value) ∈ pairs table ↔ table.lookup key = some value := by
  rw [← Option.mem_def, AList.mem_lookup_iff]
  simp [pairs]

theorem lookup_collect_pairs : (collect (pairs table)).lookup key = table.lookup key := by
  apply Option.ext
  intro value
  rw [lookup_collect _ (pairs_distinct table), mem_pairs]

def retain (table : Table Key Value) (keep : Key → Value → Bool) : Table Key Value where
  entries := table.entries.filter fun entry => keep entry.1 entry.2
  nodupKeys := List.NodupKeys.sublist List.filter_sublist table.nodupKeys

theorem lookup_retain (keep : Key → Value → Bool) (key : Key) (value : Value) :
    (retain table keep).lookup key = some value ↔
      table.lookup key = some value ∧ keep key value = true := by
  rw [← Option.mem_def, ← Option.mem_def, AList.mem_lookup_iff, AList.mem_lookup_iff]
  simp [retain]

end Tables

structure ItemSet (Item : Type) where
  items : List Item
  distinct : items.Nodup
  deriving DecidableEq

namespace ItemSet

variable {Item : Type}

instance : Membership Item (ItemSet Item) := ⟨fun set item => item ∈ set.items⟩

def empty : ItemSet Item := ⟨[], List.nodup_nil⟩

@[simp] theorem mem_empty (item : Item) : item ∉ (empty : ItemSet Item) := List.not_mem_nil

variable [DecidableEq Item]

def insert (set : ItemSet Item) (item : Item) : ItemSet Item :=
  ⟨set.items.insert item, set.distinct.insert⟩

def remove (set : ItemSet Item) (item : Item) : ItemSet Item :=
  ⟨set.items.erase item, set.distinct.erase item⟩

@[simp] theorem mem_insert (set : ItemSet Item) (item other : Item) :
    other ∈ set.insert item ↔ other = item ∨ other ∈ set := List.mem_insert_iff

@[simp] theorem mem_remove (set : ItemSet Item) (item other : Item) :
    other ∈ set.remove item ↔ other ≠ item ∧ other ∈ set := set.distinct.mem_erase_iff

def collect (items : List Item) : ItemSet Item := items.foldl insert empty

theorem mem_foldl_insert (items : List Item) (set : ItemSet Item) (item : Item) :
    item ∈ items.foldl insert set ↔ item ∈ items ∨ item ∈ set := by
  induction items generalizing set with
  | nil => simp
  | cons first rest ih =>
    rw [List.foldl_cons, ih, mem_insert, List.mem_cons]
    tauto

theorem mem_collect (items : List Item) (item : Item) : item ∈ collect items ↔ item ∈ items := by
  rw [collect, mem_foldl_insert]
  simp

end ItemSet

section Vectors

variable {Item : Type}

def swapRemove (items : List Item) (index : Nat) : List Item :=
  match items.getLast? with
  | none => []
  | some last => (items.set index last).dropLast

theorem take_swapRemove (items : List Item) (index : Nat) (inside : index < items.length) :
    (swapRemove items index).take index = items.take index := by
  rcases List.eq_nil_or_concat items with empty | ⟨initial, last, split⟩
  · subst items
    simp at inside
  · subst items
    have room : index ≤ initial.length := by
      simp only [List.concat_eq_append, List.length_append, List.length_singleton] at inside
      omega
    simp only [List.concat_eq_append, swapRemove, List.getLast?_append_of_ne_nil, ne_eq,
      List.cons_ne_self, not_false_eq_true, List.getLast?_singleton]
    by_cases before : index < initial.length
    · rw [List.set_append_left _ _ before, List.dropLast_concat, List.take_set_of_le (le_refl _),
        List.take_append_of_le_length room]
    · have atEnd : index = initial.length := by omega
      subst atEnd
      simp

theorem set_perm (items : List Item) (index : Nat) (inside : index < items.length)
    (item : Item) : (items[index] :: items.set index item).Perm (item :: items) := by
  induction items generalizing index with
  | nil => simp at inside
  | cons first rest ih =>
    cases index with
    | zero => exact List.Perm.swap _ _ _
    | succ index =>
      have tail := ih index (by simpa using inside)
      simp only [List.getElem_cons_succ, List.set_cons_succ]
      exact (List.Perm.swap _ _ _).trans
        ((tail.cons first).trans (List.Perm.swap _ _ _))

theorem swapRemove_perm (items : List Item) (index : Nat) (inside : index < items.length) :
    (items[index] :: swapRemove items index).Perm items := by
  rcases List.eq_nil_or_concat items with empty | ⟨initial, last, split⟩
  · subst items
    simp at inside
  · subst items
    simp only [List.concat_eq_append, swapRemove, List.getLast?_append_of_ne_nil, ne_eq,
      List.cons_ne_self, not_false_eq_true, List.getLast?_singleton]
    by_cases before : index < initial.length
    · rw [List.set_append_left _ _ before]
      simp only [List.dropLast_concat, List.getElem_append_left before]
      exact (set_perm initial index before last).trans
        (List.perm_append_singleton last initial).symm
    · have atEnd : index = initial.length := by
        simp only [List.concat_eq_append, List.length_append, List.length_singleton] at inside
        omega
      subst atEnd
      simpa using (List.perm_append_singleton last initial).symm

/-- A pass by index that takes out with `swapRemove` what it does not keep, so that
the item which moves to the index is examined next. It gives what is left and what
was taken out, in that order. -/
def sweep (keep : Item → Bool) : Nat → Nat → List Item → List Item × List Item
  | 0, _, items => (items, [])
  | remaining + 1, index, items =>
    match items[index]? with
    | none => (items, [])
    | some item =>
      if keep item then sweep keep remaining (index + 1) items
      else
        let rest := sweep keep remaining index (swapRemove items index)
        (rest.1, item :: rest.2)

theorem filter_passed (keep : Item → Bool) (index : Nat) (items : List Item)
    (atEnd : items.length ≤ index) (passed : ∀ item ∈ items.take index, keep item = true) :
    items.filter keep = items ∧ items.filter (fun item => !keep item) = [] := by
  rw [List.take_of_length_le atEnd] at passed
  exact ⟨List.filter_eq_self.mpr passed,
    List.filter_eq_nil_iff.mpr fun item member => by simp [passed item member]⟩

theorem sweep_perm (keep : Item → Bool) (remaining index : Nat) (items : List Item)
    (enough : items.length ≤ index + remaining)
    (passed : ∀ item ∈ items.take index, keep item = true) :
    (sweep keep remaining index items).1.Perm (items.filter keep) ∧
    (sweep keep remaining index items).2.Perm (items.filter fun item => !keep item) := by
  induction remaining generalizing index items with
  | zero =>
    obtain ⟨kept, removed⟩ := filter_passed keep index items enough passed
    simp [sweep, kept, removed]
  | succ remaining ih =>
    unfold sweep
    cases entry : items[index]? with
    | none =>
      have atEnd := List.getElem?_eq_none_iff.mp entry
      obtain ⟨kept, removed⟩ := filter_passed keep index items atEnd passed
      simp [kept, removed]
    | some item =>
      dsimp only
      obtain ⟨inside, here⟩ := List.getElem?_eq_some_iff.mp entry
      by_cases stay : keep item = true
      · rw [if_pos stay]
        refine ih (index + 1) items (by omega) ?_
        intro other member
        rw [List.take_add_one, entry] at member
        rcases List.mem_append.mp member with earlier | last
        · exact passed other earlier
        · rw [List.mem_singleton.mp last]
          exact stay
      · rw [if_neg stay]
        -- The last item moves into the hole, those before it stay where they are.
        have moved := swapRemove_perm items index inside
        rw [here] at moved
        have shorter := moved.length_eq
        rw [List.length_cons] at shorter
        obtain ⟨kept, removed⟩ := ih index (swapRemove items index) (by omega)
          (by rwa [take_swapRemove items index inside])
        constructor
        · have left := moved.filter keep
          rw [List.filter_cons_of_neg stay] at left
          exact kept.trans left
        · have out := moved.filter fun item => !keep item
          rw [List.filter_cons_of_pos (by simpa using stay)] at out
          exact (removed.cons item).trans out

theorem filterMap_ite {Made : Type} (keep : Item → Prop) [DecidablePred keep] (make : Item → Made)
    (items : List Item) :
    (items.filterMap fun item => if keep item then some (make item) else none) =
      (items.filter keep).map make := by
  induction items with
  | nil => rfl
  | cons item rest ih =>
    by_cases kept : keep item
    · simp only [List.filterMap_cons, kept, if_true, ih, List.filter_cons, decide_true,
        List.map_cons]
    · simp only [List.filterMap_cons, kept, if_false, ih, List.filter_cons, decide_false,
        Bool.false_eq_true]

/-- Going through the items, one comes to an item of the second kind by passing only
items of the first. -/
def ComesTo (passed stops : Item → Prop) (items : List Item) : Prop :=
  ∃ before item after, items = before ++ item :: after ∧ (∀ other ∈ before, passed other) ∧
    stops item

theorem not_comesTo_nil (passed stops : Item → Prop) : ¬ ComesTo passed stops [] := by
  rintro ⟨before, item, after, parts, _⟩
  cases before <;> cases parts

theorem comesTo_cons (passed stops : Item → Prop) (first : Item) (rest : List Item) :
    ComesTo passed stops (first :: rest) ↔
      stops first ∨ (passed first ∧ ComesTo passed stops rest) := by
  constructor
  · rintro ⟨before, item, after, parts, all, here⟩
    cases before with
    | nil =>
      cases parts
      exact Or.inl here
    | cons _ before =>
      cases parts
      exact Or.inr ⟨all first List.mem_cons_self, before, item, after, rfl,
        fun other inside => all other (List.mem_cons_of_mem first inside), here⟩
  · rintro (here | ⟨now, before, item, after, rfl, all, here⟩)
    · exact ⟨[], first, rest, rfl, by simp, here⟩
    · exact ⟨first :: before, item, after, rfl, List.forall_mem_cons.mpr ⟨now, all⟩, here⟩

section Search

variable {Made Error : Type} (attempt : Item → Except Error (Option Made))

theorem findSomeM_ends_iff (items : List Item) (answer : Except Error (Option Made))
    (ends : answer ≠ .ok none) :
    items.findSomeM? attempt = answer ↔
      ComesTo (fun item => attempt item = .ok none) (fun item => attempt item = answer) items := by
  induction items with
  | nil =>
    constructor
    · intro nothing
      exact absurd nothing.symm ends
    · intro none
      exact absurd none (not_comesTo_nil _ _)
  | cons item rest ih =>
    rw [List.findSomeM?_cons, comesTo_cons]
    cases tried : attempt item with
    | error reason => simp [bind, Except.bind]
    | ok found =>
      cases found with
      | some other => simp [bind, Except.bind, pure, Except.pure]
      | none => simpa [bind, Except.bind, ends.symm] using ih

theorem findSomeM_none_iff (items : List Item) :
    items.findSomeM? attempt = .ok none ↔ ∀ item ∈ items, attempt item = .ok none := by
  induction items with
  | nil => simp [pure, Except.pure]
  | cons item rest ih =>
    rw [List.findSomeM?_cons, List.forall_mem_cons]
    cases tried : attempt item with
    | error reason => simp [bind, Except.bind]
    | ok found =>
      cases found with
      | some other => simp [bind, Except.bind, pure, Except.pure]
      | none => simpa [bind, Except.bind] using ih

end Search

theorem mapM_some_iff {Made : Type} (make : Item → Option Made) (items : List Item)
    (made : List Made) :
    items.mapM make = some made ↔
      (∀ item ∈ items, (make item).isSome) ∧ items.filterMap make = made := by
  induction items generalizing made with
  | nil => simp
  | cons item rest ih =>
    rw [List.mapM_cons, List.forall_mem_cons, List.filterMap_cons]
    cases make item with
    | none => simp
    | some first =>
      simp only [Option.bind_eq_bind, Option.bind_some, Option.bind_eq_some_iff, ih]
      constructor
      · rintro ⟨others, ⟨all, rfl⟩, same⟩
        cases same
        exact ⟨⟨rfl, all⟩, rfl⟩
      · rintro ⟨⟨_, all⟩, rfl⟩
        exact ⟨_, ⟨all, rfl⟩, rfl⟩

theorem sum_toNat (test : Item → Bool) (items : List Item) :
    (items.map fun item => (test item).toNat).sum = items.countP test := by
  induction items with
  | nil => rfl
  | cons item rest ih =>
    rw [List.map_cons, List.sum_cons, ih, List.countP_cons]
    cases test item <;> simp [Nat.add_comm]

theorem sum_map_eq_iff {low high : Item → Nat} {items : List Item}
    (below : ∀ item ∈ items, low item ≤ high item) :
    (items.map high).sum = (items.map low).sum ↔ ∀ item ∈ items, high item = low item := by
  constructor
  · intro same item inside
    by_contra apart
    have less : low item < high item :=
      Nat.lt_of_le_of_ne (below item inside) (Ne.symm apart)
    have sums := List.sum_lt_sum low high below ⟨item, inside, less⟩
    omega
  · intro alike
    rw [List.map_congr_left alike]

theorem countP_le_kinds {Kind : Type} (items : List Item) (counted : Item → Bool)
    (kinds : List Kind) (ofKind : Kind → Item → Bool)
    (once : ∀ kind, items.countP (ofKind kind) ≤ 1)
    (covered : ∀ item ∈ items, counted item = true → ∃ kind ∈ kinds, ofKind kind item = true) :
    items.countP counted ≤ kinds.length := by
  induction kinds generalizing counted with
  | nil =>
    have none : items.countP counted = 0 := by
      rw [List.countP_eq_zero]
      intro item member held
      obtain ⟨kind, impossible, _⟩ := covered item member held
      cases impossible
    omega
  | cons kind rest ih =>
    -- The items of the first kind are counted apart from all others.
    have tail := ih (fun item => counted item && !ofKind kind item) (by
      intro item member held
      rw [Bool.and_eq_true, Bool.not_eq_true'] at held
      obtain ⟨other, inside, matching⟩ := covered item member held.1
      rcases List.mem_cons.mp inside with same | later
      · rw [same, held.2] at matching
        cases matching
      · exact ⟨other, later, matching⟩)
    have split : items.countP counted ≤ items.countP (ofKind kind) +
        items.countP (fun item => counted item && !ofKind kind item) := by
      clear once covered ih tail
      induction items with
      | nil => simp
      | cons item items ih =>
        simp only [List.countP_cons]
        cases counted item <;> cases ofKind kind item <;> simp <;> omega
    have first := once kind
    rw [List.length_cons]
    omega

end Vectors

section Suffixes

variable {Item : Type}

def Trails (list other : List Item) : Prop :=
  ∃ times, list <:+ (List.replicate times other).flatten

theorem flatten_replicate_succ (times : Nat) (other : List Item) :
    (List.replicate (times + 1) other).flatten = (List.replicate times other).flatten ++ other := by
  rw [List.replicate_succ', List.flatten_append, List.flatten_singleton]

theorem trails_of_suffix (list other : List Item) (some : other ≠ [])
    (suffix : list <:+ list ++ other) : Trails list other := by
  -- Cutting one copy off the end leaves a shorter list with the same property.
  induction size : list.length using Nat.strongRec generalizing list with
  | ind length ih =>
    subst size
    have whole : other <:+ list ++ other := List.suffix_append ..
    rcases Nat.le_total list.length other.length with short | long
    · refine ⟨1, ?_⟩
      rw [List.replicate_one, List.flatten_singleton]
      exact List.suffix_of_suffix_length_le suffix whole short
    · obtain ⟨front, rfl⟩ := List.suffix_of_suffix_length_le whole suffix long
      have positive := List.length_pos_iff.mpr some
      have shorter : front.length < (front ++ other).length := by
        rw [List.length_append]
        omega
      obtain ⟨times, inside⟩ := ih _ shorter front (List.suffix_append_self_iff.mp suffix) rfl
      refine ⟨times + 1, ?_⟩
      rw [flatten_replicate_succ]
      exact List.suffix_append_self_iff.mpr inside

theorem suffix_append_iff (list other : List Item) :
    list <:+ list ++ other ↔ other = [] ∨ Trails list other := by
  constructor
  · intro suffix
    by_cases none : other = []
    · exact Or.inl none
    · exact Or.inr (trails_of_suffix list other none suffix)
  · rintro (rfl | ⟨times, inside⟩)
    · simp
    · have longer : list ++ other <:+ (List.replicate times other).flatten ++ other :=
        List.suffix_append_self_iff.mpr inside
      rw [← flatten_replicate_succ, List.replicate_succ, List.flatten_cons] at longer
      refine List.suffix_of_suffix_length_le (inside.trans (List.suffix_append ..)) longer ?_
      rw [List.length_append]
      exact Nat.le_add_right ..

theorem suffix_behind (front list other : List Item) :
    list <:+ front ++ (list ++ other) ↔ list <:+ list ++ other := by
  constructor
  · intro suffix
    refine List.suffix_of_suffix_length_le suffix (List.suffix_append ..) ?_
    rw [List.length_append]
    exact Nat.le_add_right ..
  · intro suffix
    exact suffix.trans (List.suffix_append ..)

end Suffixes

end Serf.Library.Collections
