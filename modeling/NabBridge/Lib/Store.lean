/-
**An ordered key-value store.**

A finite map kept as a list of entries in strictly increasing key order, which is the order an
iterator walks them in. `set` and `delete` keep the order, so the invariant is a field of the
structure and an iterator over a store never has to re-establish it.

* `get_set`, `get_delete`: the two lookups after an update;
* `entries_set`, `entries_delete`: what an update does to the entries, up to permutation, which is
  what sums and disjointness arguments over a whole store read;
* `mem_entries_iff`: an entry is stored exactly when its key looks it up;
* `get_foldl_set_of_mem`: a list of entries under distinct keys can be written in any order;
* `entries_foldl_set_perm`: after writing a list, the store holds the writes that no later one replaces.
-/

import Mathlib.Data.List.Perm.Basic
import Mathlib.Data.List.Lex
import Mathlib.Data.List.Nodup
import Mathlib.Order.Lattice

namespace NabBridge

/-- Insert an entry in key order, replacing the entry under an equal key. -/
def insertEntry {κ α : Type} [LinearOrder κ] (key : κ) (value : α) : List (κ × α) → List (κ × α)
  | [] => [(key, value)]
  | entry :: rest =>
      if key < entry.1 then (key, value) :: entry :: rest
      else if key = entry.1 then (key, value) :: rest
      else entry :: insertEntry key value rest

/-- A finite map with its entries in strictly increasing key order. -/
structure Store (κ α : Type) [LinearOrder κ] where
  entries : List (κ × α)
  sorted : entries.Pairwise fun first second => first.1 < second.1

section Insert

variable {κ α : Type} [LinearOrder κ]

theorem mem_insertEntry {key : κ} {value : α} {entry : κ × α} {entries : List (κ × α)}
    (member : entry ∈ insertEntry key value entries) : entry = (key, value) ∨ entry ∈ entries := by
  induction entries with
  | nil =>
      rw [insertEntry, List.mem_singleton] at member
      exact Or.inl member
  | cons head rest ih =>
      rw [insertEntry] at member
      split_ifs at member with below same
      · exact List.mem_cons.mp member
      · rcases List.mem_cons.mp member with here | there
        · exact Or.inl here
        · exact Or.inr (List.mem_cons_of_mem _ there)
      · rcases List.mem_cons.mp member with here | there
        · exact Or.inr (here ▸ List.mem_cons_self)
        · exact (ih there).imp_right (List.mem_cons_of_mem _)

theorem insertEntry_sorted (key : κ) (value : α) {entries : List (κ × α)}
    (sorted : entries.Pairwise fun first second => first.1 < second.1) :
    (insertEntry key value entries).Pairwise fun first second => first.1 < second.1 := by
  induction entries with
  | nil => exact List.pairwise_singleton _ _
  | cons head rest ih =>
      obtain ⟨headBelow, restSorted⟩ := List.pairwise_cons.mp sorted
      rw [insertEntry]
      split_ifs with below same
      · refine List.pairwise_cons.mpr ⟨fun entry member => ?_, sorted⟩
        rcases List.mem_cons.mp member with rfl | there
        · exact below
        · exact below.trans (headBelow entry there)
      · refine List.pairwise_cons.mpr ⟨fun entry member => ?_, restSorted⟩
        exact same ▸ headBelow entry member
      · refine List.pairwise_cons.mpr ⟨fun entry member => ?_, ih restSorted⟩
        rcases mem_insertEntry member with rfl | there
        · exact lt_of_le_of_ne (not_lt.mp below) (Ne.symm same)
        · exact headBelow entry there

/-- Inserting puts the new entry in front of the entries under other keys, up to order. -/
theorem insertEntry_perm (key : κ) (value : α) {entries : List (κ × α)}
    (sorted : entries.Pairwise fun first second => first.1 < second.1) :
    (insertEntry key value entries).Perm
      ((key, value) :: entries.filter fun entry => entry.1 ≠ key) := by
  induction entries with
  | nil => exact List.Perm.refl _
  | cons head rest ih =>
      obtain ⟨headBelow, restSorted⟩ := List.pairwise_cons.mp sorted
      rw [insertEntry]
      split_ifs with below same
      · have keep : (head :: rest).filter (fun entry => decide (entry.1 ≠ key)) = head :: rest := by
          refine List.filter_eq_self.mpr fun entry member => decide_eq_true ?_
          rcases List.mem_cons.mp member with rfl | there
          · exact below.ne'
          · exact (below.trans (headBelow entry there)).ne'
        rw [keep]
      · have keep : rest.filter (fun entry => decide (entry.1 ≠ key)) = rest :=
          List.filter_eq_self.mpr fun entry member =>
            decide_eq_true (same ▸ (headBelow entry member).ne')
        rw [List.filter_cons_of_neg (by simp [same]), keep]
      · rw [List.filter_cons_of_pos (by simpa using Ne.symm same)]
        exact ((ih restSorted).cons head).trans (List.Perm.swap _ _ _)

end Insert

/-! ### Writes that stay -/

section Writes

variable {κ α : Type} [DecidableEq κ]

/-- The writes that no later one replaces. -/
def lastWrites : List (κ × α) → List (κ × α)
  | [] => []
  | pair :: rest => if pair.1 ∈ rest.map Prod.fst then lastWrites rest else pair :: lastWrites rest

theorem mem_of_mem_lastWrites {pairs : List (κ × α)} {pair : κ × α}
    (member : pair ∈ lastWrites pairs) : pair ∈ pairs := by
  induction pairs with
  | nil => exact member
  | cons head rest ih =>
      rw [lastWrites] at member
      split_ifs at member
      · exact List.mem_cons_of_mem _ (ih member)
      · rcases List.mem_cons.mp member with rfl | later
        · exact List.mem_cons_self
        · exact List.mem_cons_of_mem _ (ih later)

theorem lastWrites_keys_nodup (pairs : List (κ × α)) :
    ((lastWrites pairs).map Prod.fst).Nodup := by
  induction pairs with
  | nil => exact List.nodup_nil
  | cons head rest ih =>
      rw [lastWrites]
      split_ifs with replaced
      · exact ih
      · refine List.nodup_cons.mpr ⟨fun member => replaced ?_, ih⟩
        obtain ⟨pair, there, same⟩ := List.mem_map.mp member
        exact List.mem_map.mpr ⟨pair, mem_of_mem_lastWrites there, same⟩

/-- Renaming the keys without identifying two of them. -/
theorem lastWrites_map {κ' : Type} [DecidableEq κ'] (rename : κ → κ') {pairs : List (κ × α)}
    (injective : ∀ first ∈ pairs, ∀ second ∈ pairs, rename first.1 = rename second.1 → first.1 = second.1) :
    lastWrites (pairs.map fun pair => (rename pair.1, pair.2)) =
      (lastWrites pairs).map fun pair => (rename pair.1, pair.2) := by
  induction pairs with
  | nil => rfl
  | cons head rest ih =>
      have later := ih fun first member second member' =>
        injective first (List.mem_cons_of_mem _ member) second (List.mem_cons_of_mem _ member')
      have same : rename head.1 ∈ (rest.map fun pair => (rename pair.1, pair.2)).map Prod.fst ↔
          head.1 ∈ rest.map Prod.fst := by
        simp only [List.map_map, List.mem_map, Function.comp]
        constructor
        · rintro ⟨pair, member, equal⟩
          exact ⟨pair, member,
            injective pair (List.mem_cons_of_mem _ member) head List.mem_cons_self equal⟩
        · rintro ⟨pair, member, equal⟩
          exact ⟨pair, member, congrArg rename equal⟩
      rw [List.map_cons, lastWrites, lastWrites, later]
      by_cases replaced : head.1 ∈ rest.map Prod.fst
      · rw [if_pos replaced, if_pos (same.mpr replaced)]
      · rw [if_neg replaced, if_neg (mt same.mp replaced), List.map_cons]

end Writes

namespace Store

variable {κ α : Type} [LinearOrder κ]

/-- The store with no entry. -/
def empty : Store κ α := ⟨[], List.Pairwise.nil⟩

/-- The value under a key. -/
def get (store : Store κ α) (key : κ) : Option α :=
  (store.entries.find? fun entry => entry.1 = key).map Prod.snd

/-- Whether a key has a value. -/
def has (store : Store κ α) (key : κ) : Bool := (store.get key).isSome

/-- Write a value under a key. -/
def set (store : Store κ α) (key : κ) (value : α) : Store κ α :=
  ⟨insertEntry key value store.entries, insertEntry_sorted key value store.sorted⟩

/-- Remove the value under a key. -/
def delete (store : Store κ α) (key : κ) : Store κ α :=
  ⟨store.entries.filter fun entry => entry.1 ≠ key, store.sorted.filter _⟩

/-- The values in key order. -/
def values (store : Store κ α) : List α := store.entries.map Prod.snd

instance [DecidableEq α] : DecidableEq (Store κ α) := fun first second =>
  decidable_of_iff (first.entries = second.entries) (by cases first; cases second; simp)

/-! ### Lookups and entries -/

theorem keys_nodup (store : Store κ α) : (store.entries.map Prod.fst).Nodup :=
  (List.pairwise_map.mpr store.sorted).imp ne_of_lt

theorem entries_nodup (store : Store κ α) : store.entries.Nodup :=
  List.Nodup.of_map Prod.fst store.keys_nodup

theorem mem_entries_iff (store : Store κ α) (key : κ) (value : α) :
    (key, value) ∈ store.entries ↔ store.get key = some value := by
  constructor
  · intro member
    have found : (store.entries.find? fun entry => decide (entry.1 = key)).isSome :=
      List.find?_isSome.mpr ⟨(key, value), member, by simp⟩
    obtain ⟨entry, look⟩ := Option.isSome_iff_exists.mp found
    have same : entry.1 = key := by simpa using List.find?_some look
    have equal : entry = (key, value) :=
      List.inj_on_of_nodup_map store.keys_nodup (List.mem_of_find?_eq_some look) member same
    rw [get, look, equal]
    rfl
  · intro look
    obtain ⟨entry, found, rfl⟩ := Option.map_eq_some_iff.mp look
    have same : entry.1 = key := by simpa using List.find?_some found
    exact same ▸ List.mem_of_find?_eq_some found

theorem mem_values_iff (store : Store κ α) (value : α) :
    value ∈ store.values ↔ ∃ key, store.get key = some value := by
  simp only [values, List.mem_map, Prod.exists, mem_entries_iff, exists_eq_right]

theorem get_eq_none_iff (store : Store κ α) (key : κ) :
    store.get key = none ↔ ∀ value, (key, value) ∉ store.entries := by
  simp only [mem_entries_iff, Option.eq_none_iff_forall_ne_some, ne_eq]

@[simp] theorem get_empty (key : κ) : (empty : Store κ α).get key = none := rfl

@[simp] theorem entries_empty : (empty : Store κ α).entries = [] := rfl

@[simp] theorem values_empty : (empty : Store κ α).values = [] := rfl

theorem has_eq_false_iff (store : Store κ α) (key : κ) :
    store.has key = false ↔ store.get key = none := by
  rw [has, Option.isSome_eq_false_iff, Option.isNone_iff_eq_none]

theorem has_eq_true_iff (store : Store κ α) (key : κ) :
    store.has key = true ↔ ∃ value, store.get key = some value := by
  rw [has, Option.isSome_iff_exists]

/-! ### The two updates -/

theorem mem_entries_delete (store : Store κ α) (key : κ) (entry : κ × α) :
    entry ∈ (store.delete key).entries ↔ entry ∈ store.entries ∧ entry.1 ≠ key := by
  simp [delete]

/-- **Entries after a write**: the new entry and the old ones under other keys. -/
theorem entries_set (store : Store κ α) (key : κ) (value : α) :
    (store.set key value).entries.Perm ((key, value) :: (store.delete key).entries) :=
  insertEntry_perm key value store.sorted

theorem get_delete (store : Store κ α) (key other : κ) [Decidable (other = key)] :
    (store.delete key).get other = if other = key then none else store.get other := by
  refine Option.ext fun value => ?_
  rw [← mem_entries_iff, mem_entries_delete, mem_entries_iff]
  by_cases same : other = key <;> simp [same]

theorem get_set (store : Store κ α) (key other : κ) (value : α) [Decidable (other = key)] :
    (store.set key value).get other = if other = key then some value else store.get other := by
  refine Option.ext fun found => ?_
  rw [← mem_entries_iff, (store.entries_set key value).mem_iff, List.mem_cons,
    mem_entries_delete, mem_entries_iff]
  by_cases same : other = key
  · simp [same, eq_comm]
  · simp [same]

/-- What is found after a write is the new entry or an old one. -/
theorem of_get_set {store : Store κ α} {key other : κ} {value found : α}
    (stored : (store.set key value).get other = some found) :
    other = key ∧ found = value ∨ store.get other = some found := by
  classical
  rw [get_set] at stored
  split_ifs at stored with same
  · exact Or.inl ⟨same, (Option.some.inj stored).symm⟩
  · exact Or.inr stored

@[simp] theorem get_set_self (store : Store κ α) (key : κ) (value : α) :
    (store.set key value).get key = some value := by
  rw [get_set, if_pos rfl]

theorem get_set_of_ne (store : Store κ α) {key other : κ} (value : α) (different : other ≠ key) :
    (store.set key value).get other = store.get other := by
  rw [get_set, if_neg different]

@[simp] theorem get_delete_self (store : Store κ α) (key : κ) :
    (store.delete key).get key = none := by
  rw [get_delete, if_pos rfl]

theorem get_delete_of_ne (store : Store κ α) {key other : κ} (different : other ≠ key) :
    (store.delete key).get other = store.get other := by
  rw [get_delete, if_neg different]

/-- Deleting an absent key changes nothing. -/
theorem entries_delete_of_get_none (store : Store κ α) {key : κ} (absent : store.get key = none) :
    (store.delete key).entries = store.entries := by
  refine List.filter_eq_self.mpr fun entry member => decide_eq_true ?_
  rintro rfl
  exact (store.get_eq_none_iff _).mp absent entry.2 member

/-- **Entries before a deletion**: the deleted entry and what stays. -/
theorem entries_delete (store : Store κ α) {key : κ} {value : α}
    (present : store.get key = some value) :
    store.entries.Perm ((key, value) :: (store.delete key).entries) := by
  refine (List.perm_ext_iff_of_nodup store.entries_nodup ?_).mpr fun entry => ?_
  · refine List.nodup_cons.mpr ⟨fun member => ?_, (store.delete key).entries_nodup⟩
    exact ((store.mem_entries_delete key _).mp member).2 rfl
  · rw [List.mem_cons, mem_entries_delete]
    constructor
    · intro member
      by_cases same : entry.1 = key
      · left
        have look := (store.mem_entries_iff entry.1 entry.2).mp member
        rw [same, present] at look
        exact Prod.ext same (Option.some.inj look).symm
      · exact Or.inr ⟨member, same⟩
    · rintro (rfl | ⟨member, _⟩)
      · exact (store.mem_entries_iff key value).mpr present
      · exact member

theorem values_set_of_get_none (store : Store κ α) {key : κ} (value : α)
    (absent : store.get key = none) :
    (store.set key value).values.Perm (value :: store.values) := by
  have perm := (store.entries_set key value).map Prod.snd
  rwa [store.entries_delete_of_get_none absent] at perm

theorem values_delete (store : Store κ α) {key : κ} {value : α}
    (present : store.get key = some value) :
    store.values.Perm (value :: (store.delete key).values) :=
  (store.entries_delete present).map Prod.snd

/-! ### Writing a list of entries -/

theorem get_foldl_set_of_not_mem (pairs : List (κ × α)) (store : Store κ α) {key : κ}
    (absent : key ∉ pairs.map Prod.fst) :
    (pairs.foldl (fun current pair => current.set pair.1 pair.2) store).get key = store.get key := by
  induction pairs generalizing store with
  | nil => rfl
  | cons pair rest ih =>
      obtain ⟨different, absent⟩ := not_or.mp (mt List.mem_cons.mpr absent)
      rw [List.foldl_cons, ih _ absent, get_set_of_ne _ _ different]

/-- What is there after writing a list of entries was there before or is one of them. -/
theorem mem_of_get_foldl_set {pairs : List (κ × α)} {store : Store κ α} {key : κ} {value : α}
    (found : (pairs.foldl (fun current pair => current.set pair.1 pair.2) store).get key =
      some value) :
    store.get key = some value ∨ (key, value) ∈ pairs := by
  induction pairs generalizing store with
  | nil => exact Or.inl found
  | cons pair rest ih =>
      rcases ih found with earlier | later
      · rw [get_set] at earlier
        split_ifs at earlier with same
        · obtain rfl := Option.some.inj earlier
          exact Or.inr (same ▸ List.mem_cons_self)
        · exact Or.inl earlier
      · exact Or.inr (List.mem_cons_of_mem _ later)

/-- **Entries under distinct keys are all there after writing them**, in whatever order. -/
theorem get_foldl_set_of_mem {pairs : List (κ × α)} (store : Store κ α) {key : κ} {value : α}
    (distinct : (pairs.map Prod.fst).Nodup) (member : (key, value) ∈ pairs) :
    (pairs.foldl (fun current pair => current.set pair.1 pair.2) store).get key = some value := by
  induction pairs generalizing store with
  | nil => cases member
  | cons pair rest ih =>
      obtain ⟨new, distinct⟩ := List.nodup_cons.mp distinct
      rw [List.foldl_cons]
      rcases List.mem_cons.mp member with rfl | there
      · rw [get_foldl_set_of_not_mem _ _ new, get_set_self]
      · exact ih _ distinct there

/-- A key that was written holds one of the values written under it. -/
theorem exists_of_mem_foldl_set {pairs : List (κ × α)} (store : Store κ α) {key : κ}
    (written : key ∈ pairs.map Prod.fst) : ∃ value, (key, value) ∈ pairs ∧
      (pairs.foldl (fun current pair => current.set pair.1 pair.2) store).get key = some value := by
  induction pairs generalizing store with
  | nil => cases written
  | cons pair rest ih =>
      by_cases later : key ∈ rest.map Prod.fst
      · obtain ⟨value, member, found⟩ := ih (store.set pair.1 pair.2) later
        exact ⟨value, List.mem_cons_of_mem _ member, found⟩
      · obtain rfl : key = pair.1 := (List.mem_cons.mp written).resolve_right later
        refine ⟨pair.2, List.mem_cons_self, ?_⟩
        rw [List.foldl_cons, get_foldl_set_of_not_mem _ _ later, get_set_self]

/-- What is found after writing a list of entries: the last one under the key. -/
theorem get_foldl_set_iff [DecidableEq κ] {pairs : List (κ × α)} {store : Store κ α} {key : κ} {value : α} :
    (pairs.foldl (fun current pair => current.set pair.1 pair.2) store).get key = some value ↔
      (key, value) ∈ lastWrites pairs ∨ key ∉ pairs.map Prod.fst ∧ store.get key = some value := by
  induction pairs generalizing store with
  | nil => simp [lastWrites]
  | cons head rest ih =>
      have notIn : key ∉ rest.map Prod.fst → (key, value) ∉ lastWrites rest := fun new member =>
        new (List.mem_map_of_mem (f := Prod.fst) (mem_of_mem_lastWrites member))
      rw [List.foldl_cons, ih, lastWrites, List.map_cons, List.mem_cons]
      by_cases later : key ∈ rest.map Prod.fst
      · have different : head.1 ∉ rest.map Prod.fst → (key, value) ≠ head := by
          rintro new rfl
          exact new later
        split_ifs with replaced
        · simp [later]
        · simp [later, different replaced]
      · by_cases same : key = head.1
        · subst same
          rw [if_neg later, get_set_self, List.mem_cons]
          simp [later, notIn later, Prod.ext_iff, eq_comm]
        · have different : (key, value) ≠ head := fun equal => same (congrArg Prod.fst equal)
          rw [get_set_of_ne _ _ same]
          split_ifs with replaced
          · simp [later, same]
          · simp [later, same, different]

/-- **What is in a store after writing a list of entries.** -/
theorem entries_foldl_set_perm [DecidableEq κ] (pairs : List (κ × α)) :
    (pairs.foldl (fun current pair => current.set pair.1 pair.2) empty).entries.Perm (lastWrites pairs) := by
  refine (List.perm_ext_iff_of_nodup (entries_nodup _) (.of_map Prod.fst (lastWrites_keys_nodup pairs))).mpr ?_
  rintro ⟨key, value⟩
  rw [mem_entries_iff, get_foldl_set_iff]
  simp

/-- **Deleting a list of keys.** -/
theorem get_foldl_delete {keys : List κ} {store : Store κ α} {key : κ} {value : α} :
    (keys.foldl delete store).get key = some value ↔ store.get key = some value ∧ key ∉ keys := by
  induction keys generalizing store with
  | nil => simp
  | cons first rest ih =>
      rw [List.foldl_cons, ih, List.mem_cons, not_or]
      by_cases same : key = first
      · simp [same]
      · rw [get_delete_of_ne _ same]
        exact ⟨fun both => ⟨both.1, same, both.2⟩, fun both => ⟨both.1, both.2.2⟩⟩

/-! ### One function on all values -/

/-- Every value is replaced by its image. -/
def mapValues {β : Type} (f : α → β) (store : Store κ α) : Store κ β where
  entries := store.entries.map fun entry => (entry.1, f entry.2)
  sorted := List.pairwise_map.mpr store.sorted

@[simp] theorem get_mapValues {β : Type} (f : α → β) (store : Store κ α) (key : κ) :
    (store.mapValues f).get key = (store.get key).map f := by
  rw [get, get, mapValues, List.find?_map, Option.map_map, Option.map_map]
  rfl

/-! ### A property of all entries -/

/-- Every entry has the property. -/
def All (property : κ → α → Prop) (store : Store κ α) : Prop :=
  ∀ key value, store.get key = some value → property key value

theorem all_empty (property : κ → α → Prop) : (empty : Store κ α).All property :=
  fun _ _ found => nomatch found

theorem All.of_mem_values {property : α → Prop} {store : Store κ α}
    (all : store.All fun _ => property) {value : α} (member : value ∈ store.values) : property value := by
  obtain ⟨key, found⟩ := (store.mem_values_iff value).mp member
  exact all key value found

theorem All.set {property : κ → α → Prop} {store : Store κ α} (all : store.All property) {key : κ}
    {value : α} (holds : property key value) : (store.set key value).All property := by
  intro other found stored
  rcases of_get_set stored with ⟨rfl, rfl⟩ | earlier
  · exact holds
  · exact all other found earlier

theorem All.delete {property : κ → α → Prop} {store : Store κ α} (all : store.All property) (key : κ) :
    (store.delete key).All property := by
  classical
  intro other found stored
  rw [get_delete] at stored
  split_ifs at stored
  exact all other found stored

/-- **Writing a list of entries** keeps what all of them have. -/
theorem All.foldl_set {property : κ → α → Prop} {store : Store κ α} (all : store.All property)
    {pairs : List (κ × α)} (each : ∀ pair ∈ pairs, property pair.1 pair.2) :
    (pairs.foldl (fun current pair => current.set pair.1 pair.2) store).All property := by
  intro key value found
  rcases mem_of_get_foldl_set found with earlier | written
  · exact all key value earlier
  · exact each (key, value) written

/-- **A store sorts what is written into it**: the entries of a strictly sorted list, in whatever order
they are written. -/
theorem entries_foldl_set {pairs target : List (κ × α)}
    (order : target.Pairwise fun first second => first.1 < second.1)
    (same : ∀ pair, pair ∈ pairs ↔ pair ∈ target) :
    (pairs.foldl (fun current pair => current.set pair.1 pair.2) empty).entries = target := by
  have members : ∀ pair : κ × α,
      pair ∈ (pairs.foldl (fun current pair => current.set pair.1 pair.2) empty).entries ↔
        pair ∈ target := by
    rintro ⟨key, value⟩
    rw [mem_entries_iff]
    constructor
    · intro found
      rcases mem_of_get_foldl_set found with earlier | written
      · cases earlier
      · exact (same _).mp written
    · intro member
      obtain ⟨value', member', found⟩ := exists_of_mem_foldl_set empty
        (List.mem_map_of_mem (f := Prod.fst) ((same (key, value)).mpr member))
      -- a strictly sorted list has one value under a key
      have unique := (List.pairwise_map.mpr (order.imp ne_of_lt) : (target.map Prod.fst).Nodup)
      have equal := List.inj_on_of_nodup_map unique member ((same _).mp member') rfl
      rw [found, (Prod.mk.inj equal).2]
  have perm := (List.perm_ext_iff_of_nodup (entries_nodup _)
    (order.imp fun below same => below.ne (congrArg Prod.fst same))).mpr members
  exact perm.eq_of_pairwise (fun _ _ _ _ below above => absurd below (lt_asymm above))
    (Store.sorted _) order

end Store

end NabBridge
