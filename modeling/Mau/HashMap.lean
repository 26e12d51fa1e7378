import Mathlib.Data.List.Nodup

/-! # Hash maps

`std::collections::HashMap` holds the storage of every contract in the fuzz input's staged
state, and the errors and events the decompiler finds in a function. The code iterates these
maps, looks keys up, and overwrites the value at a key it has just read. A map is modelled by
its entries in iteration order with each key once (`HashMap.nodup_keys`); Rust leaves that
order unspecified, and no law of the development depends on it.

`HashMap.get_eq_some_iff` relates lookups to entries, `HashMap.keys_insert_of_mem` says that
overwriting a present key changes no key, and `HashMap.mem_entries_insert` that an insert adds
no entry but the inserted one.
-/

namespace Mau

/-- A `HashMap`: its entries in iteration order, no key twice. -/
structure HashMap (κ ν : Type) where
  entries : List (κ × ν)
  nodup_keys : (entries.map Prod.fst).Nodup
  deriving DecidableEq

namespace HashMap

variable {κ ν : Type} [DecidableEq κ]

/-- `HashMap::new()`. -/
def empty : HashMap κ ν := ⟨[], List.nodup_nil⟩

/-- The keys in iteration order. -/
def keys (map : HashMap κ ν) : List κ := map.entries.map Prod.fst

/-- `HashMap::len`. -/
def len (map : HashMap κ ν) : Nat := map.entries.length

/-- `HashMap::get`. -/
def get (map : HashMap κ ν) (key : κ) : Option ν := map.entries.lookup key

/-- The entries with the value at `key` overwritten in place. -/
def overwrite (entries : List (κ × ν)) (key : κ) (value : ν) : List (κ × ν) :=
  entries.map fun entry => if entry.1 = key then (key, value) else entry

theorem keys_overwrite (entries : List (κ × ν)) (key : κ) (value : ν) :
    (overwrite entries key value).map Prod.fst = entries.map Prod.fst := by
  simp only [overwrite, List.map_map]
  exact List.map_congr_left fun entry _ => by by_cases same : entry.1 = key <;> simp [same]

/-- Overwriting a key with a value that agrees, under `view`, with every entry at that key
leaves the entries' views as they were. -/
theorem map_overwrite {ρ : Type} (view : κ × ν → ρ) (entries : List (κ × ν)) (key : κ)
    (value : ν) (agrees : ∀ entry ∈ entries, entry.1 = key → view (key, value) = view entry) :
    (overwrite entries key value).map view = entries.map view := by
  simp only [overwrite, List.map_map]
  refine List.map_congr_left fun entry member => ?_
  by_cases same : entry.1 = key
  · simp [same, agrees entry member same]
  · simp [same]

/-- `HashMap::insert`: a present key keeps its place and takes the new value; a new key is
added after the others. -/
def insert (map : HashMap κ ν) (key : κ) (value : ν) : HashMap κ ν :=
  if present : key ∈ map.keys then
    ⟨overwrite map.entries key value, by rw [keys_overwrite]; exact map.nodup_keys⟩
  else
    ⟨map.entries ++ [(key, value)], by
      simp only [List.map_append, List.map_cons, List.map_nil]
      exact map.nodup_keys.append (List.nodup_singleton key) fun _ member single =>
        present (List.mem_singleton.mp single ▸ member)⟩

theorem entries_insert_of_mem {map : HashMap κ ν} {key : κ} (present : key ∈ map.keys)
    (value : ν) : (map.insert key value).entries = overwrite map.entries key value := by
  simp [insert, present]

/-- Overwriting a present key changes no key and no key's place. -/
theorem keys_insert_of_mem {map : HashMap κ ν} {key : κ} (present : key ∈ map.keys)
    (value : ν) : (map.insert key value).keys = map.keys := by
  rw [keys, entries_insert_of_mem present, keys_overwrite, keys]

/-- An entry after an insert was there before, or is the inserted one. -/
theorem mem_entries_insert {map : HashMap κ ν} {key : κ} {value : ν} {entry : κ × ν}
    (member : entry ∈ (map.insert key value).entries) :
    entry ∈ map.entries ∨ entry = (key, value) := by
  unfold insert at member
  split at member
  · obtain ⟨original, present, rfl⟩ := List.mem_map.mp member
    by_cases same : original.1 = key
    · exact Or.inr (if_pos same)
    · exact Or.inl (by rwa [if_neg same])
  · simpa using member

/-- Inserting at a key keeps every entry at another key. -/
theorem mem_entries_insert_of_ne {map : HashMap κ ν} {key : κ} {value : ν} {entry : κ × ν}
    (member : entry ∈ map.entries) (other : entry.1 ≠ key) :
    entry ∈ (map.insert key value).entries := by
  unfold insert
  split
  · exact List.mem_map.mpr ⟨entry, member, if_neg other⟩
  · exact List.mem_append_left _ member

omit [DecidableEq κ] in
/-- A key has one value. -/
theorem mem_entries_unique {map : HashMap κ ν} {key : κ} {first second : ν}
    (firstMember : (key, first) ∈ map.entries) (secondMember : (key, second) ∈ map.entries) :
    first = second :=
  congrArg Prod.snd (List.inj_on_of_nodup_map map.nodup_keys firstMember secondMember rfl)

omit [DecidableEq κ] in
/-- A map is its entries. -/
theorem ext {first second : HashMap κ ν} (same : first.entries = second.entries) :
    first = second := by
  cases first
  cases second
  cases same
  rfl

/-- The map with each value replaced by a function of its key and value; keys keep their
places. -/
def mapValues (map : HashMap κ ν) (update : κ → ν → ν) : HashMap κ ν :=
  ⟨map.entries.map fun entry => (entry.1, update entry.1 entry.2), by
    simpa only [List.map_map, Function.comp_def] using map.nodup_keys⟩

/-- The entries with the value at each of the given keys updated. -/
def updateOn (keys : List κ) (update : κ → ν → ν) (entries : List (κ × ν)) :
    List (κ × ν) :=
  entries.map fun entry => if entry.1 ∈ keys then (entry.1, update entry.1 entry.2) else entry

variable {keys : List κ} {update : κ → ν → ν} {entries : List (κ × ν)} {key : κ}

theorem updateOn_nil : updateOn [] update entries = entries := by
  simp [updateOn]

theorem updateOn_of_forall_mem (all : ∀ entry ∈ entries, entry.1 ∈ keys) :
    updateOn keys update entries = entries.map fun entry => (entry.1, update entry.1 entry.2) :=
  List.map_congr_left fun entry member => if_pos (all entry member)

/-- Overwriting `key` with the value `update` gives there, then updating the other keys, updates
`key` and the other keys. -/
theorem updateOn_overwrite {value : ν} (fresh : key ∉ keys)
    (agrees : ∀ old, (key, old) ∈ entries → update key old = value) :
    updateOn keys update (overwrite entries key value) = updateOn (key :: keys) update entries := by
  simp only [updateOn, overwrite, List.map_map]
  refine List.map_congr_left fun entry member => ?_
  by_cases same : entry.1 = key
  · obtain ⟨first, old⟩ := entry
    simp only at same
    subst same
    simp [fresh, agrees old member]
  · simp [same]

/-- A key whose update keeps its value may be counted among the updated keys. -/
theorem updateOn_cons_of_fixed (fixed : ∀ old, (key, old) ∈ entries → update key old = old) :
    updateOn (key :: keys) update entries = updateOn keys update entries := by
  refine List.map_congr_left fun entry member => ?_
  by_cases same : entry.1 = key
  · obtain ⟨first, old⟩ := entry
    simp only at same
    subst same
    simp [fixed old member]
  · simp [same]

/-- A lookup succeeds with exactly the values the map holds. -/
theorem get_eq_some_iff (map : HashMap κ ν) (key : κ) (value : ν) :
    map.get key = some value ↔ (key, value) ∈ map.entries := by
  obtain ⟨entries, nodup⟩ := map
  simp only [get]
  induction entries with
  | nil => simp
  | cons head rest ih =>
    obtain ⟨headKey, headValue⟩ := head
    simp only [List.map_cons, List.nodup_cons, List.mem_map] at nodup
    by_cases same : key = headKey
    · subst same
      have absent : ∀ other, (key, other) ∉ rest := fun other member =>
        nodup.1 ⟨(key, other), member, rfl⟩
      simp [absent value, eq_comm]
    · have differ : (key == headKey) = false := by simpa using same
      simp [List.lookup_cons, differ, ih nodup.2, same]

end HashMap

end Mau
