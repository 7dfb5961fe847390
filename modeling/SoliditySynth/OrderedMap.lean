namespace SoliditySynth

/-- A finite map as the list of its entries, oldest key first. -/
structure OrderedMap (κ α : Type) where
  entries : List (κ × α)
  keys_nodup : (entries.map Prod.fst).Nodup
deriving DecidableEq

namespace OrderedMap

variable {κ α : Type}

def empty : OrderedMap κ α := ⟨[], by simp⟩

def keys (m : OrderedMap κ α) : List κ := m.entries.map Prod.fst

def size (m : OrderedMap κ α) : Nat := m.entries.length

def isEmpty (m : OrderedMap κ α) : Bool := m.entries.isEmpty

theorem nodup_keys (m : OrderedMap κ α) : m.keys.Nodup := m.keys_nodup

@[simp] theorem length_keys (m : OrderedMap κ α) : m.keys.length = m.size := by
  simp [keys, size]

@[ext] theorem ext {m m' : OrderedMap κ α} (h : m.entries = m'.entries) : m = m' := by
  cases m
  cases m'
  cases h
  rfl

variable [DecidableEq κ]

def lookup (k : κ) : List (κ × α) → Option α
  | [] => none
  | e :: es => if e.1 = k then some e.2 else lookup k es

/-- Replaces the value of the first entry with key `k`, or adds the entry at the end. -/
def write (k : κ) (v : α) : List (κ × α) → List (κ × α)
  | [] => [(k, v)]
  | e :: es => if e.1 = k then (k, v) :: es else e :: write k v es

theorem map_fst_write (k : κ) (v : α) (es : List (κ × α)) :
    (write k v es).map Prod.fst =
      if k ∈ es.map Prod.fst then es.map Prod.fst else es.map Prod.fst ++ [k] := by
  induction es with
  | nil => simp [write]
  | cons e es ih => grind [write]

theorem nodup_write {k : κ} {v : α} {es : List (κ × α)} (h : (es.map Prod.fst).Nodup) :
    ((write k v es).map Prod.fst).Nodup := by
  rw [map_fst_write]
  split
  · exact h
  · simp_all [List.nodup_append]
    grind

def find? (m : OrderedMap κ α) (k : κ) : Option α := lookup k m.entries

def contains (m : OrderedMap κ α) (k : κ) : Bool := (m.find? k).isSome

def insert (m : OrderedMap κ α) (k : κ) (v : α) : OrderedMap κ α :=
  ⟨write k v m.entries, nodup_write m.keys_nodup⟩

theorem keys_insert (m : OrderedMap κ α) (k : κ) (v : α) :
    (m.insert k v).keys = if k ∈ m.keys then m.keys else m.keys ++ [k] :=
  map_fst_write k v m.entries

theorem lookup_write (k l : κ) (v : α) (es : List (κ × α)) :
    lookup l (write k v es) = if k = l then some v else lookup l es := by
  induction es with
  | nil => rfl
  | cons e es ih => grind [lookup, write]

theorem find?_insert (m : OrderedMap κ α) (k l : κ) (v : α) :
    (m.insert k v).find? l = if k = l then some v else m.find? l :=
  lookup_write k l v m.entries

@[simp] theorem find?_insert_self (m : OrderedMap κ α) (k : κ) (v : α) :
    (m.insert k v).find? k = some v := by
  simp [find?_insert]

theorem write_of_notMem {k : κ} (v : α) {es : List (κ × α)} (h : k ∉ es.map Prod.fst) :
    write k v es = es ++ [(k, v)] := by
  induction es with
  | nil => rfl
  | cons e es ih =>
    simp only [List.map_cons, List.mem_cons, not_or] at h
    rw [write, if_neg (Ne.symm h.1), ih h.2]
    rfl

theorem write_write (k : κ) (u v : α) (es : List (κ × α)) :
    write k v (write k u es) = write k v es := by
  induction es with
  | nil => simp [write]
  | cons e es ih =>
    by_cases h : e.1 = k
    · simp [write, h]
    · simp [write, h, ih]

theorem write_of_lookup {k : κ} {v : α} {es : List (κ × α)} (h : lookup k es = some v) :
    write k v es = es := by
  induction es with
  | nil => cases h
  | cons e es ih =>
    rw [lookup] at h
    rw [write]
    split at h
    · next he =>
      rw [if_pos he, ← he, ← Option.some.inj h]
    · next he => rw [if_neg he, ih h]

theorem entries_insert_of_notMem {m : OrderedMap κ α} {k : κ} (h : k ∉ m.keys) (v : α) :
    (m.insert k v).entries = m.entries ++ [(k, v)] :=
  write_of_notMem v h

theorem insert_insert (m : OrderedMap κ α) (k : κ) (u v : α) :
    (m.insert k u).insert k v = m.insert k v :=
  ext (write_write k u v m.entries)

theorem insert_of_find? {m : OrderedMap κ α} {k : κ} {v : α} (h : m.find? k = some v) :
    m.insert k v = m :=
  ext (write_of_lookup h)

theorem mem_keys_of_find? {m : OrderedMap κ α} {k : κ} {v : α} (h : m.find? k = some v) :
    k ∈ m.keys := by
  have hk := m.keys_insert k v
  rw [insert_of_find? h] at hk
  by_cases hmem : k ∈ m.keys
  · exact hmem
  · rw [if_neg hmem] at hk
    simp at hk

theorem lookup_eq_none {k : κ} {es : List (κ × α)} (h : lookup k es = none) :
    k ∉ es.map Prod.fst := by
  induction es with
  | nil => simp
  | cons e es ih =>
    rw [lookup] at h
    split at h
    · cases h
    · next he =>
      rw [List.map_cons, List.mem_cons, not_or]
      exact ⟨Ne.symm he, ih h⟩

theorem mem_keys_iff {m : OrderedMap κ α} {k : κ} : k ∈ m.keys ↔ ∃ v, m.find? k = some v := by
  constructor
  · intro h
    cases hfind : m.find? k with
    | none => exact absurd h (lookup_eq_none hfind)
    | some v => exact ⟨v, rfl⟩
  · rintro ⟨v, hfind⟩
    exact mem_keys_of_find? hfind

theorem contains_eq_false_iff {m : OrderedMap κ α} {k : κ} :
    m.contains k = false ↔ k ∉ m.keys := by
  rw [contains, Option.isSome_eq_false_iff, Option.isNone_iff_eq_none, mem_keys_iff, not_exists,
    Option.eq_none_iff_forall_ne_some]

end OrderedMap

end SoliditySynth
