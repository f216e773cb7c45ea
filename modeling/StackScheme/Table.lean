/-! A finite table from keys to values, kept in the order in which the keys arrived. Setting a key
that is present replaces its value in place, so a table holds every key at most once. -/
namespace StackScheme

structure Table (κ : Type) (ν : Type) where
  entries : List (κ × ν) := []
deriving DecidableEq

namespace Table
variable {κ ν : Type} [DecidableEq κ]

def lookup (key : κ) : List (κ × ν) → Option ν
  | [] => none
  | (other, value) :: rest => if other = key then some value else lookup key rest

def set (key : κ) (value : ν) : List (κ × ν) → List (κ × ν)
  | [] => [(key, value)]
  | (other, old) :: rest =>
    if other = key then (other, value) :: rest else (other, old) :: set key value rest

def find? (table : Table κ ν) (key : κ) : Option ν :=
  lookup key table.entries

def insert (table : Table κ ν) (key : κ) (value : ν) : Table κ ν :=
  ⟨set key value table.entries⟩

def ofList (entries : List (κ × ν)) : Table κ ν :=
  entries.foldl (fun table entry => table.insert entry.1 entry.2) {}

def size (table : Table κ ν) : Nat :=
  table.entries.length

theorem lookup_set (key other : κ) (value : ν) (entries : List (κ × ν)) :
    lookup other (set key value entries) =
      if key = other then some value else lookup other entries := by
  induction entries with
  | nil => simp [set, lookup]
  | cons entry rest ih => grind [set, lookup]

/-- A write is seen under its own key and nowhere else. -/
@[simp] theorem find?_insert (table : Table κ ν) (key other : κ) (value : ν) :
    (table.insert key value).find? other = if key = other then some value else table.find? other :=
  lookup_set ..

/-- The keys, in the order in which they arrived. -/
def keys (table : Table κ ν) : List κ :=
  table.entries.map Prod.fst

/-- The values, in the order of their keys. -/
def values (table : Table κ ν) : List ν :=
  table.entries.map Prod.snd

theorem mem_of_lookup {key : κ} {value : ν} {entries : List (κ × ν)}
    (found : lookup key entries = some value) : (key, value) ∈ entries := by
  induction entries with
  | nil => contradiction
  | cons entry rest ih => grind [lookup]

theorem lookup_eq_none_iff {key : κ} {entries : List (κ × ν)} :
    lookup key entries = none ↔ key ∉ entries.map Prod.fst := by
  induction entries with
  | nil => simp [lookup]
  | cons entry rest ih => grind [lookup]

theorem find?_eq_none_iff {table : Table κ ν} {key : κ} :
    table.find? key = none ↔ key ∉ table.keys :=
  lookup_eq_none_iff

theorem mem_keys_iff {table : Table κ ν} {key : κ} :
    key ∈ table.keys ↔ ∃ value, table.find? key = some value := by
  have absent : table.find? key = none ↔ key ∉ table.keys := find?_eq_none_iff
  cases found : table.find? key with
  | none => simp [absent.mp found]
  | some value => simpa [found] using absent

theorem mem_keys_insert {table : Table κ ν} {key other : κ} {value : ν} :
    other ∈ (table.insert key value).keys ↔ other ∈ table.keys ∨ other = key := by
  simp only [mem_keys_iff, find?_insert]
  by_cases same : key = other
  · simp [same]
  · simp [same, eq_comm]

theorem set_new {key : κ} {entries : List (κ × ν)} (absent : lookup key entries = none)
    (value : ν) : set key value entries = entries ++ [(key, value)] := by
  induction entries with
  | nil => rfl
  | cons entry rest ih => grind [lookup, set]

/-- A new key and its value come last. -/
theorem insert_new {table : Table κ ν} {key : κ} (absent : table.find? key = none) (value : ν) :
    (table.insert key value).keys = table.keys ++ [key] ∧
      (table.insert key value).values = table.values ++ [value] := by
  simp only [insert, keys, values, set_new absent, List.map_append]
  exact ⟨rfl, rfl⟩

theorem set_set (key : κ) (value later : ν) (entries : List (κ × ν)) :
    set key later (set key value entries) = set key later entries := by
  induction entries with
  | nil => simp [set]
  | cons entry rest ih => grind [set]

/-- Of two writes under one key the later one counts. -/
theorem insert_insert (table : Table κ ν) (key : κ) (value later : ν) :
    (table.insert key value).insert key later = table.insert key later := by
  simp only [insert, set_set]

theorem mem_values_of_find? {table : Table κ ν} {key : κ} {value : ν}
    (found : table.find? key = some value) : value ∈ table.values :=
  List.mem_map.mpr ⟨_, mem_of_lookup found, rfl⟩

theorem mem_set {key : κ} {value : ν} {entries : List (κ × ν)} {other : ν}
    (member : other ∈ (set key value entries).map Prod.snd) :
    other ∈ entries.map Prod.snd ∨ other = value := by
  induction entries with
  | nil => simpa [set] using member
  | cons entry rest ih => grind [set]

/-- A write brings in no value but its own. -/
theorem mem_values_insert {table : Table κ ν} {key : κ} {value other : ν}
    (member : other ∈ (table.insert key value).values) : other ∈ table.values ∨ other = value :=
  mem_set member

@[simp] theorem find?_empty (key : κ) : ({} : Table κ ν).find? key = none := rfl

end Table
end StackScheme
