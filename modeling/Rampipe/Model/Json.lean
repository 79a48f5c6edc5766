import Rampipe.Model.Text

/-!
# Rampipe — JSON values

`serde_json::Value` as the modelled code uses it. `Map` is `serde_json::Map`,
which without the `preserve_order` feature is a `BTreeMap`: members are kept
in key order, and inserting a key a second time replaces its value. A number
is kept as its literal.
-/

namespace Rampipe

/-! ## Ordered maps -/

/-- `BTreeMap<String, V>` as its entries in key order. -/
abbrev Map (V : Type) := List (Text × V)

namespace Map

variable {V : Type}

def insert (key : Text) (value : V) : Map V → Map V
  | [] => [(key, value)]
  | (k, v) :: rest =>
    if key < k then (key, value) :: (k, v) :: rest
    else if key = k then (key, value) :: rest
    else (k, v) :: insert key value rest

def get (key : Text) : Map V → Option V
  | [] => none
  | (k, v) :: rest => if key = k then some v else get key rest

/-- Inserts the entries one after another, as the parsers do. -/
def ofEntries (entries : List (Text × V)) : Map V :=
  entries.foldl (fun map (key, value) => map.insert key value) []

/-- Keys strictly increase. -/
def Ordered (map : Map V) : Prop := map.Pairwise fun a b => a.1 < b.1

instance (map : Map V) : Decidable map.Ordered :=
  inferInstanceAs (Decidable (map.Pairwise fun a b => a.1 < b.1))

@[simp] theorem get_insert_self (key : Text) (value : V) (map : Map V) :
    get key (insert key value map) = some value := by
  induction map with
  | nil => simp [insert, get]
  | cons entry rest ih =>
    obtain ⟨k, v⟩ := entry
    rw [insert]
    split_ifs with hLt hEq
    · simp [get]
    · simp [get]
    · rw [get, if_neg hEq, ih]

theorem get_insert_of_ne {key key' : Text} (h : key ≠ key') (value : V) (map : Map V) :
    get key (insert key' value map) = get key map := by
  induction map with
  | nil => simp [insert, get, h]
  | cons entry rest ih =>
    obtain ⟨k, v⟩ := entry
    rw [insert]
    split_ifs with hLt hEq
    · rw [get, if_neg h]
    · subst hEq
      rw [get, get, if_neg h, if_neg h]
    · rw [get, get, ih]

theorem mem_insert {key : Text} {value : V} {map : Map V} {entry : Text × V}
    (h : entry ∈ insert key value map) : entry = (key, value) ∨ entry ∈ map := by
  induction map with
  | nil => exact Or.inl (by simpa [insert] using h)
  | cons head rest ih =>
    obtain ⟨k, v⟩ := head
    rw [insert] at h
    split_ifs at h with hLt hEq
    · simpa using h
    · rcases List.mem_cons.mp h with h | h
      · exact Or.inl h
      · exact Or.inr (List.mem_cons_of_mem _ h)
    · rcases List.mem_cons.mp h with h | h
      · exact Or.inr (h ▸ List.mem_cons_self)
      · exact (ih h).imp_right (List.mem_cons_of_mem _)

/-- Entries inserted under other keys leave a key's value alone. -/
theorem get_foldl_insert {key : Text} {entries : List (Text × V)} (h : key ∉ entries.map Prod.fst)
    (map : Map V) :
    get key (entries.foldl (fun map (key, value) => map.insert key value) map) = get key map := by
  induction entries generalizing map with
  | nil => rfl
  | cons entry rest ih =>
    rw [List.map_cons, List.mem_cons, not_or] at h
    rw [List.foldl_cons, ih h.2, get_insert_of_ne h.1]

/-- With distinct keys every entry is found under its key. -/
theorem get_ofEntries {entries : List (Text × V)} (hNodup : (entries.map Prod.fst).Nodup)
    {key : Text} {value : V} (h : (key, value) ∈ entries) : get key (ofEntries entries) = some value := by
  suffices hMap : ∀ map : Map V,
      get key (entries.foldl (fun map (key, value) => map.insert key value) map) = some value from
    hMap []
  induction entries with
  | nil => cases h
  | cons entry rest ih =>
    intro map
    rw [List.map_cons, List.nodup_cons] at hNodup
    rw [List.foldl_cons]
    -- the entry is this one, and no later one replaces it, or it is still to come
    rcases List.mem_cons.mp h with rfl | hMem
    · rw [get_foldl_insert hNodup.1, get_insert_self]
    · exact ih hNodup.2 hMem _

/-- Inserting past every key appends. -/
theorem insert_of_lt {key : Text} {map : Map V} (h : ∀ entry ∈ map, entry.1 < key) (value : V) :
    insert key value map = map ++ [(key, value)] := by
  induction map with
  | nil => rfl
  | cons head rest ih =>
    obtain ⟨k, v⟩ := head
    have hk : k < key := h _ List.mem_cons_self
    have hNe : key ≠ k := by
      rintro rfl
      exact List.lt_irrefl key hk
    rw [insert, if_neg (List.lt_asymm hk), if_neg hNe,
      ih (fun entry hEntry => h entry (List.mem_cons_of_mem _ hEntry)), List.cons_append]

/-- A map's entries in key order are the map. -/
theorem ofEntries_of_ordered {entries : Map V} (h : entries.Ordered) : ofEntries entries = entries := by
  suffices hMap : ∀ map : Map V, (map ++ entries).Pairwise (fun a b => a.1 < b.1) →
      entries.foldl (fun map (key, value) => map.insert key value) map = map ++ entries from
    hMap [] h
  clear h
  induction entries with
  | nil => simp
  | cons entry rest ih =>
    intro map hPair
    obtain ⟨k, v⟩ := entry
    -- the entry at hand comes after all that are already in
    have hLt : ∀ entry ∈ map, entry.1 < k := by
      intro entry hEntry
      exact (List.pairwise_append.mp hPair).2.2 entry hEntry (k, v) List.mem_cons_self
    rw [List.foldl_cons]
    show rest.foldl _ (map.insert k v) = _
    rw [insert_of_lt hLt, ih, List.append_assoc]
    · rfl
    · rwa [List.append_assoc]

end Map

/-! ## Values -/

inductive Json
  | null
  | bool (value : Bool)
  | number (literal : Text)
  | string (value : Text)
  | array (items : List Json)
  | object (members : List (Text × Json))

namespace Json

/-- A `json!({ ... })` object. -/
def obj (members : List (Text × Json)) : Json := .object (Map.ofEntries members)

def asStr : Json → Option Text
  | .string value => some value
  | _ => none

def asObject : Json → Option (Map Json)
  | .object members => some members
  | _ => none

/-- `value.get(key)` with a string index. -/
def get (key : Text) : Json → Option Json
  | .object members => Map.get key members
  | _ => none

/-- Every object in the value keeps its keys in order, as a `Map` does. -/
inductive Ordered : Json → Prop
  | null : Ordered .null
  | bool (value : Bool) : Ordered (.bool value)
  | number (literal : Text) : Ordered (.number literal)
  | string (value : Text) : Ordered (.string value)
  | array {items : List Json} : (∀ item ∈ items, Ordered item) → Ordered (.array items)
  | object {members : Map Json} : members.Ordered → (∀ member ∈ members, Ordered member.2) →
      Ordered (.object members)

end Json

end Rampipe
