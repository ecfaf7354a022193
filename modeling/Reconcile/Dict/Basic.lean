import Reconcile.Dict.Entries

/-!
# Dictionaries in the order of their keys

A `Dict` binds texts to values, each text at most once, and lists its entries in the order of
their keys. Texts are ordered by code point, which is also the order of their UTF-8 bytes. Every
operation is described by its effect on `get?`, and `ext_get?` says that dictionaries with the
same bindings are equal.
-/

namespace Reconcile

/-- A finite map from texts to values, listed in ascending order of its keys. -/
structure Dict (α : Type) where
  entries : List (String × α)
  ascending : Entries.Ascending entries
  deriving DecidableEq

namespace Dict

variable {α β : Type}

/-- The dictionary without entries. -/
def empty : Dict α := ⟨[], List.Pairwise.nil⟩

instance : EmptyCollection (Dict α) := ⟨empty⟩

instance : Inhabited (Dict α) := ⟨empty⟩

/-- The value bound to a key. -/
def get? (d : Dict α) (key : String) : Option α := d.entries.lookup key

/-- Whether a key is bound. -/
def contains (d : Dict α) (key : String) : Bool := (d.get? key).isSome

/-- The dictionary in which `key` is bound to `value`. -/
def insert (d : Dict α) (key : String) (value : α) : Dict α :=
  ⟨Entries.insert key value d.entries, d.ascending.insert key value⟩

/-- The dictionary in which `key` is not bound. -/
def erase (d : Dict α) (key : String) : Dict α :=
  ⟨Entries.erase key d.entries, d.ascending.erase key⟩

/-- Whether there are no bindings. -/
def isEmpty (d : Dict α) : Bool := d.entries.isEmpty

/-- The keys in ascending order. -/
def keys (d : Dict α) : List String := d.entries.map (·.1)

/-- The bindings that satisfy `p`. -/
def filter (p : String → α → Bool) (d : Dict α) : Dict α :=
  ⟨d.entries.filter fun (k, v) => p k v, d.ascending.filter _⟩

/-- The bindings of a list of entries; of two entries of one key the later one counts. -/
def ofList (entries : List (String × α)) : Dict α :=
  entries.foldl (fun d (k, v) => d.insert k v) empty

/-- The bindings of both dictionaries; those of `e` win. -/
def union (d e : Dict α) : Dict α :=
  e.entries.foldl (fun d (k, v) => d.insert k v) d

/-- Dictionaries with the same bindings are equal. -/
theorem ext_get? {d e : Dict α} (hget : ∀ k, d.get? k = e.get? k) : d = e := by
  obtain ⟨ds, hds⟩ := d
  obtain ⟨es, hes⟩ := e
  obtain rfl := hds.ext hes hget
  rfl

@[simp]
theorem get?_empty (k : String) : (empty : Dict α).get? k = none := rfl

/-- An insertion binds its key and no other one. -/
theorem get?_insert (d : Dict α) (key k : String) (value : α) :
    (d.insert key value).get? k = if k = key then some value else d.get? k :=
  Entries.lookup_insert key k value d.entries

/-- Erasing a key removes its binding and no other one. -/
theorem get?_erase (d : Dict α) (key k : String) :
    (d.erase key).get? k = if k = key then none else d.get? k :=
  Entries.lookup_erase key k d.entries

end Dict

end Reconcile
