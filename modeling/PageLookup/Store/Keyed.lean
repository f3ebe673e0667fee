import PageLookup.Ascending

/-!
# Finite maps keyed by text

The entries are in ascending key order, so two maps are equal exactly when
they hold the same values under the same keys, and listings need no sorting.
-/

set_option autoImplicit false

namespace PageLookup

structure Keyed (α : Type) where
  entries : List (String × α)
  ascending : Ascending entries
  deriving DecidableEq

namespace Keyed

variable {α : Type}

def empty : Keyed α := ⟨[], .nil⟩

def keys (m : Keyed α) : List String := m.entries.map Prod.fst

def values (m : Keyed α) : List α := m.entries.map Prod.snd

def get? (m : Keyed α) (k : String) : Option α := m.entries.lookup k

def insert (m : Keyed α) (k : String) (v : α) : Keyed α :=
  ⟨Ascending.put k v m.entries, Ascending.put_ascending k v _ m.ascending⟩

/-- Of two entries with one key the later holds. -/
def ofList (entries : List (String × α)) : Keyed α :=
  entries.foldl (fun m e => m.insert e.1 e.2) empty

@[simp] theorem get?_empty (k : String) : (empty : Keyed α).get? k = none := rfl

theorem get?_insert_self (m : Keyed α) (k : String) (v : α) : (m.insert k v).get? k = some v :=
  Ascending.lookup_put_self k v m.entries

theorem get?_insert_of_ne (m : Keyed α) (k : String) (v : α) (x : String) (h : x ≠ k) :
    (m.insert k v).get? x = m.get? x :=
  Ascending.lookup_put_of_ne k v m.entries x h

theorem get?_insert (m : Keyed α) (k : String) (v : α) (x : String) :
    (m.insert k v).get? x = if x = k then some v else m.get? x := by
  split
  · rename_i h
    rw [h, get?_insert_self]
  · rename_i h
    exact get?_insert_of_ne m k v x h

theorem mem_keys_insert (m : Keyed α) (k : String) (v : α) (x : String) :
    x ∈ (m.insert k v).keys ↔ x = k ∨ x ∈ m.keys :=
  Ascending.mem_keys_put k v m.entries x

theorem keys_ascending (m : Keyed α) : m.keys.Pairwise (· < ·) := m.ascending

theorem get?_isSome_iff (m : Keyed α) (k : String) : (m.get? k).isSome = true ↔ k ∈ m.keys := by
  simp [get?, keys, List.lookup_isSome_iff]

theorem get?_eq_some_iff (m : Keyed α) (k : String) (v : α) :
    m.get? k = some v ↔ (k, v) ∈ m.entries :=
  Ascending.lookup_eq_some_iff m.entries m.ascending k v

theorem mem_values_iff (m : Keyed α) (v : α) : v ∈ m.values ↔ ∃ k, m.get? k = some v := by
  simp [values, get?_eq_some_iff]

end Keyed

end PageLookup
