import Mathlib.Data.List.Nodup

/-! Finite maps whose keys are read off the stored values: a list of values in
which no two have the same key. Enumeration follows the order of insertion. -/
namespace FmClient.Lib
variable {α κ : Type*} {key : α → κ}

structure KeyedList (key : α → κ) where
  entries : List α
  nodup : (entries.map key).Nodup

namespace KeyedList

instance : Membership α (KeyedList key) := ⟨fun m x => x ∈ m.entries⟩

theorem mem_def {m : KeyedList key} {x : α} : x ∈ m ↔ x ∈ m.entries := Iff.rfl

def keys (m : KeyedList key) : List κ := m.entries.map key

def empty : KeyedList key := ⟨[], List.nodup_nil⟩

@[simp] theorem not_mem_empty (x : α) : x ∉ (empty : KeyedList key) := List.not_mem_nil

@[simp] theorem keys_empty : (empty : KeyedList key).keys = [] := rfl

theorem mem_keys {m : KeyedList key} {k : κ} : k ∈ m.keys ↔ ∃ x ∈ m, key x = k :=
  List.mem_map

theorem key_mem_keys {m : KeyedList key} {x : α} (hx : x ∈ m) : key x ∈ m.keys :=
  mem_keys.mpr ⟨x, hx, rfl⟩

theorem eq_of_key_eq {m : KeyedList key} {x y : α} (hx : x ∈ m) (hy : y ∈ m)
    (h : key x = key y) : x = y :=
  List.inj_on_of_nodup_map m.nodup hx hy h

def mapValues (m : KeyedList key) (f : α → α) (hf : ∀ x, key (f x) = key x) : KeyedList key :=
  ⟨m.entries.map f, by simpa [Function.comp_def, hf] using m.nodup⟩

theorem mem_mapValues {m : KeyedList key} {f : α → α} {hf : ∀ x, key (f x) = key x} {y : α} :
    y ∈ m.mapValues f hf ↔ ∃ x ∈ m, f x = y := List.mem_map

@[simp] theorem keys_mapValues {m : KeyedList key} {f : α → α} {hf : ∀ x, key (f x) = key x} :
    (m.mapValues f hf).keys = m.keys := by
  simp [keys, mapValues, Function.comp_def, hf]

def insertNew (m : KeyedList key) (x : α) (hx : key x ∉ m.keys) : KeyedList key :=
  ⟨m.entries ++ [x], by
    rw [List.map_append, List.nodup_append]
    refine ⟨m.nodup, by simp, ?_⟩
    rintro a ha b hb rfl
    rw [List.map_singleton, List.mem_singleton] at hb
    exact hx (hb ▸ ha)⟩

@[simp] theorem mem_insertNew {m : KeyedList key} {x y : α} {hx : key x ∉ m.keys} :
    y ∈ m.insertNew x hx ↔ y ∈ m ∨ y = x := by
  simp [mem_def, insertNew]

@[simp] theorem keys_insertNew {m : KeyedList key} {x : α} {hx : key x ∉ m.keys} :
    (m.insertNew x hx).keys = m.keys ++ [key x] := by
  simp [keys, insertNew]

variable [DecidableEq κ]

def find (m : KeyedList key) (k : κ) : Option α := m.entries.find? fun x => key x = k

theorem find_eq_some {m : KeyedList key} {k : κ} {x : α} :
    m.find k = some x ↔ x ∈ m ∧ key x = k := by
  constructor
  · intro h
    exact ⟨List.mem_of_find?_eq_some h, by simpa using List.find?_some h⟩
  · rintro ⟨hx, rfl⟩
    cases hf : m.find (key x) with
    | none => simpa using List.find?_eq_none.mp hf x hx
    | some y =>
      have hy : key y = key x := by simpa using List.find?_some hf
      rw [eq_of_key_eq (List.mem_of_find?_eq_some hf) hx hy]

theorem find_eq_none {m : KeyedList key} {k : κ} : m.find k = none ↔ k ∉ m.keys := by
  simp [find, keys, List.find?_eq_none]

def erase (m : KeyedList key) (k : κ) : KeyedList key :=
  ⟨m.entries.filter fun x => key x ≠ k, List.Nodup.sublist
    (List.Sublist.map key List.filter_sublist) m.nodup⟩

@[simp] theorem mem_erase {m : KeyedList key} {k : κ} {x : α} :
    x ∈ m.erase k ↔ x ∈ m ∧ key x ≠ k := by
  simp [mem_def, erase]

@[simp] theorem mem_keys_erase {m : KeyedList key} {k j : κ} :
    j ∈ (m.erase k).keys ↔ j ∈ m.keys ∧ j ≠ k := by
  simp only [mem_keys, mem_erase]
  constructor
  · rintro ⟨x, ⟨hx, hne⟩, rfl⟩
    exact ⟨⟨x, hx, rfl⟩, hne⟩
  · rintro ⟨⟨x, hx, rfl⟩, hne⟩
    exact ⟨x, ⟨hx, hne⟩, rfl⟩

end KeyedList
end FmClient.Lib
