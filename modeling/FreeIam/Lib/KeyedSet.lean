import Mathlib.Data.List.Induction
import Mathlib.Data.List.Nodup

/-!
# Sets by a key

A set of objects that are equal when their keys are, as the list of its members in
the order they came. The first of several equal objects is the one that stays.
-/

namespace FreeIam

/-- A set of objects with a key: no two members have the same. -/
structure KeyedSet {α κ : Type} (key : α → κ) where
  members : List α
  distinct : (members.map key).Nodup

namespace KeyedSet

variable {α κ : Type} {key : α → κ}

/-- The keys of the members. -/
def keys (s : KeyedSet key) : List κ := s.members.map key

/-- The empty set. -/
def empty : KeyedSet key := ⟨[], List.nodup_nil⟩

theorem mem_keys {s : KeyedSet key} {k : κ} : k ∈ s.keys ↔ ∃ x ∈ s.members, key x = k := List.mem_map

/-- A key has one member. -/
theorem member_unique {s : KeyedSet key} {x y : α} (hx : x ∈ s.members) (hy : y ∈ s.members)
    (h : key x = key y) : x = y :=
  List.inj_on_of_nodup_map s.distinct hx hy h

/-- The sets that are equal: each has the keys of the other. -/
def Same (s t : KeyedSet key) : Prop := ∀ k, k ∈ s.keys ↔ k ∈ t.keys

theorem distinct_append {s : KeyedSet key} {x : α} (h : key x ∉ s.keys) :
    ((s.members ++ [x]).map key).Nodup := by
  rw [List.map_append]
  exact List.nodup_append'.mpr ⟨s.distinct, List.nodup_singleton _, List.disjoint_singleton.mpr h⟩

section Operations

variable [DecidableEq κ]

/-- `s.add(x)`: an object whose key is there is not added. -/
def add (s : KeyedSet key) (x : α) : KeyedSet key :=
  if h : key x ∈ s.keys then s else ⟨s.members ++ [x], distinct_append h⟩

/-- The set of the objects of a list. -/
def ofList (xs : List α) : KeyedSet key := xs.foldl add empty

/-- `s - t` -/
def diff (s t : KeyedSet key) : KeyedSet key where
  members := s.members.filter fun x => decide (key x ∉ t.keys)
  distinct := s.distinct.sublist (List.filter_sublist.map key)

theorem members_add (s : KeyedSet key) (x : α) :
    (s.add x).members = if key x ∈ s.keys then s.members else s.members ++ [x] := by
  unfold add
  split <;> rfl

theorem mem_keys_add (s : KeyedSet key) (x : α) (k : κ) :
    k ∈ (s.add x).keys ↔ k ∈ s.keys ∨ k = key x := by
  unfold keys
  rw [members_add]
  split
  · rename_i h
    exact ⟨.inl, fun hk => hk.elim id fun hk => hk ▸ h⟩
  · simp

/-- The set of a list that grows. -/
theorem ofList_append (xs : List α) (x : α) :
    (ofList (xs ++ [x]) : KeyedSet key) = (ofList xs).add x := by
  unfold ofList
  rw [List.foldl_append]
  rfl

/-- The keys of a set are those of the list it was made of. -/
theorem mem_keys_ofList (xs : List α) (k : κ) :
    k ∈ (ofList xs : KeyedSet key).keys ↔ k ∈ xs.map key := by
  induction xs using List.reverseRecOn with
  | nil => rfl
  | append_singleton xs x ih =>
    rw [ofList_append, mem_keys_add, ih, List.map_append, List.mem_append]
    simp

/-- A member is the first of the list that has its key. -/
theorem find?_of_mem_ofList {xs : List α} {x : α} (h : x ∈ (ofList xs : KeyedSet key).members) :
    xs.find? (fun y => key y = key x) = some x := by
  induction xs using List.reverseRecOn with
  | nil => cases h
  | append_singleton xs y ih =>
    rw [ofList_append, members_add] at h
    rw [List.find?_append]
    split at h
    · rw [ih h]
      rfl
    · rename_i hnew
      rcases List.mem_append.mp h with hold | hlast
      · rw [ih hold]
        rfl
      · obtain rfl := List.mem_singleton.mp hlast
        have hnone : xs.find? (fun z => key z = key x) = none := by
          rw [List.find?_eq_none]
          intro z hz heq
          rw [mem_keys_ofList] at hnew
          exact hnew (of_decide_eq_true heq ▸ List.mem_map_of_mem hz)
        rw [hnone]
        simp

theorem mem_of_mem_ofList {xs : List α} {x : α} (h : x ∈ (ofList xs : KeyedSet key).members) : x ∈ xs :=
  List.mem_of_find?_eq_some (find?_of_mem_ofList h)

/-- The lists with the same keys make equal sets, in whatever order. -/
theorem same_ofList_iff {xs ys : List α} :
    (ofList xs : KeyedSet key).Same (ofList ys) ↔ ∀ k, k ∈ xs.map key ↔ k ∈ ys.map key := by
  unfold Same
  simp only [mem_keys_ofList]

/-- Objects with distinct keys all stay. -/
theorem members_ofList {xs : List α} (h : (xs.map key).Nodup) :
    (ofList xs : KeyedSet key).members = xs := by
  induction xs using List.reverseRecOn with
  | nil => rfl
  | append_singleton xs x ih =>
    rw [List.map_append] at h
    obtain ⟨hxs, -, hdisjoint⟩ := List.nodup_append'.mp h
    have hnew : key x ∉ (ofList xs : KeyedSet key).keys := by
      rw [mem_keys_ofList]
      exact fun hmem => hdisjoint hmem (List.mem_singleton_self _)
    rw [ofList_append, members_add, if_neg hnew, ih hxs]

theorem mem_diff {s t : KeyedSet key} {x : α} :
    x ∈ (s.diff t).members ↔ x ∈ s.members ∧ key x ∉ t.keys := by
  unfold diff
  rw [List.mem_filter, decide_eq_true_iff]

end Operations

end KeyedSet

end FreeIam
