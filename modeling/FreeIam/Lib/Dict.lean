import Mathlib.Data.List.Basic

/-!
# Dictionaries

A dictionary as the list of its items in insertion order, for keys that are
compared by an equivalence `same` of their own. At most one item has a key that is
the same as a given one, as long as the dictionary is only written by `set`.
-/

namespace FreeIam.Dict

variable {κ β : Type} (same : κ → κ → Bool)

/-- `d.get(k)` -/
def get (items : List (κ × β)) (k : κ) : Option β :=
  (items.find? fun item => same item.1 k).map Prod.snd

/-- `d` after `del d[k]`. -/
def del (items : List (κ × β)) (k : κ) : List (κ × β) :=
  items.filter fun item => !same item.1 k

/-- `d` after `d[k] = v`: a key that is there keeps its place. -/
def set (items : List (κ × β)) (k : κ) (v : β) : List (κ × β) :=
  if items.any fun item => same item.1 k then
    items.map fun item => if same item.1 k then (item.1, v) else item
  else items ++ [(k, v)]

variable {same}

theorem get_nil (k : κ) : get same ([] : List (κ × β)) k = none := rfl

theorem get_cons (item : κ × β) (items : List (κ × β)) (k : κ) :
    get same (item :: items) k = if same item.1 k then some item.2 else get same items k := by
  unfold get
  rw [List.find?_cons]
  cases same item.1 k <;> rfl

theorem get_append (items items' : List (κ × β)) (k : κ) :
    get same (items ++ items') k = (get same items k).or (get same items' k) := by
  induction items with
  | nil => rw [List.nil_append, get_nil, Option.none_or]
  | cons item items ih =>
    rw [List.cons_append, get_cons, get_cons, ih]
    cases same item.1 k <;> rfl

theorem get_eq_none_iff (items : List (κ × β)) (k : κ) :
    get same items k = none ↔ ∀ item ∈ items, same item.1 k = false := by
  unfold get
  rw [Option.map_eq_none_iff, List.find?_eq_none]
  constructor
  · intro h item hitem
    exact Bool.eq_false_iff.mpr (h item hitem)
  · intro h item hitem
    rw [h item hitem]
    exact Bool.false_ne_true

/-- A new key comes last. -/
theorem set_of_get_none {items : List (κ × β)} {k : κ} (h : get same items k = none) (v : β) :
    set same items k v = items ++ [(k, v)] := by
  have hany : ¬(items.any fun item => same item.1 k) = true := by
    rw [Bool.not_eq_true, List.any_eq_false]
    exact fun item hitem => Bool.eq_false_iff.mp ((get_eq_none_iff items k).mp h item hitem)
  unfold set
  rw [if_neg hany]

/-- A key that has been deleted is not there. -/
theorem get_del_self (items : List (κ × β)) (k : κ) : get same (del same items k) k = none := by
  rw [get_eq_none_iff]
  intro item hitem
  have hkeep := (List.mem_filter.mp hitem).2
  rwa [Bool.not_eq_true'] at hkeep

section Equivalence

variable (hsame : Equivalence fun a b => same a b = true)
include hsame

theorem same_congr {a b : κ} (hab : same a b = true) (x : κ) : same x a = same x b := by
  rw [Bool.eq_iff_iff]
  exact ⟨fun h => hsame.trans h hab, fun h => hsame.trans h (hsame.symm hab)⟩

/-- Keys that are the same have the same value. -/
theorem get_congr {a b : κ} (hab : same a b = true) (items : List (κ × β)) :
    get same items a = get same items b := by
  unfold get
  rw [funext fun item : κ × β => same_congr hsame hab item.1]

/-- Another value for a key is seen where the key has one. -/
theorem get_update (items : List (κ × β)) (k x : κ) (v : β) :
    get same (items.map fun item => if same item.1 k then (item.1, v) else item) x =
      if same k x then (get same items x).map fun _ => v else get same items x := by
  induction items with
  | nil => exact (ite_self none).symm
  | cons item items ih =>
    rw [List.map_cons, get_cons, get_cons, ih]
    by_cases hitem : same item.1 k = true
    · rw [if_pos hitem]
      by_cases hkx : same k x = true
      · have hitemx : same item.1 x = true := hsame.trans hitem hkx
        rw [if_pos hitemx, if_pos hkx, if_pos hitemx]
        rfl
      · have hitemx : ¬same item.1 x = true := fun h => hkx (hsame.trans (hsame.symm hitem) h)
        rw [if_neg hitemx, if_neg hkx, if_neg hkx, if_neg hitemx]
    · rw [if_neg hitem]
      by_cases hkx : same k x = true
      · have hitemx : ¬same item.1 x = true := fun h => hitem (hsame.trans h (hsame.symm hkx))
        rw [if_neg hitemx, if_pos hkx, if_pos hkx, if_neg hitemx]
      · rw [if_neg hkx, if_neg hkx]

/-- An assignment is seen under the keys that are the same, and under no other. -/
theorem get_set (items : List (κ × β)) (k x : κ) (v : β) :
    get same (set same items k v) x = if same k x then some v else get same items x := by
  have hany : (items.any fun item => same item.1 k) = true ↔ get same items k ≠ none := by
    rw [Ne, get_eq_none_iff, ← Bool.not_eq_false, List.any_eq_false]
    simp only [Bool.not_eq_true]
  unfold set
  by_cases hk : (items.any fun item => same item.1 k) = true
  · rw [if_pos hk, get_update hsame]
    by_cases hkx : same k x = true
    · obtain ⟨old, hold⟩ := Option.ne_none_iff_exists'.mp (hany.mp hk)
      rw [if_pos hkx, if_pos hkx, ← get_congr hsame hkx, hold]
      rfl
    · rw [if_neg hkx, if_neg hkx]
  · have hnone : get same items k = none := not_not.mp (mt hany.mpr hk)
    rw [if_neg hk, get_append, get_cons, get_nil]
    by_cases hkx : same k x = true
    · rw [if_pos hkx, if_pos hkx, ← get_congr hsame hkx, hnone, Option.none_or]
    · rw [if_neg hkx, if_neg hkx, Option.or_none]

end Equivalence

end FreeIam.Dict
