import Mathlib.Data.List.Infix
import Mathlib.Data.Set.Finite.Basic
import Mathlib.Data.Set.Finite.Lattice

/-!
# Removing a subtree leaf by leaf

A tree by the paths of its nodes, each read from the node up. A subtree can be taken
away by removals of leaves, in an order in which no node goes before one below it. The
removals of parts that are closed downwards compose.
-/

namespace FreeIam.Subtree

variable {κ E : Type}

/-- The nodes of a tree, by their paths. -/
abbrev Tree (κ E : Type) := List κ → Option E

/-- Below a node no node hangs in the air. -/
def Gapless (t : Tree κ E) : Prop :=
  ∀ (k l : List κ) (c : κ), t k ≠ none → t (c :: (l ++ k)) ≠ none → t (l ++ k) ≠ none

/-- Nothing is as far as `h` below the node. -/
def Below (t : Tree κ E) (h : Nat) (k : List κ) : Prop := ∀ l, h ≤ l.length → t (l ++ k) = none

/-- From one tree to another the nodes `gone` are removed, and those that there are one by
one in this order: none before a node below it. -/
structure Removal (t t' : Tree κ E) (gone : List κ → Prop) (ks : List (List κ)) : Prop where
  cleared : ∀ x, gone x → t' x = none
  kept : ∀ x, ¬ gone x → t' x = t x
  mem : ∀ x, x ∈ ks ↔ gone x ∧ t x ≠ none
  order : ks.Pairwise fun a b => ¬ a <:+ b

/-- What is below a child of a node hangs on the child. -/
theorem Gapless.child {t : Tree κ E} (hgap : Gapless t) {k : List κ} (hk : t k ≠ none) {c : κ} :
    ∀ l, t (l ++ c :: k) ≠ none → t (c :: k) ≠ none := by
  intro l
  induction l with
  | nil => exact id
  | cons a l ih =>
    intro h
    have hassoc : l ++ c :: k = (l ++ [c]) ++ k := by simp
    apply ih
    rw [List.cons_append, hassoc] at h
    rw [hassoc]
    exact hgap k (l ++ [c]) a hk h

/-- The child of a node is one step closer to the ground. -/
theorem Below.child {t : Tree κ E} {h : Nat} {k : List κ} (hbelow : Below t (h + 1) k) (c : κ) :
    Below t h (c :: k) := by
  intro l hl
  have hassoc : l ++ c :: k = (l ++ [c]) ++ k := by simp
  rw [hassoc]
  apply hbelow
  rw [List.length_append, List.length_singleton]
  omega

/-- A leaf leaves no gap. -/
theorem Gapless.removeLeaf [DecidableEq κ] {t : Tree κ E} (hgap : Gapless t) {k : List κ}
    (hleaf : ¬ ∃ c, t (c :: k) ≠ none) : Gapless (Function.update t k none) := by
  have hthere : ∀ x, Function.update t k none x ≠ none → x ≠ k ∧ t x ≠ none := by
    intro x hx
    by_cases hxk : x = k
    · rw [hxk, Function.update_self] at hx
      exact absurd rfl hx
    · rw [Function.update_of_ne hxk] at hx
      exact ⟨hxk, hx⟩
  intro root l c hroot hc
  have hl := hgap root l c (hthere _ hroot).2 (hthere _ hc).2
  rw [Function.update_of_ne]
  · exact hl
  · rintro rfl
    exact hleaf ⟨c, (hthere _ hc).2⟩

/-- A finite tree has a ground. -/
theorem exists_below {t : Tree κ E} (hfinite : {x | t x ≠ none}.Finite) (k : List κ) :
    ∃ h, Below t h k := by
  obtain ⟨b, hb⟩ := (hfinite.image List.length).bddAbove
  refine ⟨b + 1, fun l hl => ?_⟩
  by_contra hsome
  have hle := hb (Set.mem_image_of_mem List.length (show l ++ k ∈ {x | t x ≠ none} from hsome))
  rw [List.length_append] at hle
  omega

namespace Removal

variable {t t₁ t₂ : Tree κ E} {g g₁ g₂ : List κ → Prop} {ks ks₁ ks₂ : List (List κ)}

theorem nil (t : Tree κ E) : Removal t t (fun _ => False) [] where
  cleared _ h := h.elim
  kept _ _ := rfl
  mem _ := ⟨fun h => absurd h List.not_mem_nil, fun h => h.1.elim⟩
  order := .nil

theorem congr (h : Removal t t₁ g ks) (hg : ∀ x, g₁ x ↔ g x) : Removal t t₁ g₁ ks where
  cleared x hx := h.cleared x ((hg x).mp hx)
  kept x hx := h.kept x fun hgx => hx ((hg x).mpr hgx)
  mem x := (h.mem x).trans (and_congr_left' (hg x).symm)
  order := h.order

theorem below {n : Nat} {k : List κ} (h : Removal t t₁ g ks) (hbelow : Below t n k) :
    Below t₁ n k := by
  intro l hl
  by_cases hg : g (l ++ k)
  · exact h.cleared _ hg
  · rw [h.kept _ hg]
    exact hbelow l hl

/-- After a part that is closed downwards, another one. -/
theorem append (h₁ : Removal t t₁ g₁ ks₁) (hclosed : ∀ a b, g₁ a → a <:+ b → g₁ b)
    (h₂ : Removal t₁ t₂ g₂ ks₂) : Removal t t₂ (fun x => g₁ x ∨ g₂ x) (ks₁ ++ ks₂) where
  cleared x hx := by
    by_cases hx₂ : g₂ x
    · exact h₂.cleared x hx₂
    · rw [h₂.kept x hx₂]
      exact h₁.cleared x (hx.resolve_right hx₂)
  kept x hx := by
    rw [h₂.kept x fun h => hx (.inr h), h₁.kept x fun h => hx (.inl h)]
  mem x := by
    rw [List.mem_append, h₁.mem, h₂.mem]
    constructor
    · rintro (⟨hx, ht⟩ | ⟨hx, ht⟩)
      · exact ⟨.inl hx, ht⟩
      · refine ⟨.inr hx, ?_⟩
        by_cases hx₁ : g₁ x
        · exact absurd (h₁.cleared x hx₁) ht
        · rwa [h₁.kept x hx₁] at ht
    · rintro ⟨hx, ht⟩
      by_cases hx₁ : g₁ x
      · exact .inl ⟨hx₁, ht⟩
      · exact .inr ⟨hx.resolve_left hx₁, by rwa [h₁.kept x hx₁]⟩
  order := by
    rw [List.pairwise_append]
    refine ⟨h₁.order, h₂.order, fun a ha b hb hab => ?_⟩
    -- what is below the first part went with it
    have hgone := hclosed a b ((h₁.mem a).mp ha).1 hab
    exact ((h₂.mem b).mp hb).2 (h₁.cleared b hgone)

/-- A subtree, and the subtrees of other nodes. -/
theorem cons {c : List κ} {cs : List (List κ)} (h₁ : Removal t t₁ (c <:+ ·) ks₁)
    (h₂ : Removal t₁ t₂ (fun x => ∃ c ∈ cs, c <:+ x) ks₂) :
    Removal t t₂ (fun x => ∃ c' ∈ c :: cs, c' <:+ x) (ks₁ ++ ks₂) :=
  (h₁.append (fun _ _ => List.IsSuffix.trans) h₂).congr fun x => by simp

section

variable {k : List κ} {cs : List (List κ)} (hcs : ∀ x, x ∈ cs ↔ (∃ c, x = c :: k) ∧ t x ≠ none)

include hcs

theorem below_child {x : List κ} (hx : ∃ c ∈ cs, c <:+ x) : k <:+ x ∧ k.length < x.length := by
  obtain ⟨c, hc, hsuffix⟩ := hx
  obtain ⟨⟨d, rfl⟩, -⟩ := (hcs c).mp hc
  have hlength := hsuffix.length_le
  rw [List.length_cons] at hlength
  exact ⟨(List.suffix_cons d k).trans hsuffix, by omega⟩

/-- Without the subtrees of its children a node is still there. -/
theorem root (h : Removal t t₁ (fun x => ∃ c ∈ cs, c <:+ x) ks) : t₁ k = t k := by
  apply h.kept
  intro hk
  exact Nat.lt_irrefl _ (below_child hcs hk).2

/-- Without the subtrees of its children a node is a leaf. -/
theorem leaf (h : Removal t t₁ (fun x => ∃ c ∈ cs, c <:+ x) ks) : ¬ ∃ c, t₁ (c :: k) ≠ none := by
  rintro ⟨c, hc⟩
  by_cases hgone : ∃ c' ∈ cs, c' <:+ c :: k
  · exact hc (h.cleared _ hgone)
  · rw [h.kept _ hgone] at hc
    exact hgone ⟨c :: k, (hcs _).mpr ⟨⟨c, rfl⟩, hc⟩, List.suffix_rfl⟩

/-- The subtrees of the children of a node, and the node, which is a leaf then. -/
theorem subtree [DecidableEq κ] (hgap : Gapless t) (hk : t k ≠ none)
    (h : Removal t t₁ (fun x => ∃ c ∈ cs, c <:+ x) ks) :
    Removal t (Function.update t₁ k none) (k <:+ ·) (ks ++ [k]) := by
  -- what stands below the node stands below one of its children
  have hchild : ∀ x, k <:+ x → x ≠ k → t x ≠ none → ∃ c ∈ cs, c <:+ x := by
    rintro x ⟨l, rfl⟩ hne ht
    obtain ⟨l', c, rfl⟩ : ∃ l' c, l = l' ++ [c] := by
      rcases List.eq_nil_or_concat l with rfl | ⟨l', c, rfl⟩
      · exact absurd rfl hne
      · exact ⟨l', c, List.concat_eq_append⟩
    have hassoc : l' ++ [c] ++ k = l' ++ c :: k := by simp
    rw [hassoc] at ht ⊢
    exact ⟨c :: k, (hcs _).mpr ⟨⟨c, rfl⟩, hgap.child hk l' ht⟩, List.suffix_append l' (c :: k)⟩
  refine ⟨fun x hx => ?_, fun x hx => ?_, fun x => ?_, ?_⟩
  · by_cases hxk : x = k
    · rw [hxk, Function.update_self]
    · rw [Function.update_of_ne hxk]
      by_cases hgone : ∃ c ∈ cs, c <:+ x
      · exact h.cleared x hgone
      · rw [h.kept x hgone]
        by_contra ht
        exact hgone (hchild x hx hxk ht)
  · have hxk : x ≠ k := fun heq => hx (heq ▸ List.suffix_rfl)
    rw [Function.update_of_ne hxk]
    exact h.kept x fun hgone => hx (below_child hcs hgone).1
  · rw [List.mem_append, List.mem_singleton, h.mem]
    constructor
    · rintro (⟨hgone, ht⟩ | rfl)
      · exact ⟨(below_child hcs hgone).1, ht⟩
      · exact ⟨List.suffix_rfl, hk⟩
    · rintro ⟨hx, ht⟩
      by_cases hxk : x = k
      · exact .inr hxk
      · exact .inl ⟨hchild x hx hxk ht, ht⟩
  -- the node comes after all that stands below it
  · rw [List.pairwise_append]
    refine ⟨h.order, List.pairwise_singleton _ _, fun a ha b hb hab => ?_⟩
    rw [List.mem_singleton.mp hb] at hab
    have hlength := hab.length_le
    have hlonger := (below_child hcs ((h.mem a).mp ha).1).2
    omega

end

end Removal

end FreeIam.Subtree
