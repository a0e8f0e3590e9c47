import Mathlib.Data.List.DropRight
import Mathlib.Data.List.TakeWhile

/-!
# Scanning a list by a class of elements

Splitting a list at the end of a maximal run of a class `p`, and stripping such
runs from both ends. A maximal run is unique: `append_unique` is how two
readings of one text are shown to agree, and `strip_append` is how a margin is
shown not to matter. Nothing here names a grammar or an alphabet.
-/

namespace FreeIam.Scan

variable {α : Type} {p : α → Bool}

/-- Every element of `l` is in the class `p`. -/
def All (p : α → Bool) (l : List α) : Prop := ∀ c ∈ l, p c = true

/-- A scan of the class `p` stops at once on `l`: it is empty or begins with an
element outside the class. -/
def Stops (p : α → Bool) (l : List α) : Prop := ∀ c r, l = c :: r → p c = false

instance (p : α → Bool) (l : List α) : Decidable (All p l) :=
  inferInstanceAs (Decidable (∀ c ∈ l, p c = true))

@[simp] theorem All.nil : All p [] := by simp [All]

@[simp] theorem all_cons {c : α} {l : List α} : All p (c :: l) ↔ p c = true ∧ All p l := by
  simp [All]

@[simp] theorem all_append {a b : List α} : All p (a ++ b) ↔ All p a ∧ All p b := by
  simp only [All, List.mem_append]
  constructor
  · intro h
    exact ⟨fun c hc => h c (.inl hc), fun c hc => h c (.inr hc)⟩
  · rintro ⟨ha, hb⟩ c (hc | hc)
    · exact ha c hc
    · exact hb c hc

theorem All.mono {q : α → Bool} {l : List α} (h : All p l)
    (hpq : ∀ c, p c = true → q c = true) : All q l := fun c hc => hpq c (h c hc)

theorem All.reverse {l : List α} (h : All p l) : All p l.reverse :=
  fun c hc => h c (List.mem_reverse.mp hc)

theorem All.takeWhile (l : List α) : All p (l.takeWhile p) := fun _ hc =>
  List.mem_takeWhile_imp hc

/-- A run without an element of its class is empty. -/
theorem All.any_eq_false {l : List α} (h : All p l) : l.any p = false ↔ l = [] := by
  cases l with
  | nil => simp
  | cons c l => simp [(all_cons.mp h).1]

@[simp] theorem Stops.nil : Stops p [] := by simp [Stops]

@[simp] theorem stops_cons {c : α} {l : List α} : Stops p (c :: l) ↔ p c = false := by
  simp [Stops]

instance (p : α → Bool) : (l : List α) → Decidable (Stops p l)
  | [] => isTrue Stops.nil
  | _ :: _ => decidable_of_iff _ stops_cons.symm

theorem Stops.dropWhile (l : List α) : Stops p (l.dropWhile p) := by
  induction l with
  | nil => simp
  | cons c l ih =>
    rw [List.dropWhile_cons]
    split
    · exact ih
    · rename_i hc
      simpa using hc

theorem Stops.append {l r : List α} (hl : Stops p l) (hr : l = [] → Stops p r) :
    Stops p (l ++ r) := by
  cases l with
  | nil => exact hr rfl
  | cons c l => simpa using hl

/-- The second list is the first with elements of the class inserted. -/
inductive Inserted (p : α → Bool) : List α → List α → Prop
  | nil : Inserted p [] []
  | keep {c : α} {l l' : List α} : Inserted p l l' → Inserted p (c :: l) (c :: l')
  | insert {c : α} {l l' : List α} : p c = true → Inserted p l l' → Inserted p l (c :: l')

/-- A wider class that holds the first list holds the second. -/
theorem Inserted.all {q : α → Bool} {l l' : List α} (h : Inserted p l l') (hl : All q l)
    (hpq : ∀ c, p c = true → q c = true) : All q l' := by
  induction h with
  | nil => exact hl
  | keep _ ih => exact all_cons.mpr ⟨(all_cons.mp hl).1, ih (all_cons.mp hl).2⟩
  | insert hc _ ih => exact all_cons.mpr ⟨hpq _ hc, ih hl⟩

/-! ## Maximal runs -/

theorem takeWhile_append {a r : List α} (ha : All p a) (hr : Stops p r) :
    (a ++ r).takeWhile p = a := by
  rw [List.takeWhile_append_of_pos ha]
  cases r with
  | nil => simp
  | cons c r => simp [stops_cons.mp hr]

theorem dropWhile_append {a r : List α} (ha : All p a) (hr : Stops p r) :
    (a ++ r).dropWhile p = r := by
  rw [List.dropWhile_append_of_pos ha]
  cases r with
  | nil => rfl
  | cons c r => simp [stops_cons.mp hr]

/-- A maximal run is unique: two splittings of one list into a run of the class
and a rest where the run stops are the same splitting. -/
theorem append_unique {a b r s : List α} (ha : All p a) (hb : All p b)
    (hr : Stops p r) (hs : Stops p s) (h : a ++ r = b ++ s) : a = b ∧ r = s := by
  constructor
  · rw [← takeWhile_append ha hr, h, takeWhile_append hb hs]
  · rw [← dropWhile_append ha hr, h, dropWhile_append hb hs]

theorem dropWhile_eq_nil {l : List α} : l.dropWhile p = [] ↔ All p l :=
  List.dropWhile_eq_nil_iff

theorem dropWhile_of_stops {l : List α} (h : Stops p l) : l.dropWhile p = l :=
  dropWhile_append (a := []) .nil h

/-- Dropping a run in front of a list that is not a run itself. -/
theorem dropWhile_append_of_not_all {l r : List α} (h : ¬ All p l) :
    (l ++ r).dropWhile p = l.dropWhile p ++ r := by
  rw [List.dropWhile_append]
  have hne : l.dropWhile p ≠ [] := fun he => h (dropWhile_eq_nil.mp he)
  simp [hne]

/-! ## Stripping both ends -/

/-- Remove the runs of the class `p` at both ends. -/
def strip (p : α → Bool) (l : List α) : List α := (l.dropWhile p).rdropWhile p

/-- A list is its stripped core between what is scanned at either end. -/
theorem takeWhile_append_strip (p : α → Bool) (l : List α) :
    l = l.takeWhile p ++ strip p l ++ (l.dropWhile p).rtakeWhile p := by
  rw [strip, List.append_assoc, List.rdropWhile_append_rtakeWhile, List.takeWhile_append_dropWhile]

/-- A list is its stripped core between two runs of the class. -/
theorem strip_decompose (p : α → Bool) (l : List α) :
    ∃ a b, l = a ++ strip p l ++ b ∧ All p a ∧ All p b :=
  ⟨_, _, takeWhile_append_strip p l, All.takeWhile l, fun _ hc => List.mem_rtakeWhile_imp hc⟩

theorem rdropWhile_append_of_all {l b : List α} (hb : All p b) :
    (l ++ b).rdropWhile p = l.rdropWhile p := by
  unfold List.rdropWhile
  rw [List.reverse_append, List.dropWhile_append_of_pos hb.reverse]

/-- Runs added at the ends of a list do not change its stripped core. -/
theorem strip_append {a l b : List α} (ha : All p a) (hb : All p b) :
    strip p (a ++ l ++ b) = strip p l := by
  unfold strip
  rw [List.append_assoc, List.dropWhile_append_of_pos ha]
  by_cases hl : All p l
  · rw [dropWhile_eq_nil.mpr hl, dropWhile_eq_nil.mpr (all_append.mpr ⟨hl, hb⟩)]
  · rw [dropWhile_append_of_not_all hl, rdropWhile_append_of_all hb]

@[simp] theorem strip_strip (l : List α) : strip p (strip p l) = strip p l := by
  obtain ⟨a, b, hl, ha, hb⟩ := strip_decompose p l
  conv_rhs => rw [hl]
  rw [strip_append ha hb]

@[simp] theorem strip_nil : strip p ([] : List α) = [] := by simp [strip]

theorem strip_eq_nil {l : List α} : strip p l = [] ↔ All p l := by
  constructor
  · intro h
    obtain ⟨a, b, hl, ha, hb⟩ := strip_decompose p l
    rw [hl, h, List.append_nil]
    exact all_append.mpr ⟨ha, hb⟩
  · intro h
    rw [strip, dropWhile_eq_nil.mpr h, List.rdropWhile_nil]

/-- The stripped core does not begin with an element of the class. -/
theorem stops_strip (l : List α) : Stops p (strip p l) := by
  intro c r h
  have hpre : strip p l <+: l.dropWhile p := List.rdropWhile_prefix p _
  obtain ⟨t, ht⟩ := hpre
  rw [h] at ht
  exact Stops.dropWhile l c (r ++ t) (by rw [← ht]; rfl)

/-- A list that begins and ends outside the class is its own core. -/
theorem strip_of_stops {l : List α} (h : Stops p l) (h' : Stops p l.reverse) : strip p l = l := by
  rw [strip, dropWhile_of_stops h, List.rdropWhile, dropWhile_of_stops h', List.reverse_reverse]

/-- Nor does it end with one. -/
theorem stops_strip_reverse (l : List α) : Stops p (strip p l).reverse := by
  rw [strip, List.rdropWhile, List.reverse_reverse]
  exact Stops.dropWhile _

/-- A list that loses no length loses nothing. -/
theorem strip_of_length_le {l : List α} (h : l.length ≤ (strip p l).length) : strip p l = l := by
  obtain ⟨a, b, hl, -, -⟩ := strip_decompose p l
  have hlength := congrArg List.length hl
  rw [List.length_append, List.length_append] at hlength
  have ha : a = [] := List.length_eq_zero_iff.mp (by omega)
  have hb : b = [] := List.length_eq_zero_iff.mp (by omega)
  rw [ha, hb, List.nil_append, List.append_nil] at hl
  exact hl.symm

/-- The runs of the class at both ends. -/
def margins (p : α → Bool) (l : List α) : List α :=
  l.takeWhile p ++ (l.dropWhile p).rtakeWhile p

theorem all_margins (l : List α) : All p (margins p l) :=
  all_append.mpr ⟨All.takeWhile l, fun _ hc => List.mem_rtakeWhile_imp hc⟩

/-- A list without margins is its own core. -/
theorem margins_eq_nil {l : List α} : margins p l = [] ↔ strip p l = l := by
  have hsplit := takeWhile_append_strip p l
  constructor
  · intro h
    obtain ⟨hleft, hright⟩ := List.append_eq_nil_iff.mp h
    rw [hleft, hright, List.nil_append, List.append_nil] at hsplit
    exact hsplit.symm
  · intro h
    have hlength := congrArg List.length hsplit
    rw [h, List.length_append, List.length_append] at hlength
    exact List.append_eq_nil_iff.mpr
      ⟨List.length_eq_zero_iff.mp (by omega), List.length_eq_zero_iff.mp (by omega)⟩

/-- Runs at the ends of a list are in its margins. -/
theorem margins_append_eq_nil {a l b : List α} (ha : All p a) (hb : All p b) :
    margins p (a ++ l ++ b) = [] ↔ a = [] ∧ margins p l = [] ∧ b = [] := by
  rw [margins_eq_nil, margins_eq_nil, strip_append ha hb]
  constructor
  · intro h
    have hlength := congrArg List.length h
    have hsplit := congrArg List.length (takeWhile_append_strip p l)
    rw [List.length_append, List.length_append] at hlength hsplit
    have hleft : a = [] := List.length_eq_zero_iff.mp (by omega)
    have hright : b = [] := List.length_eq_zero_iff.mp (by omega)
    rw [hleft, hright, List.nil_append, List.append_nil] at h
    exact ⟨hleft, h, hright⟩
  · rintro ⟨rfl, h, rfl⟩
    rw [h, List.nil_append, List.append_nil]

theorem mem_of_mem_strip {l : List α} {c : α} (h : c ∈ strip p l) : c ∈ l := by
  obtain ⟨a, b, hl, -, -⟩ := strip_decompose p l
  rw [hl]
  simp [h]

/-- An element outside the class survives stripping. -/
theorem mem_strip_iff {l : List α} {c : α} (hc : p c = false) : c ∈ strip p l ↔ c ∈ l := by
  refine ⟨mem_of_mem_strip, fun h => ?_⟩
  obtain ⟨a, b, hl, ha, hb⟩ := strip_decompose p l
  rw [hl] at h
  simp only [List.mem_append] at h
  rcases h with (h | h) | h
  · rw [ha c h] at hc; cases hc
  · exact h
  · rw [hb c h] at hc; cases hc

/-- A nonempty list of elements outside the class occurs in a list as soon as it
occurs in the stripped core, and conversely. -/
theorem infix_strip_iff {x y : α} {m l : List α} (hx : p x = false) (hy : p y = false) :
    x :: (m ++ [y]) <:+: strip p l ↔ x :: (m ++ [y]) <:+: l := by
  obtain ⟨a, b, hl, ha, hb⟩ := strip_decompose p l
  constructor
  · intro h
    refine h.trans ?_
    conv_rhs => rw [hl]
    exact ⟨a, b, rfl⟩
  · rintro ⟨u, w, h⟩
    rw [hl] at h
    -- the occurrence begins after the run `a` …
    have hleft : ∃ u', u = a ++ u' := by
      simp only [List.append_assoc] at h
      rcases List.append_eq_append_iff.mp h with ⟨t, hat, ht⟩ | ⟨t, hut, -⟩
      · cases t with
        | nil => exact ⟨[], by simpa using hat.symm⟩
        | cons c t =>
          have hcx : c = x := (List.cons.inj ht).1.symm
          have := ha c (by rw [hat]; simp)
          rw [hcx, hx] at this
          cases this
      · exact ⟨t, hut⟩
    obtain ⟨u', rfl⟩ := hleft
    have h' : u' ++ (x :: (m ++ [y])) ++ w = strip p l ++ b := by simpa using h
    -- … and ends before the run `b`
    have hright : ∃ w', w = w' ++ b := by
      rcases List.append_eq_append_iff.mp h' with ⟨t, -, hw⟩ | ⟨t, hcore, hbt⟩
      · exact ⟨t, hw⟩
      · rcases List.eq_nil_or_concat t with rfl | ⟨t', c, rfl⟩
        · exact ⟨[], by simpa using hbt.symm⟩
        · have hyc : y = c := by
            have hend : u' ++ (x :: m) ++ [y] = strip p l ++ t' ++ [c] := by simpa using hcore
            have hlast := congrArg List.getLast? hend
            rw [List.getLast?_concat, List.getLast?_concat] at hlast
            exact Option.some.inj hlast
          have := hb c (by rw [hbt]; simp)
          rw [← hyc, hy] at this
          cases this
    obtain ⟨w', rfl⟩ := hright
    refine ⟨u', w', ?_⟩
    rw [← List.append_assoc] at h'
    exact List.append_cancel_right h'

/-! ## Rewriting each element -/

theorem length_le_flatMap {f : α → List α} (hf : ∀ x, f x ≠ []) (l : List α) :
    l.length ≤ (l.flatMap f).length := by
  induction l with
  | nil => exact Nat.le_refl 0
  | cons x l ih =>
    have hpos : 0 < (f x).length := List.length_pos_iff.mpr (hf x)
    rw [List.flatMap_cons, List.length_append, List.length_cons]
    omega

/-- Where no element is dropped, a list is rewritten to itself only if each of its
elements is. -/
theorem flatMap_eq_self_iff {f : α → List α} (hf : ∀ x, f x ≠ []) {l : List α} :
    l.flatMap f = l ↔ ∀ x ∈ l, f x = [x] := by
  induction l with
  | nil => simp
  | cons x l ih =>
    rw [List.flatMap_cons, List.forall_mem_cons]
    constructor
    · intro h
      obtain ⟨y, t, hy⟩ := List.exists_cons_of_ne_nil (hf x)
      rw [hy, List.cons_append] at h
      obtain ⟨rfl, htail⟩ := List.cons.inj h
      -- a longer piece would make the whole longer
      have hlength := congrArg List.length htail
      have hle := length_le_flatMap hf l
      rw [List.length_append] at hlength
      obtain rfl : t = [] := List.eq_nil_of_length_eq_zero (by omega)
      exact ⟨hy, ih.mp htail⟩
    · rintro ⟨hx, hl⟩
      rw [hx, ih.mpr hl]
      rfl

end FreeIam.Scan
