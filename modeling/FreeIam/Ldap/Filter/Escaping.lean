import FreeIam.Ldap.Filter.Reading

/-!
# Escaped values

Both branches of `Comparison.escaped` print a text that the value token matches
in full and that neither begins nor ends with white space.
-/

namespace FreeIam.Ldap

open FreeIam.Py FreeIam.Scan

open Grammar (isPlainChar isValueChar isValueText)

theorem isValueText_hexEscape (c : Nat) : isValueText (hexEscape c) = true := by
  obtain ⟨h₁, h₂, r, hform, hhex⟩ := format02x_spec c
  rw [hform] at hhex
  obtain ⟨hh₁, hhex⟩ := all_cons.mp hhex
  obtain ⟨hh₂, hr⟩ := all_cons.mp hhex
  -- a code beyond two digits goes on with plain characters
  have hrest : isValueText r = true :=
    Grammar.isValueText_of_plain (hr.mono fun _ => Grammar.isHexDigit_plain)
  rw [hexEscape, hform, Grammar.isValueText_escape _ _ (Grammar.isHexDigit_ne_backslash hh₁), hh₁,
    hh₂, hrest]
  rfl

/-- An unescaped character is no metacharacter. -/
theorem isPlainChar_of_not_special {c : Nat} (hs : isSpecial c = false) (h0 : c ≠ 0) :
    isPlainChar c = true := by
  simp only [isSpecial, Bool.or_eq_false_iff, beq_eq_false_iff_ne] at hs
  simp [isPlainChar]
  simp at hs
  omega

theorem isValueText_escapeChar (mode : EscapeMode) (c : Nat) :
    isValueText (escapeChar mode c) = true := by
  have hplain : ∀ {c}, isPlainChar c = true → isValueText [c] = true := fun h =>
    Grammar.isValueText_of_plain (all_cons.mpr ⟨h, .nil⟩)
  cases mode with
  | special =>
    by_cases h : (isSpecial c || c == 0) = true
    · rw [escapeChar, if_pos h]
      exact isValueText_hexEscape c
    · rw [escapeChar, if_neg h]
      simp only [Bool.or_eq_true, not_or, Bool.not_eq_true, beq_iff_eq] at h
      exact hplain (isPlainChar_of_not_special h.1 h.2)
  | restricted =>
    by_cases h : (decide (c < '0'.toNat) || decide ('z'.toNat < c) || isSpecial c) = true
    · rw [escapeChar, if_pos h]
      exact isValueText_hexEscape c
    · rw [escapeChar, if_neg h]
      simp only [Bool.or_eq_true, decide_eq_true_eq, not_or, Bool.not_eq_true] at h
      refine hplain (isPlainChar_of_not_special h.2 fun h0 => h.1.1 ?_)
      rw [h0]
      decide
  | all => exact isValueText_hexEscape c

/-- An escaped text is matched by the value token, in every mode. -/
theorem isValueText_escape (value : PyStr) (mode : EscapeMode) :
    isValueText (escape value mode) = true := by
  induction value with
  | nil => rfl
  | cons c value ih =>
    exact Grammar.isValueText_append _ _ (isValueText_escapeChar mode c) ih

/-! ## White space -/

theorem hexEscape_not_space (c : Nat) : ∀ d ∈ hexEscape c, isSpace d = false := by
  obtain ⟨h₁, h₂, r, hform, hhex⟩ := format02x_spec c
  intro d hd
  rcases List.mem_cons.mp hd with rfl | hd
  · decide
  · exact isHexDigit_not_space (hhex d hd)

/-- Restricted escaping leaves no white space at all. -/
theorem escape_restricted_not_space (value : PyStr) :
    ∀ d ∈ escape value .restricted, isSpace d = false := by
  intro d hd
  obtain ⟨c, -, hd⟩ := List.mem_flatMap.mp hd
  rw [escapeChar] at hd
  split at hd
  · exact hexEscape_not_space c d hd
  · rename_i h
    rw [List.mem_singleton.mp hd]
    simp only [Bool.or_eq_true, decide_eq_true_eq, not_or] at h
    by_contra hs
    have hs := isSpace_cases (by simpa using hs)
    obtain ⟨⟨h₁, h₂⟩, -⟩ := h
    simp at h₁ h₂
    omega

theorem strip_of_not_space {s : PyStr} (h : ∀ d ∈ s, isSpace d = false) : strip s = s := by
  refine strip_of_stops ?_ ?_
  · intro c r hcr
    exact h c (by rw [hcr]; exact List.mem_cons_self)
  · intro c r hcr
    exact h c (List.mem_reverse.mp (by rw [hcr]; exact List.mem_cons_self))

/-- Special escaping leaves a character without white space, if it is not white
space itself. -/
theorem escapeChar_special_not_space {c : Nat} (hc : isSpace c = false) :
    ∀ d ∈ escapeChar .special c, isSpace d = false := by
  intro d hd
  rw [escapeChar] at hd
  split at hd
  · exact hexEscape_not_space c d hd
  · rw [List.mem_singleton.mp hd]
    exact hc

theorem escapeChar_ne_nil (mode : EscapeMode) (c : Nat) : escapeChar mode c ≠ [] := by
  have hhex : hexEscape c ≠ [] := List.cons_ne_nil _ _
  cases mode <;> rw [escapeChar]
  · split
    · exact hhex
    · exact List.cons_ne_nil _ _
  · split
    · exact hhex
    · exact List.cons_ne_nil _ _
  · exact hhex

/-- A value without white space at its ends keeps that under special escaping. -/
theorem strip_escape_special {value : PyStr} (h : strip value = value) :
    strip (escape value .special) = escape value .special := by
  have hfirst : Stops isSpace value := h ▸ stops_strip value
  have hlast : Stops isSpace value.reverse := by
    rw [← h]
    exact stops_strip_reverse value
  refine strip_of_stops ?_ ?_
  · cases value with
    | nil => exact .nil
    | cons c value =>
      obtain ⟨d, r, hdr⟩ := List.exists_cons_of_ne_nil (escapeChar_ne_nil .special c)
      have hd := escapeChar_special_not_space (stops_cons.mp hfirst) d (by rw [hdr]; simp)
      rw [escape, List.flatMap_cons, hdr, List.cons_append, stops_cons]
      exact hd
  · rcases List.eq_nil_or_concat value with rfl | ⟨value, c, rfl⟩
    · exact .nil
    · rw [List.concat_eq_append] at hlast ⊢
      rw [List.reverse_append, List.reverse_singleton, List.singleton_append, stops_cons] at hlast
      have hne : (escapeChar .special c).reverse ≠ [] := by
        simpa using escapeChar_ne_nil .special c
      obtain ⟨d, r, hdr⟩ := List.exists_cons_of_ne_nil hne
      have hd := escapeChar_special_not_space hlast d (List.mem_reverse.mp (by rw [hdr]; simp))
      rw [escape, List.flatMap_append, List.flatMap_singleton, List.reverse_append, hdr,
        List.cons_append, stops_cons]
      exact hd

/-- What `Comparison.escaped` prints for an unescaped value. -/
theorem Comparison.escaped_spec {c : Comparison} (h : c.isEscaped = false) :
    isValueText c.escaped = true ∧ strip c.escaped = c.escaped := by
  rw [Comparison.escaped, h]
  by_cases hstrip : c.rawValue ≠ strip c.rawValue
  · simp only [Bool.false_eq_true, if_false, if_pos hstrip]
    exact ⟨isValueText_escape _ _, strip_of_not_space (escape_restricted_not_space c.rawValue)⟩
  · simp only [Bool.false_eq_true, if_false, if_neg hstrip]
    exact ⟨isValueText_escape _ _, strip_escape_special (by simpa using (not_not.mp hstrip).symm)⟩

end FreeIam.Ldap
