import FreeIam.Ldap.Filter.Escaping

/-!
# Reading escaped text back

`Filter.unescape` reads two hexadecimal digits as one byte, while escaping writes a
code point. The two agree on ASCII: a byte from 0x80 on is no UTF-8 text of its own,
and a code point with more than two digits leaves digits behind.
-/

namespace FreeIam.Ldap

open FreeIam.Py FreeIam.Scan

open Grammar (isPlainChar isValueText)

theorem unescape_cons {c : Nat} (hc : c ≠ '\\'.toNat) (s : PyStr) :
    unescape (c :: s) = c :: unescape s := by
  match s with
  | [] => rfl
  | [_] => rfl
  | h₁ :: h₂ :: s =>
    rw [unescape, if_neg fun h => hc h.1]

theorem unescape_digits {r : PyStr} (hr : All isHexDigit r) (s : PyStr) :
    unescape (r ++ s) = r ++ unescape s := by
  induction r with
  | nil => rfl
  | cons c r ih =>
    obtain ⟨hc, hr⟩ := all_cons.mp hr
    rw [List.cons_append, unescape_cons (Grammar.isHexDigit_ne_backslash hc), ih hr]
    rfl

/-- The two digits of a code point below 256. -/
theorem format02x_byte : ∀ n < 256, format02x n = [hexChar (n / 16), hexChar (n % 16)] := by
  decide +kernel

theorem hexValue_hexChar : ∀ d < 16, hexValue (hexChar d) = d := by decide

/-- A larger code point has more digits. -/
theorem format02x_length {n : Nat} (hn : 256 ≤ n) : 2 < (format02x n).length := by
  obtain ⟨fuel, rfl⟩ : ∃ fuel, n = fuel + 3 := ⟨n - 3, by omega⟩
  have hdigits : 2 < (hexDigitsLE (fuel + 3) (fuel + 3)).length := by
    rw [hexDigitsLE, if_neg (by omega), hexDigitsLE, if_neg (by omega), hexDigitsLE]
    split <;> simp
  simp only [format02x, List.leftpad, List.length_map, List.length_append, List.length_replicate,
    List.length_reverse]
  omega

/-- Reading an escape makes a text shorter, nothing makes it longer. -/
theorem length_unescape_le (s : PyStr) : (unescape s).length ≤ s.length := by
  fun_induction unescape s with
  | case1 c h₁ h₂ s _ ih =>
    simp only [List.length_cons]
    omega
  | case2 c h₁ h₂ s _ ih =>
    simp only [List.length_cons] at ih ⊢
    omega
  | case3 s => exact Nat.le_refl _

theorem unescape_of_plain {s : PyStr} (h : All isPlainChar s) : unescape s = s := by
  induction s with
  | nil => rfl
  | cons c s ih =>
    obtain ⟨hc, hs⟩ := all_cons.mp h
    rw [unescape_cons (Grammar.isPlainChar_ne_backslash hc), ih hs]

/-- A value text is read as it stands exactly if it has no escapes. -/
theorem unescape_eq_self_iff {s : PyStr} (h : isValueText s = true) :
    unescape s = s ↔ All isPlainChar s := by
  refine ⟨fun heq => ?_, unescape_of_plain⟩
  refine Grammar.isValueText_induction (P := fun s => unescape s = s → All isPlainChar s)
    ?_ ?_ ?_ ?_ s h heq
  · intro _
    exact .nil
  · intro c s hc _ ih heq
    rw [unescape_cons (Grammar.isPlainChar_ne_backslash hc)] at heq
    exact all_cons.mpr ⟨hc, ih (List.cons.inj heq).2⟩
  · intro d h s hd hh _ _ heq
    rw [unescape, if_pos ⟨rfl, hd, hh⟩] at heq
    have hlength := congrArg List.length heq
    have hle := length_unescape_le s
    simp only [List.length_cons] at hlength
    omega
  · intro h₁ h₂ s hh₁ hh₂ _ _ heq
    -- the first backslash stands for itself, the second begins the escape
    have hread : unescape ('\\'.toNat :: '\\'.toNat :: h₁ :: h₂ :: s)
        = '\\'.toNat :: decodeByte (16 * hexValue h₁ + hexValue h₂) :: unescape s := by
      rw [unescape, if_neg fun h => absurd h.2.1 (by decide), unescape, if_pos ⟨rfl, hh₁, hh₂⟩]
    rw [hread] at heq
    have hlength := congrArg List.length heq
    have hle := length_unescape_le s
    simp only [List.length_cons] at hlength
    omega

/-- A text that is read back from its stripped self has no white space at its ends
and no escapes. -/
theorem strip_of_unescape_strip {s : PyStr} (h : unescape (strip s) = s) :
    strip s = s ∧ unescape s = s := by
  have hlength := length_unescape_le (strip s)
  rw [h] at hlength
  have hstrip := strip_of_length_le hlength
  exact ⟨hstrip, by rw [← hstrip, h, hstrip]⟩

/-! ## One character -/

/-- What an escaped code point is read back as. -/
def decodeHex (c : Nat) : PyStr :=
  match format02x c with
  | h₁ :: h₂ :: r => decodeByte (16 * hexValue h₁ + hexValue h₂) :: r
  | r => r

theorem unescape_hexEscape (c : Nat) (s : PyStr) :
    unescape (hexEscape c ++ s) = decodeHex c ++ unescape s := by
  obtain ⟨h₁, h₂, r, hform, hhex⟩ := format02x_spec c
  rw [hform] at hhex
  obtain ⟨hh₁, hhex⟩ := all_cons.mp hhex
  obtain ⟨hh₂, hr⟩ := all_cons.mp hhex
  have hdecode : decodeHex c = decodeByte (16 * hexValue h₁ + hexValue h₂) :: r := by
    rw [decodeHex, hform]
  rw [hdecode, hexEscape, hform]
  show unescape ('\\'.toNat :: h₁ :: h₂ :: (r ++ s)) = _
  rw [unescape, if_pos ⟨rfl, hh₁, hh₂⟩, unescape_digits hr]
  rfl

theorem decodeHex_byte {c : Nat} (hc : c < 256) : decodeHex c = [decodeByte c] := by
  rw [decodeHex, format02x_byte c hc]
  show [decodeByte (16 * hexValue (hexChar (c / 16)) + hexValue (hexChar (c % 16)))] = _
  rw [hexValue_hexChar _ (by omega), hexValue_hexChar _ (by omega), Nat.div_add_mod]

/-- An escaped code point is read back exactly if it is ASCII. -/
theorem decodeHex_eq_iff (c : Nat) : decodeHex c = [c] ↔ c < 128 := by
  by_cases hc : c < 256
  · rw [decodeHex_byte hc, decodeByte]
    constructor
    · intro h
      by_contra hlarge
      rw [if_neg hlarge] at h
      have hreplacement := (List.cons.inj h).1
      omega
    · intro h
      rw [if_pos h]
  · refine iff_of_false (fun h => ?_) (by omega)
    have hlength := format02x_length (Nat.le_of_not_lt hc)
    obtain ⟨h₁, h₂, r, hform, -⟩ := format02x_spec c
    rw [hform] at hlength
    rw [decodeHex, hform] at h
    have hr : r = [] := (List.cons.inj h).2
    rw [hr] at hlength
    exact absurd hlength (Nat.lt_irrefl 2)

theorem decodeHex_ne_nil (c : Nat) : decodeHex c ≠ [] := by
  obtain ⟨h₁, h₂, r, hform, -⟩ := format02x_spec c
  rw [decodeHex, hform]
  exact List.cons_ne_nil _ _

/-- Whether `escape_filter_chars` writes a character as its code. -/
def isCoded : EscapeMode → Nat → Bool
  | .special, c => isSpecial c || c == 0
  | .restricted, c => c < '0'.toNat || 'z'.toNat < c || isSpecial c
  | .all, _ => true

theorem escapeChar_eq (mode : EscapeMode) (c : Nat) :
    escapeChar mode c = if isCoded mode c then hexEscape c else [c] := by
  cases mode <;> simp [escapeChar, isCoded]

/-- What an escaped character is read back as. -/
def decoded (mode : EscapeMode) (c : Nat) : PyStr := if isCoded mode c then decodeHex c else [c]

theorem not_isCoded_backslash (mode : EscapeMode) {c : Nat} (h : isCoded mode c = false) :
    c ≠ '\\'.toNat := by
  rintro rfl
  cases mode <;> cases h

theorem unescape_escapeChar_append (mode : EscapeMode) (c : Nat) (s : PyStr) :
    unescape (escapeChar mode c ++ s) = decoded mode c ++ unescape s := by
  rw [escapeChar_eq, decoded]
  cases hcoded : isCoded mode c with
  | true => exact unescape_hexEscape c s
  | false => exact unescape_cons (not_isCoded_backslash mode hcoded) s

/-- Escape mode 0 codes only ASCII, the others code all the rest. -/
theorem decoded_eq_iff (mode : EscapeMode) (c : Nat) :
    decoded mode c = [c] ↔ mode = .special ∨ c < 128 := by
  rw [decoded]
  cases hcoded : isCoded mode c with
  | true =>
    rw [if_pos rfl, decodeHex_eq_iff]
    refine ⟨.inr, fun h => ?_⟩
    rcases h with rfl | hc
    · simp only [isCoded, isSpecial, Bool.or_eq_true, beq_iff_eq] at hcoded
      rcases hcoded with (((rfl | rfl) | rfl) | rfl) | rfl <;> decide
    · exact hc
  | false =>
    refine iff_of_true (by simp) ?_
    cases mode with
    | special => exact .inl rfl
    | restricted =>
      right
      simp only [isCoded, Bool.or_eq_false_iff, decide_eq_false_iff_not, Nat.not_lt] at hcoded
      have hle : c ≤ 122 := hcoded.1.2
      omega
    | all => cases hcoded

theorem decoded_ne_nil (mode : EscapeMode) (c : Nat) : decoded mode c ≠ [] := by
  rw [decoded]
  split
  · exact decodeHex_ne_nil c
  · exact List.cons_ne_nil _ _

/-! ## A text -/

theorem unescape_escape_eq (value : PyStr) (mode : EscapeMode) :
    unescape (escape value mode) = value.flatMap (decoded mode) := by
  induction value with
  | nil => rfl
  | cons c value ih =>
    show unescape (escapeChar mode c ++ escape value mode) = _
    rw [unescape_escapeChar_append, ih]
    rfl

/-- A text is read back exactly if it was escaped in mode 0 or is ASCII. -/
theorem unescape_escape_iff (value : PyStr) (mode : EscapeMode) :
    unescape (escape value mode) = value ↔ mode = .special ∨ ∀ c ∈ value, c < 128 := by
  rw [unescape_escape_eq, flatMap_eq_self_iff fun c => decoded_ne_nil mode c]
  constructor
  · intro h
    by_cases hmode : mode = .special
    · exact .inl hmode
    · exact .inr fun c hc => ((decoded_eq_iff mode c).mp (h c hc)).resolve_left hmode
  · intro h c hc
    exact (decoded_eq_iff mode c).mpr (h.imp_right fun hascii => hascii c hc)

/-- Reading an escaped value gives the value. -/
theorem unescape_escape (value : PyStr) : unescape (escape value .special) = value :=
  (unescape_escape_iff value .special).mpr (.inl rfl)

/-- A comparison takes escape mode 0 unless its value has white space at its ends. -/
theorem Comparison.unescape_escaped_iff {c : Comparison} (hescaped : c.isEscaped = false) :
    unescape c.escaped = c.rawValue ↔
      c.rawValue = strip c.rawValue ∨ ∀ x ∈ c.rawValue, x < 128 := by
  rw [Comparison.escaped, hescaped, if_neg Bool.false_ne_true]
  by_cases hstrip : c.rawValue = strip c.rawValue
  · rw [if_neg (not_not.mpr hstrip)]
    exact iff_of_true (unescape_escape _) (.inl hstrip)
  · rw [if_pos hstrip, unescape_escape_iff]
    have hmode : EscapeMode.restricted ≠ .special := fun hmode => by cases hmode
    exact ⟨fun h => .inr (h.resolve_left hmode), fun h => .inr (h.resolve_left hstrip)⟩

/-- Escaping can be undone on ASCII, in escape mode 0 on every text; a comparison
chooses that mode unless its value has white space at its ends. -/
theorem escape_invertible_iff (value : PyStr) (mode : EscapeMode) {c : Comparison}
    (hescaped : c.isEscaped = false) :
    (unescape (escape value mode) = value ↔ mode = .special ∨ ∀ x ∈ value, x < 128) ∧
      (unescape c.escaped = c.rawValue ↔
        c.rawValue = strip c.rawValue ∨ ∀ x ∈ c.rawValue, x < 128) :=
  ⟨unescape_escape_iff value mode, Comparison.unescape_escaped_iff hescaped⟩

/-- White space at the ends of an ASCII value is coded and read back. -/
theorem escape_invertible_space :
    unescape (escape (py " John ") .restricted) = py " John " ∧
      unescape (Comparison.init .equalityMatch (py "cn") (py " John ") false).escaped
        = py " John " := by
  obtain ⟨hvalue, hcomparison⟩ := escape_invertible_iff (py " John ") .restricted
    (c := Comparison.init .equalityMatch (py "cn") (py " John ") false) rfl
  exact ⟨hvalue.mpr (.inr (by decide)), hcomparison.mpr (.inr (by decide))⟩

/-- `ä` in escape mode 1 is read back as the replacement character. -/
theorem escape_not_invertible :
    ¬ ∀ (value : PyStr) (mode : EscapeMode), unescape (escape value mode) = value := by
  intro h
  have humlaut : unescape (escape [0xe4] .restricted) = [0xe4] := h [0xe4] .restricted
  have hread : unescape (escape [0xe4] .restricted) = [0xfffd] := by decide
  rw [hread] at humlaut
  exact absurd humlaut (by decide)

end FreeIam.Ldap
