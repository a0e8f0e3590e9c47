import Mathlib.Data.List.Infix
import FreeIam.Lib.Scan

/-!
# Python strings

A `str` is the sequence of its code points, lone surrogates included. This
module has the string methods and the `re` classes the filter code uses:
`strip`, `partition`, `in`, `lower`, the class `\d` and the `%02x` format, and the
encoding of a text.
-/

namespace FreeIam.Py

open FreeIam.Scan

/-- A Python `str`: its code points. -/
abbrev PyStr := List Nat

/-- A string literal. -/
def py (s : String) : PyStr := s.toList.map Char.toNat

/-! ## Classes of code points -/

/-- ASCII letters (`string.ascii_letters`). -/
def isAsciiLetter (c : Nat) : Bool :=
  (65 ≤ c && c ≤ 90) || (97 ≤ c && c ≤ 122)

/-- ASCII digits (`string.digits`). -/
def isAsciiDigit (c : Nat) : Bool := 48 ≤ c && c ≤ 57

/-- Hexadecimal digits (`[0-9a-fA-F]`). -/
def isHexDigit (c : Nat) : Bool :=
  isAsciiDigit c || (65 ≤ c && c ≤ 70) || (97 ≤ c && c ≤ 102)

/-- The zeros of the decimal digit runs that `\d` matches in a `str` pattern:
the category Nd of Unicode 14, the version of Python 3.11. -/
def decimalZeros : List Nat :=
  [0x30, 0x660, 0x6f0, 0x7c0, 0x966, 0x9e6, 0xa66, 0xae6, 0xb66, 0xbe6, 0xc66, 0xce6,
   0xd66, 0xde6, 0xe50, 0xed0, 0xf20, 0x1040, 0x1090, 0x17e0, 0x1810, 0x1946, 0x19d0,
   0x1a80, 0x1a90, 0x1b50, 0x1bb0, 0x1c40, 0x1c50, 0xa620, 0xa8d0, 0xa900, 0xa9d0,
   0xa9f0, 0xaa50, 0xabf0, 0xff10, 0x104a0, 0x10d30, 0x11066, 0x110f0, 0x11136,
   0x111d0, 0x112f0, 0x11450, 0x114d0, 0x11650, 0x116c0, 0x11730, 0x118e0, 0x11950,
   0x11c50, 0x11d50, 0x11da0, 0x16a60, 0x16ac0, 0x16b50, 0x1d7ce, 0x1d7d8, 0x1d7e2,
   0x1d7ec, 0x1d7f6, 0x1e140, 0x1e2f0, 0x1e950, 0x1fbf0]

/-- The class `\d` of a `str` pattern. -/
def isDecimal (c : Nat) : Bool := decimalZeros.any fun z => z ≤ c && c ≤ z + 9

/-- The white space outside ASCII that `str.strip` removes, with the ASCII
separators `\x1c` to `\x1f`. -/
def otherSpaces : List Nat :=
  [0x1c, 0x1d, 0x1e, 0x1f, 0x85, 0xa0, 0x1680, 0x2000, 0x2001, 0x2002, 0x2003, 0x2004,
   0x2005, 0x2006, 0x2007, 0x2008, 0x2009, 0x200a, 0x2028, 0x2029, 0x202f, 0x205f, 0x3000]

/-- `str.isspace` of one character: what `str.strip` removes. -/
def isSpace (c : Nat) : Bool :=
  (9 ≤ c && c ≤ 13) || c == 32 || otherSpaces.contains c

theorem isDecimal_cases {c : Nat} (h : isDecimal c = true) :
    isAsciiDigit c = true ∨ 0x660 ≤ c := by
  have hz : ∀ z ∈ decimalZeros, z = 48 ∨ 0x660 ≤ z := by decide
  simp only [isDecimal, List.any_eq_true, Bool.and_eq_true, decide_eq_true_eq] at h
  obtain ⟨z, hmem, hle, hge⟩ := h
  rcases hz z hmem with rfl | hz
  · left
    simp [isAsciiDigit, hle]
    omega
  · right
    omega

theorem isDecimal_of_isAsciiDigit {c : Nat} (h : isAsciiDigit c = true) :
    isDecimal c = true := by
  simp only [isAsciiDigit, Bool.and_eq_true, decide_eq_true_eq] at h
  simp only [isDecimal, List.any_eq_true]
  exact ⟨0x30, by simp [decimalZeros], by simp; omega⟩

/-- White space is neither a letter, a digit nor punctuation of ASCII. -/
theorem isSpace_cases {c : Nat} (h : isSpace c = true) :
    (9 ≤ c ∧ c ≤ 13) ∨ (28 ≤ c ∧ c ≤ 32) ∨ 0x85 ≤ c := by
  have ho : ∀ z ∈ otherSpaces, (28 ≤ z ∧ z ≤ 31) ∨ 0x85 ≤ z := by decide
  simp only [isSpace, Bool.or_eq_true, Bool.and_eq_true, decide_eq_true_eq, beq_iff_eq,
    List.contains_iff_mem] at h
  rcases h with (h | h) | h
  · omega
  · omega
  · rcases ho c h with h | h <;> omega

theorem isHexDigit_not_space {c : Nat} (h : isHexDigit c = true) : isSpace c = false := by
  by_contra hs
  have hs := isSpace_cases (by simpa using hs)
  simp [isHexDigit, isAsciiDigit] at h
  omega

/-! ## String methods -/

/-- `str.strip()`. -/
abbrev strip (s : PyStr) : PyStr := Scan.strip isSpace s

/-- `str.lower` of a character, for the ASCII letters; the callers apply it to
names made of ASCII letters, digits, `-`, `;` and `.`, where it is exact. -/
def lowerChar (c : Nat) : Nat := if 65 ≤ c && c ≤ 90 then c + 32 else c

/-- `str.lower()` on names. -/
def lower (s : PyStr) : PyStr := s.map lowerChar

/-- `sub in s`. -/
def contains (sub s : PyStr) : Bool := decide (sub <:+: s)

/-- Find the first occurrence of `sep`: what stands before and after it. -/
def find (sep : PyStr) : PyStr → Option (PyStr × PyStr)
  | [] => if sep = [] then some ([], []) else none
  | c :: s =>
    if sep <+: c :: s then some ([], (c :: s).drop sep.length)
    else (find sep s).map fun (a, b) => (c :: a, b)

/-- `str.partition(sep)`; `none` is the `ValueError` for an empty separator. -/
def partition (s sep : PyStr) : Option (PyStr × PyStr × PyStr) :=
  if sep = [] then none
  else match find sep s with
    | some (a, b) => some (a, sep, b)
    | none => some (s, [], [])

theorem find_append_of_all {a core b : PyStr} (ha : All isSpace a) (hne : core ≠ [])
    (hcore : Stops isSpace core) : find core (a ++ core ++ b) = some (a, b) := by
  obtain ⟨d, core', rfl⟩ := List.exists_cons_of_ne_nil hne
  have hd : isSpace d = false := stops_cons.mp hcore
  induction a with
  | nil =>
    have hpre : d :: core' <+: d :: (core' ++ b) := ⟨b, by simp⟩
    simp [find, hpre]
  | cons c a ih =>
    obtain ⟨hc, ha⟩ := all_cons.mp ha
    -- the core cannot begin inside the white space in front of it
    have hnot : ¬ (d :: core' <+: c :: (a ++ d :: core' ++ b)) := by
      intro hpre
      obtain ⟨t, ht⟩ := hpre
      have hdc : d = c := (List.cons.inj ht).1
      rw [hdc, hc] at hd
      cases hd
    simp only [List.cons_append, find, if_neg hnot]
    rw [show a ++ d :: core' ++ b = a ++ (d :: core') ++ b from rfl, ih ha]
    rfl

/-- Partitioning a string at its own stripped core gives its two margins. -/
theorem partition_strip {s a b : PyStr} (hs : s = a ++ strip s ++ b) (ha : All isSpace a)
    (hne : strip s ≠ []) : partition s (strip s) = some (a, strip s, b) := by
  have hfind : find (strip s) s = some (a, b) := by
    conv_lhs => rw [hs]
    have hsub : strip (a ++ strip s ++ b) = strip s := by rw [← hs]
    rw [hsub]
    exact find_append_of_all ha hne (stops_strip s)
  simp [partition, hne, hfind]

/-! ## UTF-8 -/

/-- The octets of a code point. -/
def utf8 (c : Nat) : List Nat :=
  if c < 0x80 then [c]
  else if c < 0x800 then [0xc0 + c / 0x40, 0x80 + c % 0x40]
  else if c < 0x10000 then [0xe0 + c / 0x1000, 0x80 + c / 0x40 % 0x40, 0x80 + c % 0x40]
  else [0xf0 + c / 0x40000, 0x80 + c / 0x1000 % 0x40, 0x80 + c / 0x40 % 0x40, 0x80 + c % 0x40]

/-- No octet of a character outside ASCII is ASCII, and there are at least two. -/
theorem utf8_not_ascii {c : Nat} (hc : 128 ≤ c) : (∀ d ∈ utf8 c, ¬ d < 128) ∧ 2 ≤ (utf8 c).length := by
  unfold utf8
  rw [if_neg (by omega)]
  split
  · refine ⟨fun d hd => ?_, by simp⟩
    simp only [List.mem_cons, List.not_mem_nil, or_false] at hd
    omega
  · split
    · refine ⟨fun d hd => ?_, by simp⟩
      simp only [List.mem_cons, List.not_mem_nil, or_false] at hd
      omega
    · refine ⟨fun d hd => ?_, by simp⟩
      simp only [List.mem_cons, List.not_mem_nil, or_false] at hd
      omega

/-- `str.encode('UTF-8')`; `none` is the `UnicodeEncodeError`, for a surrogate. -/
def encodeUtf8 (s : PyStr) : Option (List UInt8) :=
  if s.any fun c => 0xd800 ≤ c && c < 0xe000 then none
  else some ((s.flatMap utf8).map Nat.toUInt8)

example : encodeUtf8 [102, 0xf6, 111] = some [102, 0xc3, 0xb6, 111] ∧
    encodeUtf8 [0x1f600] = some [0xf0, 0x9f, 0x98, 0x80] ∧ encodeUtf8 [0xdc80] = none := by
  decide

/-! ## Formatting a code point -/

/-- The hexadecimal digits of `n`, the least significant first. -/
def hexDigitsLE : Nat → Nat → List Nat
  | 0, _ => []
  | fuel + 1, n => if n < 16 then [n] else n % 16 :: hexDigitsLE fuel (n / 16)

/-- The character of a hexadecimal digit. -/
def hexChar (d : Nat) : Nat := if d < 10 then 48 + d else 87 + d

/-- `'%02x' % n`. -/
def format02x (n : Nat) : PyStr :=
  ((hexDigitsLE n n).reverse.leftpad 2 0).map hexChar

theorem hexDigitsLE_lt (fuel n : Nat) : ∀ d ∈ hexDigitsLE fuel n, d < 16 := by
  induction fuel generalizing n with
  | zero => simp [hexDigitsLE]
  | succ fuel ih =>
    intro d hd
    rw [hexDigitsLE] at hd
    split at hd
    · simp only [List.mem_singleton] at hd
      omega
    · rcases List.mem_cons.mp hd with rfl | hd
      · exact Nat.mod_lt n (by decide)
      · exact ih _ d hd

theorem isHexDigit_hexChar {d : Nat} (h : d < 16) : isHexDigit (hexChar d) = true := by
  unfold hexChar
  simp only [isHexDigit, isAsciiDigit, Bool.or_eq_true, Bool.and_eq_true, decide_eq_true_eq]
  split <;> omega

/-- A formatted code point is at least two hexadecimal digits. -/
theorem format02x_spec (n : Nat) :
    ∃ h₁ h₂ r, format02x n = h₁ :: h₂ :: r ∧ All isHexDigit (format02x n) := by
  have hall : All isHexDigit (format02x n) := by
    intro c hc
    simp only [format02x, List.mem_map, List.leftpad, List.mem_append, List.mem_replicate,
      List.mem_reverse] at hc
    obtain ⟨d, hd | hd, rfl⟩ := hc
    · rw [hd.2]
      decide
    · exact isHexDigit_hexChar (hexDigitsLE_lt n n d hd)
  have hlen : 2 ≤ (format02x n).length := by
    simp only [format02x, List.leftpad, List.length_map, List.length_append,
      List.length_replicate]
    omega
  match hf : format02x n with
  | [] => rw [hf] at hlen; simp at hlen
  | [_] => rw [hf] at hlen; simp at hlen
  | h₁ :: h₂ :: r => exact ⟨h₁, h₂, r, rfl, by rw [← hf]; exact hall⟩

example : format02x 0 = py "00" ∧ format02x 40 = py "28" ∧ format02x 0x2003 = py "2003" := by
  decide

end FreeIam.Py
