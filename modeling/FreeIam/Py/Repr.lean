import Mathlib.Algebra.Group.Nat.Defs
import FreeIam.Py.Str

/-!
# `repr` of a string

Quotes, and escapes for what cannot be printed. Which code points beyond ASCII are
printable is up to the Unicode database of the interpreter. A `repr` can be read
back, also in front of other text, so different strings have different ones.
-/

namespace FreeIam.Py

/-- `str.isprintable` on code points beyond ASCII. -/
abbrev Printable := Nat → Bool

/-- The lower-case hexadecimal digits of a number, as many as asked for. -/
def hexDigits : Nat → Nat → PyStr
  | 0, _ => []
  | width + 1, n => hexDigits width (n / 16) ++ [hexChar (n % 16)]

/-- `\xhh`, `\uhhhh` or `\Uhhhhhhhh`. -/
def hexEscape (c : Nat) : PyStr :=
  if c < 0x100 then '\\'.toNat :: 'x'.toNat :: hexDigits 2 c
  else if c < 0x10000 then '\\'.toNat :: 'u'.toNat :: hexDigits 4 c
  else '\\'.toNat :: 'U'.toNat :: hexDigits 8 c

/-- A character between the quotes. -/
def reprChar (printable : Printable) (quote c : Nat) : PyStr :=
  if c = quote ∨ c = '\\'.toNat then ['\\'.toNat, c]
  else if c = 9 then ['\\'.toNat, 't'.toNat]
  else if c = 10 then ['\\'.toNat, 'n'.toNat]
  else if c = 13 then ['\\'.toNat, 'r'.toNat]
  else if c < 32 ∨ c = 127 then hexEscape c
  else if c < 127 ∨ printable c = true then [c]
  else hexEscape c

/-- A double quote where the text holds single ones only. -/
def reprQuote (s : PyStr) : Nat :=
  if '\''.toNat ∈ s ∧ '"'.toNat ∉ s then '"'.toNat else '\''.toNat

/-- `repr(s)` -/
def repr (printable : Printable) (s : PyStr) : PyStr :=
  reprQuote s :: s.flatMap (reprChar printable (reprQuote s)) ++ [reprQuote s]

/-! ## Reading back -/

/-- The value of a lower-case hexadecimal digit. -/
def hexCharValue (c : Nat) : Nat := if c < 58 then c - 48 else c - 87

/-- The number of a sequence of digits. -/
def hexNumber (s : PyStr) : Nat := s.foldl (fun n c => n * 16 + hexCharValue c) 0

/-- Reads one character of what stands between the quotes. -/
def readChar : PyStr → Option (Nat × PyStr)
  | [] => none
  | c :: s =>
    if c = '\\'.toNat then
      match s with
      | [] => none
      | d :: s =>
        if d = 'x'.toNat then some (hexNumber (s.take 2), s.drop 2)
        else if d = 'u'.toNat then some (hexNumber (s.take 4), s.drop 4)
        else if d = 'U'.toNat then some (hexNumber (s.take 8), s.drop 8)
        else if d = 't'.toNat then some (9, s)
        else if d = 'n'.toNat then some (10, s)
        else if d = 'r'.toNat then some (13, s)
        else some (d, s)
    else some (c, s)

theorem hexCharValue_hexChar {d : Nat} (h : d < 16) : hexCharValue (hexChar d) = d := by
  unfold hexCharValue hexChar
  split <;> split <;> omega

@[simp] theorem length_hexDigits (width n : Nat) : (hexDigits width n).length = width := by
  induction width generalizing n with
  | zero => rfl
  | succ width ih => simp [hexDigits, ih]

theorem hexNumber_hexDigits {width n : Nat} (h : n < 16 ^ width) :
    hexNumber (hexDigits width n) = n := by
  induction width generalizing n with
  | zero =>
    have hzero : n = 0 := by simpa using h
    rw [hzero]
    rfl
  | succ width ih =>
    have hdiv : n / 16 < 16 ^ width := by
      rw [Nat.pow_succ] at h
      omega
    have hread : hexNumber (hexDigits width (n / 16)) = n / 16 := ih hdiv
    unfold hexNumber at hread ⊢
    rw [hexDigits, List.foldl_append, hread]
    show n / 16 * 16 + hexCharValue (hexChar (n % 16)) = n
    rw [hexCharValue_hexChar (Nat.mod_lt n (by omega))]
    omega

/-- The quotes are two. -/
theorem reprQuote_cases (s : PyStr) : reprQuote s = '"'.toNat ∨ reprQuote s = '\''.toNat := by
  unfold reprQuote
  split
  · exact .inl rfl
  · exact .inr rfl

theorem readChar_hexEscape {c : Nat} (hc : c < 0x110000) (r : PyStr) :
    readChar (hexEscape c ++ r) = some (c, r) := by
  unfold hexEscape
  split
  · have hread : hexNumber (hexDigits 2 c) = c := hexNumber_hexDigits (by omega)
    simp [readChar, hread]
  · split
    · have hread : hexNumber (hexDigits 4 c) = c := hexNumber_hexDigits (by omega)
      simp [readChar, hread]
    · have hread : hexNumber (hexDigits 8 c) = c := hexNumber_hexDigits (by omega)
      simp [readChar, hread]

/-- What becomes of a character: a backslash in front of it or of a letter that stands for
it, its number, or the character alone. -/
theorem reprChar_cases (printable : Printable) (quote c : Nat) :
    ((c = quote ∨ c = '\\'.toNat) ∧ reprChar printable quote c = ['\\'.toNat, c]) ∨
    (∃ d, ((c = 9 ∧ d = 't'.toNat) ∨ (c = 10 ∧ d = 'n'.toNat) ∨ (c = 13 ∧ d = 'r'.toNat)) ∧
      reprChar printable quote c = ['\\'.toNat, d]) ∨
    reprChar printable quote c = hexEscape c ∨
    (c ≠ quote ∧ c ≠ '\\'.toNat ∧ reprChar printable quote c = [c]) := by
  unfold reprChar
  by_cases hquoted : c = quote ∨ c = '\\'.toNat
  · exact .inl ⟨hquoted, if_pos hquoted⟩
  rw [if_neg hquoted]
  by_cases htab : c = 9
  · exact .inr (.inl ⟨_, .inl ⟨htab, rfl⟩, if_pos htab⟩)
  rw [if_neg htab]
  by_cases hnewline : c = 10
  · exact .inr (.inl ⟨_, .inr (.inl ⟨hnewline, rfl⟩), if_pos hnewline⟩)
  rw [if_neg hnewline]
  by_cases hreturn : c = 13
  · exact .inr (.inl ⟨_, .inr (.inr ⟨hreturn, rfl⟩), if_pos hreturn⟩)
  rw [if_neg hreturn]
  by_cases hcontrol : c < 32 ∨ c = 127
  · exact .inr (.inr (.inl (if_pos hcontrol)))
  rw [if_neg hcontrol]
  by_cases hplain : c < 127 ∨ printable c = true
  · exact .inr (.inr (.inr ⟨fun h => hquoted (.inl h), fun h => hquoted (.inr h), if_pos hplain⟩))
  · exact .inr (.inr (.inl (if_neg hplain)))

/-- A character is read back from its escape, in front of any text. -/
theorem readChar_reprChar (printable : Printable) {quote c : Nat}
    (hquote : quote = '"'.toNat ∨ quote = '\''.toNat) (hc : c < 0x110000) (r : PyStr) :
    readChar (reprChar printable quote c ++ r) = some (c, r) := by
  rcases reprChar_cases printable quote c with
    ⟨hquoted, h⟩ | ⟨d, hletter, h⟩ | h | ⟨-, hbackslash, h⟩
  · rw [h]
    rcases hquoted with rfl | rfl
    · rcases hquote with rfl | rfl <;> rfl
    · rfl
  · rw [h]
    rcases hletter with ⟨rfl, rfl⟩ | ⟨rfl, rfl⟩ | ⟨rfl, rfl⟩ <;> rfl
  · rw [h]
    exact readChar_hexEscape hc r
  · rw [h]
    show readChar (c :: r) = _
    unfold readChar
    exact if_neg hbackslash

/-- No escape begins with the quote. -/
theorem reprChar_ne_quote (printable : Printable) {quote c : Nat}
    (hquote : quote = '"'.toNat ∨ quote = '\''.toNat) (r s : PyStr) :
    reprChar printable quote c ++ r ≠ quote :: s := by
  have hslash : '\\'.toNat ≠ quote := by
    rcases hquote with rfl | rfl <;> decide
  intro heq
  rcases reprChar_cases printable quote c with ⟨-, h⟩ | ⟨d, -, h⟩ | h | ⟨hplain, -, h⟩
  · rw [h] at heq
    exact hslash (List.cons.inj heq).1
  · rw [h] at heq
    exact hslash (List.cons.inj heq).1
  · rw [h] at heq
    unfold hexEscape at heq
    split at heq
    · exact hslash (List.cons.inj heq).1
    · split at heq <;> exact hslash (List.cons.inj heq).1
  · rw [h] at heq
    exact hplain (List.cons.inj heq).1

/-- A string of Python holds code points. -/
def IsStr (s : PyStr) : Prop := ∀ c ∈ s, c < 0x110000

theorem escapes_inj (printable : Printable) {quote : Nat}
    (hquote : quote = '"'.toNat ∨ quote = '\''.toNat) {a b : PyStr} (ha : IsStr a) (hb : IsStr b)
    {r s : PyStr} (h : a.flatMap (reprChar printable quote) ++ quote :: r =
      b.flatMap (reprChar printable quote) ++ quote :: s) : a = b ∧ r = s := by
  induction a generalizing b with
  | nil =>
    cases b with
    | nil => exact ⟨rfl, (List.cons.inj h).2⟩
    | cons d b =>
      rw [List.flatMap_cons, List.append_assoc] at h
      exact absurd h.symm (reprChar_ne_quote printable hquote _ _)
  | cons c a ih =>
    cases b with
    | nil =>
      rw [List.flatMap_cons, List.append_assoc] at h
      exact absurd h (reprChar_ne_quote printable hquote _ _)
    | cons d b =>
      rw [List.flatMap_cons, List.append_assoc, List.flatMap_cons, List.append_assoc] at h
      have hread := congrArg readChar h
      rw [readChar_reprChar printable hquote (ha c List.mem_cons_self),
        readChar_reprChar printable hquote (hb d List.mem_cons_self)] at hread
      obtain ⟨rfl, hrest⟩ := Prod.mk.inj (Option.some.inj hread)
      obtain ⟨rfl, hrs⟩ := ih (fun x hx => ha x (List.mem_cons_of_mem _ hx))
        (fun x hx => hb x (List.mem_cons_of_mem _ hx)) hrest
      exact ⟨rfl, hrs⟩

/-- A `repr` in front of any text gives away the string. -/
theorem repr_append_inj (printable : Printable) {a b : PyStr} (ha : IsStr a) (hb : IsStr b)
    {r s : PyStr} (h : repr printable a ++ r = repr printable b ++ s) : a = b ∧ r = s := by
  unfold repr at h
  rw [List.append_assoc, List.append_assoc] at h
  obtain ⟨hquote, hrest⟩ := List.cons.inj h
  rw [← hquote] at hrest
  exact escapes_inj printable (reprQuote_cases a) ha hb hrest

example : repr (fun _ => true) (py "it's") = py "\"it's\"" ∧
    repr (fun _ => false) [10, 0xe9, 92] = py "'\\n\\xe9\\\\'" := by
  decide

end FreeIam.Py
