import FreeIam.Py.Str

/-!
# The filter grammar

`LDAP_FILTER_GRAMMAR`, one derivation type for each of its rules. A terminal is
a token type whose field says that its text matches the terminal's pattern, so
every value of `Start` is a derivation, and `Start.text` is the string it
derives. `A?` is an `Option`, `A*` and `A+` are lists; `and_operator` and
`or_operator`, which differ in their symbol only, are one constructor.
-/

namespace FreeIam.Ldap.Grammar

open FreeIam.Py FreeIam.Scan

/-! ## Terminals -/

/-- `common.WS` is `/[ \t\f\r\n]/+`. -/
def isWS (c : Nat) : Bool := c == 32 || c == 9 || c == 12 || c == 13 || c == 10

/-- `[a-zA-Z0-9-;]`. -/
def isNameChar (c : Nat) : Bool :=
  isAsciiLetter c || isAsciiDigit c || c == '-'.toNat || c == ';'.toNat

/-- `/[a-zA-Z][a-zA-Z0-9-;]*/`. -/
def isName : PyStr → Bool
  | [] => false
  | c :: s => isAsciiLetter c && s.all isNameChar

/-- `/\d+[\.\d]*/`: a digit, then digits and dots. -/
def isOid : PyStr → Bool
  | [] => false
  | c :: s => isDecimal c && s.all fun d => isDecimal d || d == '.'.toNat

/-- `attr: /[a-zA-Z][a-zA-Z0-9-;]*/ | oid`. -/
def isAttr (s : PyStr) : Bool := isName s || isOid s

/-- `"dn"i`. -/
def isDn (s : PyStr) : Bool := lower s == py "dn"

/-- `[^\x00()*\\]`. -/
def isPlainChar (c : Nat) : Bool :=
  !(c == 0 || c == '('.toNat || c == ')'.toNat || c == '*'.toNat || c == '\\'.toNat)

/-- `([^\x00()*\\]|\\\\[0-9a-fA-F]{2}|\\[0-9a-fA-F]{2})*`: a backslash begins
`\hh`, or `\\hh` when another backslash follows. -/
def isValueText : PyStr → Bool
  | [] => true
  | c :: s =>
    if c = '\\'.toNat then
      match s with
      | d :: h₁ :: s' =>
        if d = '\\'.toNat then
          match s' with
          | h₂ :: s'' => isHexDigit h₁ && isHexDigit h₂ && isValueText s''
          | [] => false
        else isHexDigit d && isHexDigit h₁ && isValueText s'
      | _ => false
    else isPlainChar c && isValueText s

/-- The token `WS`. -/
structure WS where
  text : PyStr
  nonempty : text ≠ []
  chars : All isWS text

/-- The token of `attr`. -/
structure Attr where
  text : PyStr
  valid : isAttr text = true

/-- The token of `dn`. -/
structure Dn where
  text : PyStr
  valid : isDn text = true

/-- The token of `_value`. -/
structure ValueTok where
  text : PyStr
  nonempty : text ≠ []
  valid : isValueText text = true

/-! ## Rules -/

/-- `ows: ws?`. -/
abbrev Ows := Option WS

/-- `value: ows _value? ows`. -/
structure Value where
  lead : Ows
  body : Option ValueTok
  trail : Ows

/-- `substr_part: _value | "*"`. -/
inductive SubstrPart where
  | value (tok : ValueTok)
  | asterisk

/-- `substrings: substr_part+`. -/
structure Substrings where
  head : SubstrPart
  tail : List SubstrPart

/-- The alternatives of `?comparison`, in the order they are listed. -/
inductive Comparison where
  | presence (attr : Attr)
  | equality (attr : Attr) (value : Value)
  | substring (attr : Attr) (value : Substrings)
  | ge (attr : Attr) (value : Value)
  | le (attr : Attr) (value : Value)
  | approx (attr : Attr) (value : Value)
  | extmatchNoattrDnMatch (dn : Dn) (matchingrule : Attr) (value : Value)
  | extmatchAttrDnMatch (attr : Attr) (dn : Dn) (matchingrule : Attr) (value : Value)
  | extmatchAttrDnNomatch (attr : Attr) (dn : Dn) (value : Value)
  | extmatchNoattrNodnMatch (matchingrule : Attr) (value : Value)
  | extmatchAttrNodnMatch (attr : Attr) (matchingrule : Attr) (value : Value)
  | extmatchAttrNodnNomatch (attr : Attr) (value : Value)

/-- The two operators over any number of groups. -/
inductive ListOp where
  | and
  | or
  deriving DecidableEq, Repr

/-- The operator's symbol. -/
def ListOp.symbol : ListOp → Nat
  | .and => '&'.toNat
  | .or => '|'.toNat

mutual

/-- `operator | expression`: what stands between a group's optional white
space.

    expression: "(" ows comparison ows ")"
    and_operator: "(" ows "&" ows groups ows ")"
    or_operator:  "(" ows "|" ows groups ows ")"
    not_operator: "(" ows "!" ows _group  ows ")"
-/
inductive Node where
  | expression (lead : Ows) (comparison : Comparison) (trail : Ows)
  | listOperator (op : ListOp) (sep lead : Ows) (groups : Groups) (trail : Ows)
  | notOperator (sep lead pre : Ows) (node : Node) (post trail : Ows)

/-- `groups: _group*` with `_group: ws? (operator | expression) ws?`. -/
inductive Groups where
  | nil
  | cons (pre : Ows) (node : Node) (post : Ows) (rest : Groups)

end

/-- `start: _group | bare`. -/
inductive Start where
  | group (pre : Ows) (node : Node) (post : Ows)
  | bare (comparison : Comparison)

/-! ## The derived text -/

/-- The text of optional white space. -/
def Ows.text : Ows → PyStr
  | none => []
  | some ws => ws.text

def Value.text (v : Value) : PyStr :=
  Ows.text v.lead ++ (v.body.elim [] ValueTok.text ++ Ows.text v.trail)

def SubstrPart.text : SubstrPart → PyStr
  | .value tok => tok.text
  | .asterisk => py "*"

def Substrings.text (s : Substrings) : PyStr :=
  s.head.text ++ s.tail.flatMap SubstrPart.text

def Comparison.text : Comparison → PyStr
  | .presence attr => attr.text ++ py "=*"
  | .equality attr value => attr.text ++ py "=" ++ value.text
  | .substring attr value => attr.text ++ py "=" ++ value.text
  | .ge attr value => attr.text ++ py ">=" ++ value.text
  | .le attr value => attr.text ++ py "<=" ++ value.text
  | .approx attr value => attr.text ++ py "~=" ++ value.text
  | .extmatchNoattrDnMatch dn rule value =>
    py ":" ++ dn.text ++ py ":" ++ rule.text ++ py ":=" ++ value.text
  | .extmatchAttrDnMatch attr dn rule value =>
    attr.text ++ py ":" ++ dn.text ++ py ":" ++ rule.text ++ py ":=" ++ value.text
  | .extmatchAttrDnNomatch attr dn value =>
    attr.text ++ py ":" ++ dn.text ++ py ":=" ++ value.text
  | .extmatchNoattrNodnMatch rule value => py ":" ++ rule.text ++ py ":=" ++ value.text
  | .extmatchAttrNodnMatch attr rule value =>
    attr.text ++ py ":" ++ rule.text ++ py ":=" ++ value.text
  | .extmatchAttrNodnNomatch attr value => attr.text ++ py ":=" ++ value.text

mutual

def Node.text : Node → PyStr
  | .expression lead comparison trail =>
    py "(" ++ (Ows.text lead ++ comparison.text ++ Ows.text trail) ++ py ")"
  | .listOperator op sep lead groups trail =>
    py "(" ++ Ows.text sep ++ [op.symbol] ++ Ows.text lead ++ groups.text ++ Ows.text trail ++ py ")"
  | .notOperator sep lead pre node post trail =>
    py "(" ++ Ows.text sep ++ py "!" ++ Ows.text lead ++ Ows.text pre ++ node.text ++ Ows.text post
      ++ Ows.text trail ++ py ")"

def Groups.text : Groups → PyStr
  | .nil => []
  | .cons pre node post rest => Ows.text pre ++ node.text ++ Ows.text post ++ rest.text

end

def Start.text : Start → PyStr
  | .group pre node post => Ows.text pre ++ node.text ++ Ows.text post
  | .bare comparison => comparison.text

/-! ## Classes of characters -/

/-- The characters of attribute names and object identifiers. -/
def isAttrChar (c : Nat) : Bool :=
  isAsciiLetter c || isDecimal c || c == '-'.toNat || c == ';'.toNat || c == '.'.toNat

theorem isWS_cases {c : Nat} (h : isWS c = true) :
    c = 32 ∨ c = 9 ∨ c = 12 ∨ c = 13 ∨ c = 10 := by
  simp only [isWS, Bool.or_eq_true, beq_iff_eq] at h
  omega

/-- Grammar white space is white space of `str.strip`. -/
theorem isSpace_of_isWS {c : Nat} (h : isWS c = true) : isSpace c = true := by
  rcases isWS_cases h with rfl | rfl | rfl | rfl | rfl <;> decide

theorem isWS_plain {c : Nat} (h : isWS c = true) : isPlainChar c = true := by
  rcases isWS_cases h with rfl | rfl | rfl | rfl | rfl <;> decide

theorem isAttrChar_cases {c : Nat} (h : isAttrChar c = true) :
    (65 ≤ c ∧ c ≤ 90) ∨ (97 ≤ c ∧ c ≤ 122) ∨ (48 ≤ c ∧ c ≤ 57) ∨ 0x660 ≤ c ∨
      c = 45 ∨ c = 59 ∨ c = 46 := by
  simp only [isAttrChar, isAsciiLetter, Bool.or_eq_true, Bool.and_eq_true, decide_eq_true_eq,
    beq_iff_eq] at h
  rcases h with (((h | h) | h) | h) | h
  · omega
  · rcases isDecimal_cases h with h | h
    · simp only [isAsciiDigit, Bool.and_eq_true, decide_eq_true_eq] at h
      omega
    · omega
  · right; right; right; right; left; simpa using h
  · right; right; right; right; right; left; simpa using h
  · right; right; right; right; right; right; simpa using h

theorem isNameChar_isAttrChar {c : Nat} (h : isNameChar c = true) : isAttrChar c = true := by
  simp only [isNameChar, Bool.or_eq_true] at h
  simp only [isAttrChar, Bool.or_eq_true]
  rcases h with ((h | h) | h) | h
  · exact .inl (.inl (.inl (.inl h)))
  · exact .inl (.inl (.inl (.inr (isDecimal_of_isAsciiDigit h))))
  · exact .inl (.inl (.inr h))
  · exact .inl (.inr h)

theorem isAttr_spec {s : PyStr} (h : isAttr s = true) : s ≠ [] ∧ All isAttrChar s := by
  cases s with
  | nil => simp [isAttr, isName, isOid] at h
  | cons c s =>
    refine ⟨List.cons_ne_nil c s, all_cons.mpr ?_⟩
    simp only [isAttr, isName, isOid, Bool.or_eq_true, Bool.and_eq_true, List.all_eq_true] at h
    rcases h with ⟨hc, hs⟩ | ⟨hc, hs⟩
    · exact ⟨by simp [isAttrChar, hc], fun d hd => isNameChar_isAttrChar (hs d hd)⟩
    · refine ⟨by simp [isAttrChar, hc], fun d hd => ?_⟩
      simp only [isAttrChar, Bool.or_eq_true]
      rcases hs d hd with h | h
      · exact .inl (.inl (.inl (.inr h)))
      · exact .inr h

theorem Attr.ne_nil (a : Attr) : a.text ≠ [] := (isAttr_spec a.valid).1

theorem Attr.chars (a : Attr) : All isAttrChar a.text := (isAttr_spec a.valid).2

/-- The text of the flag is two letters. -/
theorem isDn_spec {s : PyStr} (h : isDn s = true) : s ≠ [] ∧ isAttr s = true := by
  simp only [isDn, beq_iff_eq] at h
  match s with
  | [] => simp [lower, py] at h
  | [_] => simp [lower, py] at h
  | c :: d :: e :: s => simp [lower, py] at h
  | [c, d] =>
    simp only [lower, lowerChar, py, List.map_cons, List.map_nil, List.cons.injEq, and_true,
      show "dn".toList = ['d', 'n'] from rfl, show 'd'.toNat = 100 from rfl,
      show 'n'.toNat = 110 from rfl, Bool.and_eq_true, decide_eq_true_eq] at h
    have hc : isAsciiLetter c = true := by
      simp only [isAsciiLetter, Bool.or_eq_true, Bool.and_eq_true, decide_eq_true_eq]
      split at h <;> omega
    have hd : isAsciiLetter d = true := by
      simp only [isAsciiLetter, Bool.or_eq_true, Bool.and_eq_true, decide_eq_true_eq]
      obtain ⟨-, h⟩ := h
      split at h <;> omega
    exact ⟨by simp, by simp [isAttr, isName, isNameChar, hc, hd]⟩

theorem Dn.chars (d : Dn) : All isAttrChar d.text := (isAttr_spec (isDn_spec d.valid).2).2

theorem Dn.ne_nil (d : Dn) : d.text ≠ [] := (isDn_spec d.valid).1

/-- The flag's token is also a token of `attr`. -/
def Dn.toAttr (d : Dn) : Attr := ⟨d.text, (isDn_spec d.valid).2⟩

@[simp] theorem Ows.text_none : Ows.text none = [] := rfl

@[simp] theorem Ows.text_some (w : WS) : Ows.text (some w) = w.text := rfl

theorem Ows.chars (w : Ows) : All isWS (Ows.text w) := by
  cases w with
  | none => simp
  | some w => exact w.chars

theorem Ows.spaces (w : Ows) : All isSpace (Ows.text w) :=
  (Ows.chars w).mono fun _ => isSpace_of_isWS

theorem Ows.text_eq_nil {w : Ows} : Ows.text w = [] ↔ w = none := by
  cases w with
  | none => simp
  | some w => simp [w.nonempty]

/-- Optional white space with a given text. -/
def Ows.ofText (s : PyStr) (h : All isWS s) : Ows :=
  if hs : s = [] then none else some ⟨s, hs, h⟩

@[simp] theorem Ows.text_ofText (s : PyStr) (h : All isWS s) : Ows.text (Ows.ofText s h) = s := by
  unfold Ows.ofText
  split
  · rename_i hs
    simp [hs]
  · rfl

/-! ## Texts of values -/

/-- No character of a value text is NUL, a bracket or an asterisk. -/
def isValueChar (c : Nat) : Bool := isPlainChar c || c == '\\'.toNat

theorem isHexDigit_plain {c : Nat} (h : isHexDigit c = true) : isPlainChar c = true := by
  simp only [isHexDigit, isAsciiDigit, Bool.or_eq_true, Bool.and_eq_true, decide_eq_true_eq] at h
  simp [isPlainChar]
  omega

theorem isValueText_plain {c : Nat} (s : PyStr) (h : c ≠ '\\'.toNat) :
    isValueText (c :: s) = (isPlainChar c && isValueText s) := by
  rw [isValueText.eq_def]
  simp only [if_neg h]

theorem isValueText_escape {d : Nat} (h : Nat) (s : PyStr) (hd : d ≠ '\\'.toNat) :
    isValueText ('\\'.toNat :: d :: h :: s) =
      (isHexDigit d && isHexDigit h && isValueText s) := by
  rw [isValueText.eq_def]
  simp only [if_pos, if_neg hd]

theorem isValueText_escape₂ (h₁ h₂ : Nat) (s : PyStr) :
    isValueText ('\\'.toNat :: '\\'.toNat :: h₁ :: h₂ :: s) =
      (isHexDigit h₁ && isHexDigit h₂ && isValueText s) := by
  rw [isValueText.eq_def]
  simp only [if_pos]

/-- Induction over the units of a value text: characters and escapes. -/
theorem isValueText_induction {P : PyStr → Prop} (nil : P [])
    (plain : ∀ c s, isPlainChar c = true → isValueText s = true → P s → P (c :: s))
    (escape : ∀ d h s, isHexDigit d = true → isHexDigit h = true → isValueText s = true →
      P s → P ('\\'.toNat :: d :: h :: s))
    (escape₂ : ∀ h₁ h₂ s, isHexDigit h₁ = true → isHexDigit h₂ = true →
      isValueText s = true → P s → P ('\\'.toNat :: '\\'.toNat :: h₁ :: h₂ :: s))
    (s : PyStr) (h : isValueText s = true) : P s := by
  fun_induction isValueText s with
  | case1 => exact nil
  | case2 h₁ h₂ s ih =>
    simp only [Bool.and_eq_true] at h
    exact escape₂ h₁ h₂ s h.1.1 h.1.2 h.2 (ih h.2)
  | case3 h₁ => cases h
  | case4 d h₁ s hd ih =>
    simp only [Bool.and_eq_true] at h
    exact escape d h₁ s h.1.1 h.1.2 h.2 (ih h.2)
  | case5 => cases h
  | case6 c s hc ih =>
    simp only [Bool.and_eq_true] at h
    exact plain c s h.1 h.2 (ih h.2)

theorem isPlainChar_ne_backslash {c : Nat} (h : isPlainChar c = true) : c ≠ '\\'.toNat := by
  rintro rfl
  cases h

theorem isHexDigit_ne_backslash {c : Nat} (h : isHexDigit c = true) : c ≠ '\\'.toNat :=
  isPlainChar_ne_backslash (isHexDigit_plain h)

theorem isValueText_chars (s : PyStr) (h : isValueText s = true) : All isValueChar s := by
  refine isValueText_induction ?_ ?_ ?_ ?_ s h
  · exact .nil
  · intro c s hc _ ih
    exact all_cons.mpr ⟨by simp [isValueChar, hc], ih⟩
  · intro d h s hd hh _ ih
    simp [isValueChar, isHexDigit_plain hd, isHexDigit_plain hh, ih]
  · intro h₁ h₂ s hh₁ hh₂ _ ih
    simp [isValueChar, isHexDigit_plain hh₁, isHexDigit_plain hh₂, ih]

theorem isValueText_append (s t : PyStr) (hs : isValueText s = true) (ht : isValueText t = true) :
    isValueText (s ++ t) = true := by
  refine isValueText_induction (P := fun s => isValueText (s ++ t) = true) ?_ ?_ ?_ ?_ s hs
  · exact ht
  · intro c s hc _ ih
    rw [List.cons_append, isValueText_plain _ (isPlainChar_ne_backslash hc), hc, ih]
    rfl
  · intro d h s hd hh _ ih
    simp only [List.cons_append]
    rw [isValueText_escape _ _ (isHexDigit_ne_backslash hd), hd, hh, ih]
    rfl
  · intro h₁ h₂ s hh₁ hh₂ _ ih
    simp only [List.cons_append]
    rw [isValueText_escape₂, hh₁, hh₂, ih]
    rfl

theorem isValueText_of_plain {s : PyStr} (h : All isPlainChar s) : isValueText s = true := by
  induction s with
  | nil => rfl
  | cons c s ih =>
    obtain ⟨hc, hs⟩ := all_cons.mp h
    rw [isValueText_plain _ (isPlainChar_ne_backslash hc), hc, ih hs]
    rfl

/-! ## White space at the ends of a value text -/

theorem isSpace_not_hex {c : Nat} (h : isSpace c = true) : isHexDigit c = false := by
  cases hh : isHexDigit c with
  | false => rfl
  | true =>
    rw [isHexDigit_not_space hh] at h
    cases h

theorem isSpace_not_backslash {c : Nat} (h : isSpace c = true) : c ≠ '\\'.toNat := by
  rintro rfl
  cases h

/-- White space at the end of a value text is no part of an escape. -/
theorem isValueText_of_append_space {s b : PyStr} (hb : All isSpace b)
    (h : isValueText (s ++ b) = true) : isValueText s = true := by
  fun_induction isValueText s with
  | case1 => rfl
  | case2 h₁ h₂ s ih =>
    simp only [List.cons_append] at h
    rw [isValueText_escape₂, Bool.and_eq_true] at h
    rw [h.1, ih h.2]
    rfl
  | case3 h₁ =>
    -- an escape of two backslashes that the text leaves unfinished
    cases b with
    | nil => simp [isValueText] at h
    | cons c b =>
      simp only [List.cons_append, List.nil_append] at h
      rw [isValueText_escape₂, isSpace_not_hex (all_cons.mp hb).1] at h
      simp at h
  | case4 d h₁ s hd ih =>
    simp only [List.cons_append] at h
    rw [isValueText_escape _ _ hd, Bool.and_eq_true] at h
    rw [h.1, ih h.2]
    rfl
  | case5 s hs =>
    -- an escape that the text leaves unfinished
    cases s with
    | nil =>
      cases b with
      | nil => simp [isValueText] at h
      | cons c b =>
        obtain ⟨hc, hb⟩ := all_cons.mp hb
        cases b with
        | nil => simp [isValueText] at h
        | cons d b =>
          simp only [List.cons_append, List.nil_append] at h
          rw [isValueText_escape _ _ (isSpace_not_backslash hc), isSpace_not_hex hc] at h
          simp at h
    | cons d s =>
      cases s with
      | nil =>
        cases b with
        | nil => simp [isValueText] at h
        | cons c b =>
          obtain ⟨hc, hb⟩ := all_cons.mp hb
          simp only [List.cons_append, List.nil_append] at h
          by_cases hd : d = '\\'.toNat
          · subst hd
            cases b with
            | nil => simp [isValueText] at h
            | cons e b =>
              rw [isValueText_escape₂, isSpace_not_hex hc] at h
              simp at h
          · rw [isValueText_escape _ _ hd, isSpace_not_hex hc] at h
            simp at h
      | cons h₁ s => exact absurd rfl (hs d h₁ s)
  | case6 c s hc ih =>
    rw [List.cons_append, isValueText_plain _ hc, Bool.and_eq_true] at h
    rw [h.1, ih h.2]
    rfl

theorem isPlainChar_of_isSpace {c : Nat} (h : isSpace c = true) : isPlainChar c = true := by
  have := isSpace_cases h
  simp [isPlainChar]
  omega

/-- So is white space at its beginning. -/
theorem isValueText_of_space_append {a s : PyStr} (ha : All isSpace a)
    (h : isValueText (a ++ s) = true) : isValueText s = true := by
  induction a with
  | nil => exact h
  | cons c a ih =>
    obtain ⟨hc, ha⟩ := all_cons.mp ha
    rw [List.cons_append,
      isValueText_plain _ (isPlainChar_ne_backslash (isPlainChar_of_isSpace hc)),
      Bool.and_eq_true] at h
    exact ih ha h.2

end FreeIam.Ldap.Grammar
