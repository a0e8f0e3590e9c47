import FreeIam.Ldap.Filter.Injection
import FreeIam.Ldap.Filter.Unescape

/-!
# Substring matches

`Filter.get_substring` joins its parts with nothing in between and escapes the
whole, so it prints what `Filter.get_eq` prints for the joined text: no wildcard
marks where a part ends, and `SubstringMatch.values` cannot give the parts back.
-/

namespace FreeIam.Ldap

open FreeIam.Py FreeIam.Scan

/-- `str.split` on a separator is undone by joining with it, which takes one
separator between two parts. -/
theorem splitOn_flatten_ne {α : Type} [DecidableEq α] (x : α) {parts : List (List α)}
    (h : 2 ≤ parts.length) : parts.flatten.splitOn x ≠ parts := by
  intro hsplit
  have hlength : ∀ ps : List (List α),
      ([x].intercalate ps).length = ps.flatten.length + (ps.length - 1) := by
    intro ps
    induction ps with
    | nil => rfl
    | cons p ps ih =>
      cases ps with
      | nil => simp
      | cons q ps =>
        rw [List.intercalate_cons_cons, List.length_append, List.length_append, ih]
        simp only [List.flatten_cons, List.length_append, List.length_cons, List.length_nil]
        omega
  have hjoin : [x].intercalate parts = parts.flatten := by
    rw [← hsplit, List.intercalate_splitOn, hsplit]
  have hone := hlength parts
  rw [hjoin] at hone
  omega

/-- `Filter(s)` is a single comparison, a substring match with the given values. -/
def ParsesToSubstring (lark : LarkParser) (s : PyStr) (parts : List PyStr) : Prop :=
  ∃ f c, Filter.init lark (some s) = .ok f ∧ f.outline id = [.leaf c] ∧
    c.cls = .substringMatch ∧ c.values = parts

/-- A text that a bare comparison derives is parsed as one comparison, which has
the value of the reading, or as a presence match. -/
theorem Filter.bare_value {lark : LarkParser} {gc : Grammar.Comparison} {f : Filter}
    {c : Comparison} (h : Filter.init lark (some gc.text) = .ok f)
    (hleaf : f.outline id = [.leaf c]) :
    c.rawValue = gc.reading.rawValue ∧ c.isEscaped = true := by
  have htext : (Grammar.Start.bare gc).text = gc.text := rfl
  rcases Filter.init_cases h with ⟨hblank, -⟩ | ⟨-, d, root, -, hd, hroot, rfl⟩
  · exact absurd (htext ▸ hblank) (Grammar.Start.bare gc).text_ne_blank
  · cases d with
    | group pre n post => exact absurd hd.symm (gc.text_ne_group pre n _)
    | bare c' =>
      obtain ⟨cmp, hcmp, rfl⟩ := Grammar.Start.transform_bare hroot
      have hc : cmp = c := by
        simpa [Filter.outline, containerOf, Transformer.start, Transformer.bare,
          Expressions.ofList, Expression.outline, Expressions.outline] using hleaf
      have hreading : c'.reading = gc.reading := by
        have htext' : c'.text = gc.text := hd
        have hread := c'.readComparison_text none none
        have hread' := gc.readComparison_text none none
        rw [htext'] at hread
        exact hread.symm.trans hread'
      obtain ⟨-, -, hraw, hescaped⟩ := Grammar.Comparison.transform_reading hcmp
      rw [← hc, ← hreading]
      exact ⟨hraw, hescaped⟩

/-- What a printed substring match of ASCII parts is parsed to holds the joined
text as its value. -/
theorem getSubstring_value {lark : LarkParser} {attr : PyStr} {parts : List PyStr} {f : Filter}
    {c : Comparison} (hattr : Grammar.isAttr attr = true)
    (hascii : ∀ p ∈ parts, ∀ x ∈ p, x < 128)
    (h : Filter.init lark (some (getSubstring attr parts).str) = .ok f)
    (hleaf : f.outline id = [.leaf c]) : c.value = parts.flatten := by
  let built := Comparison.init .substringMatch attr parts.flatten false
  have hprinted : PrintedAs built (.equality ⟨attr, hattr⟩
      (escapedValue .substringMatch attr parts.flatten)) :=
    printedAs_valued _ rfl (Comparison.init_str _ _ _) rfl (Grammar.Value.text_ofText _ _) rfl
      rfl rfl
  have hstr : (getSubstring attr parts).str = built.str := rfl
  rw [hstr, ← hprinted.text] at h
  obtain ⟨hraw, hescaped⟩ := Filter.bare_value h hleaf
  -- the escaped text has no asterisk of its own and no white space at its ends
  have hread : (Grammar.Comparison.equality ⟨attr, hattr⟩
      (escapedValue .substringMatch attr parts.flatten)).reading.rawValue = built.escaped := by
    have hstrip : strip (escapedValue .substringMatch attr parts.flatten).text = built.escaped := by
      rw [escapedValue, Grammar.Value.text_ofText]
      exact (Comparison.escaped_spec rfl).2
    have hpres : (Grammar.Comparison.equality ⟨attr, hattr⟩
        (escapedValue .substringMatch attr parts.flatten)).reading.isPresence = false := by
      have hne := Grammar.Comparison.valued_notMem (c := .equality ⟨attr, hattr⟩
        (escapedValue .substringMatch attr parts.flatten)) rfl
      simpa [Reading.isPresence, Grammar.Comparison.reading] using fun _ => hne
    rw [Reading.rawValue, hpres]
    exact hstrip
  have hflat : ∀ x ∈ parts.flatten, x < 128 := by
    intro x hx
    obtain ⟨p, hp, hxp⟩ := List.mem_flatten.mp hx
    exact hascii p hp x hxp
  rw [Comparison.value, hescaped, if_pos rfl, hraw, hread]
  exact (Comparison.unescape_escaped_iff (c := built) rfl).mpr (.inr hflat)

/-- No list of two or more parts comes back as the values of the substring match
that is parsed from the printed one. -/
theorem get_substring_never (lark : LarkParser) (attr : PyStr) (parts : List PyStr)
    (hattr : Grammar.isAttr attr = true) (htwo : 2 ≤ parts.length)
    (hascii : ∀ p ∈ parts, ∀ x ∈ p, x < 128) :
    ¬ ParsesToSubstring lark (getSubstring attr parts).str parts := by
  rintro ⟨f, c, hf, hleaf, -, hvalues⟩
  rw [Comparison.values, getSubstring_value hattr hascii hf hleaf] at hvalues
  exact splitOn_flatten_ne _ htwo hvalues

theorem get_substring_never_split :
    ¬ ParsesToSubstring resolver (getSubstring (py "cn") [py "Jo", py "n"]).str
      [py "Jo", py "n"] :=
  get_substring_never resolver (py "cn") [py "Jo", py "n"] (by decide) (by decide) (by decide)

/-- `*foo*` as a prefix and a suffix wildcard is printed as `cn=foo`. -/
theorem get_substring_drops_wildcards :
    (getSubstring (py "cn") [[], py "foo", []]).str = py "cn=foo" ∧
      ¬ ParsesToSubstring resolver (py "cn=foo") [[], py "foo", []] := by
  refine ⟨by decide, ?_⟩
  rintro ⟨f, c, hf, hleaf, -, hvalues⟩
  have hascii : ∀ part ∈ [[], py "foo", []], ∀ x ∈ part, x < 128 := by decide
  have hvalue : c.value = py "foo" :=
    getSubstring_value (by decide : Grammar.isAttr (py "cn") = true) hascii hf hleaf
  rw [Comparison.values, hvalue] at hvalues
  exact absurd hvalues (by decide)

end FreeIam.Ldap
