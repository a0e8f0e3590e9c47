import FreeIam.Ldap.Connection.Write
import FreeIam.Ldap.Hierarchy

/-!
# Concatenation of names

`+` prints both names with a comma between and parses the text, `compose` joins the
lists of RDNs first. The two differ at the empty name, which prints as nothing: the
comma is then the first or the last character.
-/

namespace FreeIam.Ldap

open FreeIam.Py FreeIam.Errors

/-! ## `DN.compose` -/

/-- A part of a composed name. -/
inductive NamePart
  | dn (dn : DN)
  | text (text : PyStr)
  | triple (ava : Ava)
  | pair (attr value : PyStr)
  /-- Anything else, such as a longer tuple. -/
  | other

variable {ω : Type} (lib : Modlists ω)

/-- The RDNs of a part. -/
def NamePart.rdns : NamePart → Except PyExc (List (List Ava))
  | .dn name => .ok name.rdns
  | .text s => (DN.init lib.toEnv s).map DN.rdns
  | .triple ava => .ok [[ava]]
  | .pair attr value => .ok [[(attr, value, avaString)]]
  | .other => .error (.raised "TypeError")

/-- The loop of `compose` over its parts. -/
def composeRdns : List NamePart → Except PyExc (List (List Ava))
  | [] => .ok []
  | part :: parts => do
    let rdns ← part.rdns lib
    let rest ← composeRdns parts
    return rdns ++ rest

/-- `DN.compose` -/
def DN.compose (parts : List NamePart) : Except PyExc DN := do
  let rdns ← composeRdns lib parts
  DN.init lib.toEnv (lib.dn2str rdns)

/-! ## The laws -/

/-- `a + b` has the RDNs of both, and is the name that `compose` makes of the two. -/
def Concatenates (a b : DN) : Prop :=
  ∃ x y, a.add lib (some b) = .ok x ∧ x.rdns = a.rdns ++ b.rdns ∧
    DN.compose lib [.dn a, .dn b] = .ok y ∧ x.eq lib.toNames y = true

/-- `(a + b) + c == a + (b + c)` -/
def Associates (a b c : DN) : Prop :=
  ∃ x y, (a.add lib (some b) >>= fun ab => ab.add lib (some c)) = .ok x ∧
    (b.add lib (some c) >>= fun bc => a.add lib (some bc)) = .ok y ∧ x.eq lib.toNames y = true

/-- `DN('') + a == a` -/
def LeftNeutral (a : DN) : Prop :=
  ∃ x, (DN.init lib.toEnv [] >>= fun empty => empty.add lib (some a)) = .ok x ∧
    x.eq lib.toNames a = true

/-- `a + DN('') == a` -/
def RightNeutral (a : DN) : Prop :=
  ∃ x, (DN.init lib.toEnv [] >>= fun empty => a.add lib (some empty)) = .ok x ∧
    x.eq lib.toNames a = true

/-- `a[:i] + a[i:] == a` -/
def Rejoins (a : DN) (i : Nat) : Prop :=
  ∃ x y z, a.getSlice lib.toNames none (some i) = .ok x ∧
    a.getSlice lib.toNames (some i) none = .ok y ∧
    x.add lib (some y) = .ok z ∧ z.eq lib.toNames a = true

/-! ## What is relied on -/

/-- Documented behaviour of `str2dn` and `dn2str`: RDNs are printed with commas between,
the empty name as nothing, and no name begins with a comma. Whether the parser takes a
comma at the end of a name is left open: `comma` says so of every name alike. -/
structure Names.Joins (names : Names ω) (comma : Prop) : Prop where
  empty : names.str2dn [] = .ok []
  nothing : names.dn2str [] = []
  joined : ∀ rs ss : List (List Ava), rs ≠ [] → ss ≠ [] → (∀ rdn ∈ rs ++ ss, names.ParsedRdn rdn) →
    names.dn2str (rs ++ ss) = names.dn2str rs ++ py "," ++ names.dn2str ss
  leading : ∀ s, ∃ e, names.str2dn (','.toNat :: s) = .error e
  taken : comma → ∀ rdns : List (List Ava), rdns ≠ [] → (∀ rdn ∈ rdns, names.ParsedRdn rdn) →
    names.str2dn (names.dn2str rdns ++ py ",") = .ok rdns
  refused : ¬ comma → ∀ rdns : List (List Ava), rdns ≠ [] → (∀ rdn ∈ rdns, names.ParsedRdn rdn) →
    (∃ e, names.str2dn (names.dn2str rdns ++ py ",") = .error e) ∧
      ∃ e, names.str2dn (unquoteQuestionMark (names.dn2str rdns ++ py ",")) = .error e

/-- The sum is made: the first name is not empty, and the second one is empty only where
the parser takes the comma. -/
def Addable (comma : Prop) (a b : DN) : Prop := a.len ≠ 0 ∧ (b.len = 0 → comma)

/-! ## Sums -/

variable {lib : Modlists ω} {comma : Prop}

theorem DN.add_some (a b : DN) :
    a.add lib (some b) = DN.init lib.toEnv (lib.dn2str a.rdns ++ py "," ++ lib.dn2str b.rdns) := rfl

theorem Names.Joins.init_empty (hjoins : lib.Joins comma) : DN.init lib.toEnv [] = .ok ⟨[], []⟩ := by
  rw [DN.init, hjoins.empty]

theorem Names.Joins.plain_empty (hjoins : lib.Joins comma) : lib.Plain ⟨[], []⟩ :=
  ⟨⟨[], hjoins.init_empty⟩, fun _ hrdn => absurd hrdn List.not_mem_nil⟩

/-- The constructor raises where neither text is read. -/
theorem DN.init_error {text : PyStr} (h : ∃ e, lib.str2dn text = .error e)
    (hunquoted : ∃ e, lib.str2dn (unquoteQuestionMark text) = .error e) :
    ∃ e, DN.init lib.toEnv text = .error e := by
  obtain ⟨e, he⟩ := h
  obtain ⟨e', he'⟩ := hunquoted
  rw [DN.init, he, he']
  simp only
  split
  · split
    · exact ⟨_, rfl⟩
    · exact ⟨_, rfl⟩
  · exact ⟨_, rfl⟩

/-- The second attempt of the constructor leaves the leading comma. -/
theorem Names.Joins.init_leading (hjoins : lib.Joins comma) (s : PyStr) :
    ∃ e, DN.init lib.toEnv (','.toNat :: s) = .error e := by
  have hunquote : unquoteQuestionMark (','.toNat :: s) = ','.toNat :: unquoteQuestionMark s := by
    simp [unquoteQuestionMark]
  refine DN.init_error (hjoins.leading s) ?_
  rw [hunquote]
  exact hjoins.leading _

theorem DN.add_ok (hjoins : lib.Joins comma) (hprint : lib.RoundTrips) {a b : DN}
    (ha : lib.Plain a) (hb : lib.Plain b) (hadd : Addable comma a b) :
    ∃ x, a.add lib (some b) = .ok x ∧ x.rdns = a.rdns ++ b.rdns ∧ lib.Plain x := by
  have hne : a.rdns ≠ [] := fun hnil => hadd.1 (congrArg List.length hnil)
  have hparsed : ∀ rdn ∈ a.rdns ++ b.rdns, lib.ParsedRdn rdn := by
    intro rdn hrdn
    rcases List.mem_append.mp hrdn with h | h
    · exact ha.parsed rdn h
    · exact hb.parsed rdn h
  by_cases hempty : b.rdns = []
  · -- the comma stands at the end
    have hread := hjoins.taken (hadd.2 (congrArg List.length hempty)) a.rdns hne ha.parsed
    have hinit : a.add lib (some b) = .ok ⟨lib.dn2str a.rdns ++ py ",", a.rdns⟩ := by
      rw [DN.add_some, hempty, hjoins.nothing, List.append_nil, DN.init, hread]
    refine ⟨_, hinit, ?_, ⟨_, hinit⟩, ha.noHex⟩
    rw [hempty, List.append_nil]
  · have hinit : a.add lib (some b) = .ok ⟨lib.dn2str (a.rdns ++ b.rdns), a.rdns ++ b.rdns⟩ := by
      rw [DN.add_some, ← hjoins.joined a.rdns b.rdns hne hempty hparsed, DN.init_dn2str hprint hparsed]
    exact ⟨_, hinit, rfl, Names.plain_dn2str hprint hparsed⟩

theorem DN.add_error (hjoins : lib.Joins comma) {a b : DN} (ha : lib.Plain a) (hadd : ¬ Addable comma a b) :
    ∃ e, a.add lib (some b) = .error e := by
  rw [DN.add_some]
  by_cases hempty : a.rdns = []
  · -- the comma stands at the beginning
    rw [hempty, hjoins.nothing]
    exact hjoins.init_leading _
  · have hlen : a.len ≠ 0 := fun hzero => hempty (List.eq_nil_of_length_eq_zero hzero)
    have hb : b.len = 0 ∧ ¬ comma := by
      by_contra hnot
      exact hadd ⟨hlen, fun hzero => not_not.mp fun hcomma => hnot ⟨hzero, hcomma⟩⟩
    rw [List.eq_nil_of_length_eq_zero hb.1, hjoins.nothing, List.append_nil]
    obtain ⟨hread, hunquoted⟩ := hjoins.refused hb.2 a.rdns hempty ha.parsed
    exact DN.init_error hread hunquoted

/-- A sum that is made was to be made. -/
theorem DN.addable_of_ok (hjoins : lib.Joins comma) {a b x : DN} (ha : lib.Plain a) (h : a.add lib (some b) = .ok x) :
    Addable comma a b := by
  by_contra hadd
  obtain ⟨e, he⟩ := DN.add_error hjoins ha hadd
  rw [h] at he
  cases he

/-! ## The laws, one by one -/

section

variable (hjoins : lib.Joins comma) (hprint : lib.RoundTrips) {a b c : DN} (ha : lib.Plain a)
  (hb : lib.Plain b)

include hjoins hprint ha hb

theorem concatenates_iff : Concatenates lib a b ↔ Addable comma a b := by
  constructor
  · rintro ⟨x, y, hx, -⟩
    exact DN.addable_of_ok hjoins ha hx
  · intro hadd
    obtain ⟨x, hx, hrdns, -⟩ := DN.add_ok hjoins hprint ha hb hadd
    have hparsed : ∀ rdn ∈ a.rdns ++ b.rdns, lib.ParsedRdn rdn := by
      intro rdn hrdn
      rcases List.mem_append.mp hrdn with h | h
      · exact ha.parsed rdn h
      · exact hb.parsed rdn h
    have hcompose : DN.compose lib [.dn a, .dn b]
        = .ok ⟨lib.dn2str (a.rdns ++ b.rdns), a.rdns ++ b.rdns⟩ := by
      have hparts : composeRdns lib [.dn a, .dn b] = .ok (a.rdns ++ (b.rdns ++ [])) := rfl
      rw [DN.compose, hparts, List.append_nil]
      exact DN.init_dn2str hprint hparsed
    exact ⟨x, _, hx, hrdns, hcompose, DN.eq_of_rdns hrdns⟩

theorem associates_iff (hc : lib.Plain c) :
    Associates lib a b c ↔ a.len ≠ 0 ∧ b.len ≠ 0 ∧ (c.len = 0 → comma) := by
  constructor
  · rintro ⟨x, y, hx, hy, -⟩
    -- a sum of sums succeeds only with its inner sums
    cases hab : a.add lib (some b) with
    | error e =>
      rw [hab] at hx
      cases hx
    | ok ab =>
      cases hbc : b.add lib (some c) with
      | error e =>
        rw [hbc] at hy
        cases hy
      | ok bc =>
        have hright := DN.addable_of_ok hjoins hb hbc
        exact ⟨(DN.addable_of_ok hjoins ha hab).1, hright.1, hright.2⟩
  · rintro ⟨hane, hbne, hcomma⟩
    obtain ⟨ab, hab, habrdns, habplain⟩ := DN.add_ok hjoins hprint ha hb ⟨hane, fun h => absurd h hbne⟩
    obtain ⟨bc, hbc, hbcrdns, hbcplain⟩ := DN.add_ok hjoins hprint hb hc ⟨hbne, hcomma⟩
    have hablen : ab.len = a.len + b.len := by
      rw [DN.len, habrdns, List.length_append]
      rfl
    have hbclen : bc.len = b.len + c.len := by
      rw [DN.len, hbcrdns, List.length_append]
      rfl
    obtain ⟨x, hx, hxrdns, -⟩ := DN.add_ok hjoins hprint habplain hc ⟨by omega, hcomma⟩
    obtain ⟨y, hy, hyrdns, -⟩ := DN.add_ok hjoins hprint ha hbcplain ⟨hane, fun h => absurd h (by omega)⟩
    refine ⟨x, y, ?_, ?_, DN.eq_of_rdns ?_⟩
    · rw [hab]
      exact hx
    · rw [hbc]
      exact hy
    · rw [hxrdns, habrdns, hyrdns, hbcrdns, List.append_assoc]

omit hprint ha hb in
theorem not_leftNeutral : ¬ LeftNeutral lib a := by
  rintro ⟨x, hx, -⟩
  rw [hjoins.init_empty] at hx
  exact (DN.addable_of_ok hjoins hjoins.plain_empty hx).1 rfl

omit hb in
theorem rightNeutral_iff : RightNeutral lib a ↔ a.len ≠ 0 ∧ comma := by
  have hinit := hjoins.init_empty
  have hplain := hjoins.plain_empty
  constructor
  · rintro ⟨x, hx, -⟩
    rw [hinit] at hx
    have hadd := DN.addable_of_ok hjoins ha hx
    exact ⟨hadd.1, hadd.2 rfl⟩
  · rintro ⟨hne, hcomma⟩
    obtain ⟨x, hx, hrdns, -⟩ := DN.add_ok hjoins hprint ha hplain ⟨hne, fun _ => hcomma⟩
    rw [List.append_nil] at hrdns
    refine ⟨x, ?_, DN.eq_of_rdns hrdns⟩
    rw [hinit]
    exact hx

omit hb in
theorem rejoins_iff {i : Nat} (hi : i ≤ a.len) :
    Rejoins lib a i ↔ 0 < i ∧ (i = a.len → comma) := by
  obtain ⟨hstart, hstartplain⟩ := DN.getSlice_plain hprint ha none (some (i : Int))
  obtain ⟨hrest, hrestplain⟩ := DN.getSlice_plain hprint ha (some (i : Int)) none
  rw [slice_to] at hstart hstartplain
  rw [slice_from] at hrest hrestplain
  have hlen : (a.rdns.take i).length = i := List.length_take_of_le hi
  have hlen' : (a.rdns.drop i).length = a.len - i := List.length_drop
  have hiff : Addable comma ⟨lib.dn2str (a.rdns.take i), a.rdns.take i⟩
      ⟨lib.dn2str (a.rdns.drop i), a.rdns.drop i⟩ ↔ 0 < i ∧ (i = a.len → comma) := by
    show (a.rdns.take i).length ≠ 0 ∧ ((a.rdns.drop i).length = 0 → comma) ↔ _
    rw [hlen, hlen']
    constructor
    · rintro ⟨hne, hcomma⟩
      exact ⟨by omega, fun heq => hcomma (by omega)⟩
    · rintro ⟨hpos, hcomma⟩
      exact ⟨by omega, fun hzero => hcomma (by omega)⟩
  rw [← hiff]
  constructor
  · rintro ⟨x, y, z, hx, hy, hz, -⟩
    rw [hstart] at hx
    rw [hrest] at hy
    cases hx
    cases hy
    exact DN.addable_of_ok hjoins hstartplain hz
  · intro hadd
    obtain ⟨z, hz, hrdns, -⟩ := DN.add_ok hjoins hprint hstartplain hrestplain hadd
    rw [List.take_append_drop] at hrdns
    exact ⟨_, _, z, hstart, hrest, hz, DN.eq_of_rdns hrdns⟩

end

/-- Each law of the concatenation holds exactly where no comma comes to stand at the
beginning of the text that is parsed, and none at its end unless the parser takes it.
The empty name is no left identity, whatever it is added to. -/
theorem dn_concatenation_iff (hjoins : lib.Joins comma) (hprint : lib.RoundTrips) {a b c : DN}
    (ha : lib.Plain a) (hb : lib.Plain b) (hc : lib.Plain c) :
    (Concatenates lib a b ↔ a.len ≠ 0 ∧ (b.len = 0 → comma)) ∧
      (Associates lib a b c ↔ a.len ≠ 0 ∧ b.len ≠ 0 ∧ (c.len = 0 → comma)) ∧
      ¬ LeftNeutral lib a ∧ (RightNeutral lib a ↔ a.len ≠ 0 ∧ comma) ∧
      ∀ i ≤ a.len, (Rejoins lib a i ↔ 0 < i ∧ (i = a.len → comma)) :=
  ⟨concatenates_iff hjoins hprint ha hb, associates_iff hjoins hprint ha hb hc,
    not_leftNeutral hjoins, rightNeutral_iff hjoins hprint ha,
    fun _ hi => rejoins_iff hjoins hprint ha hi⟩

/-! ## Names without escapes -/

/-- The names of letters and digits, with no entries to modify. -/
def simpleLib : Modlists Unit := { simpleNames with modifyModlist := fun _ _ => [] }

theorem intercalate_append {sep : PyStr} {xs ys : List PyStr} (hxs : xs ≠ []) (hys : ys ≠ []) :
    List.intercalate sep (xs ++ ys) = List.intercalate sep xs ++ sep ++ List.intercalate sep ys := by
  induction xs with
  | nil => exact absurd rfl hxs
  | cons x xs ih =>
    cases xs with
    | nil =>
      rw [List.singleton_append, List.intercalate_cons_of_ne_nil hys, List.intercalate_singleton]
    | cons x' xs =>
      have ih := ih (List.cons_ne_nil x' xs)
      have hfirst : List.intercalate sep (x :: x' :: xs)
          = x ++ sep ++ List.intercalate sep (x' :: xs) := List.intercalate_cons_cons
      have hall : List.intercalate sep (x :: x' :: (xs ++ ys))
          = x ++ sep ++ List.intercalate sep (x' :: (xs ++ ys)) := List.intercalate_cons_cons
      rw [List.cons_append, List.cons_append, hall, hfirst, ← List.cons_append, ih]
      simp only [List.append_assoc]

/-- What is not read on one side of a comma makes the text unreadable. -/
theorem readRdns_comma {s t : PyStr}
    (h : (s.splitOn ','.toNat).mapM (fun rdn => (rdn.splitOn '+'.toNat).mapM readAva) = none ∨
      (t.splitOn ','.toNat).mapM (fun rdn => (rdn.splitOn '+'.toNat).mapM readAva) = none) :
    ∃ e, readRdns (s ++ ','.toNat :: t) = .error e := by
  have hnone : ((s ++ ','.toNat :: t).splitOn ','.toNat).mapM
      (fun rdn => (rdn.splitOn '+'.toNat).mapM readAva) = none := by
    rw [List.splitOn_append_cons_self, List.mapM_append]
    rcases h with hs | ht
    · rw [hs]
      rfl
    · rw [ht]
      cases (s.splitOn ','.toNat).mapM fun rdn => (rdn.splitOn '+'.toNat).mapM readAva <;> rfl
  rw [readRdns, if_neg (by simp), hnone]
  exact ⟨_, rfl⟩

/-- No backslash is lost across a comma. -/
theorem unquoteQuestionMark_comma (s t : PyStr) :
    ∃ s', unquoteQuestionMark (s ++ ','.toNat :: t) = s' ++ ','.toNat :: unquoteQuestionMark t := by
  induction s using unquoteQuestionMark.induct with
  | case1 cs ih =>
    obtain ⟨s', hs'⟩ := ih
    refine ⟨63 :: s', ?_⟩
    rw [List.cons_append, List.cons_append, unquoteQuestionMark, hs', List.cons_append]
  | case2 c cs hne ih =>
    obtain ⟨s', hs'⟩ := ih
    refine ⟨c :: s', ?_⟩
    rw [List.cons_append, unquoteQuestionMark, hs', List.cons_append]
    intro cs' hc hcs
    cases cs with
    | nil => cases hcs
    | cons d cs =>
      cases hcs
      exact hne cs hc rfl
  | case3 =>
    refine ⟨[], ?_⟩
    simp [unquoteQuestionMark]

theorem simpleLib_joins : simpleLib.Joins False where
  empty := rfl
  nothing := rfl
  joined rs ss hrs hss _ := by
    show List.intercalate (py ",") ((rs ++ ss).map _) = _
    rw [List.map_append]
    exact intercalate_append (by simpa using hrs) (by simpa using hss)
  leading s := by
    exact readRdns_comma (s := []) (t := s) (.inl (by decide))
  taken h := h.elim
  refused _ rdns _ _ := by
    obtain ⟨s', hs'⟩ := unquoteQuestionMark_comma (simpleLib.dn2str rdns) []
    refine ⟨readRdns_comma (.inr (by decide)), ?_⟩
    show ∃ e, readRdns (unquoteQuestionMark (simpleLib.dn2str rdns ++ ','.toNat :: [])) = .error e
    rw [hs']
    exact readRdns_comma (.inr (by decide))

/-- Names of one RDN, one and two. -/
theorem dn_concatenation_iff_one : ∃ a b c,
    DN.init simpleLib.toEnv (py "cn=foo") = .ok a ∧ DN.init simpleLib.toEnv (py "ou=bar") = .ok b ∧
      DN.init simpleLib.toEnv (py "dc=free,dc=org") = .ok c ∧ Concatenates simpleLib a b ∧
      Associates simpleLib a b c ∧ Rejoins simpleLib c 1 := by
  let a : DN := ⟨py "cn=foo", [[(py "cn", py "foo", 1)]]⟩
  let b : DN := ⟨py "ou=bar", [[(py "ou", py "bar", 1)]]⟩
  let c : DN := ⟨py "dc=free,dc=org", [[(py "dc", py "free", 1)], [(py "dc", py "org", 1)]]⟩
  have ha : simpleLib.Plain a := ⟨⟨py "cn=foo", rfl⟩, by decide⟩
  have hb : simpleLib.Plain b := ⟨⟨py "ou=bar", rfl⟩, by decide⟩
  have hc : simpleLib.Plain c := ⟨⟨py "dc=free,dc=org", rfl⟩, by decide⟩
  obtain ⟨hconcat, hassoc, -⟩ := dn_concatenation_iff simpleLib_joins simpleNames_roundTrips ha hb hc
  obtain ⟨-, -, -, -, hrejoin⟩ := dn_concatenation_iff simpleLib_joins simpleNames_roundTrips hc hb ha
  exact ⟨a, b, c, rfl, rfl, rfl, hconcat.mpr (by decide), hassoc.mpr (by decide),
    (hrejoin 1 (by decide)).mpr (by decide)⟩

/-- `DN('') + DN('dc=org')` is no name, and neither are the parts of a name joined again
that was cut before its first RDN. -/
theorem dn_concatenation_empty : ∃ a b, DN.init simpleLib.toEnv [] = .ok a ∧
    DN.init simpleLib.toEnv (py "dc=org") = .ok b ∧ a.add simpleLib (some b) = .error
      (.lib { cls := .invalidDN, description := some "Malformed DN syntax",
              info := some (.malformed (py ",dc=org") none) }) ∧
      ¬ Concatenates simpleLib a b ∧ ¬ LeftNeutral simpleLib b ∧ ¬ Rejoins simpleLib b 0 := by
  have herror : DN.add simpleLib ⟨[], []⟩ (some ⟨py "dc=org", [[(py "dc", py "org", 1)]]⟩) = .error
      (.lib { cls := .invalidDN, description := some "Malformed DN syntax",
              info := some (.malformed (py ",dc=org") none) }) := by rfl
  refine ⟨⟨[], []⟩, ⟨py "dc=org", [[(py "dc", py "org", 1)]]⟩, rfl, rfl, herror, ?_, ?_, ?_⟩
  · rintro ⟨x, y, hx, -⟩
    rw [herror] at hx
    cases hx
  · rintro ⟨x, hx, -⟩
    cases herror.symm.trans hx
  · rintro ⟨x, y, z, hx, hy, hz, -⟩
    cases hx
    cases hy
    cases herror.symm.trans hz

end FreeIam.Ldap
