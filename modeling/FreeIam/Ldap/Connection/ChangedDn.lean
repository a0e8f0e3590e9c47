import FreeIam.Ldap.Connection.CompareDn
import FreeIam.Ldap.Connection.Rename

/-!
# The name after a modification

`_compute_changed_dn` does not look at the entry. For each attribute of the first RDN it
takes the first value of the last item that adds or replaces values of it as the new
value of the name, whatever other values the entry keeps.
-/

namespace FreeIam.Ldap

open FreeIam.Py FreeIam.Errors

/-! ## What a list does to an entry -/

/-- `Mod.Add` -/
def modAdd : Nat := 0

/-- `Mod.Replace` -/
def modReplace : Nat := 2

/-- The values of an item. -/
def ModValue.values : ModValue → List Bytes
  | .none => []
  | .bytes value => [value]
  | .list values => values

namespace Matching

variable (M : Matching)

/-- The attributes after an item: values are added, those that are listed or all of them are
deleted, and all of them are replaced. -/
def modified (attributes : List (PyStr × List Bytes)) (item : Modification) :
    List (PyStr × List Bytes) :=
  if item.1 = modAdd then attributes ++ [(item.2.1, item.2.2.values)]
  else if item.1 = modDelete then
    attributes.map fun a =>
      if M.sameAttr item.2.1 a.1 then
        (a.1, if item.2.2.values.isEmpty then []
          else a.2.filter fun v => !item.2.2.values.any fun w => M.sameValue item.2.1 w v)
      else a
  else if item.1 = modReplace then
    (attributes.filter fun a => !M.sameAttr item.2.1 a.1) ++ [(item.2.1, item.2.2.values)]
  else attributes

/-- The attributes after a modification list. -/
def applied (attributes : List (PyStr × List Bytes)) (ml : List Modification) :
    List (PyStr × List Bytes) := ml.foldl M.modified attributes

/-- All values of the RDN are present. -/
def HoldsRdn (attributes : List (PyStr × List Bytes)) (rdn : List Ava) : Prop :=
  ∀ ava ∈ rdn, M.holds attributes ava.1 (M.value ava) = true

end Matching

/-! ## The guess -/

/-- `val if isinstance(val, bytes) else val[0]`, where `val` is true. -/
def ModValue.firstValue : ModValue → Option Bytes
  | .none => Option.none
  | .bytes value => if value.isEmpty then Option.none else some value
  | .list [] => Option.none
  | .list (value :: _) => some value

section

variable {ω : Type} (lib : Modlists ω)

/-- The first value of the last item that adds or replaces values of an attribute. -/
def lastFirst : List Modification → PyStr → Option Bytes
  | [], _ => none
  | item :: ml, key => (lastFirst ml key).or
      (if lib.lower item.2.1 = key ∧ item.1 ≠ modDelete then item.2.2.firstValue else none)

/-- The values of the RDN by their lower-case attributes. -/
def rdnVals (rdn : List Ava) : List (PyStr × PyStr) := rdn.map fun ava => (lib.lower ava.1, ava.2.1)

/-- The value that is guessed for an attribute of the RDN: without an item for it, the value
that the RDN has last. -/
def guess (rdn : List Ava) (ml : List Modification) (attr : PyStr) : PyStr :=
  match lastFirst lib ml (lib.lower attr) with
  | some value => (decodeUtf8 value).getD []
  | none => (dictGet (rdnVals lib rdn) (lib.lower attr)).getD []

/-- The first values of all items that add or replace values of an attribute of the RDN are
UTF-8. -/
def Decodes (rdn : List Ava) (ml : List Modification) : Prop :=
  ∀ item ∈ ml, (dictGet (rdnVals lib rdn) (lib.lower item.2.1)).isSome = true → item.1 ≠ modDelete →
    ∀ value, item.2.2.firstValue = some value → (decodeUtf8 value).isSome = true

end

theorem ModValue.firstText_eq (value : ModValue) :
    value.firstText = value.firstValue.map ModValue.firstText.decode := by
  cases value with
  | none => rfl
  | bytes value =>
    simp only [ModValue.firstText, ModValue.firstValue]
    split <;> rfl
  | list values => cases values <;> rfl

section

variable {ω : Type} {lib : Modlists ω} {rdn : List Ava}

/-- The dictionary of new values has the guesses. -/
theorem newVals_ok : ∀ {ml : List Modification}, Decodes lib rdn ml →
    ∃ vals, newVals lib (rdnVals lib rdn) ml = .ok vals ∧
      ∀ key, (dictGet (rdnVals lib rdn) key).isSome = true →
        dictGet vals key = (lastFirst lib ml key).map fun value => (decodeUtf8 value).getD [] := by
  intro ml
  induction ml with
  | nil =>
    intro _
    exact ⟨[], rfl, fun _ _ => rfl⟩
  | cons item ml ih =>
    obtain ⟨op, attr, value⟩ := item
    intro hdecodes
    obtain ⟨vals, hvals, hget⟩ := ih fun item hitem => hdecodes item (List.mem_cons_of_mem _ hitem)
    unfold newVals
    by_cases hnames : (dictGet (rdnVals lib rdn) (lib.lower attr)).isSome = true ∧ op ≠ modDelete
    · rw [if_pos hnames, ModValue.firstText_eq]
      cases hfirst : value.firstValue with
      | none =>
        refine ⟨vals, hvals, fun key hkey => ?_⟩
        rw [hget key hkey, lastFirst, hfirst]
        simp
      | some first =>
        obtain ⟨text, htext⟩ := Option.isSome_iff_exists.mp
          (hdecodes (op, attr, value) List.mem_cons_self hnames.1 hnames.2 first hfirst)
        have hdecode : ModValue.firstText.decode first = .ok text := by
          unfold ModValue.firstText.decode
          rw [htext]
        simp only [Option.map_some, hdecode, hvals]
        refine ⟨(lib.lower attr, text) :: vals, rfl, fun key hkey => ?_⟩
        rw [dictGet_cons, hget key hkey, lastFirst]
        -- a later item for the key goes before this one
        by_cases hattr : lib.lower attr = key
        · rw [if_pos hattr, if_pos ⟨hattr, hnames.2⟩, hfirst]
          cases lastFirst lib ml key with
          | none => simp [htext]
          | some later => rfl
        · rw [if_neg hattr, if_neg fun h => hattr h.1, Option.or_none, Option.or_none]
    · rw [if_neg hnames]
      refine ⟨vals, hvals, fun key hkey => ?_⟩
      rw [hget key hkey, lastFirst, if_neg, Option.or_none]
      rintro ⟨hattr, hop⟩
      exact hnames ⟨hattr ▸ hkey, hop⟩

/-- A first value that is not UTF-8 raises. -/
theorem newVals_error : ∀ {ml : List Modification}, ¬ Decodes lib rdn ml →
    ∃ e, newVals lib (rdnVals lib rdn) ml = .error e := by
  intro ml
  induction ml with
  | nil =>
    intro hnot
    exact absurd (fun item hitem => absurd hitem List.not_mem_nil) hnot
  | cons item ml ih =>
    obtain ⟨op, attr, value⟩ := item
    intro hnot
    unfold newVals
    by_cases hrest : Decodes lib rdn ml
    · -- the item itself is the one
      have hitem : (dictGet (rdnVals lib rdn) (lib.lower attr)).isSome = true ∧ op ≠ modDelete ∧
          ∃ first, value.firstValue = some first ∧ decodeUtf8 first = none := by
        by_contra hgood
        refine hnot fun item hitem hsome hop first hfirst => ?_
        rcases List.mem_cons.mp hitem with rfl | hitem
        · by_contra hnone
          exact hgood ⟨hsome, hop, first, hfirst, Option.not_isSome_iff_eq_none.mp hnone⟩
        · exact hrest item hitem hsome hop first hfirst
      obtain ⟨hsome, hop, first, hfirst, hnone⟩ := hitem
      have hdecode : ModValue.firstText.decode first = .error (.raised "UnicodeDecodeError") := by
        unfold ModValue.firstText.decode
        rw [hnone]
      rw [if_pos ⟨hsome, hop⟩, ModValue.firstText_eq, hfirst]
      simp only [Option.map_some, hdecode]
      exact ⟨_, rfl⟩
    · obtain ⟨e, he⟩ := ih hrest
      by_cases hnames : (dictGet (rdnVals lib rdn) (lib.lower attr)).isSome = true ∧ op ≠ modDelete
      · rw [if_pos hnames]
        cases value.firstText with
        | none => exact ⟨e, he⟩
        | some text =>
          cases text with
          | error e' => exact ⟨e', rfl⟩
          | ok text =>
            simp only [he]
            exact ⟨e, rfl⟩
      · rw [if_neg hnames]
        exact ⟨e, he⟩

end

/-! ## The new RDN -/

/-- What is relied on of `str2dn` and `dn2str` for texts as values: the type of a value is
one of its text, an RDN of texts is printed so that it is read back, and one with a
value that is no text, such as one with a null character, is not read. -/
structure Names.Texts {ω : Type} (names : Names ω) (text : PyStr → Prop) (type : PyStr → Nat) : Prop where
  parsed : ∀ rdn, names.ParsedRdn rdn → rdn ≠ [] ∧ ∀ ava ∈ rdn, text ava.2.1 ∧ ava.2.2 = type ava.2.1
  type_ne : ∀ value, type value ≠ avaBinary
  printed : ∀ rdn new : List Ava, names.ParsedRdn rdn → new.map Prod.fst = rdn.map Prod.fst →
    (∀ ava ∈ new, text ava.2.1) →
    names.str2dn (names.dn2str [new]) = .ok [new.map fun ava => (ava.1, ava.2.1, type ava.2.1)]
  unprinted : ∀ new : List Ava, (∃ ava ∈ new, ¬ text ava.2.1) →
    (∃ e, names.str2dn (names.dn2str [new]) = .error e) ∧
      ∃ e, names.str2dn (unquoteQuestionMark (names.dn2str [new])) = .error e

section

variable {ω : Type} {lib : Modlists ω} {comma : Prop} {text : PyStr → Prop} {type : PyStr → Nat}

/-- The RDN with the guessed values. -/
def guessedRdn (lib : Modlists ω) (type : PyStr → Nat) (rdn : List Ava) (ml : List Modification) :
    List Ava :=
  rdn.map fun ava => (ava.1, guess lib rdn ml ava.1, type (guess lib rdn ml ava.1))

/-- The guesses are the values of the RDN, up to equality of names. -/
def GuessesSame (lib : Modlists ω) (type : PyStr → Nat) (rdn : List Ava) (ml : List Modification) :
    Prop :=
  ∀ ava ∈ rdn, lib.normalAva (ava.1, guess lib rdn ml ava.1, type (guess lib rdn ml ava.1))
    = lib.normalAva ava

/-- The two RDNs are equal exactly when each value is: one type of attribute has one guess. -/
theorem sameRdns_guessed_iff {t t' : PyStr} {rdn : List Ava} {ml : List Modification} :
    lib.SameRdns ⟨t, [rdn]⟩ ⟨t', [guessedRdn lib type rdn ml]⟩ ↔ GuessesSame lib type rdn ml := by
  have hsame : lib.SameRdns ⟨t, [rdn]⟩ ⟨t', [guessedRdn lib type rdn ml]⟩ ↔
      (rdn.map lib.normalAva : Multiset Ava) = (guessedRdn lib type rdn ml).map lib.normalAva := by
    unfold Names.SameRdns
    simp
  rw [hsame, Multiset.coe_eq_coe]
  constructor
  · intro hperm ava hava
    have hmem : lib.normalAva ava ∈ (guessedRdn lib type rdn ml).map lib.normalAva :=
      hperm.subset (List.mem_map_of_mem hava)
    obtain ⟨new, hnew, heq⟩ := List.mem_map.mp hmem
    obtain ⟨ava', -, rfl⟩ := List.mem_map.mp hnew
    have hattr : lib.lower ava'.1 = lib.lower ava.1 := congrArg Prod.fst heq
    have hguess : guess lib rdn ml ava'.1 = guess lib rdn ml ava.1 := by
      unfold guess
      rw [hattr]
    rw [hguess] at heq
    rw [← heq]
    unfold Names.normalAva
    simp only [hattr]
  · intro hall
    have hmap : (guessedRdn lib type rdn ml).map lib.normalAva = rdn.map lib.normalAva := by
      unfold guessedRdn
      rw [List.map_map]
      exact List.map_congr_left fun ava hava => hall ava hava
    rw [hmap]

/-- The name of the guessed RDN. -/
theorem init_guessed (htexts : lib.Texts text type) {rdn : List Ava} (hrdn : lib.ParsedRdn rdn)
    {ml : List Modification} (hguess : ∀ ava ∈ rdn, text (guess lib rdn ml ava.1)) :
    ∃ t, DN.init lib.toEnv (lib.dn2str [rdn.map fun ava => (ava.1, guess lib rdn ml ava.1, avaString)])
        = .ok ⟨t, [guessedRdn lib type rdn ml]⟩ ∧ lib.Plain ⟨t, [guessedRdn lib type rdn ml]⟩ := by
  have htext : ∀ new ∈ rdn.map fun ava => (ava.1, guess lib rdn ml ava.1, avaString), text new.2.1 := by
    intro new hnew
    obtain ⟨ava, hava, rfl⟩ := List.mem_map.mp hnew
    exact hguess ava hava
  have hattrs : (rdn.map fun ava => (ava.1, guess lib rdn ml ava.1, avaString)).map Prod.fst
      = rdn.map Prod.fst := by
    rw [List.map_map]
    rfl
  have hread := htexts.printed rdn _ hrdn hattrs htext
  have hmap : ((rdn.map fun ava => (ava.1, guess lib rdn ml ava.1, avaString)).map
      fun ava => (ava.1, ava.2.1, type ava.2.1)) = guessedRdn lib type rdn ml := by
    rw [List.map_map]
    rfl
  rw [hmap] at hread
  have hinit : DN.init lib.toEnv
      (lib.dn2str [rdn.map fun ava => (ava.1, guess lib rdn ml ava.1, avaString)]) =
        .ok ⟨lib.dn2str [rdn.map fun ava => (ava.1, guess lib rdn ml ava.1, avaString)],
          [guessedRdn lib type rdn ml]⟩ := by
    rw [DN.init, hread]
  refine ⟨_, hinit, ⟨_, hinit⟩, ?_⟩
  intro new hnew ava hava
  rw [List.mem_singleton.mp hnew] at hava
  obtain ⟨old, -, rfl⟩ := List.mem_map.mp hava
  exact htexts.type_ne _

/-! ## The function -/

variable {dn : DN} {ml : List Modification}

/-- A list that does not decode raises. -/
theorem computeChangedDn_undecoded {rdn : List Ava} {rest : List (List Ava)}
    (hrdns : dn.rdns = rdn :: rest) (hnot : ¬ Decodes lib rdn ml) :
    ∃ e, computeChangedDn lib dn ml = .error e := by
  obtain ⟨e, he⟩ := newVals_error hnot
  refine ⟨e, ?_⟩
  unfold rdnVals at he
  unfold computeChangedDn
  rw [hrdns]
  simp only [he]
  rfl

/-- With all first values decoded, what is left is the comparison with the guessed RDN. -/
theorem computeChangedDn_decoded {rdn : List Ava} {rest : List (List Ava)}
    (hrdns : dn.rdns = rdn :: rest) (hdecodes : Decodes lib rdn ml) :
    computeChangedDn lib dn ml =
      (DN.init lib.toEnv (lib.dn2str [rdn.map fun ava => (ava.1, guess lib rdn ml ava.1, avaString)]) >>=
        fun newRdn => dn.first lib >>= fun first =>
          if first.eq lib.toNames newRdn then .ok dn
          else dn.parent lib.toNames >>= fun parent => newRdn.add lib parent) := by
  obtain ⟨vals, hvals, hget⟩ := newVals_ok hdecodes
  have hguess : (rdn.map fun ava => (ava.1, (dictGet vals (lib.lower ava.1)).getD
      ((dictGet (rdn.map fun ava => (lib.lower ava.1, ava.2.1)) (lib.lower ava.1)).getD []), avaString))
      = rdn.map fun ava => (ava.1, guess lib rdn ml ava.1, avaString) := by
    apply List.map_congr_left
    intro ava hava
    have hmem : (lib.lower ava.1, ava.2.1) ∈ rdnVals lib rdn := List.mem_map.mpr ⟨ava, hava, rfl⟩
    rw [hget _ (dictGet_isSome hmem)]
    unfold guess
    cases lastFirst lib ml (lib.lower ava.1) <;> rfl
  unfold rdnVals at hvals
  unfold computeChangedDn
  rw [hrdns]
  simp only [hvals]
  show (DN.init lib.toEnv (lib.dn2str [_]) >>= _) = _
  rw [hguess]
  rfl

/-! ## When the guess is right -/

/-- The name that is computed: equal to the old one where all values of its RDN are still
present, and else a name with the same parent whose values are. -/
def NamesPresent (lib : Modlists ω) (M : Matching) (dn : DN) (after : List (PyStr × List Bytes))
    (ml : List Modification) : Prop :=
  ∃ dn', computeChangedDn lib dn ml = .ok dn' ∧
    (M.HoldsRdn after (dn.rdns.headD []) → dn'.eq lib.toNames dn = true) ∧
    (¬ M.HoldsRdn after (dn.rdns.headD []) → dn'.len = dn.len ∧
      dn'.rdns.drop 1 = dn.rdns.drop 1 ∧ M.HoldsRdn after (dn'.rdns.headD []))

/-- The guesses are texts, and are the values of the RDN where these are present; else there is
a parent to put them under, and they are other values, and present. -/
structure GuessFits (lib : Modlists ω) (text : PyStr → Prop) (type : PyStr → Nat) (M : Matching)
    (dn : DN) (after : List (PyStr × List Bytes)) (ml : List Modification) : Prop where
  decodes : Decodes lib (dn.rdns.headD []) ml
  texts : ∀ ava ∈ dn.rdns.headD [], text (guess lib (dn.rdns.headD []) ml ava.1)
  kept : M.HoldsRdn after (dn.rdns.headD []) → GuessesSame lib type (dn.rdns.headD []) ml
  changed : ¬ M.HoldsRdn after (dn.rdns.headD []) → 2 ≤ dn.len ∧
    ¬ GuessesSame lib type (dn.rdns.headD []) ml ∧
    M.HoldsRdn after (guessedRdn lib type (dn.rdns.headD []) ml)

variable (hprint : lib.RoundTrips) (hhash : lib.NoCollision) (hdn : lib.Plain dn)

include hprint hhash hdn

variable (ml type) in
/-- The comparison of the first RDN with the guessed one. -/
theorem first_eq_guessed {rdn : List Ava} {rest : List (List Ava)} (hrdns : dn.rdns = rdn :: rest)
    (t : PyStr) :
    ∃ first, dn.first lib = .ok first ∧
      (first.eq lib.toNames ⟨t, [guessedRdn lib type rdn ml]⟩ = true ↔ GuessesSame lib type rdn ml) := by
  have hne : 0 < dn.len := by
    show 0 < dn.rdns.length
    rw [hrdns]
    exact Nat.succ_pos _
  have hfirst := (DN.first_eq hprint hdn hne).1
  rw [hrdns] at hfirst
  exact ⟨_, hfirst, (DN.eq_iff hhash).trans (DN.normalized_eq_iff.trans sameRdns_guessed_iff)⟩

/-- Another RDN is put in front of the parent. -/
theorem computeChangedDn_other (hjoins : lib.Joins comma) (htexts : lib.Texts text type)
    {rdn : List Ava} {rest : List (List Ava)} (hrdns : dn.rdns = rdn :: rest)
    (hdecodes : Decodes lib rdn ml) (htext : ∀ ava ∈ rdn, text (guess lib rdn ml ava.1))
    (hother : ¬ GuessesSame lib type rdn ml) (htwo : 2 ≤ dn.len) :
    ∃ dn', computeChangedDn lib dn ml = .ok dn' ∧ dn'.rdns = guessedRdn lib type rdn ml :: rest ∧
      dn'.eq lib.toNames dn = false := by
  have hrdn : lib.ParsedRdn rdn := hdn.parsed rdn (by rw [hrdns]; exact List.mem_cons_self)
  obtain ⟨t, hinit, hplain⟩ := init_guessed htexts hrdn htext
  obtain ⟨first, hfirst, hiff⟩ := first_eq_guessed type ml hprint hhash hdn hrdns t
  have hsuffixlen : (lib.suffix dn (dn.len - 1)).len = dn.len - 1 := Names.suffix_len dn (by omega)
  have hindex : dn.len - (dn.len - 1) = 1 := by omega
  have hsuffix : (lib.suffix dn (dn.len - 1)).rdns = rest := by
    rw [Names.suffix, hindex, hrdns]
    rfl
  have hparent := DN.parent_eq hprint hdn
  rw [if_pos (by omega)] at hparent
  obtain ⟨dn', hadd, hrdns', -⟩ := DN.add_ok hjoins hprint hplain (hdn.suffix hprint (dn.len - 1))
    ⟨Nat.one_ne_zero, fun hzero => absurd hzero (by omega)⟩
  rw [hsuffix, List.singleton_append] at hrdns'
  refine ⟨dn', ?_, hrdns', ?_⟩
  · rw [computeChangedDn_decoded hrdns hdecodes, hinit, hfirst, hparent]
    show (if first.eq lib.toNames _ = true then _ else _) = _
    rw [if_neg fun heq => hother (hiff.mp heq)]
    exact hadd
  · rw [Bool.eq_false_iff]
    intro heq
    -- equal names have equal first RDNs
    have hsame := DN.normalized_eq_iff.mp ((DN.eq_iff hhash).mp heq)
    rw [Names.SameRdns, hrdns', hrdns, List.forall₂_cons] at hsame
    have hone : lib.SameRdns ⟨t, [rdn]⟩ ⟨t, [guessedRdn lib type rdn ml]⟩ := .cons hsame.1.symm .nil
    exact hother (sameRdns_guessed_iff.mp hone)

/-- The same RDN keeps the name. -/
theorem computeChangedDn_same (htexts : lib.Texts text type) {rdn : List Ava} {rest : List (List Ava)}
    (hrdns : dn.rdns = rdn :: rest) (hdecodes : Decodes lib rdn ml)
    (htext : ∀ ava ∈ rdn, text (guess lib rdn ml ava.1)) (hsame : GuessesSame lib type rdn ml) :
    computeChangedDn lib dn ml = .ok dn := by
  have hrdn : lib.ParsedRdn rdn := hdn.parsed rdn (by rw [hrdns]; exact List.mem_cons_self)
  obtain ⟨t, hinit, -⟩ := init_guessed htexts hrdn htext
  obtain ⟨first, hfirst, hiff⟩ := first_eq_guessed type ml hprint hhash hdn hrdns t
  rw [computeChangedDn_decoded hrdns hdecodes, hinit, hfirst]
  show (if first.eq lib.toNames _ = true then _ else _) = _
  rw [if_pos (hiff.mpr hsame)]

/-- Another RDN has no place where there is no parent. -/
theorem computeChangedDn_top (hnone : lib.RefusesNone) (htexts : lib.Texts text type) {rdn : List Ava}
    {rest : List (List Ava)} (hrdns : dn.rdns = rdn :: rest) (hdecodes : Decodes lib rdn ml)
    (htext : ∀ ava ∈ rdn, text (guess lib rdn ml ava.1)) (hother : ¬ GuessesSame lib type rdn ml)
    (htop : ¬ 2 ≤ dn.len) : ∃ e, computeChangedDn lib dn ml = .error e := by
  have hrdn : lib.ParsedRdn rdn := hdn.parsed rdn (by rw [hrdns]; exact List.mem_cons_self)
  obtain ⟨t, hinit, hplain⟩ := init_guessed htexts hrdn htext
  obtain ⟨first, hfirst, hiff⟩ := first_eq_guessed type ml hprint hhash hdn hrdns t
  have hparent := DN.parent_eq hprint hdn
  rw [if_neg (by omega)] at hparent
  obtain ⟨e, he⟩ := add_none_error hnone hplain (by simp)
  refine ⟨e, ?_⟩
  rw [computeChangedDn_decoded hrdns hdecodes, hinit, hfirst, hparent]
  show (if first.eq lib.toNames _ = true then _ else _) = _
  rw [if_neg fun heq => hother (hiff.mp heq)]
  exact he

end

/-- A value that is no text makes no RDN. -/
theorem computeChangedDn_unprinted {ω : Type} {lib : Modlists ω} {text : PyStr → Prop}
    {type : PyStr → Nat} (htexts : lib.Texts text type) {dn : DN} {ml : List Modification}
    {rdn : List Ava} {rest : List (List Ava)} (hrdns : dn.rdns = rdn :: rest)
    (hdecodes : Decodes lib rdn ml) (hnot : ¬ ∀ ava ∈ rdn, text (guess lib rdn ml ava.1)) :
    ∃ e, computeChangedDn lib dn ml = .error e := by
  have hbad : ∃ new ∈ rdn.map fun ava => (ava.1, guess lib rdn ml ava.1, avaString), ¬ text new.2.1 := by
    by_contra hgood
    refine hnot fun ava hava => ?_
    by_contra hno
    exact hgood ⟨_, List.mem_map_of_mem hava, hno⟩
  obtain ⟨hread, hunquoted⟩ := htexts.unprinted _ hbad
  obtain ⟨e, he⟩ := DN.init_error hread hunquoted
  refine ⟨e, ?_⟩
  rw [computeChangedDn_decoded hrdns hdecodes, he]
  rfl

section

variable {ω : Type} {lib : Modlists ω} {text : PyStr → Prop} {type : PyStr → Nat} {M : Matching}
  {dn : DN} {after : List (PyStr × List Bytes)} {ml : List Modification}

/-- No name is computed where the computation raises. -/
theorem not_namesPresent (hraised : ∃ e, computeChangedDn lib dn ml = .error e) :
    ¬ NamesPresent lib M dn after ml := by
  rintro ⟨dn', hdn', -⟩
  obtain ⟨e, he⟩ := hraised
  cases he.symm.trans hdn'

variable (hdecodes : Decodes lib (dn.rdns.headD []) ml)
  (htext : ∀ ava ∈ dn.rdns.headD [], text (guess lib (dn.rdns.headD []) ml ava.1))

include hdecodes htext

/-- The old name is right exactly where its values are present. -/
theorem namesPresent_same_iff (hsame : GuessesSame lib type (dn.rdns.headD []) ml)
    (hkept : computeChangedDn lib dn ml = .ok dn) :
    NamesPresent lib M dn after ml ↔ GuessFits lib text type M dn after ml := by
  constructor
  · rintro ⟨dn', hdn', -, hchanged⟩
    cases hkept.symm.trans hdn'
    -- the old values would be present as those of the new name
    have hpresent : M.HoldsRdn after (dn.rdns.headD []) := by
      by_contra hnot
      exact hnot (hchanged hnot).2.2
    exact ⟨hdecodes, htext, fun _ => hsame, fun hnot => absurd hpresent hnot⟩
  · intro hfits
    have hpresent : M.HoldsRdn after (dn.rdns.headD []) := by
      by_contra hnot
      exact (hfits.changed hnot).2.1 hsame
    exact ⟨dn, hkept, fun _ => DN.eq_of_rdns rfl, fun hnot => absurd hpresent hnot⟩

/-- Another name is right exactly where the values of the old one are not all present, and
its own are. -/
theorem namesPresent_other_iff (hother : ¬ GuessesSame lib type (dn.rdns.headD []) ml)
    (htwo : 2 ≤ dn.len) {rest : List (List Ava)} (hrdns : dn.rdns = dn.rdns.headD [] :: rest)
    {dn' : DN} (hcomputed : computeChangedDn lib dn ml = .ok dn')
    (hguessed : dn'.rdns = guessedRdn lib type (dn.rdns.headD []) ml :: rest)
    (hne : dn'.eq lib.toNames dn = false) :
    NamesPresent lib M dn after ml ↔ GuessFits lib text type M dn after ml := by
  have hhead : dn'.rdns.headD [] = guessedRdn lib type (dn.rdns.headD []) ml := by
    rw [hguessed]
    rfl
  constructor
  · rintro ⟨dn'', hdn'', hkept, hchanged⟩
    cases hcomputed.symm.trans hdn''
    have hgone : ¬ M.HoldsRdn after (dn.rdns.headD []) := by
      intro hpresent
      cases hne.symm.trans (hkept hpresent)
    have hpresent := (hchanged hgone).2.2
    rw [hhead] at hpresent
    exact ⟨hdecodes, htext, fun h => absurd h hgone, fun _ => ⟨htwo, hother, hpresent⟩⟩
  · intro hfits
    have hgone : ¬ M.HoldsRdn after (dn.rdns.headD []) := by
      intro hpresent
      exact hother (hfits.kept hpresent)
    refine ⟨dn', hcomputed, fun h => absurd h hgone, fun _ => ⟨?_, ?_, ?_⟩⟩
    · rw [DN.len, DN.len, hguessed, hrdns]
      rfl
    · rw [hguessed, hrdns]
      rfl
    · rw [hhead]
      exact (hfits.changed hgone).2.2

end

/-- The name that is computed is the right one exactly where the guesses fit. -/
theorem changed_dn_iff {ω : Type} {lib : Modlists ω} {comma : Prop} {text : PyStr → Prop}
    {type : PyStr → Nat} (hprint : lib.RoundTrips) (hhash : lib.NoCollision) (hjoins : lib.Joins comma)
    (hnone : lib.RefusesNone) (htexts : lib.Texts text type) {dn : DN} (hdn : lib.Plain dn)
    (hne : 0 < dn.len) (M : Matching) (attributes : List (PyStr × List Bytes))
    (ml : List Modification) :
    NamesPresent lib M dn (M.applied attributes ml) ml ↔
      GuessFits lib text type M dn (M.applied attributes ml) ml := by
  obtain ⟨rest, hrdns⟩ : ∃ rest, dn.rdns = dn.rdns.headD [] :: rest := by
    obtain ⟨rdn, rest, hrdns⟩ := List.exists_cons_of_length_pos hne
    exact ⟨rest, by rw [hrdns]; rfl⟩
  by_cases hdecodes : Decodes lib (dn.rdns.headD []) ml
  · by_cases htext : ∀ ava ∈ dn.rdns.headD [], text (guess lib (dn.rdns.headD []) ml ava.1)
    · by_cases hsame : GuessesSame lib type (dn.rdns.headD []) ml
      · exact namesPresent_same_iff hdecodes htext hsame
          (computeChangedDn_same hprint hhash hdn htexts hrdns hdecodes htext hsame)
      · by_cases htwo : 2 ≤ dn.len
        · obtain ⟨dn', hcomputed, hguessed, hother⟩ :=
            computeChangedDn_other hprint hhash hdn hjoins htexts hrdns hdecodes htext hsame htwo
          exact namesPresent_other_iff hdecodes htext hsame htwo hrdns hcomputed hguessed hother
        · -- there is no parent for another RDN
          refine iff_of_false (not_namesPresent
            (computeChangedDn_top hprint hhash hdn hnone htexts hrdns hdecodes htext hsame htwo)) ?_
          intro hfits
          by_cases hpresent : M.HoldsRdn (M.applied attributes ml) (dn.rdns.headD [])
          · exact hsame (hfits.kept hpresent)
          · exact htwo (hfits.changed hpresent).1
    · exact iff_of_false
        (not_namesPresent (computeChangedDn_unprinted htexts hrdns hdecodes htext))
        fun hfits => htext hfits.texts
  · exact iff_of_false (not_namesPresent (computeChangedDn_undecoded hrdns hdecodes))
      fun hfits => hdecodes hfits.decodes

/-! ## Names that print letters and digits only -/

/-- Attributes and values of letters and digits. -/
def isSimpleRdns (rdns : List (List Ava)) : Bool :=
  rdns.all fun rdn => rdn.all fun ava => isSimple ava.1 && isSimple ava.2.1

/-- The simple names, where anything else is printed as a text that is no name. -/
def guardedLib : Modlists Unit :=
  { simpleLib with dn2str := fun rdns => if isSimpleRdns rdns then printRdns rdns else py "?" }

theorem guardedLib_dn2str {rdns : List (List Ava)} (h : ∀ rdn ∈ rdns, ∀ ava ∈ rdn, SimpleAva ava) :
    guardedLib.dn2str rdns = printRdns rdns := by
  refine if_pos ?_
  simp only [isSimpleRdns, List.all_eq_true, Bool.and_eq_true]
  exact fun rdn hrdn ava hava => ⟨(h rdn hrdn ava hava).attr, (h rdn hrdn ava hava).value⟩

theorem guardedLib_parsed {rdns : List (List Ava)} (h : ∀ rdn ∈ rdns, guardedLib.ParsedRdn rdn) :
    ∀ rdn ∈ rdns, ∀ ava ∈ rdn, SimpleAva ava :=
  fun rdn hrdn => (simpleNames_parsed (h rdn hrdn)).2

theorem guardedLib_roundTrips : guardedLib.RoundTrips := by
  intro rdns hparsed
  rw [guardedLib_dn2str (guardedLib_parsed hparsed)]
  exact readRdns_printRdns fun rdn hrdn => simpleNames_parsed (hparsed rdn hrdn)

theorem guardedLib_joins : guardedLib.Joins False where
  empty := rfl
  nothing := rfl
  joined rs ss hrs hss hparsed := by
    have hsimple := guardedLib_parsed hparsed
    rw [guardedLib_dn2str hsimple,
      guardedLib_dn2str fun rdn hrdn => hsimple rdn (List.mem_append_left ss hrdn),
      guardedLib_dn2str fun rdn hrdn => hsimple rdn (List.mem_append_right rs hrdn)]
    exact simpleLib_joins.joined rs ss hrs hss hparsed
  leading := simpleLib_joins.leading
  taken h := h.elim
  refused hcomma rdns hne hparsed := by
    rw [guardedLib_dn2str (guardedLib_parsed hparsed)]
    exact simpleLib_joins.refused hcomma rdns hne hparsed

theorem guardedLib_refusesNone : guardedLib.RefusesNone := by
  intro rdns hne hparsed
  rw [guardedLib_dn2str (guardedLib_parsed hparsed)]
  exact (serving_refusesNone : (serving grants).RefusesNone) rdns hne hparsed

theorem guardedLib_texts : guardedLib.Texts (fun value => isSimple value = true) (fun _ => 1) where
  parsed rdn hrdn := by
    obtain ⟨hne, hsimple⟩ := simpleNames_parsed hrdn
    exact ⟨hne, fun ava hava => ⟨(hsimple ava hava).value, (hsimple ava hava).type⟩⟩
  type_ne _ := by decide
  printed rdn new hrdn hattrs htext := by
    obtain ⟨hne, hsimple⟩ := simpleNames_parsed hrdn
    have hattr : ∀ ava ∈ new, isSimple ava.1 = true := by
      intro ava hava
      have hmem : ava.1 ∈ rdn.map Prod.fst := hattrs ▸ List.mem_map_of_mem hava
      obtain ⟨old, hold, heq⟩ := List.mem_map.mp hmem
      exact heq ▸ (hsimple old hold).attr
    have hnew : new ≠ [] := by
      rintro rfl
      exact hne (List.map_eq_nil_iff.mp hattrs.symm)
    have hprinted : guardedLib.dn2str [new] = printRdns [new.map fun ava => (ava.1, ava.2.1, 1)] := by
      have hmap : (new.map fun ava => (ava.1, ava.2.1, 1)).map printAva = new.map printAva := by
        rw [List.map_map]
        rfl
      have hsame : printRdns [new.map fun ava => (ava.1, ava.2.1, 1)] = printRdns [new] := by
        unfold printRdns
        rw [List.map_singleton, List.map_singleton, hmap]
      rw [hsame]
      refine if_pos ?_
      simp only [isSimpleRdns, List.all_eq_true, Bool.and_eq_true, List.mem_singleton]
      rintro _ rfl ava hava
      exact ⟨hattr ava hava, htext ava hava⟩
    rw [hprinted]
    apply readRdns_printRdns
    intro _ hmem
    rw [List.mem_singleton.mp hmem]
    refine ⟨by simpa using hnew, fun ava hava => ?_⟩
    obtain ⟨old, hold, rfl⟩ := List.mem_map.mp hava
    exact ⟨hattr old hold, htext old hold, rfl⟩
  unprinted new hbad := by
    obtain ⟨ava, hava, hnot⟩ := hbad
    have hprinted : guardedLib.dn2str [new] = py "?" := by
      refine if_neg fun hsimple => hnot ?_
      simp only [isSimpleRdns, List.all_eq_true, Bool.and_eq_true, List.mem_singleton] at hsimple
      exact (hsimple new rfl ava hava).2
    rw [hprinted]
    exact ⟨⟨_, rfl⟩, _, rfl⟩

/-- The value of `cn` is replaced by two others: the name takes the first one. -/
theorem changed_dn_iff_replace :
    NamesPresent guardedLib caseIgnore
      ⟨py "cn=foo,dc=org", [[(py "cn", py "foo", 1)], [(py "dc", py "org", 1)]]⟩
      (caseIgnore.applied [(py "cn", [[102, 111, 111]])] [(2, py "cn", .list [[98, 97, 114], [98]])])
      [(2, py "cn", .list [[98, 97, 114], [98]])] := by
  have hdn : guardedLib.Plain
      ⟨py "cn=foo,dc=org", [[(py "cn", py "foo", 1)], [(py "dc", py "org", 1)]]⟩ :=
    ⟨⟨py "cn=foo,dc=org", rfl⟩, by decide⟩
  refine (changed_dn_iff guardedLib_roundTrips simpleNames_noCollision guardedLib_joins
    guardedLib_refusesNone guardedLib_texts hdn (by decide) caseIgnore _ _).mpr ⟨?_, ?_, ?_, ?_⟩
  · intro item hitem _ _ value hvalue
    rw [List.mem_singleton.mp hitem] at hvalue
    cases hvalue
    decide
  · decide
  · intro hpresent
    exact absurd (hpresent (py "cn", py "foo", 1) List.mem_cons_self) (by decide)
  · intro _
    refine ⟨by decide, ?_, ?_⟩
    · intro hsame
      exact absurd (hsame (py "cn", py "foo", 1) List.mem_cons_self) (by decide)
    · intro ava hava
      rw [List.mem_singleton.mp hava]
      decide

/-- A value of `cn` is added: the name changes, although it is still that of the entry. -/
theorem changed_dn_adds :
    ¬ NamesPresent simpleLib caseIgnore
      ⟨py "cn=foo,dc=org", [[(py "cn", py "foo", 1)], [(py "dc", py "org", 1)]]⟩
      (caseIgnore.applied [(py "cn", [[102, 111, 111]])] [(0, py "cn", .list [[98, 97, 114]])])
      [(0, py "cn", .list [[98, 97, 114]])] := by
  rintro ⟨dn', hdn', hkept, -⟩
  have hcomputed : computeChangedDn simpleLib
      ⟨py "cn=foo,dc=org", [[(py "cn", py "foo", 1)], [(py "dc", py "org", 1)]]⟩
      [(0, py "cn", .list [[98, 97, 114]])] =
        .ok ⟨py "cn=bar,dc=org", [[(py "cn", py "bar", 1)], [(py "dc", py "org", 1)]]⟩ := by rfl
  cases hcomputed.symm.trans hdn'
  have heq := hkept fun ava hava => by
    rw [List.mem_singleton.mp hava]
    decide
  have hnormal := (DN.eq_iff simpleNames_noCollision).mp heq
  revert hnormal
  decide

end FreeIam.Ldap
