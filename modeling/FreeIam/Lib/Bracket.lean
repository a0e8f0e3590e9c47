import FreeIam.Lib.Scan

/-!
# Bracket languages

Texts of nested brackets, with blanks around the brackets and one operator
symbol at the head of each inner node:

    (op (leaf text) (op (leaf text)) )

A `Tree` records such a text completely, blanks included. `readTree` reads one
tree off the front of a list; `readTree_text` says that it reads every
well-formed tree back, so a text has at most one bracket structure
(`Tree.text_inj`), and `readTree_sound` that it reads nothing else.
-/

namespace FreeIam.Bracket

open FreeIam.Scan

/-- The symbols a bracket language is written in. -/
structure Alphabet (α : Type) where
  opening : α
  closing : α
  isBlank : α → Bool
  isOp : α → Bool
  opening_ne_closing : opening ≠ closing
  opening_not_blank : isBlank opening = false
  closing_not_blank : isBlank closing = false
  closing_not_op : isOp closing = false
  op_not_blank : ∀ c, isOp c = true → isBlank c = false

mutual

/-- A bracketed text. A leaf holds the text between its brackets; a node holds
the blanks before and after its operator symbol and its members. -/
inductive Tree (α : Type) where
  | leaf (body : List α)
  | node (sep : List α) (op : α) (first : List α) (members : Members α)

/-- The members of a node, each with the blanks that follow it. -/
inductive Members (α : Type) where
  | nil
  | cons (head : Tree α) (run : List α) (tail : Members α)

end

variable {α : Type} (A : Alphabet α)

mutual

/-- The text of a tree. -/
def Tree.text : Tree α → List α
  | .leaf body => A.opening :: (body ++ [A.closing])
  | .node sep op first members =>
    A.opening :: (sep ++ op :: (first ++ (members.text ++ [A.closing])))

/-- The text of a node's members. -/
def Members.text : Members α → List α
  | .nil => []
  | .cons head run tail => head.text ++ (run ++ tail.text)

end

mutual

/-- The number of reading steps a tree takes. -/
def Tree.size : Tree α → Nat
  | .leaf _ => 1
  | .node _ _ _ members => members.size + 1

def Members.size : Members α → Nat
  | .nil => 1
  | .cons head _ tail => head.size + tail.size + 1

end

mutual

/-- The texts of the leaves, in order. -/
def Tree.leaves : Tree α → List (List α)
  | .leaf body => [body]
  | .node _ _ _ members => members.leaves

def Members.leaves : Members α → List (List α)
  | .nil => []
  | .cons head _ tail => head.leaves ++ tail.leaves

end

/-- No blanks follow the members. -/
def Members.Tight : Members α → Prop
  | .nil => True
  | .cons _ run tail => run = [] ∧ tail.Tight

mutual

/-- No blanks stand around the members of a node with one of the given
operators. -/
def Tree.TightAt (ops : α → Prop) : Tree α → Prop
  | .leaf _ => True
  | .node _ op first members => (ops op → first = [] ∧ members.Tight) ∧ members.TightAt ops

def Members.TightAt (ops : α → Prop) : Members α → Prop
  | .nil => True
  | .cons head _ tail => head.TightAt ops ∧ tail.TightAt ops

end

variable {A}

/-- The text of a tree begins with the opening bracket. -/
theorem Tree.text_eq_cons (t : Tree α) : ∃ s, t.text A = A.opening :: s := by
  cases t with
  | leaf body => exact ⟨_, rfl⟩
  | node sep op first members => exact ⟨_, rfl⟩

/-- What follows the blanks in front of a member or of the closing bracket is
not blank. -/
theorem Members.stops_text (ms : Members α) (r : List α) :
    Stops A.isBlank (ms.text A ++ A.closing :: r) := by
  cases ms with
  | nil => simp [Members.text, A.closing_not_blank]
  | cons head run tail =>
    obtain ⟨s, hs⟩ := head.text_eq_cons (A := A)
    simp [Members.text, hs, A.opening_not_blank]

mutual

/-- A tree takes fewer reading steps than its text has symbols. -/
theorem Tree.size_lt_length : ∀ t : Tree α, t.size + 1 ≤ (t.text A).length
  | .leaf body => by simp [Tree.size, Tree.text]
  | .node sep op first members => by
    have := members.size_le_length
    simp only [Tree.size, Tree.text, List.length_cons, List.length_append]
    omega

theorem Members.size_le_length : ∀ ms : Members α, ms.size ≤ (ms.text A).length + 1
  | .nil => by simp [Members.size, Members.text]
  | .cons head run tail => by
    have h₁ := head.size_lt_length
    have h₂ := tail.size_le_length
    simp only [Members.size, Members.text, List.length_append]
    omega

end

/-- After its blanks a leaf does not go on with an operator symbol. -/
theorem stops_leaf {body : List α} (h : Stops A.isOp (body.dropWhile A.isBlank))
    (r : List α) : Stops A.isOp ((body ++ A.closing :: r).dropWhile A.isBlank) := by
  by_cases hb : All A.isBlank body
  · rw [dropWhile_append hb (by simp [A.closing_not_blank])]
    simp [A.closing_not_op]
  · rw [dropWhile_append_of_not_all hb]
    refine h.append fun hnil => ?_
    exact absurd (dropWhile_eq_nil.mp hnil) hb

variable [DecidableEq α] (A)

/-- A symbol that is not a bracket. -/
def Alphabet.isPlain (c : α) : Bool := !(c == A.opening) && !(c == A.closing)

@[simp] theorem Alphabet.isPlain_closing : A.isPlain A.closing = false := by
  simp [Alphabet.isPlain]

mutual

/-- The symbols of a tree stand where they may. -/
def Tree.WF : Tree α → Prop
  | .leaf body => All A.isPlain body ∧ Stops A.isOp (body.dropWhile A.isBlank)
  | .node sep op first members =>
    All A.isBlank sep ∧ A.isOp op = true ∧ All A.isBlank first ∧ members.WF

def Members.WF : Members α → Prop
  | .nil => True
  | .cons head run tail => head.WF ∧ All A.isBlank run ∧ tail.WF

end

/-! ## Reading a tree -/

/-- Read the closing bracket. -/
def readClosing : List α → Option (List α)
  | [] => none
  | c :: s => if c = A.closing then some s else none

/-- Read the rest of a leaf, after its opening bracket. -/
def readLeaf (s : List α) : Option (Tree α × List α) :=
  (readClosing A (s.dropWhile A.isPlain)).map fun rest =>
    (.leaf (s.takeWhile A.isPlain), rest)

mutual

/-- Read one tree off the front of a list, in at most the given number of
steps. -/
def readTree : Nat → List α → Option (Tree α × List α)
  | 0, _ => none
  | _ + 1, [] => none
  | n + 1, c :: s =>
    if c = A.opening then
      match s.dropWhile A.isBlank with
      | [] => none
      | op :: s' =>
        if A.isOp op then
          (readMembers n (s'.dropWhile A.isBlank)).bind fun (members, rest) =>
            (readClosing A rest).map fun rest =>
              (.node (s.takeWhile A.isBlank) op (s'.takeWhile A.isBlank) members, rest)
        else readLeaf A s
    else none

/-- Read members up to the first symbol that does not open one. -/
def readMembers : Nat → List α → Option (Members α × List α)
  | 0, _ => none
  | _ + 1, [] => some (.nil, [])
  | n + 1, c :: s =>
    if c = A.opening then
      (readTree n (c :: s)).bind fun (head, rest) =>
        (readMembers n (rest.dropWhile A.isBlank)).map fun (tail, rest') =>
          (.cons head (rest.takeWhile A.isBlank) tail, rest')
    else some (.nil, c :: s)

end

variable {A}

@[simp] theorem readClosing_closing (s : List α) :
    readClosing A (A.closing :: s) = some s := by simp [readClosing]

theorem readClosing_eq_some {s rest : List α} :
    readClosing A s = some rest ↔ s = A.closing :: rest := by
  cases s with
  | nil => simp [readClosing]
  | cons c s =>
    by_cases hc : c = A.closing
    · simp [readClosing, hc]
    · simp [readClosing, hc]

theorem readLeaf_text {body : List α} (h : All A.isPlain body) (r : List α) :
    readLeaf A (body ++ A.closing :: r) = some (.leaf body, r) := by
  have hstop : Stops A.isPlain (A.closing :: r) := by simp
  simp [readLeaf, dropWhile_append h hstop, takeWhile_append h hstop]

mutual

/-- Every well-formed tree is read back from its text, whatever follows it. -/
theorem readTree_text : ∀ (t : Tree α), t.WF A → ∀ (n : Nat), t.size ≤ n → ∀ r : List α,
    readTree A n (t.text A ++ r) = some (t, r)
  | .leaf body, hwf, n, hn, r => by
    obtain ⟨hplain, hop⟩ := hwf
    obtain ⟨m, rfl⟩ : ∃ m, n = m + 1 := ⟨n - 1, by simp [Tree.size] at hn; omega⟩
    have hleaf := readLeaf_text hplain r
    have hstop := stops_leaf hop r
    simp only [Tree.text, List.cons_append, List.append_assoc, List.nil_append, readTree, if_true]
    cases hdrop : (body ++ A.closing :: r).dropWhile A.isBlank with
    | nil =>
      -- the closing bracket is not blank, so the blanks stop before it
      have := dropWhile_eq_nil.mp hdrop A.closing (by simp)
      rw [A.closing_not_blank] at this
      cases this
    | cons c s =>
      rw [hdrop] at hstop
      simp [stops_cons.mp hstop, hleaf]
  | .node sep op first members, hwf, n, hn, r => by
    obtain ⟨hsep, hop, hfirst, hms⟩ := hwf
    obtain ⟨m, rfl⟩ : ∃ m, n = m + 1 := ⟨n - 1, by simp [Tree.size] at hn; omega⟩
    have hm : members.size ≤ m := by simpa [Tree.size] using hn
    have hread := readMembers_text members hms m hm (A.closing :: r)
      (by simpa using A.opening_ne_closing.symm) (by simp [A.closing_not_blank])
    have hs₁ : Stops A.isBlank (op :: (first ++ (members.text A ++ A.closing :: r))) := by
      simp [A.op_not_blank op hop]
    have hs₂ : Stops A.isBlank (members.text A ++ A.closing :: r) := members.stops_text r
    simp only [Tree.text, List.cons_append, List.append_assoc, List.nil_append, readTree, if_true,
      dropWhile_append hsep hs₁, takeWhile_append hsep hs₁, hop,
      dropWhile_append hfirst hs₂, takeWhile_append hfirst hs₂, hread]
    simp

/-- Every list of members is read back, up to a symbol that neither opens a
member nor is blank. -/
theorem readMembers_text : ∀ (ms : Members α), ms.WF A → ∀ (n : Nat), ms.size ≤ n →
    ∀ r : List α, (∀ s, r ≠ A.opening :: s) → Stops A.isBlank r →
    readMembers A n (ms.text A ++ r) = some (ms, r)
  | .nil, _, n, hn, r, hr, _ => by
    obtain ⟨m, rfl⟩ : ∃ m, n = m + 1 := ⟨n - 1, by simp [Members.size] at hn; omega⟩
    cases r with
    | nil => simp [Members.text, readMembers]
    | cons c s =>
      have hc : c ≠ A.opening := fun he => hr s (by rw [he])
      simp [Members.text, readMembers, hc]
  | .cons head run tail, hwf, n, hn, r, hr, hstop => by
    obtain ⟨hhead, hrun, htail⟩ := hwf
    obtain ⟨m, rfl⟩ : ∃ m, n = m + 1 := ⟨n - 1, by simp [Members.size] at hn; omega⟩
    have hsize : head.size + tail.size ≤ m := by simpa [Members.size] using hn
    have ih₁ := readTree_text head hhead m (by omega) (run ++ (tail.text A ++ r))
    have ih₂ := readMembers_text tail htail m (by omega) r hr hstop
    have hnext : Stops A.isBlank (tail.text A ++ r) := by
      cases tail with
      | nil => simpa [Members.text] using hstop
      | cons head' run' tail' =>
        obtain ⟨s, hs⟩ := head'.text_eq_cons (A := A)
        simp [Members.text, hs, A.opening_not_blank]
    obtain ⟨s, hs⟩ := head.text_eq_cons (A := A)
    have hshape : (Members.cons head run tail).text A ++ r
        = A.opening :: (s ++ (run ++ (tail.text A ++ r))) := by
      simp [Members.text, hs]
    have hhd : A.opening :: (s ++ (run ++ (tail.text A ++ r)))
        = head.text A ++ (run ++ (tail.text A ++ r)) := by simp [hs]
    rw [hshape, readMembers, if_pos rfl, hhd, ih₁]
    simp [dropWhile_append hrun hnext, takeWhile_append hrun hnext, ih₂]

end

/-- A text has at most one bracket structure, and no bracketed text is a proper
prefix of another. -/
theorem Tree.text_inj {t₁ t₂ : Tree α} (h₁ : t₁.WF A) (h₂ : t₂.WF A) {r₁ r₂ : List α}
    (h : t₁.text A ++ r₁ = t₂.text A ++ r₂) : t₁ = t₂ ∧ r₁ = r₂ := by
  have e₁ := readTree_text t₁ h₁ (max t₁.size t₂.size) (Nat.le_max_left _ _) r₁
  have e₂ := readTree_text t₂ h₂ (max t₁.size t₂.size) (Nat.le_max_right _ _) r₂
  rw [h, e₂] at e₁
  simp only [Option.some.injEq, Prod.mk.injEq] at e₁
  exact ⟨e₁.1.symm, e₁.2.symm⟩

/-! ## Reading soundly -/

theorem readLeaf_sound {s rest : List α} {t : Tree α} (h : readLeaf A s = some (t, rest)) :
    ∃ body, t = .leaf body ∧ All A.isPlain body ∧ s = body ++ A.closing :: rest := by
  simp only [readLeaf, Option.map_eq_some_iff, Prod.mk.injEq] at h
  obtain ⟨rest', hclose, rfl, rfl⟩ := h
  refine ⟨s.takeWhile A.isPlain, rfl, All.takeWhile s, ?_⟩
  rw [← readClosing_eq_some.mp hclose, List.takeWhile_append_dropWhile]

mutual

/-- Whatever is read is a well-formed tree, and its text is what was consumed. -/
theorem readTree_sound : ∀ (n : Nat) (s : List α) (t : Tree α) (rest : List α),
    readTree A n s = some (t, rest) → t.WF A ∧ t.text A ++ rest = s
  | 0, s, t, rest, h => by simp [readTree] at h
  | n + 1, [], t, rest, h => by simp [readTree] at h
  | n + 1, c :: s, t, rest, h => by
    rw [readTree] at h
    split at h
    case isFalse => cases h
    rename_i hc
    subst hc
    split at h
    case h_1 => cases h
    rename_i op s' hdrop
    have hblank : s = s.takeWhile A.isBlank ++ op :: s' := by
      rw [← hdrop, List.takeWhile_append_dropWhile]
    split at h
    · -- an operator symbol: the members and the closing bracket follow
      rename_i hop
      simp only [Option.bind_eq_some_iff, Option.map_eq_some_iff, Prod.mk.injEq, Prod.exists] at h
      obtain ⟨members, rest', hms, rest'', hclose, rfl, rfl⟩ := h
      obtain ⟨hwf, htext⟩ := readMembers_sound n _ members rest' hms
      rw [readClosing_eq_some.mp hclose] at htext
      refine ⟨⟨All.takeWhile s, hop, All.takeWhile s', hwf⟩, ?_⟩
      conv_rhs => rw [hblank, ← List.takeWhile_append_dropWhile (p := A.isBlank) (l := s'), ← htext]
      simp [Tree.text]
    · -- a leaf: its text runs up to the closing bracket
      rename_i hop
      obtain ⟨body, rfl, hplain, rfl⟩ := readLeaf_sound h
      refine ⟨⟨hplain, ?_⟩, by simp [Tree.text]⟩
      -- its first character that is no blank is no operator symbol
      by_cases hb : All A.isBlank body
      · rw [dropWhile_eq_nil.mpr hb]
        exact Stops.nil
      · rw [dropWhile_append_of_not_all hb] at hdrop
        intro c r hcr
        rw [hcr] at hdrop
        have hco : c = op := by simpa using (List.cons.inj hdrop).1
        simpa [hco] using hop

theorem readMembers_sound : ∀ (n : Nat) (s : List α) (ms : Members α) (rest : List α),
    readMembers A n s = some (ms, rest) → ms.WF A ∧ ms.text A ++ rest = s
  | 0, s, ms, rest, h => by simp [readMembers] at h
  | n + 1, [], ms, rest, h => by
    simp only [readMembers, Option.some.injEq, Prod.mk.injEq] at h
    obtain ⟨rfl, rfl⟩ := h
    exact ⟨trivial, rfl⟩
  | n + 1, c :: s, ms, rest, h => by
    rw [readMembers] at h
    split at h
    · simp only [Option.bind_eq_some_iff, Option.map_eq_some_iff, Prod.mk.injEq,
        Prod.exists] at h
      obtain ⟨head, rest', hhead, tail, rest'', htail, rfl, rfl⟩ := h
      obtain ⟨hwf₁, htext₁⟩ := readTree_sound n _ head rest' hhead
      obtain ⟨hwf₂, htext₂⟩ := readMembers_sound n _ tail rest'' htail
      refine ⟨⟨hwf₁, All.takeWhile rest', hwf₂⟩, ?_⟩
      rw [← htext₁, Members.text, List.append_assoc, List.append_assoc, htext₂,
        List.takeWhile_append_dropWhile]
    · simp only [Option.some.injEq, Prod.mk.injEq] at h
      obtain ⟨rfl, rfl⟩ := h
      exact ⟨trivial, rfl⟩

end

/-! ## Counting brackets -/

mutual

/-- The leaves and the inner nodes. -/
def Tree.nodes : Tree α → Nat
  | .leaf _ => 1
  | .node _ _ _ members => members.nodes + 1

def Members.nodes : Members α → Nat
  | .nil => 0
  | .cons head _ tail => head.nodes + tail.nodes

end

variable (A)

mutual

/-- Blanks and operator symbols stand where they may; the texts of the leaves are
left open. -/
def Tree.Framed : Tree α → Prop
  | .leaf _ => True
  | .node sep op first members =>
    All A.isBlank sep ∧ A.isOp op = true ∧ All A.isBlank first ∧ members.Framed

def Members.Framed : Members α → Prop
  | .nil => True
  | .cons head run tail => head.Framed ∧ All A.isBlank run ∧ tail.Framed

end

variable {A}

mutual

theorem Tree.WF.framed : ∀ {t : Tree α}, t.WF A → t.Framed A
  | .leaf _, _ => trivial
  | .node _ _ _ _, h => ⟨h.1, h.2.1, h.2.2.1, Members.WF.framed h.2.2.2⟩

theorem Members.WF.framed : ∀ {ms : Members α}, ms.WF A → ms.Framed A
  | .nil, _ => trivial
  | .cons _ _ _, h => ⟨Tree.WF.framed h.1, h.2.1, Members.WF.framed h.2.2⟩

end

mutual

theorem Tree.WF.plain : ∀ {t : Tree α}, t.WF A → ∀ body ∈ t.leaves, All A.isPlain body
  | .leaf body, h, b, hb => by
    rw [List.mem_singleton.mp hb]
    exact h.1
  | .node _ _ _ _, h, b, hb => Members.WF.plain h.2.2.2 b hb

theorem Members.WF.plain : ∀ {ms : Members α}, ms.WF A → ∀ body ∈ ms.leaves, All A.isPlain body
  | .cons _ _ _, h, b, hb => by
    rcases List.mem_append.mp hb with hb | hb
    · exact Tree.WF.plain h.1 b hb
    · exact Members.WF.plain h.2.2 b hb

end

mutual

/-- A frame around leaves that may stand between brackets is well formed. -/
theorem Tree.Framed.wf : ∀ {t : Tree α}, t.Framed A →
    (∀ body ∈ t.leaves, All A.isPlain body ∧ Stops A.isOp (body.dropWhile A.isBlank)) → t.WF A
  | .leaf body, _, hleaves => hleaves body (List.mem_singleton.mpr rfl)
  | .node _ _ _ _, h, hleaves => ⟨h.1, h.2.1, h.2.2.1, Members.Framed.wf h.2.2.2 hleaves⟩

theorem Members.Framed.wf : ∀ {ms : Members α}, ms.Framed A →
    (∀ body ∈ ms.leaves, All A.isPlain body ∧ Stops A.isOp (body.dropWhile A.isBlank)) → ms.WF A
  | .nil, _, _ => trivial
  | .cons _ _ _, h, hleaves =>
    ⟨Tree.Framed.wf h.1 fun b hb => hleaves b (List.mem_append_left _ hb), h.2.1,
      Members.Framed.wf h.2.2 fun b hb => hleaves b (List.mem_append_right _ hb)⟩

end

/-- A symbol that is neither blank nor an operator does not occur in blanks. -/
theorem count_blank {b : α} (hb : A.isBlank b = false) {run : List α} (h : All A.isBlank run) :
    run.count b = 0 := by
  refine List.count_eq_zero.mpr fun hmem => ?_
  have hblank := h b hmem
  rw [hb] at hblank
  cases hblank

mutual

/-- A bracket stands once for each node, and wherever a leaf has it. -/
theorem Tree.count_text {b : α} (hb : A.isBlank b = false) (hop : A.isOp b = false) :
    ∀ {t : Tree α}, t.Framed A →
    (t.text A).count b = t.nodes * [A.opening, A.closing].count b + t.leaves.flatten.count b
  | .leaf body, _ => by
    simp only [Tree.text, Tree.nodes, Tree.leaves, List.flatten_cons, List.flatten_nil,
      List.append_nil, List.count_cons, List.count_append, List.count_nil]
    omega
  | .node sep op first members, h => by
    have hms := Members.count_text hb hop h.2.2.2
    have hne : (op == b) = false := by
      refine beq_eq_false_iff_ne.mpr fun he => ?_
      have hisOp := h.2.1
      rw [he, hop] at hisOp
      cases hisOp
    simp only [Tree.text, Tree.nodes, Tree.leaves, List.count_cons, List.count_append,
      List.count_nil, hms, count_blank hb h.1, count_blank hb h.2.2.1, hne, Nat.add_mul]
    simp only [Bool.false_eq_true, if_false]
    omega

theorem Members.count_text {b : α} (hb : A.isBlank b = false) (hop : A.isOp b = false) :
    ∀ {ms : Members α}, ms.Framed A →
    (ms.text A).count b = ms.nodes * [A.opening, A.closing].count b + ms.leaves.flatten.count b
  | .nil, _ => by simp [Members.text, Members.nodes, Members.leaves]
  | .cons head run tail, h => by
    simp only [Members.text, Members.nodes, Members.leaves, List.count_append,
      Tree.count_text hb hop h.1, Members.count_text hb hop h.2.2, count_blank hb h.2.1,
      List.flatten_append,
      Nat.add_mul]
    omega

end

/-- A text with as many brackets as its frame has nodes has none in its leaves. -/
theorem Tree.plain_of_nodes_eq (hop : A.isOp A.opening = false) {t₁ t₂ : Tree α}
    (h₁ : t₁.WF A) (h₂ : t₂.Framed A) (htext : t₁.text A = t₂.text A)
    (hnodes : t₁.nodes = t₂.nodes) : ∀ body ∈ t₂.leaves, All A.isPlain body := by
  have hcount : ∀ b, A.isBlank b = false → A.isOp b = false → A.isPlain b = false →
      t₂.leaves.flatten.count b = 0 := by
    intro b hblank hisOp hplain
    have hleaves : t₁.leaves.flatten.count b = 0 := by
      refine List.count_eq_zero.mpr fun hmem => ?_
      obtain ⟨body, hbody, hb⟩ := List.mem_flatten.mp hmem
      rw [h₁.plain body hbody b hb] at hplain
      cases hplain
    have hcount₁ := Tree.count_text hblank hisOp h₁.framed
    have hcount₂ := Tree.count_text hblank hisOp h₂
    rw [htext, hnodes, hcount₂, hleaves] at hcount₁
    omega
  have hopening := hcount A.opening A.opening_not_blank hop (by simp [Alphabet.isPlain])
  have hclosing := hcount A.closing A.closing_not_blank A.closing_not_op (by simp)
  intro body hbody c hc
  have hmem := List.mem_flatten.mpr ⟨body, hbody, hc⟩
  have hne₁ : c ≠ A.opening := fun he => List.count_eq_zero.mp hopening (he ▸ hmem)
  have hne₂ : c ≠ A.closing := fun he => List.count_eq_zero.mp hclosing (he ▸ hmem)
  simp [Alphabet.isPlain, hne₁, hne₂]

end FreeIam.Bracket
