import FreeIam.Ldap.Filter.Objects
import FreeIam.Ldap.Filter.Resolver
import Mathlib.Data.List.Chain
import Mathlib.Logic.Relation

/-!
# Walking a filter

`Filter.walk` keeps a stack of its own and calls back while it goes, and the
callbacks may edit what is walked. With the strategy `POST` they may as long as
they keep to the list of the parent and the members of the visited operator: what
is still on the stack is then where it was.
-/

namespace FreeIam.Ldap

open FreeIam.Py FreeIam.Errors

/-! ## Callbacks -/

/-- What a callback does to the objects: make a new one, or edit the list of a container. -/
inductive Edit
  | make (cell : Cell)
  | append (container expression : Ref)
  | insert (container expression : Ref) (index : Int)
  | replace (container expression replacement : Ref)
  | remove (container expression : Ref)

def Edit.apply (h : Heap) : Edit → Except PyExc Heap
  | .make cell => .ok (h ++ [cell])
  | .append container expression => h.append container expression
  | .insert container expression index => h.insert container expression index
  | .replace container expression replacement => h.replace container expression replacement
  | .remove container expression => h.remove container expression

/-- Edits, one after the other. -/
def Heap.edit (h : Heap) : List Edit → Except PyExc Heap
  | [] => .ok h
  | e :: edits =>
    match e.apply h with
    | .error exc => .error exc
    | .ok h => h.edit edits

/-- A callback: what it does for a parent and an expression, with a state of its own. -/
abbrev Callback (σ : Type) := σ → Heap → Ref → Ref → List Edit × σ

/-- The two callbacks of a walk, either of which may be `None`. -/
structure Callbacks (σ : Type) where
  comparison : Option (Callback σ)
  operator : Option (Callback σ)

/-! ## The walk -/

/-- `WalkStrategy` -/
inductive WalkStrategy
  | pre | post | both
  deriving DecidableEq

/-- A call of a callback, with the objects before and after. -/
structure Visit where
  parent : Ref
  expression : Ref
  before : Heap
  after : Heap

/-- The state of the loop: the objects, the stack with its top first, the state of
the callbacks, and the calls made so far. -/
structure Walk (σ : Type) where
  heap : Heap
  stack : List (Ref × Ref × Bool)
  own : σ
  visits : List Visit

namespace Walk

variable {σ : Type}

/-- `callback(self, parent, expression)` -/
def call (callback : Callback σ) (w : Walk σ) (parent expression : Ref) : Except PyExc (Walk σ) :=
  let (edits, own) := callback w.own w.heap parent expression
  match w.heap.edit edits with
  | .error exc => .error exc
  | .ok heap =>
    .ok { w with
      heap := heap, own := own
      visits := w.visits ++ [⟨parent, expression, w.heap, heap⟩] }

/-- A callback that may be `None`. -/
def callIf (callback : Option (Callback σ)) (w : Walk σ) (parent expression : Ref) : Except PyExc (Walk σ) :=
  match callback with
  | none => .ok w
  | some callback => w.call callback parent expression

/-- Push the members of a container, so that the first of them comes next. -/
def pushMembers (w : Walk σ) (expression : Ref) : Walk σ :=
  { w with
    stack := (w.heap.expressions ((w.heap.items expression).getD [])).map (fun child => (expression, child, true)) ++
      w.stack }

/-- The body of the loop, for the entry that has been popped. -/
def visit (callbacks : Callbacks σ) (strategy : WalkStrategy) (w : Walk σ) (parent expression : Ref)
    (isPreVisit : Bool) : Except PyExc (Walk σ) :=
  match w.heap[expression]? with
  | none => .error (.raised "TypeError")
  | some (.comparison _) => w.callIf callbacks.comparison parent expression
  | some cell =>
    if isPreVisit then
      match
        (if (strategy = .pre ∨ strategy = .both) ∧ cell.isOperator then
          w.callIf callbacks.operator parent expression
        else .ok w) with
      | .error exc => .error exc
      | .ok w =>
        if callbacks.operator.isSome ∧ (strategy = .post ∨ strategy = .both) ∧ cell.isOperator then
          .ok ({ w with stack := (parent, expression, false) :: w.stack }.pushMembers expression)
        else .ok (w.pushMembers expression)
    else
      match callbacks.operator with
      | none => .error .assertionError
      | some callback => w.call callback parent expression

/-- The loop, for at most so many rounds; `none` where it has not ended then. -/
def loop (callbacks : Callbacks σ) (strategy : WalkStrategy) : Nat → Walk σ → Option (Except PyExc (Walk σ))
  | 0, w => if w.stack = [] then some (.ok w) else none
  | rounds + 1, w =>
    match w.stack with
    | [] => some (.ok w)
    | (parent, expression, isPreVisit) :: stack =>
      match visit callbacks strategy { w with stack := stack } parent expression isPreVisit with
      | .error exc => some (.error exc)
      | .ok w => loop callbacks strategy rounds w

end Walk

/-- `Filter.root`, as an object: the first member of `fil.ast` that is no token. -/
def Heap.root (h : Heap) (ast : Ref) : Option Ref :=
  ((h.items ast).getD []).findSome? fun item =>
    match item with
    | .token _ => none
    | .expression r => some r

/-- A walk before its first round; the root of an empty filter is `None`. -/
def Walk.start {σ : Type} (h : Heap) (ast root : Ref) (own : σ) : Walk σ :=
  { heap := h, stack := [(ast, root, true)], own := own, visits := [] }

/-- `Filter.walk` -/
def Filter.walk {σ : Type} (callbacks : Callbacks σ) (strategy : WalkStrategy) (rounds : Nat) (f : Filter)
    (own : σ) : Option (Except PyExc (Walk σ)) :=
  match f.heap.root 0 with
  | none => some (.error (.raised "TypeError"))
  | some root => Walk.loop callbacks strategy rounds (Walk.start f.heap 0 root own)

/-! ## Rounds -/

namespace Walk

variable {σ : Type}

/-- One round of a walk with the strategy `POST`. -/
def Round (callbacks : Callbacks σ) (w w' : Walk σ) : Prop :=
  ∃ parent expression isPreVisit stack, w.stack = (parent, expression, isPreVisit) :: stack ∧
    visit callbacks .post { w with stack := stack } parent expression isPreVisit = .ok w'

/-- Any number of rounds. -/
abbrev Rounds (callbacks : Callbacks σ) : Walk σ → Walk σ → Prop := Relation.ReflTransGen (Round callbacks)

/-- Rounds that empty the stack end the loop. -/
theorem Rounds.loop {callbacks : Callbacks σ} {w w' : Walk σ} (h : Rounds callbacks w w')
    (hstack : w'.stack = []) :
    ∃ n, ∀ rounds, n ≤ rounds → loop callbacks .post rounds w = some (.ok w') := by
  induction h using Relation.ReflTransGen.head_induction_on with
  | refl =>
    refine ⟨0, fun rounds _ => ?_⟩
    cases rounds with
    | zero =>
      rw [Walk.loop, if_pos hstack]
    | succ rounds =>
      rw [Walk.loop]
      simp only [hstack]
  | head hround _ ih =>
    obtain ⟨n, hn⟩ := ih
    obtain ⟨parent, expression, isPreVisit, stack, hw, hvisit⟩ := hround
    refine ⟨n + 1, fun rounds hrounds => ?_⟩
    cases rounds with
    | zero => omega
    | succ rounds =>
      rw [Walk.loop]
      simp only [hw, hvisit]
      exact hn rounds (by omega)

end Walk

/-! ## The edits that are allowed -/

/-- An edit in the list of the parent may append and insert, and replace or remove
the visited expression, which it can while it is there; the members of a visited
operator may be edited as well. -/
def Edit.Allowed (parent expression : Ref) (operator removed : Bool) (h : Heap) : Edit → Prop
  | .make _ => True
  | .append container _ => container = parent ∨ operator = true ∧ container = expression
  | .insert container _ _ => container = parent ∨ operator = true ∧ container = expression
  | .replace container e _ =>
    container = parent ∧ e = expression ∧ (removed = false ∨ h.Contains parent expression) ∨
      operator = true ∧ container = expression ∧ h.Contains container e
  | .remove container e =>
    container = parent ∧ e = expression ∧ (removed = false ∨ h.Contains parent expression) ∨
      operator = true ∧ container = expression ∧ h.Contains container e

/-- Whether an edit takes the visited expression out of the list of its parent. -/
def Edit.takes (parent : Ref) : Edit → Bool
  | .replace container _ _ => container == parent
  | .remove container _ => container == parent
  | _ => false

/-- The edits of one call are allowed, one after the other. -/
def Permitted (parent expression : Ref) (operator : Bool) : Bool → Heap → List Edit → Prop
  | _, _, [] => True
  | removed, h, e :: edits =>
    e.Allowed parent expression operator removed h ∧
      ∀ h', e.apply h = .ok h' → Permitted parent expression operator (removed || e.takes parent) h' edits

/-- The callback that comes next makes allowed edits only. -/
structure Walk.Obeys {σ : Type} (callbacks : Callbacks σ) (w : Walk σ) : Prop where
  comparison : ∀ callback parent expression isPreVisit stack c, callbacks.comparison = some callback →
    w.stack = (parent, expression, isPreVisit) :: stack → w.heap[expression]? = some (.comparison c) →
    Permitted parent expression false false w.heap (callback w.own w.heap parent expression).1
  operator : ∀ callback parent expression stack, callbacks.operator = some callback →
    w.stack = (parent, expression, false) :: stack →
    Permitted parent expression true false w.heap (callback w.own w.heap parent expression).1

namespace Heap

variable {h : Heap}

/-- An edit in the list of the parent. -/
theorem update_parent {p e : Nat} {cls : ContainerClass} {items items' : List Item} {sep : Option PyStr}
    {f : List Item → Except PyExc (List Item)} {taken : Bool}
    (hcell : h[p]? = some (.container cls items sep)) (hf : f items = .ok items')
    (hkeeps : ∀ x : Nat, x ≠ e → Item.expression x ∈ items → Item.expression x ∈ items')
    (he : taken = false → Item.expression e ∈ items') :
    ∃ h', h.update p f = .ok h' ∧ Frame p e (e + 1) h h' ∧ (taken = false → h'.Contains p e) :=
  ⟨_, update_of_some hcell hf, frame_set_parent hcell hkeeps, fun ht => (contains_set hcell).mpr (he ht)⟩

/-- An edit of the members of the visited expression. -/
theorem update_self {p e : Nat} {cls : ContainerClass} {items items' : List Item} {sep : Option PyStr}
    {f : List Item → Except PyExc (List Item)} {taken : Bool} (hne : p ≠ e)
    (hcell : h[e]? = some (.container cls items sep)) (hf : f items = .ok items')
    (he : taken = false → h.Contains p e) :
    ∃ h', h.update e f = .ok h' ∧ Frame p e (e + 1) h h' ∧ (taken = false → h'.Contains p e) :=
  ⟨_, update_of_some hcell hf, frame_set_self hcell hne,
    fun ht => (contains_congr (List.getElem?_set_ne (Ne.symm hne))).mpr (he ht)⟩

theorem mem_set_of_ne {items : List Item} {index : Nat} {x y : Item} {replacement : Item}
    (hindex : items[index]? = some y) (hx : x ∈ items) (hne : x ≠ y) : x ∈ items.set index replacement := by
  obtain ⟨j, hj⟩ := List.mem_iff_getElem?.mp hx
  have hij : index ≠ j := by
    rintro rfl
    exact hne (Option.some.inj (hj.symm.trans hindex))
  exact List.mem_iff_getElem?.mpr ⟨j, by rw [List.getElem?_set_ne hij, hj]⟩

theorem mem_eraseIdx_of_ne {items : List Item} {index : Nat} {x y : Item}
    (hindex : items[index]? = some y) (hx : x ∈ items) (hne : x ≠ y) : x ∈ items.eraseIdx index := by
  obtain ⟨j, hj⟩ := List.mem_iff_getElem?.mp hx
  refine List.mem_eraseIdx_iff_getElem?.mpr ⟨j, ?_, hj⟩
  rintro rfl
  exact hne (Option.some.inj (hj.symm.trans hindex))

theorem insertIndex_le (length : Nat) (index : Int) : insertIndex length index ≤ length := by
  unfold insertIndex
  split <;> omega

/-- An allowed edit succeeds, and the visited expression stays in the list of its
parent unless the edit takes it out. -/
theorem apply_allowed {p e : Nat} {operator removed : Bool} {edit : Edit} (hne : p ≠ e)
    (hp : ∃ cls items sep, h[p]? = some (.container cls items sep))
    (he : operator = true → ∃ cls items sep, h[e]? = some (.container cls items sep))
    (hcontains : removed = false → h.Contains p e) (hallowed : edit.Allowed p e operator removed h) :
    ∃ h', edit.apply h = .ok h' ∧ Frame p e (e + 1) h h' ∧
      ((removed || edit.takes p) = false → h'.Contains p e) := by
  obtain ⟨cls, items, sep, hcell⟩ := hp
  have hlt : p < h.length := (List.getElem?_eq_some_iff.mp hcell).1
  have hmem : removed = false → Item.expression e ∈ items := fun hr => (contains_iff hcell).mp (hcontains hr)
  have htakes : ∀ {b : Bool}, (removed || b) = false → removed = false :=
    fun h => (Bool.or_eq_false_iff.mp h).1
  -- in the list of the parent the visited expression is still there when it is taken
  have hthere : removed = false ∨ h.Contains p e → Item.expression e ∈ items := by
    rintro (hr | hc)
    · exact hmem hr
    · exact (contains_iff hcell).mp hc
  cases edit with
  | make cell =>
    refine ⟨h ++ [cell], rfl, frame_append p e cell hlt, fun ht => ?_⟩
    exact (contains_congr (List.getElem?_append_left hlt)).mpr (hcontains (htakes ht))
  | append container x =>
    rcases hallowed with rfl | ⟨hop, rfl⟩
    · exact update_parent hcell rfl (fun y _ hy => List.mem_append_left _ hy)
        fun ht => List.mem_append_left _ (hmem (htakes ht))
    · obtain ⟨cls', items', sep', hcell'⟩ := he hop
      exact update_self hne hcell' rfl fun ht => hcontains (htakes ht)
  | insert container x index =>
    rcases hallowed with rfl | ⟨hop, rfl⟩
    · refine update_parent hcell rfl (fun y _ hy => ?_) fun ht => ?_
      · exact (List.mem_insertIdx (insertIndex_le _ _)).mpr (Or.inr hy)
      · exact (List.mem_insertIdx (insertIndex_le _ _)).mpr (Or.inr (hmem (htakes ht)))
    · obtain ⟨cls', items', sep', hcell'⟩ := he hop
      exact update_self hne hcell' rfl fun ht => hcontains (htakes ht)
  | replace container x replacement =>
    rcases hallowed with ⟨rfl, rfl, hr⟩ | ⟨hop, rfl, hx⟩
    · obtain ⟨index, hindexOf, hindex⟩ := indexOf_of_mem (hthere hr)
      refine update_parent (f := fun items => (indexOf items x).map _) hcell (by rw [hindexOf]; rfl)
        (fun y hy hmem' => mem_set_of_ne hindex hmem' (by simpa using hy)) fun ht => ?_
      simp [Edit.takes] at ht
    · obtain ⟨cls', items', sep', hcell'⟩ := he hop
      obtain ⟨index, hindexOf, -⟩ := indexOf_of_mem ((contains_iff hcell').mp hx)
      exact update_self (f := fun items => (indexOf items x).map _) hne hcell' (by rw [hindexOf]; rfl)
        fun ht => hcontains (htakes ht)
  | remove container x =>
    rcases hallowed with ⟨rfl, rfl, hr⟩ | ⟨hop, rfl, hx⟩
    · obtain ⟨index, hindexOf, hindex⟩ := indexOf_of_mem (hthere hr)
      refine update_parent (f := fun items => (indexOf items x).map _) hcell (by rw [hindexOf]; rfl)
        (fun y hy hmem' => mem_eraseIdx_of_ne hindex hmem' (by simpa using hy)) fun ht => ?_
      simp [Edit.takes] at ht
    · obtain ⟨cls', items', sep', hcell'⟩ := he hop
      obtain ⟨index, hindexOf, -⟩ := indexOf_of_mem ((contains_iff hcell').mp hx)
      exact update_self (f := fun items => (indexOf items x).map _) hne hcell' (by rw [hindexOf]; rfl)
        fun ht => hcontains (htakes ht)

/-- The edits of a call succeed, and change the list of the parent and the members
of the visited expression only. -/
theorem edit_permitted {p e : Nat} {operator : Bool} (hne : p ≠ e) {edits : List Edit} :
    ∀ {h : Heap} {removed : Bool}, (∃ cls items sep, h[p]? = some (.container cls items sep)) →
      (operator = true → ∃ cls items sep, h[e]? = some (.container cls items sep)) →
      (removed = false → h.Contains p e) → Permitted p e operator removed h edits →
      ∃ h', h.edit edits = .ok h' ∧ Frame p e (e + 1) h h' := by
  induction edits with
  | nil => exact fun _ _ _ _ => ⟨_, rfl, Frame.refl _ _ _ _⟩
  | cons edit edits ih =>
    intro h removed hp he hcontains hpermitted
    obtain ⟨h₁, happly, hframe, hcontains₁⟩ := apply_allowed hne hp he hcontains hpermitted.1
    obtain ⟨cls, items, sep, hcell⟩ := hp
    obtain ⟨items₁, hcell₁⟩ := hframe.classes.container p cls items sep hcell
    obtain ⟨h₂, hedits, hframe₂⟩ := ih ⟨cls, items₁, sep, hcell₁⟩
      (fun hop => by
        obtain ⟨cls', items', sep', hcell'⟩ := he hop
        obtain ⟨items₁', hcell₁'⟩ := hframe.classes.container e cls' items' sep' hcell'
        exact ⟨cls', items₁', sep', hcell₁'⟩)
      hcontains₁ (hpermitted.2 h₁ happly)
    refine ⟨h₂, ?_, hframe.trans hframe₂⟩
    unfold Heap.edit
    rw [happly]
    exact hedits

end Heap

/-! ## Where the members of a filter are -/

mutual

/-- Every container inside is an operator, as in every parsed filter. -/
def Expression.Walkable : Expression → Prop
  | .comparison _ => True
  | .container (.operator _) es _ => es.Walkable
  | .container _ _ _ => False

def Expressions.Walkable : Expressions → Prop
  | .nil => True
  | .token _ rest => rest.Walkable
  | .cons e rest => e.Walkable ∧ rest.Walkable

end

/-- So do the members of the whole, which is an operator itself or a `Group` or
`Container` around a comparison. -/
def Expression.Rooted : Expression → Prop
  | .comparison _ => True
  | .container _ es _ => es.Walkable

theorem Expression.Walkable.rooted {e : Expression} (he : e.Walkable) : e.Rooted := by
  match e, he with
  | .comparison c, _ => trivial
  | .container (.operator op) es sep, he => exact he
  | .container .group es sep, he => cases he
  | .container .container es sep, he => cases he

/-- The members of a list whose first expression is made at `r`. -/
def Expressions.refs (r : Nat) : Expressions → List Nat
  | .nil => []
  | .token _ rest => rest.refs r
  | .cons e rest => r :: rest.refs (r + e.size)

mutual

/-- The expressions that callbacks are called with, those of an operator before itself. -/
def Expression.postorder (comparison operator : Bool) (r : Nat) : Expression → List Nat
  | .comparison _ => if comparison then [r] else []
  | .container cls es sep =>
    es.postorder comparison operator (r + 1) ++
      if operator ∧ (Cell.container cls [] sep).isOperator then [r] else []

def Expressions.postorder (comparison operator : Bool) (r : Nat) : Expressions → List Nat
  | .nil => []
  | .token _ rest => rest.postorder comparison operator r
  | .cons e rest =>
    e.postorder comparison operator r ++ rest.postorder comparison operator (r + e.size)

end

/-- The objects from `r` on are those of an expression. -/
def Expression.At (e : Expression) (r : Nat) (h : Heap) : Prop :=
  ∀ k, k < e.size → h[r + k]? = (e.cells r)[k]?

def Expressions.At (es : Expressions) (r : Nat) (h : Heap) : Prop :=
  ∀ k, k < es.size → h[r + k]? = (es.cells r)[k]?

theorem Expression.size_pos (e : Expression) : 0 < e.size := by
  cases e with
  | comparison c => exact Nat.one_pos
  | container cls es sep => exact Nat.succ_pos _

theorem Expression.At.comparison {c : Comparison} {r : Nat} {h : Heap}
    (hat : (Expression.comparison c).At r h) : h[r]? = some (.comparison c) :=
  hat 0 Nat.one_pos

theorem Expression.At.container {cls : ContainerClass} {es : Expressions} {sep : Option PyStr} {r : Nat}
    {h : Heap} (hat : (Expression.container cls es sep).At r h) :
    h[r]? = some (.container cls (es.items (r + 1)) sep) ∧ es.At (r + 1) h := by
  refine ⟨hat 0 (Expression.size_pos _), fun k hk => ?_⟩
  have hcell := hat (k + 1) (Nat.succ_lt_succ hk)
  rw [show r + (k + 1) = r + 1 + k by omega] at hcell
  exact hcell

theorem Expressions.At.cons {e : Expression} {rest : Expressions} {r : Nat} {h : Heap}
    (hat : (Expressions.cons e rest).At r h) : e.At r h ∧ rest.At (r + e.size) h := by
  have hlength : (e.cells r).length = e.size := e.length_cells r
  have hcells : (Expressions.cons e rest).cells r = e.cells r ++ rest.cells (r + e.size) := rfl
  have hsize : (Expressions.cons e rest).size = e.size + rest.size := rfl
  refine ⟨fun k hk => ?_, fun k hk => ?_⟩
  · rw [hat k (by omega), hcells, List.getElem?_append_left (by omega)]
  · rw [show r + e.size + k = r + (e.size + k) by omega, hat (e.size + k) (by omega), hcells,
      List.getElem?_append_right (by omega), hlength, Nat.add_sub_cancel_left]

/-- The objects of an expression are there. -/
theorem Expression.At.le_length {e : Expression} {r : Nat} {h : Heap} (hat : e.At r h) :
    r + e.size ≤ h.length := by
  have hpos := e.size_pos
  have hlength := e.length_cells r
  have hin : e.size - 1 < (e.cells r).length := by omega
  have hlast : h[r + (e.size - 1)]? = some (e.cells r)[e.size - 1] := by
    rw [hat (e.size - 1) (by omega), List.getElem?_eq_getElem hin]
  have hlt := (List.getElem?_eq_some_iff.mp hlast).1
  omega

theorem Expressions.At.lt_length {es : Expressions} {r : Nat} {h : Heap} (hat : es.At r h) {q : Nat}
    (hr : r ≤ q) (hq : q < r + es.size) : q < h.length := by
  have hlength := es.length_cells r
  have hin : q - r < (es.cells r).length := by omega
  have hcell : h[q]? = some (es.cells r)[q - r] := by
    have hk := hat (q - r) (by omega)
    rw [show r + (q - r) = q by omega] at hk
    rw [hk, List.getElem?_eq_getElem hin]
  exact (List.getElem?_eq_some_iff.mp hcell).1

theorem Expression.At.congr {e : Expression} {r : Nat} {h h' : Heap} (hat : e.At r h)
    (hsame : ∀ q : Nat, r ≤ q → q < r + e.size → h'[q]? = h[q]?) : e.At r h' := by
  intro k hk
  rw [hsame (r + k) (by omega) (by omega), hat k hk]

theorem Expressions.At.congr {es : Expressions} {r : Nat} {h h' : Heap} (hat : es.At r h)
    (hsame : ∀ q : Nat, r ≤ q → q < r + es.size → h'[q]? = h[q]?) : es.At r h' := by
  intro k hk
  rw [hsame (r + k) (by omega) (by omega), hat k hk]

theorem Expressions.refs_range (es : Expressions) (r c : Nat) (hc : c ∈ es.refs r) :
    r ≤ c ∧ c < r + es.size := by
  match es with
  | .nil => cases hc
  | .token t rest => exact rest.refs_range r c hc
  | .cons e rest =>
    have hpos := e.size_pos
    show r ≤ c ∧ c < r + (e.size + rest.size)
    rcases List.mem_cons.mp hc with rfl | hc
    · omega
    · have hrange := rest.refs_range (r + e.size) c hc
      omega

/-- The references to the members of a list. -/
theorem Expressions.mem_items (es : Expressions) (r c : Nat) (hc : c ∈ es.refs r) :
    Item.expression c ∈ es.items r := by
  match es with
  | .nil => cases hc
  | .token t rest => exact List.mem_cons_of_mem _ (rest.mem_items r c hc)
  | .cons e rest =>
    rcases List.mem_cons.mp hc with rfl | hc
    · exact List.mem_cons_self
    · exact List.mem_cons_of_mem _ (rest.mem_items (r + e.size) c hc)

/-- The first object of a walkable expression is one that `expressions` selects. -/
theorem Expression.At.isExpression {e : Expression} {r : Nat} {h : Heap} (hat : e.At r h)
    (he : e.Walkable) : h.isExpression r = true := by
  unfold Heap.isExpression
  cases e with
  | comparison c =>
    rw [hat.comparison]
    rfl
  | container cls es sep =>
    rw [hat.container.1]
    cases cls with
    | operator op => rfl
    | container => cases he
    | group => cases he

/-- `Container.expressions` selects the members that are no tokens. -/
theorem Expressions.At.expressions (es : Expressions) {r : Nat} {h : Heap} (hat : es.At r h)
    (hes : es.Walkable) : h.expressions (es.items r) = es.refs r := by
  match es with
  | .nil => rfl
  | .token t rest => exact Expressions.At.expressions rest hat hes
  | .cons e rest =>
    obtain ⟨he, hrest⟩ := hat.cons
    have hih := Expressions.At.expressions rest hrest hes.2
    unfold Heap.expressions at hih ⊢
    rw [Expressions.items, List.filterMap_cons]
    simp only [he.isExpression hes.1, if_true]
    rw [hih]
    rfl

/-! ## What is above an expression -/

/-- The containers above `p`, each in the list of the next, the last of them `ast`;
they were made before what is below them. -/
structure Above (ast : Ref) (h : Heap) (p : Nat) (above : List Nat) : Prop where
  chain : (p :: above).IsChain fun child parent => h.Contains parent child
  last : (p :: above).getLast? = some ast
  smaller : ∀ q ∈ above, q < p

namespace Above

variable {ast : Ref} {h h' : Heap} {p : Nat} {above : List Nat}

theorem reaches (habove : Above ast h p above) : h.Reaches ast p := by
  obtain ⟨hchain, hlast, -⟩ := habove
  induction above generalizing p with
  | nil =>
    cases hlast
    exact .refl _
  | cons q above ih =>
    rw [List.isChain_cons_cons] at hchain
    rw [List.getLast?_cons_cons] at hlast
    exact .step (ih hchain.2 hlast) hchain.1

theorem child (habove : Above ast h p above) {c : Nat} (hcontains : h.Contains p c) (hlt : p < c) :
    Above ast h c (p :: above) where
  chain := List.isChain_cons_cons.mpr ⟨hcontains, habove.chain⟩
  last := by rw [List.getLast?_cons_cons, habove.last]
  smaller := by
    intro q hq
    rcases List.mem_cons.mp hq with rfl | hq
    · exact hlt
    · exact (habove.smaller q hq).trans hlt

/-- What changes in the list of `p` and below it leaves what is above. -/
theorem frame (habove : Above ast h p above) {lo hi : Nat} (hframe : Heap.Frame p lo hi h h') (hp : p < lo)
    (hlength : p < h.length) : Above ast h' p above where
  chain := by
    refine List.IsChain.imp_of_mem_tail_imp (fun child parent _ hparent hc => ?_) habove.chain
    have hlt := habove.smaller parent hparent
    exact (Heap.contains_congr (hframe.outside parent (by omega) (by omega) (by omega))).mpr hc
  last := habove.last
  smaller := habove.smaller

end Above

/-- A call is safe: the parent can be reached before and after, so what was edited is
part of the filter, and before it contains the expression. -/
structure Visit.Safe (ast : Ref) (v : Visit) : Prop where
  reaches : v.before.Reaches ast v.parent
  contains : v.before.Contains v.parent v.expression
  edited : v.after.Reaches ast v.parent

theorem Heap.Contains.isContainer {h : Heap} {p x : Ref} (hcontains : h.Contains p x) :
    ∃ cls items sep, h[p]? = some (.container cls items sep) := by
  obtain ⟨items, hitems, -⟩ := hcontains
  unfold Heap.items at hitems
  cases hcell : h[p]? with
  | none =>
    rw [hcell] at hitems
    cases hitems
  | some cell =>
    cases cell with
    | comparison c =>
      rw [hcell] at hitems
      cases hitems
    | container cls items' sep => exact ⟨cls, items', sep, rfl⟩

namespace Walk

variable {σ : Type} {callbacks : Callbacks σ} {ast : Ref}

/-- What rounds have done: they have called back for some expressions, safely, and
have changed the list of `p` and the objects from `lo` up to `hi`. -/
structure Walked (callbacks : Callbacks σ) (ast : Ref) (p lo hi : Nat) (refs : List Nat)
    (w w' : Walk σ) : Prop where
  rounds : Rounds callbacks w w'
  frame : Heap.Frame p lo hi w.heap w'.heap
  visits : ∃ log, w'.visits = w.visits ++ log ∧ log.map Visit.expression = refs ∧ ∀ v ∈ log, v.Safe ast

/-- A call of a callback that makes allowed edits only. -/
theorem callIf_permitted {callback : Option (Callback σ)} {w : Walk σ} {p e : Nat} {operator : Bool}
    {above : List Nat} (habove : Above ast w.heap p above) (hcontains : w.heap.Contains p e) (hlt : p < e)
    (he : operator = true → ∃ cls items sep, w.heap[e]? = some (.container cls items sep))
    (hpermitted : ∀ cb, callback = some cb →
      Permitted p e operator false w.heap (cb w.own w.heap p e).1) :
    ∃ w', w.callIf callback p e = .ok w' ∧ w'.stack = w.stack ∧ Heap.Frame p e (e + 1) w.heap w'.heap ∧
      ∃ log, w'.visits = w.visits ++ log ∧
        log.map Visit.expression = (if callback.isSome then [e] else []) ∧ ∀ v ∈ log, v.Safe ast := by
  cases callback with
  | none => exact ⟨w, rfl, rfl, Heap.Frame.refl _ _ _ _, [], by simp, rfl, by simp⟩
  | some cb =>
    have hp := hcontains.isContainer
    obtain ⟨h', hedit, hframe⟩ := Heap.edit_permitted (Nat.ne_of_lt hlt) hp he (fun _ => hcontains)
      (hpermitted cb rfl)
    have hlength : p < w.heap.length := by
      obtain ⟨cls, items, sep, hcell⟩ := hp
      exact (List.getElem?_eq_some_iff.mp hcell).1
    refine ⟨{ w with
        heap := h'
        own := (cb w.own w.heap p e).2
        visits := w.visits ++ [⟨p, e, w.heap, h'⟩] },
      ?_, rfl, hframe, [⟨p, e, w.heap, h'⟩], rfl, rfl, ?_⟩
    · unfold callIf call
      simp only [hedit]
    · intro v hv
      obtain rfl := List.mem_singleton.mp hv
      exact ⟨habove.reaches, hcontains, (habove.frame hframe hlt hlength).reaches⟩

theorem Walked.trans {p lo hi : Nat} {refs refs' : List Nat} {w w₁ w₂ : Walk σ}
    (h : Walked callbacks ast p lo hi refs w w₁) (h' : Walked callbacks ast p lo hi refs' w₁ w₂) :
    Walked callbacks ast p lo hi (refs ++ refs') w w₂ where
  rounds := h.rounds.trans h'.rounds
  frame := h.frame.trans h'.frame
  visits := by
    obtain ⟨log, hvisits, hrefs, hsafe⟩ := h.visits
    obtain ⟨log', hvisits', hrefs', hsafe'⟩ := h'.visits
    refine ⟨log ++ log', by rw [hvisits', hvisits, List.append_assoc], by rw [List.map_append, hrefs, hrefs'],
      fun v hv => ?_⟩
    rcases List.mem_append.mp hv with hv | hv
    · exact hsafe v hv
    · exact hsafe' v hv

theorem Walked.mono {p lo hi lo' hi' : Nat} {refs : List Nat} {w w' : Walk σ}
    (h : Walked callbacks ast p lo hi refs w w') (hlo : lo' ≤ lo) (hhi : hi ≤ hi') :
    Walked callbacks ast p lo' hi' refs w w' :=
  ⟨h.rounds, h.frame.mono hlo hhi, h.visits⟩

/-- One round before. -/
theorem Walked.head {p lo hi : Nat} {refs : List Nat} {w w₁ w' : Walk σ} (hround : Rounds callbacks w w₁)
    (hheap : w₁.heap = w.heap) (hvisits : w₁.visits = w.visits)
    (h : Walked callbacks ast p lo hi refs w₁ w') : Walked callbacks ast p lo hi refs w w' :=
  ⟨hround.trans h.rounds, hheap ▸ h.frame, hvisits ▸ h.visits⟩

/-- The members of an operator, seen from its parent. -/
theorem Walked.lift {p r hi : Nat} {refs : List Nat} {w w' : Walk σ}
    (h : Walked callbacks ast r (r + 1) hi refs w w') (hp : p < r) (hr : r < hi)
    (hlength : r < w.heap.length) : Walked callbacks ast p r hi refs w w' :=
  ⟨h.rounds, h.frame.lift hp hr hlength, h.visits⟩

variable (callbacks) in
theorem visit_comparison {w : Walk σ} {p e : Nat} {c : Comparison} (hcell : w.heap[e]? = some (.comparison c))
    (isPreVisit : Bool) :
    visit callbacks .post w p e isPreVisit = w.callIf callbacks.comparison p e := by
  unfold visit
  rw [hcell]

variable (callbacks) in
/-- The first visit of a container pushes what comes after its members, and these. -/
theorem visit_pre {w : Walk σ} {p e : Nat} {cls : ContainerClass} {items : List Item} {sep : Option PyStr}
    (hcell : w.heap[e]? = some (.container cls items sep)) :
    visit callbacks .post w p e true = .ok { w with
      stack := (w.heap.expressions items).map (fun child => (e, child, true)) ++
        ((if callbacks.operator.isSome ∧ (Cell.container cls items sep).isOperator
            then [(p, e, false)] else []) ++ w.stack) } := by
  have hitems : w.heap.items e = some items := by
    unfold Heap.items
    rw [hcell]
    rfl
  unfold visit
  rw [hcell]
  by_cases hop : callbacks.operator.isSome ∧ (Cell.container cls items sep).isOperator
  · simp [hop.1, hop.2, pushMembers, hitems]
  · simp [hop, pushMembers, hitems]

/-- The second visit of an operator calls back. -/
theorem visit_post {w : Walk σ} {p e : Nat} {cls : ContainerClass} {items : List Item} {sep : Option PyStr}
    (hcell : w.heap[e]? = some (.container cls items sep)) (hoperator : callbacks.operator.isSome = true) :
    visit callbacks .post w p e false = w.callIf callbacks.operator p e := by
  unfold visit callIf
  rw [hcell]
  cases hcallback : callbacks.operator with
  | none =>
    rw [hcallback] at hoperator
    cases hoperator
  | some callback => rfl

/-- One round for the entry on top of the stack. -/
theorem round_of_visit {w w' : Walk σ} {p e : Nat} {isPreVisit : Bool} {rest : List (Ref × Ref × Bool)}
    (hstack : w.stack = (p, e, isPreVisit) :: rest)
    (hvisit : visit callbacks .post { w with stack := rest } p e isPreVisit = .ok w') :
    Rounds callbacks w w' :=
  Relation.ReflTransGen.single ⟨p, e, isPreVisit, rest, hstack, hvisit⟩

/-! ## The walk of an expression -/

/-- Along a walk the callbacks make allowed edits only. -/
abbrev Obeying (callbacks : Callbacks σ) (start : Walk σ) : Prop :=
  ∀ w, Rounds callbacks start w → w.Obeys callbacks

section Run

variable {start : Walk σ}

/-- A comparison is one round. -/
theorem walked_comparison {c : Comparison} {r p : Nat} {above : List Nat} {rest : List (Ref × Ref × Bool)}
    {w : Walk σ} (hobeys : Obeying callbacks start) (hstart : Rounds callbacks start w)
    (hstack : w.stack = (p, r, true) :: rest) (hcell : w.heap[r]? = some (.comparison c))
    (hcontains : w.heap.Contains p r) (hlt : p < r) (habove : Above ast w.heap p above) :
    ∃ w', w'.stack = rest ∧ Walked callbacks ast p r (r + 1)
      (if callbacks.comparison.isSome then [r] else []) w w' := by
  obtain ⟨w', hcall, hstack', hframe, hlog⟩ := callIf_permitted
    (w := { w with stack := rest }) habove hcontains hlt (fun h => by cases h)
    (fun cb hcb => (hobeys w hstart).comparison cb p r true rest c hcb hstack hcell)
  have hvisit := visit_comparison callbacks (w := { w with stack := rest }) (p := p) hcell true
  exact ⟨w', hstack', round_of_visit hstack (hvisit.trans hcall), hframe, hlog⟩

/-- The second visit of an operator, whose members have been walked. -/
theorem walked_operator {r p : Nat} {above : List Nat} {cls : ContainerClass} {items : List Item}
    {sep : Option PyStr} {rest : List (Ref × Ref × Bool)} {w : Walk σ} (hobeys : Obeying callbacks start)
    (hstart : Rounds callbacks start w) (hoperator : callbacks.operator.isSome = true)
    (hstack : w.stack = (p, r, false) :: rest)
    (hcell : w.heap[r]? = some (.container cls items sep)) (hcontains : w.heap.Contains p r)
    (hlt : p < r) (habove : Above ast w.heap p above) :
    ∃ w', w'.stack = rest ∧ Walked callbacks ast p r (r + 1) [r] w w' := by
  obtain ⟨w', hcall, hstack', hframe, hlog⟩ := callIf_permitted
    (w := { w with stack := rest }) habove hcontains hlt
    (fun _ => ⟨cls, items, sep, hcell⟩)
    (fun cb hcb => (hobeys w hstart).operator cb p r rest hcb hstack)
  rw [if_pos hoperator] at hlog
  have hvisit := visit_post (w := { w with stack := rest }) (p := p) hcell hoperator
  exact ⟨w', hstack', round_of_visit hstack (hvisit.trans hcall), hframe, hlog⟩

mutual

/-- An expression on top of the stack is walked, its members before itself, and the
rounds end with the rest of the stack. -/
theorem walked_expression (hobeys : Obeying callbacks start) (e : Expression) (he : e.Rooted) {r p : Nat}
    {above : List Nat} {rest : List (Ref × Ref × Bool)} {w : Walk σ} (hstart : Rounds callbacks start w)
    (hstack : w.stack = (p, r, true) :: rest) (hat : e.At r w.heap) (hcontains : w.heap.Contains p r)
    (hlt : p < r) (habove : Above ast w.heap p above) :
    ∃ w', w'.stack = rest ∧ Walked callbacks ast p r (r + e.size)
      (e.postorder callbacks.comparison.isSome callbacks.operator.isSome r) w w' := by
  match e, he with
  | .comparison c, _ => exact walked_comparison hobeys hstart hstack hat.comparison hcontains hlt habove
  | .container cls es sep, hes =>
    obtain ⟨hcell, hmembers⟩ := hat.container
    have hlength := hat.le_length
    have hsize : (Expression.container cls es sep).size = es.size + 1 := rfl
    have hclass : (Cell.container cls (es.items (r + 1)) sep).isOperator =
      (Cell.container cls [] sep).isOperator := by cases cls <;> rfl
    have hselected := hmembers.expressions es hes
    have hpre := visit_pre callbacks (w := { w with stack := rest }) (p := p) hcell
    rw [hselected, hclass] at hpre
    have hround := round_of_visit hstack hpre
    -- the members, with the operator above them
    obtain ⟨w₁, hstack₁, hmembers₁⟩ := walked_members hobeys es hes (q := r)
      (hstart.trans hround) rfl hmembers
      (fun c hc => ⟨_, by unfold Heap.items; rw [hcell]; rfl, es.mem_items (r + 1) c hc⟩)
      (Nat.lt_succ_self r) (by show r < w.heap.length; omega) (habove.child hcontains hlt)
    have hwalked₁ : Walked callbacks ast p r (r + (es.size + 1)) _ w w₁ :=
      ((hmembers₁.head hround rfl rfl).lift hlt (by omega) (by omega)).mono (Nat.le_refl _) (by omega)
    have hrounds₁ : Rounds callbacks start w₁ := hstart.trans hwalked₁.rounds
    show ∃ w', w'.stack = rest ∧ Walked callbacks ast p r (r + (es.size + 1))
      (es.postorder callbacks.comparison.isSome callbacks.operator.isSome (r + 1) ++
        if callbacks.operator.isSome ∧ (Cell.container cls [] sep).isOperator then [r] else []) w w'
    by_cases hoperator : callbacks.operator.isSome ∧ (Cell.container cls [] sep).isOperator
    · have hstack₁ : w₁.stack = (p, r, false) :: rest := by
        rw [hstack₁, if_pos hoperator]
        rfl
      obtain ⟨items₁, hcell₁⟩ := hwalked₁.frame.classes.container r _ _ _ hcell
      have hcontains₁ : w₁.heap.Contains p r :=
        (Heap.contains_congr (hmembers₁.frame.outside p (by show p < w.heap.length; omega) (by omega)
          (by omega))).mpr hcontains
      obtain ⟨w₂, hstack₂, hwalked₂⟩ := walked_operator hobeys hrounds₁ hoperator.1 hstack₁ hcell₁
        hcontains₁ hlt (habove.frame hwalked₁.frame hlt (by omega))
      rw [if_pos hoperator]
      exact ⟨w₂, hstack₂, hwalked₁.trans (hwalked₂.mono (Nat.le_refl _) (by omega))⟩
    · rw [if_neg hoperator] at hstack₁
      rw [if_neg hoperator, List.append_nil]
      exact ⟨w₁, hstack₁, hwalked₁⟩

/-- So are the members of a container. -/
theorem walked_members (hobeys : Obeying callbacks start) (es : Expressions) (hes : es.Walkable) {q k : Nat}
    {above : List Nat} {rest : List (Ref × Ref × Bool)} {w : Walk σ} (hstart : Rounds callbacks start w)
    (hstack : w.stack = (es.refs k).map (fun c => (q, c, true)) ++ rest) (hat : es.At k w.heap)
    (hcontains : ∀ c ∈ es.refs k, w.heap.Contains q c) (hlt : q < k) (hlength : q < w.heap.length)
    (habove : Above ast w.heap q above) :
    ∃ w', w'.stack = rest ∧ Walked callbacks ast q k (k + es.size)
      (es.postorder callbacks.comparison.isSome callbacks.operator.isSome k) w w' := by
  match es, hes with
  | .nil, _ => exact ⟨w, hstack, .refl, Heap.Frame.refl _ _ _ _, [], by simp, rfl, by simp⟩
  | .token t more, hmore => exact walked_members hobeys more hmore hstart hstack hat hcontains hlt hlength habove
  | .cons e more, ⟨he, hmore⟩ =>
    obtain ⟨hat₁, hat₂⟩ := hat.cons
    have hpos := e.size_pos
    have hend := hat₁.le_length
    obtain ⟨w₁, hstack₁, hwalked₁⟩ := walked_expression hobeys e he.rooted hstart hstack hat₁
      (hcontains k List.mem_cons_self) hlt habove
    -- what comes after it is still where it was
    obtain ⟨w₂, hstack₂, hwalked₂⟩ := walked_members hobeys more hmore
      (hstart.trans hwalked₁.rounds) hstack₁
      (hat₂.congr fun x hx hx' => hwalked₁.frame.outside x (hat₂.lt_length hx hx') (by omega) (by omega))
      (fun c hc => by
        have hrange := more.refs_range (k + e.size) c hc
        exact hwalked₁.frame.keeps c (by omega) (hcontains c (List.mem_cons_of_mem _ hc)))
      (by omega) (Nat.lt_of_lt_of_le hlength hwalked₁.frame.classes.length)
      (habove.frame hwalked₁.frame hlt hlength)
    refine ⟨w₂, hstack₂, ?_⟩
    have hsize : (Expressions.cons e more).size = e.size + more.size := rfl
    exact (hwalked₁.mono (Nat.le_refl _) (by omega)).trans (hwalked₂.mono (by omega) (by omega))

end

end Run

end Walk

/-! ## The expressions that are called back for -/

/-- Whether there is a callback for an object of this class. -/
def Callbacks.calls {σ : Type} (callbacks : Callbacks σ) : Cell → Bool
  | .comparison _ => callbacks.comparison.isSome
  | .container (.operator _) _ _ => callbacks.operator.isSome
  | .container _ _ _ => false

section Count

variable {σ : Type} (callbacks : Callbacks σ)

mutual

theorem Expression.mem_postorder (comparison operator : Bool) (e : Expression) (r x : Nat)
    (hx : x ∈ e.postorder comparison operator r) : r ≤ x ∧ x < r + e.size := by
  match e with
  | .comparison c =>
    unfold Expression.postorder at hx
    split at hx
    · obtain rfl := List.mem_singleton.mp hx
      exact ⟨Nat.le_refl _, Nat.lt_succ_self _⟩
    · cases hx
  | .container cls es sep =>
    show r ≤ x ∧ x < r + (es.size + 1)
    rcases List.mem_append.mp hx with hx | hx
    · have hrange := es.mem_postorder comparison operator (r + 1) x hx
      omega
    · split at hx
      · obtain rfl := List.mem_singleton.mp hx
        omega
      · cases hx

theorem Expressions.mem_postorder (comparison operator : Bool) (es : Expressions) (r x : Nat)
    (hx : x ∈ es.postorder comparison operator r) : r ≤ x ∧ x < r + es.size := by
  match es with
  | .nil => cases hx
  | .token t rest => exact rest.mem_postorder comparison operator r x hx
  | .cons e rest =>
    show r ≤ x ∧ x < r + (e.size + rest.size)
    rcases List.mem_append.mp hx with hx | hx
    · have hrange := e.mem_postorder comparison operator r x hx
      omega
    · have hrange := rest.mem_postorder comparison operator (r + e.size) x hx
      omega

end

mutual

/-- Every object with a callback is in the post-order once. -/
theorem Expression.count_postorder (e : Expression) (r k : Nat) (hk : k < e.size) :
    (e.postorder callbacks.comparison.isSome callbacks.operator.isSome r).count (r + k) =
      if (e.cells r)[k]?.any callbacks.calls then 1 else 0 := by
  match e with
  | .comparison c =>
    obtain rfl : k = 0 := Nat.lt_one_iff.mp hk
    unfold Expression.postorder
    cases hcallback : callbacks.comparison.isSome <;> simp [Expression.cells, Callbacks.calls, hcallback]
  | .container cls es sep =>
    have hcells : (Expression.container cls es sep).cells r =
      .container cls (es.items (r + 1)) sep :: es.cells (r + 1) := rfl
    rw [Expression.postorder, List.count_append, hcells]
    cases k with
    | zero =>
      -- the operator itself comes after its members
      have hmembers : (es.postorder callbacks.comparison.isSome callbacks.operator.isSome (r + 1)).count r = 0 :=
        List.count_eq_zero.mpr fun hx => by
          have hrange := es.mem_postorder _ _ (r + 1) r hx
          omega
      rw [Nat.add_zero, hmembers]
      cases cls with
      | operator op =>
        cases hcallback : callbacks.operator.isSome <;>
          simp [Callbacks.calls, Cell.isOperator, hcallback]
      | group => simp [Callbacks.calls, Cell.isOperator]
      | container => simp [Callbacks.calls, Cell.isOperator]
    | succ k =>
      have hself : (if callbacks.operator.isSome ∧ (Cell.container cls [] sep).isOperator then [r] else []).count
          (r + (k + 1)) = 0 := by
        split
        · simp
        · rfl
      have hih := es.count_postorder (r + 1) k (Nat.lt_of_succ_lt_succ hk)
      rw [hself, show r + (k + 1) = r + 1 + k by omega, hih]
      rfl

theorem Expressions.count_postorder (es : Expressions) (r k : Nat) (hk : k < es.size) :
    (es.postorder callbacks.comparison.isSome callbacks.operator.isSome r).count (r + k) =
      if (es.cells r)[k]?.any callbacks.calls then 1 else 0 := by
  match es with
  | .nil => cases hk
  | .token t rest => exact rest.count_postorder r k hk
  | .cons e rest =>
    have hlength := e.length_cells r
    have hcells : (Expressions.cons e rest).cells r = e.cells r ++ rest.cells (r + e.size) := rfl
    have hsize : (Expressions.cons e rest).size = e.size + rest.size := rfl
    rw [Expressions.postorder, List.count_append, hcells]
    by_cases hlt : k < e.size
    · have hrest : (rest.postorder callbacks.comparison.isSome callbacks.operator.isSome (r + e.size)).count
          (r + k) = 0 := List.count_eq_zero.mpr fun hx => by
        have hrange := rest.mem_postorder _ _ (r + e.size) (r + k) hx
        omega
      rw [hrest, e.count_postorder r k hlt, List.getElem?_append_left (by omega), Nat.add_zero]
    · have hfirst : (e.postorder callbacks.comparison.isSome callbacks.operator.isSome r).count (r + k) = 0 :=
        List.count_eq_zero.mpr fun hx => by
          have hrange := e.mem_postorder _ _ r (r + k) hx
          omega
      have hih := rest.count_postorder (r + e.size) (k - e.size) (by omega)
      rw [show r + e.size + (k - e.size) = r + k by omega] at hih
      rw [hfirst, hih, List.getElem?_append_right (by omega), hlength, Nat.zero_add]

end

end Count

/-! ## Accepted filters -/

theorem Expressions.walkable_append {es fs : Expressions} (hes : es.Walkable) (hfs : fs.Walkable) :
    (es.append fs).Walkable := by
  match es, hes with
  | .nil, _ => exact hfs
  | .token t rest, hrest =>
    have hwalkable : (rest.append fs).Walkable := Expressions.walkable_append hrest hfs
    exact hwalkable
  | .cons e rest, ⟨he, hrest⟩ => exact ⟨he, Expressions.walkable_append hrest hfs⟩

theorem Transformer.walkable_consToken (token : Option PyStr) {es : Expressions} (hes : es.Walkable) :
    (Transformer.consToken token es).Walkable := by
  cases token with
  | none => exact hes
  | some t => exact hes

theorem Transformer.walkable_filterItems (ld tr : Option PyStr) {es : Expressions} (hes : es.Walkable) :
    (Transformer.filterItems ld es tr).Walkable :=
  walkable_consToken ld (Expressions.walkable_append hes (walkable_consToken tr trivial))

mutual

/-- The transformer nests operators only. -/
theorem Grammar.Node.walkable_transform (n : Grammar.Node) (e : Expression) (h : n.transform = .ok e) :
    e.Walkable := by
  match n with
  | .expression lead comparison trail =>
    obtain ⟨cmp, -, rfl⟩ := Grammar.Node.transform_expression h
    trivial
  | .listOperator op sep lead groups trail =>
    obtain ⟨es, hes, rfl⟩ := Grammar.Node.transform_listOperator h
    exact Transformer.walkable_filterItems _ _ (groups.walkable_transform es hes)
  | .notOperator sep lead pre node post trail =>
    obtain ⟨e', he', -, -, rfl⟩ := Grammar.Node.transform_notOperator h
    exact Transformer.walkable_filterItems _ _ ⟨node.walkable_transform e' he', trivial⟩

theorem Grammar.Groups.walkable_transform (gs : Grammar.Groups) (es : Expressions)
    (h : gs.transform = .ok es) : es.Walkable := by
  match gs with
  | .nil =>
    cases h
    trivial
  | .cons pre node post rest =>
    obtain ⟨e, es', he, hes', rfl⟩ := Grammar.Groups.transform_cons h
    exact Transformer.walkable_consToken _ ⟨node.walkable_transform e he,
      Transformer.walkable_consToken _ (rest.walkable_transform es' hes')⟩

end

/-- The root of a parsed filter is a container. -/
theorem Grammar.Start.rooted_transform (d : Grammar.Start) (root : Expression) (h : d.transform = .ok root) :
    root.Rooted := by
  cases d with
  | group pre node post =>
    obtain ⟨e, he, -, -, rfl⟩ := Grammar.Start.transform_group h
    have hwalkable := node.walkable_transform e he
    cases e with
    | comparison c => exact ⟨trivial, trivial⟩
    | container cls es sep => exact hwalkable.rooted
  | bare comparison =>
    obtain ⟨cmp, -, rfl⟩ := Grammar.Start.transform_bare h
    exact ⟨trivial, trivial⟩

/-! ## Post-order walks -/

/-- Callbacks that edit the list of the parent and the members of the visited operator
only: the walk ends, every call is safe, every comparison and operator of the filter
is visited once, and nothing else. -/
theorem walk_post_safe {σ : Type} (lark : LarkParser) (s : PyStr) (f : Filter)
    (hf : Filter.init lark (some s) = .ok f) (hs : s ≠ [] ∧ s ≠ py " ") (callbacks : Callbacks σ) (own : σ)
    (hobeys : Walk.Obeying callbacks (Walk.start f.heap 0 1 own)) :
    ∃ w, (∃ n, ∀ rounds, n ≤ rounds → f.walk callbacks .post rounds own = some (.ok w)) ∧
      (∀ v ∈ w.visits, v.Safe 0) ∧
      ∀ r : Nat, (w.visits.map Visit.expression).count r = if f.heap[r]?.any callbacks.calls then 1 else 0 := by
  rcases Filter.init_cases hf with ⟨hblank, -⟩ | ⟨-, d, root, -, -, hroot, rfl⟩
  · rcases hblank with hnil | hspace
    · exact absurd hnil hs.1
    · exact absurd hspace hs.2
  · have hheap : (Filter.mk (some s) (containerOf [root]) (some d)).heap =
        .container .container [.expression 1] none :: root.cells 1 := by
      show Cell.container .container [.expression 1] none :: (root.cells 1 ++ []) = _
      rw [List.append_nil]
    rw [hheap] at hobeys
    have hat : root.At 1 (.container .container [.expression 1] none :: root.cells 1) := by
      intro k _
      rw [Nat.add_comm, List.getElem?_cons_succ]
    obtain ⟨w, hstack, hwalked⟩ := Walk.walked_expression hobeys root
      (d.rooted_transform root hroot) .refl rfl hat ⟨_, rfl, List.mem_singleton_self _⟩ Nat.zero_lt_one
      ⟨List.isChain_singleton _, rfl, fun _ hq => absurd hq List.not_mem_nil⟩
    obtain ⟨log, hvisits, hrefs, hsafe⟩ := hwalked.visits
    obtain rfl : w.visits = log := hvisits
    refine ⟨w, ?_, hsafe, fun r => ?_⟩
    · obtain ⟨n, hn⟩ := hwalked.rounds.loop hstack
      refine ⟨n, fun rounds hrounds => ?_⟩
      unfold Filter.walk
      rw [hheap]
      exact hn rounds hrounds
    · rw [hrefs, hheap]
      have hlength := root.length_cells 1
      have houtside : ¬(1 ≤ r ∧ r < 1 + root.size) →
          (root.postorder callbacks.comparison.isSome callbacks.operator.isSome 1).count r = 0 :=
        fun hrange => List.count_eq_zero.mpr fun hr => hrange (root.mem_postorder _ _ 1 r hr)
      cases r with
      | zero =>
        -- `fil.ast` itself
        rw [houtside (by omega)]
        rfl
      | succ k =>
        rw [List.getElem?_cons_succ]
        by_cases hk : k < root.size
        · rw [Nat.add_comm, root.count_postorder callbacks 1 k hk]
        · rw [houtside (by omega), List.getElem?_eq_none (by omega)]
          rfl

/-- Negate every comparison in place. -/
def negateComparisons : Callbacks Unit where
  comparison := some fun _ h parent expression =>
    ([.make (.container (.operator .not) [.expression expression] none),
      .replace parent expression h.length], ())
  operator := none

theorem negateComparisons_obeys (w : Walk Unit) : w.Obeys negateComparisons where
  comparison := by
    intro callback parent expression isPreVisit stack c hcallback _ _
    cases hcallback
    exact ⟨trivial, fun _ _ => ⟨Or.inl ⟨rfl, rfl, Or.inl rfl⟩, fun _ _ => trivial⟩⟩
  operator := by
    intro callback parent expression stack hcallback
    cases hcallback

/-- Negating the comparisons of a filter while it is walked is safe. -/
theorem walk_post_safe_negate : ∃ f w n,
    Filter.init resolver (some (py "(&(a=b)(c=d))")) = .ok f ∧
      f.walk negateComparisons .post n () = some (.ok w) ∧ ∀ v ∈ w.visits, v.Safe 0 := by
  obtain ⟨f, hf⟩ : Accepted resolver (py "(&(a=b)(c=d))") := .of_isOk (by decide +kernel)
  obtain ⟨w, ⟨n, hn⟩, hsafe, -⟩ := walk_post_safe resolver (py "(&(a=b)(c=d))") f hf
    ⟨by decide, by decide⟩ negateComparisons () fun w _ => negateComparisons_obeys w
  exact ⟨f, w, n, hf, hn n (Nat.le_refl n), hsafe⟩

end FreeIam.Ldap
