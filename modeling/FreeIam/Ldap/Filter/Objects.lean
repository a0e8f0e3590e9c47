import FreeIam.Errors
import FreeIam.Ldap.Filter.Parser

/-!
# Filter expressions as objects

Callbacks edit the expressions of a filter in place, so here an expression is an
object with an identity, and a container holds references. The methods of
`Container` that edit its list are those of the source.
-/

namespace FreeIam.Ldap

open FreeIam.Py FreeIam.Errors

/-- An expression object, by its identity. -/
abbrev Ref := Nat

/-- A member of the list `_expressions`. -/
inductive Item
  | token (text : PyStr)
  | expression (r : Ref)
  deriving DecidableEq

/-- What an expression object holds. -/
inductive Cell
  | comparison (c : Comparison)
  | container (cls : ContainerClass) (expressions : List Item) (sep : Option PyStr)
  deriving DecidableEq

/-- The objects, in the order in which they were made. -/
abbrev Heap := List Cell

/-- `isinstance(_, Comparison)` -/
def Cell.isComparison : Cell → Bool
  | .comparison _ => true
  | _ => false

/-- `isinstance(_, (AND, OR, NOT))` -/
def Cell.isOperator : Cell → Bool
  | .container (.operator _) _ _ => true
  | _ => false

/-- The list of a container. -/
def Cell.items : Cell → Option (List Item)
  | .comparison _ => none
  | .container _ items _ => some items

namespace Heap

/-! ## Reading -/

/-- The list `_expressions` of an object, if it has one. -/
def items (h : Heap) (r : Ref) : Option (List Item) := h[r]?.bind Cell.items

/-- The object is of a class that `Container.expressions` selects. -/
def isExpression (h : Heap) (r : Ref) : Bool := h[r]?.any fun cell => cell.isComparison || cell.isOperator

/-- `Container.expressions` -/
def expressions (h : Heap) (items : List Item) : List Ref :=
  items.filterMap fun item =>
    match item with
    | .token _ => none
    | .expression r => if h.isExpression r then some r else none

/-- An expression is in the list of a container. -/
def Contains (h : Heap) (container expression : Ref) : Prop :=
  ∃ items, h.items container = some items ∧ .expression expression ∈ items

/-- The object can be reached from another through the lists of containers. -/
inductive Reaches (h : Heap) : Ref → Ref → Prop
  | refl (r : Ref) : Reaches h r r
  | step {r s t : Ref} : Reaches h r s → h.Contains s t → Reaches h r t

/-! ## Editing -/

/-- Edit the list of a container. -/
def update (h : Heap) (container : Ref) (f : List Item → Except PyExc (List Item)) : Except PyExc Heap :=
  match h[container]? with
  | some (.container cls items sep) => (f items).map fun items => h.set container (.container cls items sep)
  | _ => .error (.attributeError "_expressions")

/-- The index at which `list.insert` inserts. -/
def insertIndex (length : Nat) (index : Int) : Nat :=
  if index < 0 then (length + index).toNat else min index.toNat length

/-- The index of an expression, by identity; without one `replace` and `remove` raise. -/
def indexOf (items : List Item) (expression : Ref) : Except PyExc Nat :=
  match items.findIdx? (· = .expression expression) with
  | none => .error (.valueError "Not in expressions")
  | some index => .ok index

/-- `Container.append` -/
def append (h : Heap) (container expression : Ref) : Except PyExc Heap :=
  h.update container fun items => .ok (items ++ [.expression expression])

/-- `Container.insert` -/
def insert (h : Heap) (container expression : Ref) (index : Int := 0) : Except PyExc Heap :=
  h.update container fun items =>
    .ok (items.insertIdx (insertIndex items.length index) (.expression expression))

/-- `Container.replace` -/
def replace (h : Heap) (container expression replacement : Ref) : Except PyExc Heap :=
  h.update container fun items =>
    (indexOf items expression).map fun index => items.set index (.expression replacement)

/-- `Container.remove` -/
def remove (h : Heap) (container expression : Ref) : Except PyExc Heap :=
  h.update container fun items =>
    (indexOf items expression).map fun index => items.eraseIdx index

end Heap

/-! ## The objects of a parsed expression -/

mutual

/-- The number of objects of an expression. -/
def Expression.size : Expression → Nat
  | .comparison _ => 1
  | .container _ es _ => es.size + 1

def Expressions.size : Expressions → Nat
  | .nil => 0
  | .token _ rest => rest.size
  | .cons e rest => e.size + rest.size

end

/-- The list that holds some expressions, the first of them made at `r`. -/
def Expressions.items (r : Ref) : Expressions → List Item
  | .nil => []
  | .token t rest => .token t :: rest.items r
  | .cons e rest => .expression r :: rest.items (r + e.size)

mutual

/-- The objects of an expression that is made at `r`. -/
def Expression.cells (r : Ref) : Expression → List Cell
  | .comparison c => [.comparison c]
  | .container cls es sep => .container cls (es.items (r + 1)) sep :: es.cells (r + 1)

def Expressions.cells (r : Ref) : Expressions → List Cell
  | .nil => []
  | .token _ rest => rest.cells r
  | .cons e rest => e.cells r ++ rest.cells (r + e.size)

end

mutual

theorem Expression.length_cells (e : Expression) (r : Ref) : (e.cells r).length = e.size := by
  match e with
  | .comparison c => rfl
  | .container cls es sep => simp [Expression.cells, Expression.size, es.length_cells (r + 1)]

theorem Expressions.length_cells (es : Expressions) (r : Ref) : (es.cells r).length = es.size := by
  match es with
  | .nil => rfl
  | .token t rest => simp [Expressions.cells, Expressions.size, rest.length_cells r]
  | .cons e rest =>
    simp [Expressions.cells, Expressions.size, e.length_cells r, rest.length_cells (r + e.size)]

end

/-- The objects of a filter; `fil.ast` is the first. -/
def Filter.heap (f : Filter) : Heap := f.ast.cells 0

/-! ## What an edit leaves alone -/

namespace Heap

variable {h h' h'' : Heap}

/-- The objects keep their classes, and those that are no containers are as they were. -/
structure Classes (h h' : Heap) : Prop where
  length : h.length ≤ h'.length
  comparison : ∀ (r : Nat) c, h[r]? = some (Cell.comparison c) → h'[r]? = some (Cell.comparison c)
  container : ∀ (r : Nat) cls items sep, h[r]? = some (Cell.container cls items sep) →
    ∃ items', h'[r]? = some (Cell.container cls items' sep)

theorem Classes.refl (h : Heap) : Classes h h :=
  ⟨Nat.le_refl _, fun _ _ hr => hr, fun _ _ items _ hr => ⟨items, hr⟩⟩

theorem Classes.trans (h₁ : Classes h h') (h₂ : Classes h' h'') : Classes h h'' where
  length := h₁.length.trans h₂.length
  comparison := fun r c hr => h₂.comparison r c (h₁.comparison r c hr)
  container := fun r cls items sep hr => by
    obtain ⟨items', hr'⟩ := h₁.container r cls items sep hr
    exact h₂.container r cls items' sep hr'

/-- The class of an object does not change. -/
theorem Classes.isExpression (hc : Classes h h') {r : Nat} (hr : r < h.length) :
    h'.isExpression r = h.isExpression r := by
  obtain ⟨cell, hcell⟩ : ∃ cell, h[r]? = some cell := ⟨h[r], List.getElem?_eq_getElem hr⟩
  unfold Heap.isExpression
  cases cell with
  | comparison c => rw [hcell, hc.comparison r c hcell]
  | container cls items sep =>
    obtain ⟨items', hr'⟩ := hc.container r cls items sep hcell
    rw [hcell, hr']
    cases cls <;> rfl

/-- What has changed: the list of `p`, which has lost none but the objects from `lo`
up to `hi`, the objects from `lo` up to `hi` themselves, and there are new ones. -/
structure Frame (p lo hi : Nat) (h h' : Heap) : Prop where
  classes : Classes h h'
  outside : ∀ q : Nat, q < h.length → ¬(lo ≤ q ∧ q < hi) → q ≠ p → h'[q]? = h[q]?
  keeps : ∀ x : Nat, ¬(lo ≤ x ∧ x < hi) → h.Contains p x → h'.Contains p x

theorem Frame.refl (p lo hi : Nat) (h : Heap) : Frame p lo hi h h :=
  ⟨Classes.refl h, fun _ _ _ _ => rfl, fun _ _ hx => hx⟩

theorem Frame.trans {p lo hi : Nat} (h₁ : Frame p lo hi h h') (h₂ : Frame p lo hi h' h'') :
    Frame p lo hi h h'' where
  classes := h₁.classes.trans h₂.classes
  outside := fun q hq hrange hne =>
    (h₂.outside q (Nat.lt_of_lt_of_le hq h₁.classes.length) hrange hne).trans (h₁.outside q hq hrange hne)
  keeps := fun x hrange hx => h₂.keeps x hrange (h₁.keeps x hrange hx)

/-- More objects may have changed. -/
theorem Frame.mono {p lo hi lo' hi' : Nat} (hframe : Frame p lo hi h h') (hlo : lo' ≤ lo) (hhi : hi ≤ hi') :
    Frame p lo' hi' h h' where
  classes := hframe.classes
  outside := fun q hq hrange hne => hframe.outside q hq (by omega) hne
  keeps := fun x hrange hx => hframe.keeps x (by omega) hx

theorem contains_congr {p x : Ref} (hp : h'[p]? = h[p]?) : h'.Contains p x ↔ h.Contains p x := by
  unfold Contains Heap.items
  rw [hp]

/-- A change below `r`, seen from the parent of `r`. -/
theorem Frame.lift {p r hi : Nat} (hframe : Frame r (r + 1) hi h h') (hp : p < r) (hr : r < hi)
    (hlength : r < h.length) : Frame p r hi h h' where
  classes := hframe.classes
  outside := fun q hq hrange _ => hframe.outside q hq (by omega) (by omega)
  keeps := fun x _ hx =>
    (contains_congr (hframe.outside p (by omega) (by omega) (by omega))).mpr hx

/-! ## Edits of one list -/

theorem update_of_some {container : Ref} {cls : ContainerClass} {items items' : List Item}
    {sep : Option PyStr} {f : List Item → Except PyExc (List Item)}
    (hcell : h[container]? = some (.container cls items sep)) (hf : f items = .ok items') :
    h.update container f = .ok (h.set container (.container cls items' sep)) := by
  unfold update
  rw [hcell]
  simp only [hf]
  rfl

/-- Replacing the list of a container. -/
theorem classes_set {container : Ref} {cls : ContainerClass} {items items' : List Item}
    {sep : Option PyStr} (hcell : h[container]? = some (.container cls items sep)) :
    Classes h (h.set container (.container cls items' sep)) where
  length := by rw [List.length_set]
  comparison := fun r c hr => by
    have hne : container ≠ r := by
      rintro rfl
      rw [hcell] at hr
      cases hr
    rw [List.getElem?_set_ne hne, hr]
  container := fun r cls' items₁ sep' hr => by
    by_cases hne : container = r
    · subst hne
      rw [hcell] at hr
      cases hr
      exact ⟨items', List.getElem?_set_self (List.getElem?_eq_some_iff.mp hcell).1⟩
    · exact ⟨items₁, by rw [List.getElem?_set_ne hne, hr]⟩

theorem contains_set {container x : Ref} {cls : ContainerClass} {items items' : List Item}
    {sep : Option PyStr} (hcell : h[container]? = some (.container cls items sep)) :
    Contains (h.set container (.container cls items' sep)) container x ↔ .expression x ∈ items' := by
  unfold Contains Heap.items
  rw [List.getElem?_set_self (List.getElem?_eq_some_iff.mp hcell).1]
  simp [Cell.items]

theorem contains_iff {container x : Ref} {cls : ContainerClass} {items : List Item}
    {sep : Option PyStr} (hcell : h[container]? = some (.container cls items sep)) :
    h.Contains container x ↔ .expression x ∈ items := by
  unfold Contains Heap.items
  rw [hcell]
  simp [Cell.items]

/-- An edit of the list of a parent that loses at most the visited expression. -/
theorem frame_set_parent {p e : Nat} {cls : ContainerClass} {items items' : List Item}
    {sep : Option PyStr} (hcell : h[p]? = some (.container cls items sep))
    (hitems : ∀ x : Nat, x ≠ e → Item.expression x ∈ items → Item.expression x ∈ items') :
    Frame p e (e + 1) h (h.set p (.container cls items' sep)) where
  classes := classes_set hcell
  outside := fun q _ _ hne => List.getElem?_set_ne (Ne.symm hne)
  keeps := fun x hrange hx =>
    (contains_set hcell).mpr (hitems x (by omega) ((contains_iff hcell).mp hx))

/-- An edit of the list of the visited expression itself. -/
theorem frame_set_self {p e : Nat} {cls : ContainerClass} {items items' : List Item}
    {sep : Option PyStr} (hcell : h[e]? = some (.container cls items sep)) (hne : p ≠ e) :
    Frame p e (e + 1) h (h.set e (.container cls items' sep)) where
  classes := classes_set hcell
  outside := fun q _ hrange _ => List.getElem?_set_ne (by omega)
  keeps := fun x _ hx => (contains_congr (List.getElem?_set_ne (Ne.symm hne))).mpr hx

theorem frame_append (p e : Nat) (cell : Cell) (hp : p < h.length) : Frame p e (e + 1) h (h ++ [cell]) where
  classes :=
    { length := by simp
      comparison := fun r c hr => by
        rw [List.getElem?_append_left (List.getElem?_eq_some_iff.mp hr).1, hr]
      container := fun r cls items sep hr =>
        ⟨items, by rw [List.getElem?_append_left (List.getElem?_eq_some_iff.mp hr).1, hr]⟩ }
  outside := fun q hq _ _ => List.getElem?_append_left hq
  keeps := fun x _ hx => (contains_congr (List.getElem?_append_left hp)).mpr hx

theorem indexOf_of_mem {items : List Item} {e : Ref} (he : Item.expression e ∈ items) :
    ∃ index, indexOf items e = .ok index ∧ items[index]? = some (.expression e) := by
  unfold indexOf
  cases hfind : items.findIdx? (· = .expression e) with
  | none =>
    have hnone := List.findIdx?_eq_none_iff.mp hfind (.expression e) he
    simp at hnone
  | some index =>
    obtain ⟨hlt, hindex, -⟩ := List.findIdx?_eq_some_iff_getElem.mp hfind
    refine ⟨index, rfl, ?_⟩
    rw [List.getElem?_eq_getElem hlt]
    simpa using hindex

end Heap

end FreeIam.Ldap
