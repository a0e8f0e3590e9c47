import FreeIam.Ldap.Filter.Reprint
import FreeIam.Ldap.Filter.Walk

/-!
# The walk as a recursion

With callbacks that do not edit the tree, the loop over the stack of `Filter.walk`
makes the calls of a recursion over the expression, for each of the strategies.
-/

namespace FreeIam.Ldap

open FreeIam.Py FreeIam.Errors

variable {σ : Type}

/-! ## The recursion -/

/-- Operators are called back for before their members. -/
def WalkStrategy.before (strategy : WalkStrategy) : Bool := strategy == .pre || strategy == .both

/-- Operators are called back for after their members. -/
def WalkStrategy.after (strategy : WalkStrategy) : Bool := strategy == .post || strategy == .both

section

variable (callbacks : Callbacks σ) (strategy : WalkStrategy)

/-- The operator callback, at a time at which the strategy calls it or not. -/
def Walk.callAt (called : Bool) (w : Walk σ) (parent r : Ref) : Except PyExc (Walk σ) :=
  if called then w.callIf callbacks.operator parent r else .ok w

mutual

/-- The calls for an expression whose objects begin at `r`: a comparison is called back
for, an operator before and after its members, and any other container passes on. -/
def Expression.traverse (parent r : Ref) : Expression → Walk σ → Except PyExc (Walk σ)
  | .comparison _, w => w.callIf callbacks.comparison parent r
  | .container (.operator _) es _, w => do
    let w ← w.callAt callbacks strategy.before parent r
    let w ← es.traverse r (r + 1) w
    w.callAt callbacks strategy.after parent r
  | .container .group es _, w => es.traverse r (r + 1) w
  | .container .container es _, w => es.traverse r (r + 1) w

/-- The members from left to right. -/
def Expressions.traverse (parent r : Ref) : Expressions → Walk σ → Except PyExc (Walk σ)
  | .nil, w => .ok w
  | .token _ rest, w => rest.traverse parent r w
  | .cons e rest, w => do
    let w ← e.traverse parent r w
    rest.traverse parent (r + e.size) w

end

end

section

variable (comparison operator : Bool) (strategy : WalkStrategy)

mutual

/-- The parents and expressions of these calls. -/
def Expression.calls (parent r : Ref) : Expression → List (Ref × Ref)
  | .comparison _ => if comparison then [(parent, r)] else []
  | .container (.operator _) es _ =>
    (if operator && strategy.before then [(parent, r)] else []) ++ es.calls r (r + 1)
      ++ (if operator && strategy.after then [(parent, r)] else [])
  | .container .group es _ => es.calls r (r + 1)
  | .container .container es _ => es.calls r (r + 1)

def Expressions.calls (parent r : Ref) : Expressions → List (Ref × Ref)
  | .nil => []
  | .token _ rest => rest.calls parent r
  | .cons e rest => e.calls parent r ++ rest.calls parent (r + e.size)

end

end

/-! ## Callbacks that do not edit the tree -/

/-- A call that returns leaves the objects of the tree as they were. -/
def Callback.LeavesAlone (tree : Heap) (callback : Callback σ) : Prop :=
  ∀ own (h : Heap) parent expression (h' : Heap), tree <+: h →
    h.edit (callback own h parent expression).1 = .ok h' → tree <+: h'

structure Callbacks.LeaveAlone (callbacks : Callbacks σ) (tree : Heap) : Prop where
  comparison : ∀ callback, callbacks.comparison = some callback → callback.LeavesAlone tree
  operator : ∀ callback, callbacks.operator = some callback → callback.LeavesAlone tree

namespace Walk

/-- The walk with another stack. -/
def withStack (w : Walk σ) (stack : List (Ref × Ref × Bool)) : Walk σ := { w with stack := stack }

/-- The calls that a walk has made, without the objects. -/
def made (w : Walk σ) : List (Ref × Ref) := w.visits.map fun v => (v.parent, v.expression)

/-- What some calls leave: the tree, the stack, and the calls so far with these behind them. -/
structure Called (tree : Heap) (calls : List (Ref × Ref)) (w w' : Walk σ) : Prop where
  tree : tree <+: w.heap → tree <+: w'.heap
  stack : w'.stack = w.stack
  made : w'.made = w.made ++ calls

theorem Called.refl (tree : Heap) (w : Walk σ) : Called tree [] w w :=
  ⟨fun h => h, rfl, (List.append_nil _).symm⟩

theorem Called.trans {tree : Heap} {calls calls' : List (Ref × Ref)} {w w₁ w₂ : Walk σ}
    (h₁ : Called tree calls w w₁) (h₂ : Called tree calls' w₁ w₂) :
    Called tree (calls ++ calls') w w₂ :=
  ⟨fun h => h₂.tree (h₁.tree h), h₂.stack.trans h₁.stack,
    by rw [h₂.made, h₁.made, List.append_assoc]⟩

theorem call_called {tree : Heap} {callback : Callback σ} (halone : callback.LeavesAlone tree)
    {w w' : Walk σ} {parent r : Ref} (h : w.call callback parent r = .ok w') :
    Called tree [(parent, r)] w w' := by
  unfold call at h
  simp only at h
  cases hedit : w.heap.edit (callback w.own w.heap parent r).1 with
  | error exc =>
    rw [hedit] at h
    cases h
  | ok heap =>
    rw [hedit] at h
    cases h
    exact ⟨fun htree => halone _ _ _ _ _ htree hedit, rfl, by simp [made]⟩

theorem callIf_called {tree : Heap} {callback : Option (Callback σ)}
    (halone : ∀ cb, callback = some cb → cb.LeavesAlone tree) {w w' : Walk σ} {parent r : Ref}
    (h : w.callIf callback parent r = .ok w') :
    Called tree (if callback.isSome then [(parent, r)] else []) w w' := by
  cases callback with
  | none =>
    cases h
    exact Called.refl tree w
  | some cb => exact call_called (halone cb rfl) h

variable {callbacks : Callbacks σ} {strategy : WalkStrategy} {tree : Heap}

theorem callAt_called (halone : callbacks.LeaveAlone tree) {called : Bool} {w w' : Walk σ}
    {parent r : Ref} (h : w.callAt callbacks called parent r = .ok w') :
    Called tree (if callbacks.operator.isSome && called then [(parent, r)] else []) w w' := by
  cases called with
  | false =>
    cases h
    rw [Bool.and_false]
    exact Called.refl tree w
  | true =>
    rw [Bool.and_true]
    exact callIf_called halone.operator h

end Walk

section

variable {callbacks : Callbacks σ} {strategy : WalkStrategy} {tree : Heap}

mutual

/-- The recursion makes the calls of the expression, and leaves the tree alone. -/
theorem Expression.traverse_called (halone : callbacks.LeaveAlone tree) : ∀ (e : Expression)
    {parent r : Ref} {w w' : Walk σ}, e.traverse callbacks strategy parent r w = .ok w' →
    Walk.Called tree (e.calls callbacks.comparison.isSome callbacks.operator.isSome strategy
      parent r) w w'
  | .comparison _, _, _, _, _, h => Walk.callIf_called halone.comparison h
  | .container (.operator _) es _, _, _, _, _, h => by
    obtain ⟨w₁, h₁, h⟩ := exists_of_bind_ok h
    obtain ⟨w₂, h₂, h₃⟩ := exists_of_bind_ok h
    exact ((Walk.callAt_called halone h₁).trans (es.traverse_called halone h₂)).trans
      (Walk.callAt_called halone h₃)
  | .container .group es _, _, _, _, _, h => es.traverse_called halone h
  | .container .container es _, _, _, _, _, h => es.traverse_called halone h

theorem Expressions.traverse_called (halone : callbacks.LeaveAlone tree) : ∀ (es : Expressions)
    {parent r : Ref} {w w' : Walk σ}, es.traverse callbacks strategy parent r w = .ok w' →
    Walk.Called tree (es.calls callbacks.comparison.isSome callbacks.operator.isSome strategy
      parent r) w w'
  | .nil, _, _, w, _, h => by
    cases h
    exact Walk.Called.refl tree w
  | .token _ rest, _, _, _, _, h => rest.traverse_called halone h
  | .cons e rest, _, _, _, _, h => by
    obtain ⟨w₁, h₁, h₂⟩ := exists_of_bind_ok h
    exact (e.traverse_called halone h₁).trans (rest.traverse_called halone h₂)

end

end

/-! ## The loop follows the recursion -/

theorem Expression.At.of_prefix {e : Expression} {r : Nat} {tree h : Heap} (hat : e.At r tree)
    (hstart : tree <+: h) : e.At r h := by
  have hlength := hat.le_length
  exact hat.congr fun q _ hq => List.prefix_iff_getElem?.mp hstart q (by omega) |>.trans (by
    rw [List.getElem?_eq_getElem])

namespace Walk

variable {callbacks : Callbacks σ} {strategy : WalkStrategy} {tree : Heap}

variable (callbacks strategy) in
/-- How the loop goes on after some calls: it fails with them, or walks what is left
on the stack. -/
def resume (rounds : Nat) (rest : List (Ref × Ref × Bool)) :
    Except PyExc (Walk σ) → Option (Except PyExc (Walk σ))
  | .error exc => some (.error exc)
  | .ok w => loop callbacks strategy rounds (w.withStack rest)

variable (callbacks strategy) in
/-- The entries on top of the stack take some rounds, and these make the given calls. -/
def Runs (w : Walk σ) (entries : List (Ref × Ref × Bool)) (x : Except PyExc (Walk σ)) : Prop :=
  ∀ rest, ∃ n, ∀ rounds, loop callbacks strategy (n + rounds) (w.withStack (entries ++ rest))
    = resume callbacks strategy rounds rest x

theorem Runs.nil (w : Walk σ) : Runs callbacks strategy w [] (.ok w) := by
  intro rest
  refine ⟨0, fun rounds => ?_⟩
  rw [Nat.zero_add]
  rfl

theorem Runs.bind {w : Walk σ} {entries entries' : List (Ref × Ref × Bool)}
    {x : Except PyExc (Walk σ)} {g : Walk σ → Except PyExc (Walk σ)}
    (hx : Runs callbacks strategy w entries x)
    (hg : ∀ w', x = .ok w' → Runs callbacks strategy w' entries' (g w')) :
    Runs callbacks strategy w (entries ++ entries') (x >>= g) := by
  intro rest
  obtain ⟨n, hn⟩ := hx (entries' ++ rest)
  rw [← List.append_assoc] at hn
  cases x with
  | error exc => exact ⟨n, hn⟩
  | ok w' =>
    obtain ⟨m, hm⟩ := hg w' rfl rest
    refine ⟨n + m, fun rounds => ?_⟩
    rw [Nat.add_assoc, hn (m + rounds)]
    exact hm rounds

/-- One round for the entry on top, which pushes what it leaves to do. -/
theorem Runs.round {w : Walk σ} {p r : Ref} {isPreVisit : Bool}
    {entries : List (Ref × Ref × Bool)} {x : Except PyExc (Walk σ)}
    {g : Walk σ → Except PyExc (Walk σ)}
    (hvisit : ∀ rest, visit callbacks strategy (w.withStack rest) p r isPreVisit
      = x.map (·.withStack (entries ++ rest)))
    (hg : ∀ w', x = .ok w' → Runs callbacks strategy w' entries (g w')) :
    Runs callbacks strategy w [(p, r, isPreVisit)] (x >>= g) := by
  intro rest
  have hround : ∀ rounds, loop callbacks strategy (rounds + 1)
      (w.withStack ((p, r, isPreVisit) :: rest))
        = resume callbacks strategy rounds (entries ++ rest) x := by
    intro rounds
    unfold withStack at hvisit
    rw [loop]
    simp only [withStack, hvisit rest]
    cases x <;> rfl
  cases x with
  | error exc =>
    refine ⟨1, fun rounds => ?_⟩
    rw [Nat.add_comm]
    exact hround rounds
  | ok w' =>
    obtain ⟨n, hn⟩ := hg w' rfl rest
    refine ⟨n + 1, fun rounds => ?_⟩
    rw [Nat.add_right_comm]
    exact (hround (n + rounds)).trans (hn rounds)

theorem callIf_withStack (callback : Option (Callback σ)) (w : Walk σ)
    (stack : List (Ref × Ref × Bool)) (p r : Ref) :
    (w.withStack stack).callIf callback p r = (w.callIf callback p r).map (·.withStack stack) := by
  cases callback with
  | none => rfl
  | some cb =>
    show (w.withStack stack).call cb p r = (w.call cb p r).map (·.withStack stack)
    unfold call withStack
    simp only
    cases w.heap.edit (cb w.own w.heap p r).1 <;> rfl

/-- One round that only calls back. -/
theorem Runs.call {w : Walk σ} {p r : Ref} {isPreVisit : Bool} {x : Except PyExc (Walk σ)}
    (hvisit : ∀ rest, visit callbacks strategy (w.withStack rest) p r isPreVisit
      = x.map (·.withStack rest)) : Runs callbacks strategy w [(p, r, isPreVisit)] x := by
  have hnone : ∀ rest, visit callbacks strategy (w.withStack rest) p r isPreVisit
      = x.map (·.withStack ([] ++ rest)) := hvisit
  have hruns : Runs callbacks strategy w [(p, r, isPreVisit)] (x >>= fun w' => .ok w') :=
    Runs.round hnone fun w' _ => Runs.nil w'
  have hbind : (x >>= fun w' => .ok w') = x := by cases x <;> rfl
  rw [← hbind]
  exact hruns

/-- An entry for a comparison calls back. -/
theorem runs_comparison {w : Walk σ} {p r : Ref} {c : Comparison}
    (hcell : w.heap[r]? = some (.comparison c)) :
    Runs callbacks strategy w [(p, r, true)] (w.callIf callbacks.comparison p r) := by
  refine Runs.call fun rest => ?_
  have hcell : (w.withStack rest).heap[r]? = some (.comparison c) := hcell
  rw [← callIf_withStack, visit, hcell]

/-- The second entry for an operator calls back, where there is one. -/
theorem runs_after (called : Bool) {w : Walk σ} {p r : Ref} {cls : ContainerClass}
    {items : List Item} {sep : Option PyStr} (hcell : w.heap[r]? = some (.container cls items sep)) :
    Runs callbacks strategy w (if callbacks.operator.isSome && called then [(p, r, false)] else [])
      (w.callAt callbacks called p r) := by
  cases called with
  | false =>
    rw [Bool.and_false]
    exact Runs.nil w
  | true =>
    rw [callAt, if_pos rfl]
    cases hcallback : callbacks.operator with
    | none => exact Runs.nil w
    | some cb =>
      refine Runs.call fun rest => ?_
      have hcell : (w.withStack rest).heap[r]? = some (.container cls items sep) := hcell
      rw [← callIf_withStack, visit, hcell]
      simp only [Bool.false_eq_true, if_false, hcallback]
      rfl

theorem pushMembers_eq {w : Walk σ} {r : Ref} {cls : ContainerClass} {es : Expressions}
    {sep : Option PyStr} (hat : (Expression.container cls es sep).At r w.heap)
    (hes : es.Walkable) (stack : List (Ref × Ref × Bool)) :
    (w.withStack stack).pushMembers r
      = w.withStack ((es.refs (r + 1)).map (fun c => (r, c, true)) ++ stack) := by
  obtain ⟨hcell, hmembers⟩ := hat.container
  have hitems : w.heap.items r = some (es.items (r + 1)) := by
    unfold Heap.items
    rw [hcell]
    rfl
  unfold pushMembers withStack
  simp only [hitems, Option.getD_some, hmembers.expressions es hes]

/-- The first entry for a container makes the early call and pushes the members. -/
theorem visit_container {w : Walk σ} {p r : Ref} {cls : ContainerClass} {es : Expressions}
    {sep : Option PyStr} (halone : callbacks.LeaveAlone tree) (htree : tree <+: w.heap)
    (hat : (Expression.container cls es sep).At r tree) (hes : es.Walkable)
    (rest : List (Ref × Ref × Bool)) :
    visit callbacks strategy (w.withStack rest) p r true
      = (w.callAt callbacks (strategy.before && (Cell.container cls [] sep).isOperator) p r).map
        (·.withStack ((es.refs (r + 1)).map (fun c => (r, c, true)) ++
          (if callbacks.operator.isSome && (strategy.after && (Cell.container cls [] sep).isOperator)
            then [(p, r, false)] else []) ++ rest)) := by
  have hcell : (w.withStack rest).heap[r]? = some (.container cls (es.items (r + 1)) sep) :=
    (hat.of_prefix htree).container.1
  have hclass : (Cell.container cls (es.items (r + 1)) sep).isOperator
      = (Cell.container cls [] sep).isOperator := by cases cls <;> rfl
  have hcalled : (if (strategy = .pre ∨ strategy = .both) ∧
        (Cell.container cls [] sep).isOperator = true then
      (w.withStack rest).callIf callbacks.operator p r else .ok (w.withStack rest))
      = (w.callAt callbacks (strategy.before && (Cell.container cls [] sep).isOperator) p r).map
        (·.withStack rest) := by
    rw [callIf_withStack, callAt]
    cases strategy <;> cases (Cell.container cls [] sep).isOperator <;> rfl
  unfold visit
  rw [hcell]
  simp only [hclass, if_true, hcalled]
  cases hcall : w.callAt callbacks
      (strategy.before && (Cell.container cls [] sep).isOperator) p r with
  | error exc => rfl
  | ok w₁ =>
    have hat₁ := hat.of_prefix ((callAt_called halone hcall).tree htree)
    have hpush := pushMembers_eq hat₁ hes
    have hmap : ∀ stack, Except.map (·.withStack stack) (Except.ok (ε := PyExc) w₁)
        = .ok (w₁.withStack stack) := fun _ => rfl
    rw [hmap, hmap, List.append_assoc]
    dsimp only
    -- the entry for the late call is pushed below the members
    by_cases hafter : (callbacks.operator.isSome && (strategy.after &&
        (Cell.container cls [] sep).isOperator)) = true
    · have hcond : callbacks.operator.isSome = true ∧ (strategy = .post ∨ strategy = .both) ∧
          (Cell.container cls [] sep).isOperator = true := by
        simpa [WalkStrategy.after] using hafter
      rw [if_pos hafter, if_pos hcond]
      exact congrArg Except.ok (hpush ((p, r, false) :: rest))
    · have hcond : ¬ (callbacks.operator.isSome = true ∧ (strategy = .post ∨ strategy = .both) ∧
          (Cell.container cls [] sep).isOperator = true) := by
        simpa [WalkStrategy.after] using hafter
      rw [if_neg hafter, if_neg hcond]
      exact congrArg Except.ok (hpush rest)

/-- The recursion for any container. -/
theorem traverse_container (cls : ContainerClass) (es : Expressions) (sep : Option PyStr)
    (p r : Ref) (w : Walk σ) :
    (Expression.container cls es sep).traverse callbacks strategy p r w
      = w.callAt callbacks (strategy.before && (Cell.container cls [] sep).isOperator) p r >>=
        fun w₁ => es.traverse callbacks strategy r (r + 1) w₁ >>=
        fun w₂ => w₂.callAt callbacks (strategy.after && (Cell.container cls [] sep).isOperator) p r
    := by
  have hpass : es.traverse callbacks strategy r (r + 1) w
      = w.callAt callbacks (strategy.before && false) p r >>=
        fun w₁ => es.traverse callbacks strategy r (r + 1) w₁ >>=
        fun w₂ => w₂.callAt callbacks (strategy.after && false) p r := by
    rw [Bool.and_false, Bool.and_false]
    show _ = es.traverse callbacks strategy r (r + 1) w >>= fun w₂ => .ok w₂
    cases es.traverse callbacks strategy r (r + 1) w <;> rfl
  cases cls with
  | container => exact hpass
  | group => exact hpass
  | operator op =>
    show _ = w.callAt callbacks (strategy.before && true) p r >>=
        fun w₁ => es.traverse callbacks strategy r (r + 1) w₁ >>=
        fun w₂ => w₂.callAt callbacks (strategy.after && true) p r
    rw [Bool.and_true, Bool.and_true]
    rfl

mutual

/-- The loop makes the calls of the recursion for the expression on top of the stack. -/
theorem runs_expression (halone : callbacks.LeaveAlone tree) : ∀ (e : Expression), e.Rooted →
    ∀ {p r : Ref} {w : Walk σ}, e.At r tree → tree <+: w.heap →
    Runs callbacks strategy w [(p, r, true)] (e.traverse callbacks strategy p r w)
  | .comparison _, _, p, r, w, hat, htree => runs_comparison (hat.of_prefix htree).comparison
  | .container cls es sep, hes, p, r, w, hat, htree => by
    rw [traverse_container]
    refine Runs.round (visit_container halone htree hat hes) fun w₁ hcall => ?_
    have htree₁ := (callAt_called halone hcall).tree htree
    refine Runs.bind (runs_members halone es hes hat.container.2 htree₁) fun w₂ hmembers => ?_
    have htree₂ := (es.traverse_called halone hmembers).tree htree₁
    exact runs_after _ (hat.of_prefix htree₂).container.1

theorem runs_members (halone : callbacks.LeaveAlone tree) : ∀ (es : Expressions), es.Walkable →
    ∀ {q k : Ref} {w : Walk σ}, es.At k tree → tree <+: w.heap →
    Runs callbacks strategy w ((es.refs k).map fun c => (q, c, true))
      (es.traverse callbacks strategy q k w)
  | .nil, _, _, _, w, _, _ => Runs.nil w
  | .token _ rest, hes, _, _, _, hat, htree => runs_members halone rest hes hat htree
  | .cons e rest, hes, q, k, w, hat, htree => by
    obtain ⟨hhead, htail⟩ := hat.cons
    refine Runs.bind (runs_expression halone e hes.1.rooted hhead htree) fun w₁ hw₁ => ?_
    exact runs_members halone rest hes.2 htail ((e.traverse_called halone hw₁).tree htree)

end

end Walk

/-! ## Walks of filters -/

/-- The objects of a parsed filter: `fil.ast`, and then those of its root. -/
theorem Filter.heap_of_root {lark : LarkParser} {s : PyStr} {f : Filter}
    (hf : Filter.init lark (some s) = .ok f) {root : Expression} (hroot : f.root = some root) :
    f.heap = .container .container [.expression 1] none :: root.cells 1 ∧ root.Rooted := by
  rcases Filter.init_cases hf with ⟨-, rfl⟩ | ⟨-, d, root', -, -, htransform, rfl⟩
  · cases hroot
  · have he : root' = root := Option.some.inj hroot
    subst he
    refine ⟨?_, d.rooted_transform _ htransform⟩
    show Cell.container .container [.expression 1] none :: (root'.cells 1 ++ []) = _
    rw [List.append_nil]

/-- The loop of a walk with callbacks that leave the tree alone ends as the recursion does. -/
theorem Filter.walk_traverse {lark : LarkParser} {s : PyStr} {f : Filter}
    (hf : Filter.init lark (some s) = .ok f) {root : Expression} (hroot : f.root = some root)
    (callbacks : Callbacks σ) (halone : callbacks.LeaveAlone f.heap) (strategy : WalkStrategy)
    (own : σ) :
    ∃ n, ∀ rounds, n ≤ rounds → f.walk callbacks strategy rounds own
      = some (root.traverse callbacks strategy 0 1 ⟨f.heap, [], own, []⟩) := by
  obtain ⟨hheap, hrooted⟩ := Filter.heap_of_root hf hroot
  have hat : root.At 1 f.heap := by
    intro k _
    rw [hheap, Nat.add_comm, List.getElem?_cons_succ]
  obtain ⟨n, hn⟩ := Walk.runs_expression halone root hrooted (p := 0)
    (w := ⟨f.heap, [], own, []⟩) hat (List.prefix_refl _) []
  have hstart : f.heap.root 0 = some 1 := by
    rw [hheap]
    rfl
  refine ⟨n, fun rounds hrounds => ?_⟩
  obtain ⟨extra, rfl⟩ := Nat.exists_eq_add_of_le hrounds
  have hwalk : f.walk callbacks strategy (n + extra) own
      = Walk.loop callbacks strategy (n + extra) (Walk.start f.heap 0 1 own) := by
    unfold Filter.walk
    rw [hstart]
  rw [hwalk]
  refine (hn extra).trans ?_
  cases htraverse : root.traverse callbacks strategy 0 1 ⟨f.heap, [], own, []⟩ with
  | error exc => rfl
  | ok w =>
    have hstack : w.stack = [] := (root.traverse_called halone htraverse).stack
    have hw : w.withStack [] = w := by
      unfold Walk.withStack
      rw [← hstack]
    show Walk.loop callbacks strategy extra (w.withStack []) = some (.ok w)
    rw [hw]
    -- with an empty stack the loop is over
    cases extra with
    | zero => rw [Walk.loop, if_pos hstack]
    | succ extra =>
      rw [Walk.loop]
      simp only [hstack]

/-- A walk with callbacks that leave the tree alone ends as the recursion does, with an
exception of a callback or with the calls of the recursion in their order. -/
theorem walk_recursive {lark : LarkParser} {s : PyStr} {f : Filter}
    (hf : Filter.init lark (some s) = .ok f) {root : Expression} (hroot : f.root = some root)
    (callbacks : Callbacks σ) (halone : callbacks.LeaveAlone f.heap) (strategy : WalkStrategy)
    (own : σ) :
    (∃ n, ∀ rounds, n ≤ rounds → f.walk callbacks strategy rounds own
      = some (root.traverse callbacks strategy 0 1 ⟨f.heap, [], own, []⟩)) ∧
    ∀ w, root.traverse callbacks strategy 0 1 ⟨f.heap, [], own, []⟩ = .ok w →
      w.made = root.calls callbacks.comparison.isSome callbacks.operator.isSome strategy 0 1 :=
  ⟨Filter.walk_traverse hf hroot callbacks halone strategy own,
    fun _ hw => (root.traverse_called halone hw).made⟩

/-- Callbacks that write down what they are called with. -/
def logCalls : Callbacks (List (Ref × Ref)) where
  comparison := some fun own _ parent expression => ([], own ++ [(parent, expression)])
  operator := some fun own _ parent expression => ([], own ++ [(parent, expression)])

theorem logCalls_leaveAlone (tree : Heap) : logCalls.LeaveAlone tree := by
  have hlog : Callback.LeavesAlone tree fun (own : List (Ref × Ref)) _ parent expression =>
      ([], own ++ [(parent, expression)]) := by
    intro own h parent expression h' htree hedit
    cases hedit
    exact htree
  constructor <;> intro callback hcallback <;> cases hcallback <;> exact hlog

/-- `(|(&(!(a=1))(b=2))(c=3))` with the strategy `BOTH`: the objects are numbered as
they are printed. -/
theorem walk_recursive_both : ∃ (f : Filter) (root : Expression) (n : Nat),
    Filter.init resolver (some (py "(|(&(!(a=1))(b=2))(c=3))")) = .ok f ∧ f.root = some root ∧
    f.walk logCalls .both n [] = some (root.traverse logCalls .both 0 1 ⟨f.heap, [], [], []⟩) ∧
    root.calls true true .both 0 1 = [(0, 1), (1, 2), (2, 3), (3, 4), (2, 3), (2, 5), (1, 2),
      (1, 6), (0, 1)] := by
  obtain ⟨p, htext, hcheck⟩ := exists_parsedFilter (s := py "(|(&(!(a=1))(b=2))(c=3))")
    (fun e => e.calls true true .both 0 1 == [(0, 1), (1, 2), (2, 3), (3, 4), (2, 3), (2, 5),
      (1, 2), (1, 6), (0, 1)]) (by decide +kernel)
  obtain ⟨⟨n, hn⟩, -⟩ := walk_recursive p.parsed p.isRoot logCalls
    (logCalls_leaveAlone p.filter.heap) .both []
  exact ⟨p.filter, p.root, n, htext ▸ p.parsed, p.isRoot, hn n (Nat.le_refl n),
    beq_iff_eq.mp hcheck⟩

end FreeIam.Ldap
