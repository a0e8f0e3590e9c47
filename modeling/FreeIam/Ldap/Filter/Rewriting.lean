import FreeIam.Ldap.Filter.Meaning
import FreeIam.Ldap.Filter.Traversal

/-!
# Rewriting a filter

The comparison callback of a walk may put something else in the place of what it is
called for (`parent.replace(expression, …)`), which is how filters are transformed.
The loop edits lists of references in place, while they are walked; what it leaves
behind is the filter with every comparison substituted once, and its truth value is
that of the filter with the truth values of the substitutes.
-/

namespace FreeIam.Ldap

open FreeIam.Py FreeIam.Errors FreeIam.Kleene

/-! ## Substitution -/

section Rewrite

variable (g : Comparison → Expression)

mutual

/-- The expression with its comparisons substituted. -/
def Expression.rewrite : Expression → Expression
  | .comparison c => g c
  | .container cls es sep => .container cls es.rewrite sep

def Expressions.rewrite : Expressions → Expressions
  | .nil => .nil
  | .token t rest => .token t rest.rewrite
  | .cons e rest => .cons e.rewrite rest.rewrite

end

theorem evalMembers_append {β : Type} (m : β → Truth) (os os' : List (Outline β)) :
    evalMembers m (os ++ os') = evalMembers m os ++ evalMembers m os' := by
  induction os with
  | nil => rfl
  | cons o os ih =>
    show o.eval m :: evalMembers m (os ++ os') = _
    rw [ih]
    rfl

variable {g} {β : Type} {obs : Comparison → β} {m : β → Truth} {v : Comparison → Truth}

mutual

/-- The truth value of a substituted filter is that of the filter with the truth values
of the substitutes. -/
theorem Expression.eval_rewrite (h : ∀ c, evalMembers m ((g c).outline obs) = [v c]) :
    ∀ e : Expression, evalMembers m ((e.rewrite g).outline obs) = evalMembers v (e.outline id)
  | .comparison c => h c
  | .container (.operator .and) es sep => by
    show [Truth.all (evalMembers m ((es.rewrite g).outline obs))] = _
    rw [es.eval_rewrite h]
    rfl
  | .container (.operator .or) es sep => by
    show [Truth.any (evalMembers m ((es.rewrite g).outline obs))] = _
    rw [es.eval_rewrite h]
    rfl
  | .container (.operator .not) es sep => by
    show [(Truth.all (evalMembers m ((es.rewrite g).outline obs))).not] = _
    rw [es.eval_rewrite h]
    rfl
  | .container .group es sep => es.eval_rewrite h
  | .container .container es sep => es.eval_rewrite h

theorem Expressions.eval_rewrite (h : ∀ c, evalMembers m ((g c).outline obs) = [v c]) :
    ∀ es : Expressions, evalMembers m ((es.rewrite g).outline obs) = evalMembers v (es.outline id)
  | .nil => rfl
  | .token _ rest => rest.eval_rewrite h
  | .cons e rest => by
    show evalMembers m ((e.rewrite g).outline obs ++ (rest.rewrite g).outline obs) =
      evalMembers v (e.outline id ++ rest.outline id)
    rw [evalMembers_append, evalMembers_append, e.eval_rewrite h, rest.eval_rewrite h]

end

end Rewrite

/-! ## Expressions among the objects -/

section In

variable (h : Heap) (region : Ref → Prop)

mutual

/-- The object stands for the expression; its containers are in the region. -/
def Expression.In : Expression → Ref → Prop
  | .comparison c, r => h[r]? = some (.comparison c)
  | .container cls es sep, r => region r ∧ ∃ items, h[r]? = some (.container cls items sep) ∧ es.In items

def Expressions.In : Expressions → List Item → Prop
  | .nil, items => items = []
  | .token t rest, items => ∃ items', items = .token t :: items' ∧ rest.In items'
  | .cons e rest, items => ∃ r items', items = .expression r :: items' ∧ e.In r ∧ rest.In items'

end

end In

section Congr

variable {h h' : Heap} {region region' : Ref → Prop}

mutual

/-- What is not edited stands for what it stood for. -/
theorem Expression.In.congr (hclasses : Heap.Classes h h') (hregion : ∀ q, region q → region' q)
    (hcells : ∀ q : Nat, region q → q < h.length → h'[q]? = h[q]?) :
    ∀ {e : Expression} {r : Ref}, e.In h region r → e.In h' region' r
  | .comparison c, r, hin => hclasses.comparison r c hin
  | .container _ _ _, r, ⟨hr, items, hcell, hitems⟩ =>
    ⟨hregion r hr, items, (hcells r hr (List.getElem?_eq_some_iff.mp hcell).1).trans hcell,
      hitems.congr hclasses hregion hcells⟩

theorem Expressions.In.congr (hclasses : Heap.Classes h h') (hregion : ∀ q, region q → region' q)
    (hcells : ∀ q : Nat, region q → q < h.length → h'[q]? = h[q]?) :
    ∀ {es : Expressions} {items : List Item}, es.In h region items → es.In h' region' items
  | .nil, _, hin => hin
  | .token _ _, _, ⟨items', hitems, hrest⟩ => ⟨items', hitems, hrest.congr hclasses hregion hcells⟩
  | .cons _ _, _, ⟨r, items', hitems, he, hrest⟩ =>
    ⟨r, items', hitems, he.congr hclasses hregion hcells, hrest.congr hclasses hregion hcells⟩

end

end Congr

/-! ## The callback -/

/-- A callback that substitutes comparisons: it leaves one alone, or makes the objects of
its substitute and replaces it. -/
structure Rewrites {σ : Type} (callback : Callback σ) (g : Comparison → Expression) : Prop where
  edits : ∀ (own : σ) (h : Heap) (parent e : Ref) (c : Comparison), h[e]? = some (.comparison c) →
    (callback own h parent e).1 = [] ∧ g c = .comparison c ∨
    ∃ (cells : List Cell) (r : Ref),
      (callback own h parent e).1 = cells.map Edit.make ++ [.replace parent e r] ∧
        h.length ≤ r ∧ (g c).In (h ++ cells) (fun q => h.length ≤ q) r

namespace Heap

variable {h : Heap}

/-- Objects are made one after the other. -/
theorem edit_makes (h : Heap) (cells : List Cell) (edits : List Edit) :
    h.edit (cells.map Edit.make ++ edits) = Heap.edit (h ++ cells) edits := by
  induction cells generalizing h with
  | nil => rw [List.append_nil, List.map_nil, List.nil_append]
  | cons cell cells ih =>
    show Heap.edit (h ++ [cell]) (cells.map Edit.make ++ edits) = _
    rw [ih (h ++ [cell]), List.append_assoc, List.singleton_append]

theorem frame_makes {p : Nat} (e : Nat) (hp : p < h.length) (cells : List Cell) :
    Frame p e (e + 1) h (h ++ cells) := by
  induction cells generalizing h with
  | nil =>
    rw [List.append_nil]
    exact Frame.refl _ _ _ _
  | cons cell cells ih =>
    have hstep := frame_append p e cell hp
    have hrest := ih (h := h ++ [cell]) (Nat.lt_of_lt_of_le hp hstep.classes.length)
    rw [List.append_assoc, List.singleton_append] at hrest
    exact hstep.trans hrest

/-- The place of an expression behind others. -/
theorem indexOf_append {pre post : List Item} {e : Ref} (hpre : Item.expression e ∉ pre) :
    indexOf (pre ++ .expression e :: post) e = .ok pre.length := by
  have hfind : (pre ++ Item.expression e :: post).findIdx? (· = .expression e) = some pre.length := by
    rw [List.findIdx?_append, List.findIdx?_eq_none_iff.mpr]
    · simp [List.findIdx?_cons]
    · intro x hx
      simpa using fun heq : x = .expression e => hpre (heq ▸ hx)
  unfold indexOf
  rw [hfind]

theorem replace_of_split {p e r : Ref} {cls : ContainerClass} {pre post : List Item} {sep : Option PyStr}
    (hcell : h[p]? = some (.container cls (pre ++ .expression e :: post) sep))
    (hpre : Item.expression e ∉ pre) :
    h.replace p e r = .ok (h.set p (.container cls (pre ++ .expression r :: post) sep)) := by
  refine update_of_some hcell ?_
  show (indexOf (pre ++ .expression e :: post) e).map _ = _
  rw [indexOf_append hpre]
  show Except.ok ((pre ++ Item.expression e :: post).set pre.length (.expression r)) = _
  rw [List.set_append_right _ _ (Nat.le_refl _), Nat.sub_self]
  rfl

end Heap

/-- The objects from `lo` up to `hi`, and those that were made since there were `n`. -/
abbrev Region (lo hi n q : Nat) : Prop := lo ≤ q ∧ q < hi ∨ n ≤ q

namespace Walk

variable {σ : Type} {callback : Callback σ} {g : Comparison → Expression}

/-- What rounds have done: the member `r` of `p` has been walked, and `r'` stands for its
substitute in its place. -/
structure Rewritten (callback : Callback σ) (p r hi n : Nat) (cls : ContainerClass)
    (pre post : List Item) (sep : Option PyStr) (e : Expression) (w w' : Walk σ) (r' : Ref) : Prop where
  rounds : Rounds ⟨some callback, none⟩ w w'
  frame : Heap.Frame p r hi w.heap w'.heap
  parent : w'.heap[p]? = some (.container cls (pre ++ .expression r' :: post) sep)
  stands : e.In w'.heap (Region r hi n) r'
  fresh : r' = r ∨ n ≤ r'

/-- A comparison is substituted in one round. -/
theorem rewritten_comparison (hcallback : Rewrites callback g) {c : Comparison} {n r p : Nat}
    {cls : ContainerClass} {pre post : List Item} {sep : Option PyStr} {rest : List (Ref × Ref × Bool)}
    {w : Walk σ} (hstack : w.stack = (p, r, true) :: rest) (hcell : w.heap[r]? = some (.comparison c))
    (hparent : w.heap[p]? = some (.container cls (pre ++ .expression r :: post) sep))
    (hpre : Item.expression r ∉ pre) (hn : n ≤ w.heap.length) :
    ∃ w' r', w'.stack = rest ∧ Rewritten callback p r (r + 1) n cls pre post sep (g c) w w' r' := by
  have hplt : p < w.heap.length := (List.getElem?_eq_some_iff.mp hparent).1
  have hvisit := visit_comparison (⟨some callback, none⟩ : Callbacks σ)
    (w := { w with stack := rest }) (p := p) hcell true
  rcases hcallback.edits w.own w.heap p r c hcell with ⟨hnone, hsame⟩ | ⟨cells, r', hedits, hr', hin⟩
  · refine ⟨{ w with stack := rest, own := (callback w.own w.heap p r).2, visits := w.visits ++ [⟨p, r, w.heap, w.heap⟩] },
      r, rfl, round_of_visit hstack (hvisit.trans ?_), Heap.Frame.refl _ _ _ _, hparent, ?_, .inl rfl⟩
    · show call callback _ p r = _
      unfold call
      simp only [hnone]
      rfl
    · rw [hsame]
      exact hcell
  · -- the substitute is made, then it takes the place of the comparison
    have hsplit : (w.heap ++ cells)[p]? = some (.container cls (pre ++ .expression r :: post) sep) := by
      rw [List.getElem?_append_left hplt, hparent]
    have hreplace := Heap.replace_of_split (r := r') hsplit hpre
    let h' : Heap := (w.heap ++ cells).set p (.container cls (pre ++ .expression r' :: post) sep)
    have hedit : w.heap.edit (callback w.own w.heap p r).1 = .ok h' := by
      have happly : (Edit.replace p r r').apply (w.heap ++ cells) = .ok h' := hreplace
      rw [hedits, Heap.edit_makes]
      unfold Heap.edit
      rw [happly]
      rfl
    have hmembers : ∀ x : Nat, x ≠ r → Item.expression x ∈ pre ++ .expression r :: post →
        Item.expression x ∈ pre ++ .expression r' :: post := by
      intro x hx hmem
      rcases List.mem_append.mp hmem with hmem | hmem
      · exact List.mem_append_left _ hmem
      · rcases List.mem_cons.mp hmem with heq | hmem
        · exact absurd (Item.expression.inj heq) hx
        · exact List.mem_append_right _ (List.mem_cons_of_mem _ hmem)
    refine ⟨{ w with stack := rest, heap := h', own := (callback w.own w.heap p r).2, visits := w.visits ++ [⟨p, r, w.heap, h'⟩] },
      r', rfl, round_of_visit hstack (hvisit.trans ?_),
      (Heap.frame_makes r hplt cells).trans (Heap.frame_set_parent hsplit hmembers), ?_, ?_,
      .inr (Nat.le_trans hn hr')⟩
    · show call callback _ p r = _
      unfold call
      simp only [hedit]
    · exact List.getElem?_set_self (List.getElem?_eq_some_iff.mp hsplit).1
    · refine hin.congr (Heap.classes_set hsplit) (fun q hq => .inr (Nat.le_trans hn hq)) fun q hq _ => ?_
      exact List.getElem?_set_ne (by omega)

mutual

/-- An expression on top of the stack is walked, and the object that is left in its place
stands for it with its comparisons substituted. -/
theorem rewritten_expression (hcallback : Rewrites callback g) (n : Nat) (e : Expression) (he : e.Rooted) {r p : Nat}
    {cls : ContainerClass} {pre post : List Item} {sep : Option PyStr} {rest : List (Ref × Ref × Bool)}
    {w : Walk σ} (hstack : w.stack = (p, r, true) :: rest) (hat : e.At r w.heap)
    (hparent : w.heap[p]? = some (.container cls (pre ++ .expression r :: post) sep))
    (hpre : Item.expression r ∉ pre) (hlt : p < r) (hrange : r + e.size ≤ n) (hn : n ≤ w.heap.length) :
    ∃ w' r', w'.stack = rest ∧
      Rewritten callback p r (r + e.size) n cls pre post sep (e.rewrite g) w w' r' := by
  match e, he with
  | .comparison c, _ => exact rewritten_comparison hcallback hstack hat.comparison hparent hpre hn
  | .container cls' es sep', hes =>
    obtain ⟨hcell, hmembers⟩ := hat.container
    have hlength := hat.le_length
    have hsize : (Expression.container cls' es sep').size = es.size + 1 := rfl
    have hround := round_of_visit hstack (visit_pre (⟨some callback, none⟩ : Callbacks σ)
      (w := { w with stack := rest }) (p := p) hcell)
    obtain ⟨w', items', hstack', hrounds, hframe, hitems, hstands⟩ := rewritten_members hcallback n es hes
      (q := r) (k := r + 1)
      (w := { w with
        stack := (es.refs (r + 1)).map (fun child => (r, child, true)) ++ rest })
      rfl hmembers hcell (fun x hx => absurd hx List.not_mem_nil) (Nat.lt_succ_self r) (by omega) hn
    rw [hmembers.expressions es hes] at hround
    have hlift : Heap.Frame p r (r + (es.size + 1)) w.heap w'.heap :=
      (hframe.lift hlt (by omega) (by show r < w.heap.length; omega)).mono (Nat.le_refl _) (by omega)
    refine ⟨w', r, hstack', hround.trans hrounds, hlift, ?_, ?_, .inl rfl⟩
    · rw [hframe.outside p (List.getElem?_eq_some_iff.mp hparent).1 (by omega) (by omega)]
      exact hparent
    · refine ⟨.inl ⟨Nat.le_refl r, by omega⟩, items', hitems, ?_⟩
      exact hstands.congr (Heap.Classes.refl _) (fun (q : Nat) hq => by unfold Region at hq ⊢; omega) fun _ _ _ => rfl

/-- So are the members of a container, behind those that are done. -/
theorem rewritten_members (hcallback : Rewrites callback g) (n : Nat) (es : Expressions) (hes : es.Walkable) {q k : Nat}
    {cls : ContainerClass} {done : List Item} {sep : Option PyStr} {rest : List (Ref × Ref × Bool)}
    {w : Walk σ} (hstack : w.stack = (es.refs k).map (fun c => (q, c, true)) ++ rest) (hat : es.At k w.heap)
    (hlist : w.heap[q]? = some (.container cls (done ++ es.items k) sep))
    (hdone : ∀ x : Nat, Item.expression x ∈ done → x < k ∨ n ≤ x) (hlt : q < k) (hrange : k + es.size ≤ n)
    (hn : n ≤ w.heap.length) :
    ∃ w' items', w'.stack = rest ∧ Rounds ⟨some callback, none⟩ w w' ∧
      Heap.Frame q k (k + es.size) w.heap w'.heap ∧
      w'.heap[q]? = some (.container cls (done ++ items') sep) ∧
      (es.rewrite g).In w'.heap (Region k (k + es.size) n) items' := by
  match es, hes with
  | .nil, _ => exact ⟨w, [], hstack, .refl, Heap.Frame.refl _ _ _ _, hlist, rfl⟩
  | .token t more, hmore =>
    have hassoc : done ++ (Expressions.token t more).items k = (done ++ [.token t]) ++ more.items k := by
      simp [Expressions.items]
    rw [hassoc] at hlist
    obtain ⟨w', items', hstack', hrounds, hframe, hitems, hstands⟩ := rewritten_members hcallback n more hmore
      hstack hat hlist (fun x hx => hdone x (by simpa using hx)) hlt hrange hn
    refine ⟨w', .token t :: items', hstack', hrounds, hframe, ?_, items', rfl, hstands⟩
    rw [hitems, List.append_assoc]
    rfl
  | .cons e more, ⟨he, hmore⟩ =>
    obtain ⟨hat₁, hat₂⟩ := hat.cons
    have hpos := e.size_pos
    have hsize : (Expressions.cons e more).size = e.size + more.size := rfl
    have hnew : Item.expression k ∉ done := fun hmem => by
      have hbound := hdone k hmem
      omega
    obtain ⟨w₁, r', hstack₁, h₁⟩ := rewritten_expression hcallback n e he.rooted hstack hat₁ hlist hnew hlt
      (by omega) hn
    have hlength₁ := h₁.frame.classes.length
    have hlist₁ : w₁.heap[q]? =
        some (.container cls ((done ++ [.expression r']) ++ more.items (k + e.size)) sep) := by
      rw [h₁.parent, List.append_assoc]
      rfl
    -- the others are still where they were
    have hat₂' : more.At (k + e.size) w₁.heap := hat₂.congr fun (x : Nat) hx hx' =>
      h₁.frame.outside x (hat₂.lt_length hx hx') (by omega) (by omega)
    have hdone₁ : ∀ x : Nat, Item.expression x ∈ done ++ [.expression r'] → x < k + e.size ∨ n ≤ x := by
      intro x hx
      rcases List.mem_append.mp hx with hx | hx
      · exact (hdone x hx).imp_left fun hlt => by omega
      · obtain rfl := Item.expression.inj (List.mem_singleton.mp hx)
        exact h₁.fresh.imp_left fun heq => Nat.lt_of_le_of_lt (Nat.le_of_eq heq) (by omega)
    obtain ⟨w₂, items', hstack₂, hrounds₂, hframe₂, hitems₂, hstands₂⟩ := rewritten_members hcallback n more hmore
      hstack₁ hat₂' hlist₁ hdone₁ (by omega) (by omega) (Nat.le_trans hn hlength₁)
    refine ⟨w₂, .expression r' :: items', hstack₂, h₁.rounds.trans hrounds₂,
      (h₁.frame.mono (Nat.le_refl _) (by omega)).trans (hframe₂.mono (by omega) (by omega)), ?_,
      r', items', rfl, ?_, ?_⟩
    · rw [hitems₂, List.append_assoc]
      rfl
    · exact h₁.stands.congr hframe₂.classes (fun (x : Nat) hx => by unfold Region at hx ⊢; omega)
        fun (x : Nat) hx hlen => hframe₂.outside x hlen (by unfold Region at hx; omega) (by unfold Region at hx; omega)
    · exact hstands₂.congr (Heap.Classes.refl _) (fun (x : Nat) hx => by unfold Region at hx ⊢; omega) fun _ _ _ => rfl

end

end Walk

/-! ## Whole walks -/

/-- A walk whose comparison callback substitutes comparisons ends, the filter that it
leaves behind is the one with every comparison substituted once, and its truth value is
that of the filter with the truth values of the substitutes. -/
theorem walk_rewrites {σ : Type} {lark : LarkParser} {s : PyStr} {f : Filter}
    (hf : Filter.init lark (some s) = .ok f) {root : Expression} (hroot : f.root = some root)
    {callback : Callback σ} {g : Comparison → Expression} (hcallback : Rewrites callback g) (own : σ) :
    ∃ (w : Walk σ) (r : Ref),
      (∃ n, ∀ rounds, n ≤ rounds → f.walk ⟨some callback, none⟩ .post rounds own = some (.ok w)) ∧
      w.heap.root 0 = some r ∧ (root.rewrite g).In w.heap (fun q => 0 < q) r ∧
      ∀ (β : Type) (obs : Comparison → β) (m : β → Truth) (v : Comparison → Truth),
        (∀ c, evalMembers m ((g c).outline obs) = [v c]) →
        evalMembers m ((root.rewrite g).outline obs) = evalMembers v (root.outline id) := by
  obtain ⟨hheap, hrooted⟩ := Filter.heap_of_root hf hroot
  have hat : root.At 1 f.heap := by
    intro k _
    rw [hheap, Nat.add_comm, List.getElem?_cons_succ]
  have hparent : f.heap[0]? = some (.container .container ([] ++ .expression 1 :: []) none) := by
    rw [hheap]
    rfl
  have hlength : f.heap.length = 1 + root.size := by
    rw [hheap, List.length_cons, root.length_cells, Nat.add_comm]
  obtain ⟨w, r, hstack, h⟩ := Walk.rewritten_expression hcallback f.heap.length root hrooted
    (w := Walk.start f.heap 0 1 own) rfl hat hparent List.not_mem_nil Nat.zero_lt_one
    (Nat.le_of_eq hlength.symm) (Nat.le_refl _)
  refine ⟨w, r, ?_, ?_, ?_, fun β obs m v hv => root.eval_rewrite hv⟩
  · obtain ⟨n, hn⟩ := h.rounds.loop hstack
    refine ⟨n, fun rounds hrounds => ?_⟩
    have hstart : f.heap.root 0 = some 1 := by
      rw [hheap]
      rfl
    unfold Filter.walk
    rw [hstart]
    exact hn rounds hrounds
  · unfold Heap.root Heap.items
    rw [h.parent]
    rfl
  · exact h.stands.congr (Heap.Classes.refl _) (fun (q : Nat) hq => by
      unfold Region at hq
      show 0 < q
      omega) fun _ _ _ => rfl

/-- Negating a comparison. -/
def negated (c : Comparison) : Expression :=
  .container (.operator .not) (.cons (.comparison c) .nil) none

theorem negateComparisons_rewrites :
    Rewrites (fun _ h parent expression => ([.make (.container (.operator .not) [.expression expression] none),
      .replace parent expression h.length], ())) negated where
  edits _ h _ e _ hcell :=
    .inr ⟨[.container (.operator .not) [.expression e] none], h.length, rfl, Nat.le_refl _,
      Nat.le_refl _, [.expression e], List.getElem?_concat_length, e, [], rfl,
      (List.getElem?_append_left (List.getElem?_eq_some_iff.mp hcell).1).trans hcell, rfl⟩

/-- `(&(a=b)(c=d))` with its comparisons negated has the truth values of their negations. -/
theorem walk_rewrites_negate : ∃ (f : Filter) (root : Expression) (w : Walk Unit) (r : Ref) (n : Nat),
    Filter.init resolver (some (py "(&(a=b)(c=d))")) = .ok f ∧ f.root = some root ∧
    f.walk negateComparisons .post n () = some (.ok w) ∧
    (root.rewrite negated).In w.heap (fun q => 0 < q) r ∧
    ∀ m : Comparison → Truth, evalMembers m ((root.rewrite negated).outline id) =
      evalMembers (fun c => (m c).not) (root.outline id) := by
  obtain ⟨p, htext, -⟩ := exists_parsedFilter (s := py "(&(a=b)(c=d))") (fun _ => true) (by decide +kernel)
  obtain ⟨w, r, ⟨n, hn⟩, -, hin, heval⟩ := walk_rewrites p.parsed p.isRoot negateComparisons_rewrites ()
  refine ⟨p.filter, p.root, w, r, n, htext ▸ p.parsed, p.isRoot, hn n (Nat.le_refl n), hin, fun m => ?_⟩
  refine heval _ id m (fun c => (m c).not) fun c => ?_
  show [(Truth.all [m c]).not] = _
  rw [Truth.all_singleton]

end FreeIam.Ldap
