import Mathlib.Data.List.Basic

/-!
# Programs that change a state and may raise

`EStateM ε σ α` is a program over a state `σ` that returns a value or raises an
error; either way it leaves a state behind. This module has the rules for what
holds when such a program has run (`Spec`), for the invariants it keeps
(`Keeps`), for running it on a component of a larger state (`zoom`), and for
systems that are driven by a sequence of calls (`after`, `Along`).
-/

namespace FreeIam.Exec

variable {ε σ ω α β : Type}

/-! ## Running the operations of the monad -/

@[simp] theorem run_throw (e : ε) (s : σ) :
    (throw e : EStateM ε σ α).run s = .error e s := rfl

@[simp] theorem run_tryCatch (m : EStateM ε σ α) (h : ε → EStateM ε σ α) (s : σ) :
    (tryCatch m h).run s =
      match m.run s with
      | .ok a s' => .ok a s'
      | .error e s' => (h e).run s' := by
  show EStateM.tryCatch m h s = _
  unfold EStateM.tryCatch EStateM.run
  cases m s <;> rfl

@[simp] theorem run_map (f : α → β) (m : EStateM ε σ α) (s : σ) :
    (f <$> m).run s =
      match m.run s with
      | .ok a s' => .ok (f a) s'
      | .error e s' => .error e s' := by
  show EStateM.map f m s = _
  unfold EStateM.map EStateM.run
  cases m s <;> rfl

/-- `m` where the condition holds, nothing elsewhere. -/
def onlyIf (c : Prop) [Decidable c] (m : EStateM ε σ Unit) : EStateM ε σ Unit :=
  if c then m else pure ()

@[simp] theorem onlyIf_true {c : Prop} [Decidable c] {m : EStateM ε σ Unit} (hc : c) :
    onlyIf c m = m := if_pos hc

@[simp] theorem onlyIf_false {c : Prop} [Decidable c] {m : EStateM ε σ Unit} (hc : ¬c) :
    onlyIf c m = pure () := if_neg hc

/-- The state a run leaves behind, whether it returned or raised. -/
def final : EStateM.Result ε σ α → σ
  | .ok _ s => s
  | .error _ s => s

@[simp] theorem final_ok (a : α) (s : σ) : final (.ok a s : EStateM.Result ε σ α) = s := rfl

@[simp] theorem final_error (e : ε) (s : σ) :
    final (.error e s : EStateM.Result ε σ α) = s := rfl

/-- Whether a run raised. -/
def raised : EStateM.Result ε σ α → Bool
  | .ok _ _ => false
  | .error _ _ => true

@[simp] theorem raised_ok (a : α) (s : σ) : raised (.ok a s : EStateM.Result ε σ α) = false := rfl

@[simp] theorem raised_error (e : ε) (s : σ) :
    raised (.error e s : EStateM.Result ε σ α) = true := rfl

/-! ## What holds when a program has run -/

/-- From a state with `P`, a run that returns ends with `Q`, one that raises
ends with `E`. -/
def Spec (P : σ → Prop) (m : EStateM ε σ α) (Q : α → σ → Prop) (E : ε → σ → Prop) : Prop :=
  ∀ s, P s → match m.run s with
    | .ok a s' => Q a s'
    | .error e s' => E e s'

namespace Spec

variable {P P' : σ → Prop} {Q Q' : α → σ → Prop} {R : β → σ → Prop} {E E' : ε → σ → Prop}
  {m : EStateM ε σ α}

theorem pure {a : α} (h : ∀ s, P s → Q a s) : Spec P (pure a) Q E := fun s hs => h s hs

theorem throw {e : ε} (h : ∀ s, P s → E e s) : Spec P (throw e) Q E := fun s hs => h s hs

theorem get {Q : σ → σ → Prop} (h : ∀ s, P s → Q s s) : Spec P (get : EStateM ε σ σ) Q E :=
  fun s hs => h s hs

theorem modify {f : σ → σ} {Q : PUnit → σ → Prop} (h : ∀ s, P s → Q ⟨⟩ (f s)) :
    Spec P (modify f : EStateM ε σ PUnit) Q E :=
  fun s hs => h s hs

/-- Sequencing: what the first program establishes is what the second starts from. -/
theorem bind {f : α → EStateM ε σ β} (hm : Spec P m Q E) (hf : ∀ a, Spec (Q a) (f a) R E) :
    Spec P (m >>= f) R E := by
  intro s hs
  have hms := hm s hs
  rw [EStateM.run_bind]
  cases hrun : m.run s with
  | ok a s' =>
    rw [hrun] at hms
    exact hf a s' hms
  | error e s' =>
    rw [hrun] at hms
    exact hms

theorem map {f : α → β} {Q : α → σ → Prop} (hm : Spec P m Q E) (hf : ∀ a s, Q a s → R (f a) s) :
    Spec P (f <$> m) R E := by
  intro s hs
  have hms := hm s hs
  rw [run_map]
  cases hrun : m.run s with
  | ok a s' =>
    rw [hrun] at hms
    exact hf a s' hms
  | error e s' =>
    rw [hrun] at hms
    exact hms

/-- A handler starts from what the program leaves when it raises. -/
theorem tryCatch {h : ε → EStateM ε σ α} (hm : Spec P m Q E) (hh : ∀ e, Spec (E e) (h e) Q E') :
    Spec P (tryCatch m h) Q E' := by
  intro s hs
  have hms := hm s hs
  rw [run_tryCatch]
  cases hrun : m.run s with
  | ok a s' =>
    rw [hrun] at hms
    exact hms
  | error e s' =>
    rw [hrun] at hms
    exact hh e s' hms

theorem conseq (hm : Spec P m Q E) (hP : ∀ s, P' s → P s) (hQ : ∀ a s, Q a s → Q' a s)
    (hE : ∀ e s, E e s → E' e s) : Spec P' m Q' E' := by
  intro s hs
  have hms := hm s (hP s hs)
  cases hrun : m.run s with
  | ok a s' =>
    rw [hrun] at hms
    exact hQ a s' hms
  | error e s' =>
    rw [hrun] at hms
    exact hE e s' hms

/-- What does not depend on the state may be assumed. -/
theorem assume {c : Prop} (h : c → Spec P m Q E) : Spec (fun s => c ∧ P s) m Q E :=
  fun s hs => h hs.1 s hs.2

/-- A specification may be proved separately for each state it starts from. -/
theorem of_forall (h : ∀ s₀, P s₀ → Spec (fun s => s = s₀) m Q E) : Spec P m Q E :=
  fun s hs => h s hs s rfl

theorem ite {c : Prop} [Decidable c] {m' : EStateM ε σ α} (ht : c → Spec P m Q E)
    (hf : ¬c → Spec P m' Q E) : Spec P (if c then m else m') Q E := by
  by_cases hc : c
  · rw [if_pos hc]
    exact ht hc
  · rw [if_neg hc]
    exact hf hc

theorem onlyIf {c : Prop} [Decidable c] {m : EStateM ε σ Unit} {Q : Unit → σ → Prop}
    (ht : c → Spec P m Q E) (hf : ¬c → ∀ s, P s → Q () s) : Spec P (onlyIf c m) Q E :=
  Spec.ite ht fun hc => Spec.pure (hf hc)

/-- What a specification says of a run that returned. -/
theorem ok {s s' : σ} {a : α} (hm : Spec P m Q E) (hs : P s) (hrun : m.run s = .ok a s') :
    Q a s' := by
  have hms := hm s hs
  rw [hrun] at hms
  exact hms

/-- What a specification says of the state that a run which returned leaves behind. -/
theorem returned {s : σ} {I : σ → Prop} (hm : Spec P m (fun _ => I) E) (hs : P s)
    (hrun : raised (m.run s) = false) : I (final (m.run s)) := by
  have hms := hm s hs
  cases h : m.run s with
  | ok a s' =>
    rw [h] at hms
    exact hms
  | error e s' =>
    rw [h] at hrun
    cases hrun

/-- What a specification says of a run that raised. -/
theorem error {s s' : σ} {e : ε} (hm : Spec P m Q E) (hs : P s)
    (hrun : m.run s = .error e s') : E e s' := by
  have hms := hm s hs
  rw [hrun] at hms
  exact hms

/-- What a specification says of the state a run leaves behind. -/
theorem final {s : σ} {I : σ → Prop} (hm : Spec P m (fun _ => I) (fun _ => I)) (hs : P s) :
    I (final (m.run s)) := by
  have hms := hm s hs
  cases hrun : m.run s with
  | ok a s' =>
    rw [hrun] at hms
    exact hms
  | error e s' =>
    rw [hrun] at hms
    exact hms

end Spec

/-! ## Invariants of programs -/

/-- `m` keeps `I`: it holds after every run from a state in which it holds. -/
def Keeps (I : σ → Prop) (m : EStateM ε σ α) : Prop := Spec I m (fun _ => I) (fun _ => I)

namespace Keeps

variable {I : σ → Prop} {m : EStateM ε σ α}

theorem pure (a : α) : Keeps I (pure a : EStateM ε σ α) := Spec.pure fun _ h => h

theorem throw (e : ε) : Keeps I (throw e : EStateM ε σ α) := Spec.throw fun _ h => h

theorem get : Keeps I (get : EStateM ε σ σ) := Spec.get fun _ h => h

theorem modify {f : σ → σ} (h : ∀ s, I s → I (f s)) :
    Keeps I (modify f : EStateM ε σ PUnit) := Spec.modify h

theorem bind {f : α → EStateM ε σ β} (hm : Keeps I m) (hf : ∀ a, Keeps I (f a)) :
    Keeps I (m >>= f) := Spec.bind hm hf

theorem tryCatch {h : ε → EStateM ε σ α} (hm : Keeps I m) (hh : ∀ e, Keeps I (h e)) :
    Keeps I (tryCatch m h) := Spec.tryCatch hm hh

theorem ite {c : Prop} [Decidable c] {m' : EStateM ε σ α} (ht : Keeps I m)
    (hf : Keeps I m') : Keeps I (if c then m else m') :=
  Spec.ite (fun _ => ht) (fun _ => hf)

theorem onlyIf {c : Prop} [Decidable c] {m : EStateM ε σ Unit} (h : Keeps I m) :
    Keeps I (onlyIf c m) :=
  Keeps.ite h (Keeps.pure ())

theorem map {f : α → β} (hm : Keeps I m) : Keeps I (f <$> m) := Spec.map hm fun _ _ hs => hs

theorem discard (hm : Keeps I m) : Keeps I (discard m) := Keeps.map hm

/-- A loop over a list keeps what its body keeps. -/
theorem forM {γ : Type} {f : γ → EStateM ε σ PUnit} (h : ∀ x, Keeps I (f x)) (xs : List γ) :
    Keeps I (xs.forM f) := by
  induction xs with
  | nil => exact Keeps.pure _
  | cons x xs ih => exact Keeps.bind (h x) fun _ => ih

theorem final (hm : Keeps I m) {s : σ} (hs : I s) : I (final (m.run s)) := Spec.final hm hs

theorem of_final (h : ∀ s, I s → I (Exec.final (m.run s))) : Keeps I m := by
  intro s hs
  have hms := h s hs
  cases hrun : m.run s with
  | ok a s' =>
    rw [hrun] at hms
    exact hms
  | error e s' =>
    rw [hrun] at hms
    exact hms

/-- A second invariant may rest on the first. -/
theorem and {J : σ → Prop} (hI : Keeps I m) (hJ : Spec (fun s => I s ∧ J s) m (fun _ => J) (fun _ => J)) :
    Keeps (fun s => I s ∧ J s) m :=
  of_final fun _ hs => ⟨hI.final hs.1, Spec.final hJ hs⟩

theorem both {J : σ → Prop} (hI : Keeps I m) (hJ : Keeps J m) : Keeps (fun s => I s ∧ J s) m :=
  hI.and (Spec.conseq hJ (fun _ hs => hs.2) (fun _ _ hs => hs) fun _ _ hs => hs)

end Keeps

/-! ## Programs on a component of the state -/

/-- `m` run on the component that `get` reads and `set` writes back. -/
def zoom (get : σ → ω) (set : ω → σ → σ) (m : EStateM ε ω α) : EStateM ε σ α := fun s =>
  match m.run (get s) with
  | .ok a w => .ok a (set w s)
  | .error e w => .error e (set w s)

theorem run_zoom (get : σ → ω) (set : ω → σ → σ) (m : EStateM ε ω α) (s : σ) :
    (zoom get set m).run s =
      match m.run (get s) with
      | .ok a w => .ok a (set w s)
      | .error e w => .error e (set w s) := rfl

/-- A specification of the component is one of the whole state. -/
theorem Spec.zoom {get : σ → ω} {set : ω → σ → σ} {m : EStateM ε ω α} {P : σ → Prop}
    {Q : α → σ → Prop} {E : ε → σ → Prop}
    (h : ∀ s, P s → Spec (fun w => w = get s) m (fun a w => Q a (set w s)) (fun e w => E e (set w s))) :
    Spec P (zoom get set m) Q E := by
  intro s hs
  have hm := h s hs (get s) rfl
  rw [run_zoom]
  cases hrun : m.run (get s) with
  | ok a w =>
    rw [hrun] at hm
    exact hm
  | error e w =>
    rw [hrun] at hm
    exact hm

theorem Keeps.zoom {get : σ → ω} {set : ω → σ → σ} {m : EStateM ε ω α} {I : σ → Prop}
    (h : ∀ s, I s → I (set (Exec.final (m.run (get s))) s)) : Keeps I (zoom get set m) := by
  apply Keeps.of_final
  intro s hs
  have hm := h s hs
  rw [run_zoom]
  cases hrun : m.run (get s) with
  | ok a w =>
    rw [hrun] at hm
    exact hm
  | error e w =>
    rw [hrun] at hm
    exact hm

/-! ## Systems driven by calls -/

section Runs

variable {κ : Type}

/-- The state after a sequence of calls, one after the other. -/
def after (step : σ → κ → σ) (s : σ) (calls : List κ) : σ := calls.foldl step s

/-- Every call of the sequence is made in a state that allows it. -/
def Along (step : σ → κ → σ) (ok : σ → κ → Prop) : σ → List κ → Prop
  | _, [] => True
  | s, c :: cs => ok s c ∧ Along step ok (step s c) cs

instance decidableAlong (step : σ → κ → σ) (ok : σ → κ → Prop) [∀ s c, Decidable (ok s c)] :
    ∀ s calls, Decidable (Along step ok s calls)
  | _, [] => isTrue trivial
  | s, c :: cs =>
    have := decidableAlong step ok (step s c) cs
    inferInstanceAs (Decidable (ok s c ∧ Along step ok (step s c) cs))

/-- Calls that are allowed in every state. -/
theorem along_of_forall {step : σ → κ → σ} {ok : κ → Prop} {calls : List κ}
    (h : ∀ c ∈ calls, ok c) (s : σ) : Along step (fun _ => ok) s calls := by
  induction calls generalizing s with
  | nil => exact trivial
  | cons c cs ih => exact ⟨h c List.mem_cons_self, ih (fun c' hc' => h c' (List.mem_cons_of_mem c hc')) _⟩

/-- An invariant that every allowed call keeps holds after every sequence of
allowed calls. -/
theorem after_induction {step : σ → κ → σ} {ok : σ → κ → Prop} {I : σ → Prop}
    (hstep : ∀ s c, I s → ok s c → I (step s c)) {s : σ} {calls : List κ} (hs : I s)
    (hok : Along step ok s calls) : I (after step s calls) := by
  induction calls generalizing s with
  | nil => exact hs
  | cons c cs ih => exact ih (hstep s c hs hok.1) hok.2

end Runs

end FreeIam.Exec
