import FreeIam.Lib.Exec

/-!
# Programs that leave a trace

A traced program runs over a state and a list of events to which it appends.
`Traces` says that it does what a program without events does: it comes to the
same result and state, whatever has been written before. The rules go with the
operations of the monad, so that the traced version of a program is shown to be
one by going through its text.
-/

namespace FreeIam.Exec

variable {ε σ ω τ α β : Type}

/-- A program over `σ` that appends events `τ`. -/
abbrev Traced (τ ε σ α : Type) := EStateM ε (σ × List τ) α

/-- A run without the events it has appended. -/
def forget : EStateM.Result ε (σ × List τ) α → EStateM.Result ε σ α
  | .ok a t => .ok a t.1
  | .error e t => .error e t.1

/-- What a run comes to. -/
def outcomeOf : EStateM.Result ε σ α → Except ε α
  | .ok a _ => .ok a
  | .error e _ => .error e

theorem outcomeOf_forget (r : EStateM.Result ε (σ × List τ) α) : outcomeOf (forget r) = outcomeOf r := by
  cases r <;> rfl

namespace Traced

/-! ## Operations -/

/-- A program that appends nothing. -/
def lift (m : EStateM ε σ α) : Traced τ ε σ α :=
  zoom Prod.fst (fun s t => (s, t.2)) m

/-- Append an event. -/
def emit (event : τ) : Traced τ ε σ Unit := modify fun t => (t.1, t.2 ++ [event])

/-- Run a program and append how it has ended. -/
def watch (event : Except ε α → τ) (m : Traced τ ε σ α) : Traced τ ε σ α := fun t =>
  match m.run t with
  | .ok a t' => .ok a (t'.1, t'.2 ++ [event (.ok a)])
  | .error e t' => .error e (t'.1, t'.2 ++ [event (.error e)])

theorem run_lift (m : EStateM ε σ α) (t : σ × List τ) :
    (lift m : Traced τ ε σ α).run t =
      match m.run t.1 with
      | .ok a s => .ok a (s, t.2)
      | .error e s => .error e (s, t.2) := rfl

@[simp] theorem run_emit (event : τ) (t : σ × List τ) :
    (emit event : Traced τ ε σ Unit).run t = .ok () (t.1, t.2 ++ [event]) := rfl

theorem run_watch (event : Except ε α → τ) (m : Traced τ ε σ α) (t : σ × List τ) :
    (watch event m).run t =
      match m.run t with
      | .ok a t' => .ok a (t'.1, t'.2 ++ [event (.ok a)])
      | .error e t' => .error e (t'.1, t'.2 ++ [event (.error e)]) := rfl

/-- A specification of a program without events, and what holds of the events before. -/
theorem lift_spec {m : EStateM ε σ α} {P : σ → Prop} {Q : α → σ → Prop} {E : ε → σ → Prop}
    (h : Spec P m Q E) (B : List τ → Prop) :
    Spec (fun t => P t.1 ∧ B t.2) (lift m : Traced τ ε σ α) (fun a t => Q a t.1 ∧ B t.2)
      (fun e t => E e t.1 ∧ B t.2) := by
  intro t ht
  have hm := h t.1 ht.1
  rw [run_lift]
  cases hrun : m.run t.1 with
  | ok a s =>
    rw [hrun] at hm
    exact ⟨hm, ht.2⟩
  | error e s =>
    rw [hrun] at hm
    exact ⟨hm, ht.2⟩

/-- Looking at the state. -/
theorem read_spec {I : σ × List τ → Prop} {f : σ → Traced τ ε σ α} {Q : α → σ × List τ → Prop}
    {E : ε → σ × List τ → Prop} (h : ∀ s, Spec (fun t => s = t.1 ∧ I t) (f s) Q E) :
    Spec I (lift get >>= f) Q E := fun t ht => h t.1 t ⟨rfl, ht⟩

/-- An event in front. -/
theorem emit_spec {I J : σ × List τ → Prop} {f : Unit → Traced τ ε σ α} {event : τ}
    {Q : α → σ × List τ → Prop} {E : ε → σ × List τ → Prop}
    (hevent : ∀ s events, I (s, events) → J (s, events ++ [event])) (h : Spec J (f ()) Q E) :
    Spec I (emit event >>= f) Q E := fun t ht => h _ (hevent t.1 t.2 ht)

/-- What is appended does not undo `B`. -/
def Persistent (B : List τ → Prop) : Prop := ∀ events event, B events → B (events ++ [event])

theorem lift_persistent (B : List τ → Prop) (m : EStateM ε σ α) :
    Keeps (fun t => B t.2) (lift m : Traced τ ε σ α) := by
  intro t ht
  rw [run_lift]
  cases m.run t.1 <;> exact ht

theorem emit_persistent {B : List τ → Prop} (hB : Persistent B) (event : τ) :
    Keeps (fun t => B t.2) (emit event : Traced τ ε σ Unit) := fun t ht => hB t.2 event ht

theorem watch_persistent {B : List τ → Prop} (hB : Persistent B) (event : Except ε α → τ)
    {m : Traced τ ε σ α} (h : Keeps (fun t => B t.2) m) :
    Keeps (fun t => B t.2) (watch event m) := by
  intro t ht
  have hm := h t ht
  rw [run_watch]
  cases hrun : m.run t with
  | ok a t' =>
    rw [hrun] at hm
    exact hB t'.2 _ hm
  | error e t' =>
    rw [hrun] at hm
    exact hB t'.2 _ hm

end Traced

/-! ## What a traced program does -/

/-- The traced program does what the plain one does. -/
def Traces (m' : Traced τ ε σ α) (m : EStateM ε σ α) : Prop :=
  ∀ t, forget (m'.run t) = m.run t.1

namespace Traces

open Traced

variable {m' : Traced τ ε σ α} {m : EStateM ε σ α}

theorem pure (a : α) : Traces (pure a : Traced τ ε σ α) (pure a) := fun _ => rfl

theorem throw (e : ε) : Traces (throw e : Traced τ ε σ α) (throw e) := fun _ => rfl

theorem lift (m : EStateM ε σ α) : Traces (lift m : Traced τ ε σ α) m := by
  intro t
  rw [run_lift]
  cases m.run t.1 <;> rfl

theorem watch (event : Except ε α → τ) (h : Traces m' m) : Traces (watch event m') m := by
  intro t
  rw [run_watch, ← h t]
  cases m'.run t <;> rfl

theorem bind {f' : α → Traced τ ε σ β} {f : α → EStateM ε σ β} (h : Traces m' m)
    (hf : ∀ a, Traces (f' a) (f a)) : Traces (m' >>= f') (m >>= f) := by
  intro t
  rw [EStateM.run_bind, EStateM.run_bind, ← h t]
  cases m'.run t with
  | ok a t' => exact hf a t'
  | error e t' => rfl

theorem map (f : α → β) (h : Traces m' m) : Traces (f <$> m') (f <$> m) := by
  intro t
  rw [run_map, run_map, ← h t]
  cases m'.run t <;> rfl

/-- Looking at the state changes nothing. -/
theorem read {f' : σ → Traced τ ε σ α} (h : ∀ s, Traces (f' s) m) :
    Traces (Traced.lift get >>= f') m := fun t => h t.1 t

/-- An event in front changes nothing. -/
theorem emit {f' : Unit → Traced τ ε σ α} (event : τ) (h : Traces (f' ()) m) :
    Traces (emit event >>= f') m := by
  intro t
  rw [EStateM.run_bind, run_emit]
  exact h _

theorem tryCatch {f' : ε → Traced τ ε σ α} {f : ε → EStateM ε σ α} (h : Traces m' m)
    (hf : ∀ e, Traces (f' e) (f e)) : Traces (tryCatch m' f') (tryCatch m f) := by
  intro t
  rw [run_tryCatch, run_tryCatch, ← h t]
  cases m'.run t with
  | ok a t' => rfl
  | error e t' => exact hf e t'

theorem ite {c : Prop} [Decidable c] {n' : Traced τ ε σ α} {n : EStateM ε σ α}
    (h : Traces m' m) (hn : Traces n' n) : Traces (if c then m' else n') (if c then m else n) := by
  split
  · exact h
  · exact hn

theorem onlyIf {c : Prop} [Decidable c] {m' : Traced τ ε σ Unit} {m : EStateM ε σ Unit}
    (h : Traces m' m) : Traces (onlyIf c m') (onlyIf c m) :=
  Traces.ite h (Traces.pure ())

end Traces

end FreeIam.Exec
