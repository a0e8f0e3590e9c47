import FreeIam.Lib.Retry

/-!
# Two runs side by side

`Coupled R m m'` says that from states that `R` relates, the two programs come to
the same value or error and to states that `R` relates again. What `R` leaves out
has then no influence on what the programs return. The rules are those of the
operations of the monad.
-/

namespace FreeIam.Exec

variable {ε σ ω τ α β : Type}

/-- The programs come to the same, and to related states. -/
def Coupled (R : σ → σ → Prop) (m m' : EStateM ε σ α) : Prop :=
  ∀ s s', R s s' → outcomeOf (m.run s) = outcomeOf (m'.run s') ∧ R (final (m.run s)) (final (m'.run s'))

namespace Coupled

variable {R : σ → σ → Prop} {m m' : EStateM ε σ α}

theorem pure (a : α) : Coupled R (pure a : EStateM ε σ α) (pure a) := fun _ _ h => ⟨rfl, h⟩

theorem throw (e : ε) : Coupled R (throw e : EStateM ε σ α) (throw e) := fun _ _ h => ⟨rfl, h⟩

theorem modify {f f' : σ → σ} (h : ∀ s s', R s s' → R (f s) (f' s')) :
    Coupled R (modify f : EStateM ε σ PUnit) (modify f') := fun s s' hs => ⟨rfl, h s s' hs⟩

/-- What is read may differ. -/
theorem read {f f' : σ → EStateM ε σ α} (h : ∀ s s', R s s' → Coupled R (f s) (f' s')) :
    Coupled R (get >>= f) (get >>= f') := fun s s' hs => h s s' hs s s' hs

/-- The two runs of a program are two values with their states, or two errors. -/
theorem cases (h : Coupled R m m') {s s' : σ} (hs : R s s') :
    (∃ a t t', m.run s = .ok a t ∧ m'.run s' = .ok a t' ∧ R t t') ∨
      ∃ e t t', m.run s = .error e t ∧ m'.run s' = .error e t' ∧ R t t' := by
  obtain ⟨houtcome, hfinal⟩ := h s s' hs
  cases hrun : m.run s with
  | ok a t =>
    cases hrun' : m'.run s' with
    | ok a' t' =>
      rw [hrun, hrun'] at houtcome hfinal
      cases houtcome
      exact .inl ⟨a, t, t', rfl, rfl, hfinal⟩
    | error e t' =>
      rw [hrun, hrun'] at houtcome
      cases houtcome
  | error e t =>
    cases hrun' : m'.run s' with
    | ok a t' =>
      rw [hrun, hrun'] at houtcome
      cases houtcome
    | error e' t' =>
      rw [hrun, hrun'] at houtcome hfinal
      cases houtcome
      exact .inr ⟨e, t, t', rfl, rfl, hfinal⟩

theorem bind {f f' : α → EStateM ε σ β} (h : Coupled R m m') (hf : ∀ a, Coupled R (f a) (f' a)) :
    Coupled R (m >>= f) (m' >>= f') := by
  intro s s' hs
  rw [EStateM.run_bind, EStateM.run_bind]
  rcases h.cases hs with ⟨a, t, t', hrun, hrun', ht⟩ | ⟨e, t, t', hrun, hrun', ht⟩
  · rw [hrun, hrun']
    exact hf a t t' ht
  · rw [hrun, hrun']
    exact ⟨rfl, ht⟩

theorem map (f : α → β) (h : Coupled R m m') : Coupled R (f <$> m) (f <$> m') := by
  intro s s' hs
  rw [run_map, run_map]
  rcases h.cases hs with ⟨a, t, t', hrun, hrun', ht⟩ | ⟨e, t, t', hrun, hrun', ht⟩
  · rw [hrun, hrun']
    exact ⟨rfl, ht⟩
  · rw [hrun, hrun']
    exact ⟨rfl, ht⟩

theorem tryCatch {f f' : ε → EStateM ε σ α} (h : Coupled R m m') (hf : ∀ e, Coupled R (f e) (f' e)) :
    Coupled R (tryCatch m f) (tryCatch m' f') := by
  intro s s' hs
  rw [run_tryCatch, run_tryCatch]
  rcases h.cases hs with ⟨a, t, t', hrun, hrun', ht⟩ | ⟨e, t, t', hrun, hrun', ht⟩
  · rw [hrun, hrun']
    exact ⟨rfl, ht⟩
  · rw [hrun, hrun']
    exact hf e t t' ht

theorem ite {c : Prop} [Decidable c] {n n' : EStateM ε σ α} (h : Coupled R m m')
    (hn : Coupled R n n') : Coupled R (if c then m else n) (if c then m' else n') := by
  split
  · exact h
  · exact hn

theorem onlyIf {c : Prop} [Decidable c] {m m' : EStateM ε σ Unit} (h : Coupled R m m') :
    Coupled R (onlyIf c m) (onlyIf c m') :=
  Coupled.ite h (Coupled.pure ())

/-- The same loop over the same list. -/
theorem forM {γ : Type} {f f' : γ → EStateM ε σ PUnit} (h : ∀ x, Coupled R (f x) (f' x))
    (xs : List γ) : Coupled R (xs.forM f) (xs.forM f') := by
  induction xs with
  | nil => exact Coupled.pure _
  | cons x xs ih => exact Coupled.bind (h x) fun _ => ih

/-- Programs on a component that the relation follows. -/
theorem zoom {R' : ω → ω → Prop} {get : σ → ω} {set : ω → σ → σ} {m m' : EStateM ε ω α}
    (h : Coupled R' m m') (hget : ∀ s s', R s s' → R' (get s) (get s'))
    (hset : ∀ s s' w w', R s s' → R' w w' → R (set w s) (set w' s')) :
    Coupled R (zoom get set m) (zoom get set m') := by
  intro s s' hs
  rw [run_zoom, run_zoom]
  rcases h.cases (hget s s' hs) with ⟨a, t, t', hrun, hrun', ht⟩ | ⟨e, t, t', hrun, hrun', ht⟩
  · rw [hrun, hrun']
    exact ⟨rfl, hset s s' t t' hs ht⟩
  · rw [hrun, hrun']
    exact ⟨rfl, hset s s' t t' hs ht⟩

end Coupled

/-! ## Traced programs -/

/-- Related states, and the same events. -/
def SameEvents (R : σ → σ → Prop) (t t' : σ × List τ) : Prop := R t.1 t'.1 ∧ t.2 = t'.2

namespace Coupled

variable {R : σ → σ → Prop}

theorem lift {m m' : EStateM ε σ α} (h : Coupled R m m') :
    Coupled (SameEvents R) (Traced.lift m : Traced τ ε σ α) (Traced.lift m') :=
  Coupled.zoom h (fun _ _ ht => ht.1) fun _ _ _ _ ht hw => ⟨hw, ht.2⟩

theorem emit (event : τ) :
    Coupled (SameEvents R) (Traced.emit event : Traced τ ε σ Unit) (Traced.emit event) :=
  Coupled.modify fun _ _ ht => ⟨ht.1, by rw [ht.2]⟩

theorem watch (event : Except ε α → τ) {m m' : Traced τ ε σ α} (h : Coupled (SameEvents R) m m') :
    Coupled (SameEvents R) (Traced.watch event m) (Traced.watch event m') := by
  intro s s' hs
  rw [Traced.run_watch, Traced.run_watch]
  rcases h.cases hs with ⟨a, t, t', hrun, hrun', ht⟩ | ⟨e, t, t', hrun, hrun', ht⟩
  · rw [hrun, hrun']
    exact ⟨rfl, ht.1, by simp [ht.2]⟩
  · rw [hrun, hrun']
    exact ⟨rfl, ht.1, by simp [ht.2]⟩

theorem readLifted {f f' : σ → Traced τ ε σ α}
    (h : ∀ s s', R s s' → Coupled (SameEvents R) (f s) (f' s')) :
    Coupled (SameEvents R) (Traced.lift get >>= f) (Traced.lift get >>= f') :=
  fun t t' ht => h t.1 t'.1 ht.1 t t' ht

end Coupled

/-! ## Loops -/

theorem coupled_loop {R : σ → σ → Prop} {transient : ε → Bool} {exhausted : ε}
    {recover recover' : EStateM ε σ Unit} {func func' : EStateM ε σ α}
    (hrecover : Coupled R recover recover') (hfunc : Coupled R func func') (maxAttempts attempts : Nat) :
    Coupled R (Retry.loop transient exhausted recover func maxAttempts attempts)
      (Retry.loop transient exhausted recover' func' maxAttempts attempts) := by
  induction attempts with
  | zero => exact Coupled.throw exhausted
  | succ attempts ih =>
    refine Coupled.tryCatch (Coupled.bind (Coupled.onlyIf hrecover) fun _ => hfunc) fun e => ?_
    exact Coupled.ite (Coupled.ite (Coupled.throw e) ih) (Coupled.throw e)

end FreeIam.Exec
