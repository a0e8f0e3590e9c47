import FreeIam.Lib.Exec

/-!
# Programs that agree

Two programs with loops of bounded length agree if they come to the same from related
states as soon as their loops may be long enough, however different their ways there.
Unlike two coupled runs, they need not go step by step. The rules are those of the
operations of the monad. Programs of calls agree where their calls do, also if they
decide by the outcome of a call what to call next.
-/

namespace FreeIam.Exec

variable {ε σ σ' α β : Type}

/-- A run that came to `x` and left `s`. -/
def ended (s : σ) : Except ε α → EStateM.Result ε σ α
  | .ok a => .ok a s
  | .error e => .error e s

/-- With enough fuel both come to the same value or error, and to related states. -/
def Agree (R : σ → σ' → Prop) (m : Nat → EStateM ε σ α) (m' : Nat → EStateM ε σ' α) : Prop :=
  ∀ s s', R s s' → ∃ n x t t', R t t' ∧
    ∀ fuel, n ≤ fuel → (m fuel).run s = ended t x ∧ (m' fuel).run s' = ended t' x

namespace Agree

variable {R : σ → σ' → Prop} {m : Nat → EStateM ε σ α} {m' : Nat → EStateM ε σ' α}

theorem pure (a : α) :
    Agree R (fun _ => (pure a : EStateM ε σ α)) (fun _ => (pure a : EStateM ε σ' α)) :=
  fun s s' hs => ⟨0, .ok a, s, s', hs, fun _ _ => ⟨rfl, rfl⟩⟩

theorem throw (e : ε) :
    Agree R (fun _ => (throw e : EStateM ε σ α)) (fun _ => (throw e : EStateM ε σ' α)) :=
  fun s s' hs => ⟨0, .error e, s, s', hs, fun _ _ => ⟨rfl, rfl⟩⟩

theorem ofExcept (x : Except ε α) :
    Agree R (fun _ => (ofExcept x : EStateM ε σ α)) (fun _ => (ofExcept x : EStateM ε σ' α)) := by
  cases x with
  | ok a => exact pure a
  | error e => exact throw e

theorem bind {f : α → Nat → EStateM ε σ β} {f' : α → Nat → EStateM ε σ' β} (h : Agree R m m')
    (hf : ∀ a, Agree R (f a) (f' a)) :
    Agree R (fun fuel => m fuel >>= fun a => f a fuel) (fun fuel => m' fuel >>= fun a => f' a fuel) := by
  intro s s' hs
  obtain ⟨n, x, t, t', ht, hrun⟩ := h s s' hs
  cases x with
  | ok a =>
    obtain ⟨n', x, u, u', hu, hrun'⟩ := hf a t t' ht
    refine ⟨max n n', x, u, u', hu, fun fuel hfuel => ?_⟩
    obtain ⟨hm, hm'⟩ := hrun fuel (Nat.le_trans (Nat.le_max_left n n') hfuel)
    rw [EStateM.run_bind, EStateM.run_bind, hm, hm']
    exact hrun' fuel (Nat.le_trans (Nat.le_max_right n n') hfuel)
  | error e =>
    refine ⟨n, .error e, t, t', ht, fun fuel hfuel => ?_⟩
    obtain ⟨hm, hm'⟩ := hrun fuel hfuel
    rw [EStateM.run_bind, EStateM.run_bind, hm, hm']
    exact ⟨rfl, rfl⟩

/-- A step that may raise, and what goes on with its value. -/
theorem ofExcept_bind {x : Except ε α} {f : α → Nat → EStateM ε σ β} {f' : α → Nat → EStateM ε σ' β}
    (hf : ∀ a, x = .ok a → Agree R (f a) (f' a)) :
    Agree R (fun fuel => (MonadExcept.ofExcept x : EStateM ε σ α) >>= fun a => f a fuel)
      (fun fuel => (MonadExcept.ofExcept x : EStateM ε σ' α) >>= fun a => f' a fuel) := by
  cases x with
  | ok a => exact hf a rfl
  | error e => exact throw e

theorem map (f : α → β) (h : Agree R m m') :
    Agree R (fun fuel => f <$> m fuel) (fun fuel => f <$> m' fuel) := by
  intro s s' hs
  obtain ⟨n, x, t, t', ht, hrun⟩ := h s s' hs
  refine ⟨n, x.map f, t, t', ht, fun fuel hfuel => ?_⟩
  obtain ⟨hm, hm'⟩ := hrun fuel hfuel
  rw [run_map, run_map, hm, hm']
  cases x <;> exact ⟨rfl, rfl⟩

theorem tryCatch {f : ε → Nat → EStateM ε σ α} {f' : ε → Nat → EStateM ε σ' α} (h : Agree R m m')
    (hf : ∀ e, Agree R (f e) (f' e)) :
    Agree R (fun fuel => tryCatch (m fuel) fun e => f e fuel)
      (fun fuel => tryCatch (m' fuel) fun e => f' e fuel) := by
  intro s s' hs
  obtain ⟨n, x, t, t', ht, hrun⟩ := h s s' hs
  cases x with
  | ok a =>
    refine ⟨n, .ok a, t, t', ht, fun fuel hfuel => ?_⟩
    obtain ⟨hm, hm'⟩ := hrun fuel hfuel
    rw [run_tryCatch, run_tryCatch, hm, hm']
    exact ⟨rfl, rfl⟩
  | error e =>
    obtain ⟨n', x, u, u', hu, hrun'⟩ := hf e t t' ht
    refine ⟨max n n', x, u, u', hu, fun fuel hfuel => ?_⟩
    obtain ⟨hm, hm'⟩ := hrun fuel (Nat.le_trans (Nat.le_max_left n n') hfuel)
    rw [run_tryCatch, run_tryCatch, hm, hm']
    exact hrun' fuel (Nat.le_trans (Nat.le_max_right n n') hfuel)

theorem ite {c : Prop} [Decidable c] {f : Nat → EStateM ε σ α} {f' : Nat → EStateM ε σ' α}
    (ht : Agree R m m') (hf : Agree R f f') :
    Agree R (fun fuel => if c then m fuel else f fuel) (fun fuel => if c then m' fuel else f' fuel) := by
  by_cases hc : c
  · simp only [if_pos hc]
    exact ht
  · simp only [if_neg hc]
    exact hf

theorem onlyIf {c : Prop} [Decidable c] {m : Nat → EStateM ε σ Unit} {m' : Nat → EStateM ε σ' Unit}
    (h : Agree R m m') : Agree R (fun fuel => onlyIf c (m fuel)) (fun fuel => onlyIf c (m' fuel)) :=
  ite h (pure ())

/-- What is read may differ. -/
theorem get {f : σ → Nat → EStateM ε σ α} {f' : σ' → Nat → EStateM ε σ' α}
    (h : ∀ s s', R s s' → Agree R (f s) (f' s')) :
    Agree R (fun fuel => get >>= fun s => f s fuel) (fun fuel => get >>= fun s => f' s fuel) :=
  fun s s' hs => h s s' hs s s' hs

end Agree

/-! ## Clients -/

/-- A program of calls `τ` with results `ν`, which may go on after an error. -/
inductive Client (τ ν ε α : Type) : Type
  | done (a : α)
  | fail (e : ε)
  | call (order : τ) (next : Except ε ν → Client τ ν ε α)

variable {τ ν : Type}

/-- The outcome of a program as a value. -/
def attempt (m : EStateM ε σ α) : EStateM ε σ (Except ε α) :=
  tryCatch (.ok <$> m) fun e => pure (.error e)

/-- The client with methods for its calls. -/
def Client.run (method : τ → Nat → EStateM ε σ ν) : Client τ ν ε α → Nat → EStateM ε σ α
  | .done a, _ => pure a
  | .fail e, _ => throw e
  | .call order next, fuel => attempt (method order fuel) >>= fun x => (next x).run method fuel

/-- Every call of the program is of this kind, whatever the calls before come to. -/
def Client.All (p : τ → Prop) : Client τ ν ε α → Prop
  | .done _ => True
  | .fail _ => True
  | .call order next => p order ∧ ∀ x, (next x).All p

theorem Client.all_of_forall {p : τ → Prop} (h : ∀ order, p order) (client : Client τ ν ε α) : client.All p := by
  induction client with
  | done a => trivial
  | fail e => trivial
  | call order next ih => exact ⟨h order, ih⟩

/-- A client keeps what its calls keep. -/
theorem Keeps.client {I : σ → Prop} {method : τ → Nat → EStateM ε σ ν} {fuel : Nat} {p : τ → Prop}
    (h : ∀ order, p order → Keeps I (method order fuel)) {client : Client τ ν ε α} (hc : client.All p) :
    Keeps I (client.run method fuel) := by
  induction client with
  | done a => exact Keeps.pure a
  | fail e => exact Keeps.throw e
  | call order next ih =>
    obtain ⟨horder, hnext⟩ := hc
    refine Keeps.bind (Keeps.tryCatch (Keeps.map (h order horder)) fun e => Keeps.pure _) fun x => ?_
    exact ih x (hnext x)

/-- A client cannot tell methods that agree from each other. -/
theorem Agree.client {R : σ → σ' → Prop} {method : τ → Nat → EStateM ε σ ν}
    {method' : τ → Nat → EStateM ε σ' ν} (h : ∀ order, Agree R (method order) (method' order))
    (client : Client τ ν ε α) : Agree R (client.run method) (client.run method') := by
  induction client with
  | done a => exact Agree.pure a
  | fail e => exact Agree.throw e
  | call order next ih =>
    exact Agree.bind (((h order).map Except.ok).tryCatch fun e => Agree.pure _) ih

end FreeIam.Exec
