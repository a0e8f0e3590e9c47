import FreeIam.Lib.Trace

/-!
# Retrying

A loop that calls a function until it returns, at most as often as it has
attempts. After a transient error it goes on, and every attempt but the first
recovers before it calls; what the recovery raises counts as what the call
raises. `Tries` describes what such a loop does, step by step, and what follows
of it is by induction on that.
-/

namespace FreeIam.Retry

open FreeIam.Exec

variable {ε σ α : Type}

/-! ## The loop -/

/-- An attempt; one that is not the first recovers before it calls. -/
def attempt (again : Prop) [Decidable again] (recover : EStateM ε σ Unit) (func : EStateM ε σ α) :
    EStateM ε σ α := do
  onlyIf again recover
  func

/-- The loop with `attempts` left of `maxAttempts`. The error `exhausted` is that of
a loop without attempts. -/
def loop (transient : ε → Bool) (exhausted : ε) (recover : EStateM ε σ Unit)
    (func : EStateM ε σ α) (maxAttempts : Nat) : Nat → EStateM ε σ α
  | 0 => throw exhausted
  | attempts + 1 =>
    tryCatch (attempt (attempts + 1 ≠ maxAttempts) recover func) fun e =>
      if transient e then
        if attempts = 0 then throw e
        else loop transient exhausted recover func maxAttempts attempts
      else throw e

/-- The loop does what it does whatever its steps leave of a trace. -/
theorem loop_traces {τ : Type} {transient : ε → Bool} {exhausted : ε}
    {recover' : Traced τ ε σ Unit} {recover : EStateM ε σ Unit} {func' : Traced τ ε σ α}
    {func : EStateM ε σ α} (hrecover : Traces recover' recover) (hfunc : Traces func' func)
    (maxAttempts attempts : Nat) :
    Traces (loop transient exhausted recover' func' maxAttempts attempts)
      (loop transient exhausted recover func maxAttempts attempts) := by
  induction attempts with
  | zero => exact Traces.throw exhausted
  | succ attempts ih =>
    refine Traces.tryCatch (Traces.bind (Traces.onlyIf hrecover) fun _ => hfunc) fun e => ?_
    exact Traces.ite (Traces.ite (Traces.throw e) ih) (Traces.throw e)

/-- The loop keeps what its steps keep. -/
theorem loop_keeps {I : σ → Prop} {transient : ε → Bool} {exhausted : ε}
    {recover : EStateM ε σ Unit} {func : EStateM ε σ α} (hrecover : Keeps I recover)
    (hfunc : Keeps I func) (maxAttempts attempts : Nat) :
    Keeps I (loop transient exhausted recover func maxAttempts attempts) := by
  induction attempts with
  | zero => exact Keeps.throw exhausted
  | succ attempts ih =>
    refine Keeps.tryCatch (Keeps.bind (Keeps.onlyIf hrecover) fun _ => hfunc) fun e => ?_
    exact Keeps.ite (Keeps.ite (Keeps.throw e) ih) (Keeps.throw e)

/-- With an attempt left, the error of a loop without attempts is never raised. -/
theorem loop_exhausted {transient : ε → Bool} {recover : EStateM ε σ Unit}
    {func : EStateM ε σ α} (maxAttempts : Nat) {attempts : Nat} (hattempts : 0 < attempts)
    (e e' : ε) :
    loop transient e recover func maxAttempts attempts =
      loop transient e' recover func maxAttempts attempts := by
  induction attempts with
  | zero => omega
  | succ attempts ih =>
    rw [loop, loop]
    congr 1
    funext error
    by_cases hzero : attempts = 0
    · rw [if_pos hzero, if_pos hzero]
    · rw [if_neg hzero, if_neg hzero, ih (by omega)]

/-! ## Steps -/

/-- The two steps of an attempt, with how they have ended. -/
inductive Step (ε α : Type)
  | recover (outcome : Except ε Unit)
  | call (outcome : Except ε α)
  deriving DecidableEq

namespace Step

/-- The error of a step that has failed. -/
def error : Step ε α → Option ε
  | .recover (.error e) => some e
  | .call (.error e) => some e
  | _ => none

def isCall : Step ε α → Bool
  | .call _ => true
  | .recover _ => false

end Step

/-- The number of calls among the steps. -/
def calls (steps : List (Step ε α)) : Nat := steps.countP Step.isCall

/-- The number of recoveries among the steps. -/
def recoveries (steps : List (Step ε α)) : Nat := steps.countP fun step => !step.isCall

/-- The errors of the attempts that have failed. -/
def failures (steps : List (Step ε α)) : List ε := steps.filterMap Step.error

/-- A recovery that is watched. -/
def watchedRecover (recover : EStateM ε σ Unit) : Traced (Step ε α) ε σ Unit :=
  Traced.watch .recover (Traced.lift recover)

/-- A call that is watched. -/
def watchedCall (func : EStateM ε σ α) : Traced (Step ε α) ε σ α :=
  Traced.watch .call (Traced.lift func)

/-- The loop with its steps as events. -/
def watched (transient : ε → Bool) (exhausted : ε) (recover : EStateM ε σ Unit)
    (func : EStateM ε σ α) (maxAttempts attempts : Nat) : Traced (Step ε α) ε σ α :=
  loop transient exhausted (watchedRecover recover) (watchedCall func) maxAttempts attempts

theorem watched_traces (transient : ε → Bool) (exhausted : ε) (recover : EStateM ε σ Unit)
    (func : EStateM ε σ α) (maxAttempts attempts : Nat) :
    Traces (watched transient exhausted recover func maxAttempts attempts)
      (loop transient exhausted recover func maxAttempts attempts) :=
  loop_traces (Traces.watch _ (Traces.lift recover)) (Traces.watch _ (Traces.lift func))
    maxAttempts attempts

/-! ## Attempts -/

/-- The steps of one attempt and what it comes to; only the first one of a loop
does not recover. -/
inductive Attempt : Bool → List (Step ε α) → Except ε α → Prop
  | first (result : Except ε α) : Attempt true [.call result] result
  | called (result : Except ε α) : Attempt false [.recover (.ok ()), .call result] result
  | unrecovered (e : ε) : Attempt false [.recover (.error e)] (.error e)

/-- The steps of a loop with a number of attempts, and what it comes to. -/
inductive Tries (transient : ε → Bool) : Bool → Nat → List (Step ε α) → Except ε α → Prop
  /-- It ends with a value, an error that is not transient, or the last attempt. -/
  | last {first : Bool} {attempts : Nat} {steps : List (Step ε α)} {result : Except ε α} :
      Attempt first steps result →
      (∀ e, result = .error e → transient e = true → attempts = 0) →
      Tries transient first (attempts + 1) steps result
  | again {first : Bool} {attempts : Nat} {steps steps' : List (Step ε α)} {e : ε}
      {result : Except ε α} : Attempt first steps (.error e) → transient e = true →
      Tries transient false attempts steps' result →
      Tries transient first (attempts + 1) (steps ++ steps') result

/-- A run of a program with steps as events that appends the steps of a relation. -/
def Appends (R : List (Step ε α) → Except ε α → Prop) (t : σ × List (Step ε α))
    (run : EStateM.Result ε (σ × List (Step ε α)) α) : Prop :=
  ∃ steps, R steps (outcomeOf run) ∧ (final run).2 = t.2 ++ steps

theorem watchedCall_run (func : EStateM ε σ α) (t : σ × List (Step ε α)) :
    Appends (fun steps result => steps = [.call result]) t ((watchedCall func).run t) := by
  rw [watchedCall, Traced.run_watch, Traced.run_lift]
  cases func.run t.1 with
  | ok a s => exact ⟨_, rfl, rfl⟩
  | error e s => exact ⟨_, rfl, rfl⟩

/-- An attempt of the loop is an `Attempt`. -/
theorem attempt_run (recover : EStateM ε σ Unit) (func : EStateM ε σ α) {again : Prop}
    [Decidable again] {first : Bool} (hfirst : again ↔ first = false) (t : σ × List (Step ε α)) :
    Appends (Attempt first) t
      ((attempt again (watchedRecover recover) (watchedCall func)).run t) := by
  rw [attempt]
  cases first with
  | true =>
    rw [onlyIf_false (by simpa using hfirst)]
    obtain ⟨steps, hsteps, hfinal⟩ := watchedCall_run func t
    exact ⟨steps, hsteps ▸ .first _, hfinal⟩
  | false =>
    rw [onlyIf_true (hfirst.mpr rfl), EStateM.run_bind, watchedRecover, Traced.run_watch,
      Traced.run_lift]
    cases recover.run t.1 with
    | error e s => exact ⟨_, .unrecovered e, rfl⟩
    | ok u s =>
      obtain ⟨steps, hsteps, hfinal⟩ := watchedCall_run func (s, t.2 ++ [.recover (.ok ())])
      refine ⟨.recover (.ok ()) :: steps, hsteps ▸ .called _, ?_⟩
      rw [hfinal, List.append_assoc]
      rfl

/-- What a loop with attempts left does. -/
theorem watched_run (transient : ε → Bool) (exhausted : ε) (recover : EStateM ε σ Unit)
    (func : EStateM ε σ α) {maxAttempts : Nat} (attempts : Nat) (first : Bool)
    (hfirst : attempts + 1 ≠ maxAttempts ↔ first = false) (hle : attempts + 1 ≤ maxAttempts)
    (t : σ × List (Step ε α)) :
    Appends (Tries transient first (attempts + 1)) t
      ((watched transient exhausted recover func maxAttempts (attempts + 1)).run t) := by
  induction attempts generalizing first t with
  | zero =>
    obtain ⟨steps, hattempt, hfinal⟩ := attempt_run recover func hfirst t
    have hlast : Tries transient first (0 + 1) steps _ := .last hattempt fun _ _ _ => rfl
    rw [watched, loop, run_tryCatch]
    cases hrun : (attempt (0 + 1 ≠ maxAttempts) (watchedRecover recover) (watchedCall func)).run t with
    | ok a t' =>
      rw [hrun] at hlast hfinal
      exact ⟨steps, hlast, hfinal⟩
    | error e t' =>
      rw [hrun] at hlast hfinal
      simp only [ite_true, ite_self]
      exact ⟨steps, hlast, hfinal⟩
  | succ attempts ih =>
    obtain ⟨steps, hattempt, hfinal⟩ := attempt_run recover func hfirst t
    rw [watched, loop, run_tryCatch]
    cases hrun : (attempt (attempts + 1 + 1 ≠ maxAttempts) (watchedRecover recover)
        (watchedCall func)).run t with
    | ok a t' =>
      rw [hrun] at hattempt hfinal
      exact ⟨steps, .last hattempt (fun e he _ => by cases he), hfinal⟩
    | error e t' =>
      rw [hrun] at hattempt hfinal
      by_cases htransient : transient e = true
      · -- the loop goes on with one attempt less, none of which is the first
        obtain ⟨steps', htries, hfinal'⟩ := ih false (by simp; omega) (by omega) t'
        simp only [htransient, ite_true, if_neg (Nat.succ_ne_zero attempts)]
        refine ⟨steps ++ steps', .again hattempt htransient htries, ?_⟩
        rw [← List.append_assoc, ← hfinal]
        exact hfinal'
      · simp only [if_neg htransient]
        refine ⟨steps, .last hattempt (fun e' he htrue => ?_), hfinal⟩
        cases he
        exact absurd htrue htransient

/-! ## Bounds -/

@[simp] theorem calls_append (steps steps' : List (Step ε α)) :
    calls (steps ++ steps') = calls steps + calls steps' := List.countP_append

@[simp] theorem recoveries_append (steps steps' : List (Step ε α)) :
    recoveries (steps ++ steps') = recoveries steps + recoveries steps' := List.countP_append

@[simp] theorem failures_append (steps steps' : List (Step ε α)) :
    failures (steps ++ steps') = failures steps ++ failures steps' := List.filterMap_append

section Consequences

variable {transient : ε → Bool} {first : Bool} {attempts : Nat} {steps : List (Step ε α)}
  {result : Except ε α}

theorem Attempt.bounds (h : Attempt first steps result) :
    calls steps ≤ 1 ∧ recoveries steps + first.toNat ≤ 1 := by
  cases h <;> simp [calls, recoveries, Step.isCall]

/-- There are no more calls than attempts, and no more recoveries than attempts that
are not the first. -/
theorem Tries.bounds (h : Tries transient first attempts steps result) :
    calls steps ≤ attempts ∧ recoveries steps + first.toNat ≤ attempts := by
  induction h with
  | last hattempt hlast =>
    have hbounds := hattempt.bounds
    omega
  | again hattempt htransient htries ih =>
    have hbounds := hattempt.bounds
    simp only [calls_append, recoveries_append, Bool.toNat_false] at ih ⊢
    omega

/-! ## Calls and recoveries in turn -/

/-- No call is made while the loop is not `ready`: it is not after a call, and is
again after a recovery that succeeded. -/
def Guarded : Bool → List (Step ε α) → Prop
  | _, [] => True
  | ready, .call _ :: steps => ready = true ∧ Guarded false steps
  | _, .recover (.ok ()) :: steps => Guarded true steps
  | ready, .recover (.error _) :: steps => Guarded ready steps

theorem Tries.guarded (h : Tries transient first attempts steps result) : Guarded first steps := by
  induction h with
  | last hattempt _ =>
    cases hattempt with
    | first result => exact ⟨rfl, trivial⟩
    | called result => exact ⟨rfl, trivial⟩
    | unrecovered e => exact trivial
  | again hattempt _ _ ih =>
    cases hattempt with
    | first result => exact ⟨rfl, ih⟩
    | called result => exact ⟨rfl, ih⟩
    | unrecovered e => exact ih

/-- After a call the loop is not ready. -/
theorem Guarded.after_call {ready : Bool} {before after : List (Step ε α)} {x : Except ε α}
    (h : Guarded ready (before ++ .call x :: after)) : Guarded false after := by
  induction before generalizing ready with
  | nil => exact h.2
  | cons step before ih =>
    match step, h with
    | .call _, h => exact ih h.2
    | .recover (.ok ()), h => exact ih h
    | .recover (.error _), h => exact ih h

/-- Before a call a loop that is not ready recovers. -/
theorem Guarded.recovers {before after : List (Step ε α)} {x : Except ε α}
    (h : Guarded false (before ++ .call x :: after)) : .recover (.ok ()) ∈ before := by
  induction before with
  | nil => exact absurd h.1 Bool.false_ne_true
  | cons step before ih =>
    match step, h with
    | .call _, h => exact absurd h.1 Bool.false_ne_true
    | .recover (.ok ()), _ => exact List.mem_cons_self
    | .recover (.error _), h => exact List.mem_cons_of_mem _ (ih h)

/-- Between two calls there is a recovery that succeeded. -/
theorem Tries.between (h : Tries transient first attempts steps result)
    {before middle after : List (Step ε α)} {x y : Except ε α}
    (hsteps : steps = before ++ .call x :: (middle ++ .call y :: after)) :
    .recover (.ok ()) ∈ middle := by
  have hguarded := h.guarded
  rw [hsteps] at hguarded
  exact hguarded.after_call.recovers

/-! ## The last step -/

/-- A step after which the loop does not go on. -/
def Step.Stops (transient : ε → Bool) (step : Step ε α) : Prop :=
  (∃ a, step = .call (.ok a)) ∨ ∃ e, step.error = some e ∧ transient e = false

/-- The step gives what the loop comes to. -/
def Step.Gives : Step ε α → Except ε α → Prop
  | step, .ok a => step = .call (.ok a)
  | step, .error e => step.error = some e

/-- A loop comes to what its last step gives, and stops at no step before. -/
def Concludes (transient : ε → Bool) (steps : List (Step ε α)) (result : Except ε α) : Prop :=
  ∃ before step, steps = before ++ [step] ∧ step.Gives result ∧ ∀ s ∈ before, ¬s.Stops transient

theorem not_stops_recovered : ¬(Step.recover (.ok ()) : Step ε α).Stops transient := by
  rintro (⟨a, ha⟩ | ⟨e, he, -⟩)
  · cases ha
  · cases he

variable (transient) in
theorem Attempt.concludes (h : Attempt first steps result) : Concludes transient steps result := by
  cases h with
  | first result =>
    refine ⟨[], .call result, rfl, ?_, by simp⟩
    cases result <;> rfl
  | called result =>
    refine ⟨[.recover (.ok ())], .call result, rfl, ?_, ?_⟩
    · cases result <;> rfl
    · intro s hs
      rw [List.mem_singleton.mp hs]
      exact not_stops_recovered
  | unrecovered e => exact ⟨[], .recover (.error e), rfl, rfl, by simp⟩

theorem Tries.concludes (h : Tries transient first attempts steps result) :
    Concludes transient steps result := by
  induction h with
  | last hattempt _ => exact hattempt.concludes transient
  | again hattempt htransient _ ih =>
    obtain ⟨before, step, hsteps, hgives, hbefore⟩ := hattempt.concludes transient
    obtain ⟨before', step', hsteps', hgives', hbefore'⟩ := ih
    refine ⟨before ++ [step] ++ before', step', by rw [hsteps, hsteps']; simp, hgives', ?_⟩
    intro s hs
    rcases List.mem_append.mp hs with hs | hs
    · rcases List.mem_append.mp hs with hs | hs
      · exact hbefore s hs
      · -- the attempt failed with an error that is transient
        rw [List.mem_singleton.mp hs]
        have herror : step.error = some _ := hgives
        rintro (⟨a, rfl⟩ | ⟨e, he, hfalse⟩)
        · cases herror
        · rw [herror] at he
          cases he
          rw [htransient] at hfalse
          cases hfalse
    · exact hbefore' s hs

/-- A step at which the loop stops is the last one. -/
theorem Concludes.stop (h : Concludes transient steps result) {before after : List (Step ε α)}
    {step : Step ε α} (hsteps : steps = before ++ step :: after) (hstop : step.Stops transient) :
    after = [] ∧ step.Gives result := by
  obtain ⟨front, last, hfront, hgives, hnone⟩ := h
  rw [hfront] at hsteps
  rcases List.eq_nil_or_concat after with rfl | ⟨rest, z, rfl⟩
  · obtain ⟨-, hlast⟩ := List.append_inj' hsteps rfl
    exact ⟨rfl, (List.singleton_inj.mp hlast) ▸ hgives⟩
  · have hsplit : front ++ [last] = (before ++ step :: rest) ++ [z] := by rw [hsteps]; simp
    obtain ⟨hmem, -⟩ := List.append_inj' hsplit rfl
    exact absurd hstop (hnone step (by rw [hmem]; simp))

/-! ## Failed attempts -/

theorem Attempt.failures {e : ε} (h : Attempt first steps (.error e : Except ε α)) :
    failures steps = [e] := by
  cases h <;> rfl

/-- A loop in which no call returned and every error was transient has failed in
every attempt, and raises the error of the last one. -/
theorem Tries.failed (h : Tries transient first attempts steps result)
    (hcall : ∀ a, .call (.ok a) ∉ steps)
    (herror : ∀ step ∈ steps, ∀ e, step.error = some e → transient e = true) :
    (failures steps).length = attempts ∧
      ∃ e, (failures steps)[attempts - 1]? = some e ∧ result = .error e := by
  induction h with
  | @last first attempts steps result hattempt hlast =>
    obtain ⟨before, step, hsteps, hgives, -⟩ := hattempt.concludes transient
    have hmem : step ∈ steps := by rw [hsteps]; simp
    cases result with
    | ok a =>
      have hstep : step = .call (.ok a) := hgives
      exact absurd (hstep ▸ hmem) (hcall a)
    | error e =>
      have hzero := hlast e rfl (herror step hmem e hgives)
      rw [hattempt.failures, hzero]
      exact ⟨rfl, e, rfl, rfl⟩
  | @again first attempts steps steps' e result hattempt _ htries ih =>
    obtain ⟨hlength, e', he', hresult⟩ := ih (fun a ha => hcall a (List.mem_append_right _ ha))
      fun step hstep => herror step (List.mem_append_right _ hstep)
    rw [failures_append, hattempt.failures]
    refine ⟨by simp [hlength], e', ?_, hresult⟩
    -- there was at least one more attempt
    have hpos : 0 < attempts := by
      rcases Nat.eq_zero_or_pos attempts with rfl | hpos
      · rw [List.length_eq_zero_iff.mp hlength] at he'
        cases he'
      · exact hpos
    obtain ⟨n, rfl⟩ : ∃ n, attempts = n + 1 := ⟨attempts - 1, by omega⟩
    exact he'

/-! ## The contract -/

/-- What a loop promises that has a number of attempts. -/
structure Bounded (transient : ε → Bool) (attempts : Nat) (steps : List (Step ε α))
    (result : Except ε α) : Prop where
  calls : calls steps ≤ attempts
  recoveries : recoveries steps ≤ attempts - 1
  /-- A call that is not the first comes after a recovery that succeeded. -/
  between : ∀ before middle after x y,
    steps = before ++ .call x :: (middle ++ .call y :: after) → .recover (.ok ()) ∈ middle
  /-- The first call that returns is the last step. -/
  returns : ∀ before after a, steps = before ++ .call (.ok a) :: after →
    after = [] ∧ result = .ok a
  /-- The first error that is not transient is that of the last step. -/
  propagates : ∀ before after step e, steps = before ++ step :: after →
    step.error = some e → transient e = false → after = [] ∧ result = .error e
  /-- Otherwise every attempt has failed, and the error is that of the last. -/
  failed : (∀ a, .call (.ok a) ∉ steps) →
    (∀ step ∈ steps, ∀ e, step.error = some e → transient e = true) →
    (failures steps).length = attempts ∧
      ∃ e, (failures steps)[attempts - 1]? = some e ∧ result = .error e
  /-- Nothing is returned or raised that the last step did not return or raise. -/
  gives : ∃ before step, steps = before ++ [step] ∧ step.Gives result

theorem Tries.bounded (h : Tries transient true attempts steps result) :
    Bounded transient attempts steps result where
  calls := h.bounds.1
  recoveries := by
    have hbounds : _ + 1 ≤ attempts := h.bounds.2
    omega
  between := fun _ _ _ _ _ hsteps => h.between hsteps
  returns := fun before after a hsteps => by
    obtain ⟨hafter, hgives⟩ := h.concludes.stop hsteps (.inl ⟨a, rfl⟩)
    refine ⟨hafter, ?_⟩
    cases result with
    | ok b =>
      cases (hgives : Step.call (.ok a) = .call (.ok b))
      rfl
    | error e => cases (hgives : (none : Option ε) = some e)
  propagates := fun before after step e hsteps herror htransient => by
    obtain ⟨hafter, hgives⟩ := h.concludes.stop hsteps (.inr ⟨e, herror, htransient⟩)
    refine ⟨hafter, ?_⟩
    cases result with
    | ok b =>
      cases (hgives : step = .call (.ok b))
      cases herror
    | error e' =>
      have herror' : step.error = some e' := hgives
      rw [herror] at herror'
      cases herror'
      rfl
  failed := h.failed
  gives := by
    obtain ⟨before, step, hsteps, hgives, -⟩ := h.concludes
    exact ⟨before, step, hsteps, hgives⟩

end Consequences

end FreeIam.Retry
