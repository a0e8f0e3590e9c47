import FreeIam.Ldap.Connection.Execute
import FreeIam.Lib.Retry

/-!
# The retry loop

`_retry` is a retrying loop whose recovery is `reconnect()` and whose transient
errors are those of a lost connection. A reconnect that fails uses up an attempt
without a call. What the loop does is read off its steps: the calls of the
function and of `reconnect()`, each with what it returned or raised.
-/

namespace FreeIam.Ldap.Method

open FreeIam.Py FreeIam.Errors FreeIam.Exec FreeIam.Retry

variable {ω α : Type} (env : Env ω)

/-- The loop of `_retry` is the general one. -/
theorem retryLoop_eq (maxAttempts : Nat) (func : Method ω α) (attempts : Nat) :
    retryLoop env maxAttempts func attempts =
      loop PyExc.lost (.runtimeError "") (reconnect env) func maxAttempts attempts := by
  induction attempts with
  | zero => rfl
  | succ attempts ih =>
    rw [retryLoop, loop, ih]
    rfl

/-- `_retry` with the calls of `func` and `reconnect` as events. -/
def watchedRetry (func : Method ω α) : Traced (Step PyExc α) PyExc (State ω) α := do
  let maxAttempts := (← Traced.lift get).self.maxConnectionAttempts
  watched PyExc.lost (.runtimeError "") (reconnect env) func maxAttempts maxAttempts

theorem watchedRetry_traces (func : Method ω α) : Traces (watchedRetry env func) (retry env func) := by
  unfold watchedRetry retry
  refine Traces.bind (Traces.lift get) fun s => ?_
  rw [retryLoop_eq]
  exact watched_traces _ _ _ _ _ _

/-- The steps of a run of `_retry`. -/
def steps (func : Method ω α) (s : State ω) : List (Step PyExc α) :=
  (final ((watchedRetry env func).run (s, []))).2

/-- With an attempt at least, `_retry` keeps the contract of a retrying loop, and the
`RuntimeError` after the loop is never raised: any other error in its place makes no
difference. -/
theorem retry_bounded (func : Method ω α) (s : State ω) (hm : 1 ≤ s.self.maxConnectionAttempts) :
    forget ((watchedRetry env func).run (s, [])) = (retry env func).run s ∧
    Bounded PyExc.lost s.self.maxConnectionAttempts (steps env func s)
      (outcomeOf ((retry env func).run s)) ∧
    ∀ impossible, (retry env func).run s =
      (loop PyExc.lost impossible (reconnect env) func s.self.maxConnectionAttempts
        s.self.maxConnectionAttempts).run s := by
  refine ⟨watchedRetry_traces env func (s, []), ?_, ?_⟩
  · obtain ⟨attempts, hattempts⟩ : ∃ n, s.self.maxConnectionAttempts = n + 1 :=
      ⟨s.self.maxConnectionAttempts - 1, by omega⟩
    have hrun : (watchedRetry env func).run (s, []) =
        (watched PyExc.lost (.runtimeError "") (reconnect env) func s.self.maxConnectionAttempts
          s.self.maxConnectionAttempts).run (s, []) := rfl
    rw [← watchedRetry_traces env func (s, []), outcomeOf_forget, steps, hrun, hattempts]
    obtain ⟨steps, htries, hfinal⟩ := watched_run PyExc.lost (.runtimeError "") (reconnect env) func
      attempts true (by simp) (Nat.le_refl _) (s, [])
    rw [hfinal]
    exact htries.bounded
  · intro impossible
    show (retryLoop env _ func _).run s = _
    rw [retryLoop_eq, loop_exhausted _ hm]

/-- The error of a call while the server is down. -/
def serverDown : PyExc := .lib { cls := .serverDown }

/-- A function that fails as often as the world says. -/
def flaky : Method Nat Unit :=
  onWorld fun failures =>
    match failures with
    | 0 => .ok () 0
    | n + 1 => .error serverDown n

/-- Two failures within three attempts: the third call is the first that returns. -/
theorem retry_bounded_flaky :
    Bounded PyExc.lost 3
      [.call (.error serverDown), .recover (.ok ()), .call (.error serverDown), .recover (.ok ()),
        .call (.ok ())] (.ok ()) :=
  (retry_bounded (Env.idle Nat) flaky
    { self := Connection.init false [] false (-1) true 3 (some 0), world := 2, calls := [] }
    (by decide)).2.1

end FreeIam.Ldap.Method
