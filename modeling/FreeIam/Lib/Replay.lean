import Mathlib.Logic.Function.Basic

/-!
# Logs that are replayed

Values are assigned to keys, and a log records the assignments so that they can
be made again in the same order. This module says what a replay does to the
values: each recorded key gets the value recorded last, every other key keeps its
own.
-/

namespace FreeIam.Replay

variable {κ β : Type} [DecidableEq κ]

/-- The values after the assignments of a log. -/
def replay (values : κ → β) (log : List (κ × β)) : κ → β :=
  log.foldl (fun values item => Function.update values item.1 item.2) values

/-- The value that a log has recorded last for a key. -/
def lastRecorded : List (κ × β) → κ → Option β
  | [], _ => none
  | (k, v) :: log, x => (lastRecorded log x).or (if k = x then some v else none)

/-- What the log has recorded last are the values. -/
def Current (log : List (κ × β)) (values : κ → β) : Prop :=
  ∀ x v, lastRecorded log x = some v → values x = v

theorem lastRecorded_eq_none {log : List (κ × β)} {k : κ} (h : ∀ item ∈ log, item.1 ≠ k) :
    lastRecorded log k = none := by
  induction log with
  | nil => rfl
  | cons item log ih =>
    obtain ⟨k', v'⟩ := item
    rw [lastRecorded, ih fun item hitem => h item (List.mem_cons_of_mem _ hitem),
      if_neg (h (k', v') List.mem_cons_self)]
    rfl

theorem replay_append (values : κ → β) (log log' : List (κ × β)) :
    replay values (log ++ log') = replay (replay values log) log' := List.foldl_append

@[simp] theorem replay_nil (values : κ → β) : replay values [] = values := rfl

@[simp] theorem replay_cons (values : κ → β) (k : κ) (v : β) (log : List (κ × β)) :
    replay values ((k, v) :: log) = replay (Function.update values k v) log := rfl

/-- A key has the value recorded last, or its own if there is none. -/
theorem replay_apply (values : κ → β) (log : List (κ × β)) (x : κ) :
    replay values log x = (lastRecorded log x).getD (values x) := by
  induction log generalizing values with
  | nil => rfl
  | cons item log ih =>
    obtain ⟨k, v⟩ := item
    rw [replay_cons, ih, lastRecorded]
    cases lastRecorded log x with
    | some u => rfl
    | none =>
      rw [Option.none_or, Option.getD_none]
      by_cases hk : k = x
      · rw [if_pos hk, Option.getD_some, hk, Function.update_self]
      · rw [if_neg hk, Option.getD_none, Function.update_of_ne (Ne.symm hk)]

/-- Of a log that has each key once, every item is the last one of its key. -/
theorem lastRecorded_of_mem {log : List (κ × β)} (hdistinct : (log.map Prod.fst).Nodup) {k : κ} {v : β}
    (h : (k, v) ∈ log) : lastRecorded log k = some v := by
  induction log with
  | nil => cases h
  | cons item log ih =>
    obtain ⟨k', v'⟩ := item
    obtain ⟨hnew, hdistinct⟩ := List.nodup_cons.mp hdistinct
    rw [lastRecorded]
    rcases List.mem_cons.mp h with heq | hmem
    · cases heq
      have hnone : lastRecorded log k = none := by
        refine lastRecorded_eq_none fun item hitem heq => hnew ?_
        have hmem : item.1 ∈ log.map Prod.fst := List.mem_map_of_mem hitem
        rw [heq] at hmem
        exact hmem
      rw [hnone, if_pos rfl]
      rfl
    · rw [ih hdistinct hmem]
      rfl

/-- A replay changes nothing exactly if the log is current. -/
theorem replay_eq_self_iff (values : κ → β) (log : List (κ × β)) :
    replay values log = values ↔ Current log values := by
  constructor
  · intro heq x v hv
    have hx := replay_apply values log x
    rw [heq, hv] at hx
    exact hx
  · intro hcurrent
    funext x
    rw [replay_apply]
    cases hv : lastRecorded log x with
    | none => rfl
    | some v => exact (hcurrent x v hv).symm

theorem lastRecorded_append (log : List (κ × β)) (k : κ) (v : β) (x : κ) :
    lastRecorded (log ++ [(k, v)]) x = if k = x then some v else lastRecorded log x := by
  induction log with
  | nil => rfl
  | cons item log ih =>
    obtain ⟨k', v'⟩ := item
    rw [List.cons_append, lastRecorded, ih, lastRecorded]
    by_cases hk : k = x
    · rw [if_pos hk, if_pos hk, Option.some_or]
    · rw [if_neg hk, if_neg hk]

/-- An assignment that is recorded as it is made keeps the log current. -/
theorem Current.record {log : List (κ × β)} {values : κ → β} (h : Current log values) (k : κ) (v : β) :
    Current (log ++ [(k, v)]) (Function.update values k v) := by
  intro x u hu
  rw [lastRecorded_append] at hu
  by_cases hk : k = x
  · rw [if_pos hk] at hu
    rw [← hk, Function.update_self]
    exact Option.some.inj hu
  · rw [if_neg hk] at hu
    rw [Function.update_of_ne (Ne.symm hk)]
    exact h x u hu

end FreeIam.Replay
