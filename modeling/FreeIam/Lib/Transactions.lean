import Mathlib.Logic.Function.Basic
import Mathlib.Logic.Relation

/-!
# Stores with transactions

A store deals with the messages of a session in the order they came in. The updates that
belong to a transaction are held until it is ended, and are carried out at once or not at
all. A session can be lost at any time, and with it what has come in and is not dealt with,
and the transactions that are open. At any time, other clients have updates carried out too,
and open transactions of their own.

`Atomic` is what holds of a transaction throughout: as long as its end is not asked for,
nothing is carried out, and then all that it has accepted or nothing.
-/

namespace FreeIam.Transactions

variable {ι υ : Type}

/-- The messages of a session. -/
inductive Message (ι υ : Type)
  | start
  | update (u : υ) (transaction : Option ι)
  | finish (commit : Bool) (transaction : ι)
  | other

/-- The updates of a message. -/
def Message.updates : Message ι υ → List υ
  | .update u _ => [u]
  | _ => []

/-- A message that leaves all transactions but `t` alone, and ends none. -/
def Message.Within (t : ι) : Message ι υ → Prop
  | .update _ transaction => transaction = some t
  | .finish _ _ => False
  | _ => True

/-- Updates that were carried out at once, of the client itself or of the others. -/
inductive Effect (υ : Type)
  | own (us : List υ)
  | others (us : List υ)

def Effect.own? : Effect υ → Option (List υ)
  | own us => some us
  | others _ => none

/-- A store: the messages of the client that it has not dealt with, the transactions that it has
opened so far, the updates it holds for those of the client that are open, all that it has
accepted for each, and what it has carried out for anyone. -/
structure Store (ι υ : Type) where
  queue : List (Message ι υ)
  opened : List ι
  held : ι → Option (List υ)
  accepted : ι → List υ
  applied : List (Effect υ)

namespace Store

/-- What it has carried out for the client. -/
def own (S : Store ι υ) : List (List υ) := S.applied.filterMap Effect.own?

/-- A message comes in. -/
def receive (S : Store ι υ) (m : Message ι υ) : Store ι υ := { S with queue := S.queue ++ [m] }

/-- What a store does of its own accord. It may refuse any message. -/
inductive Step [DecidableEq ι] (S : Store ι υ) : Store ι υ → Prop
  | refuse {m rest} : S.queue = m :: rest → Step S { S with queue := rest }
  | apply {u rest} : S.queue = .update u none :: rest →
      Step S { S with queue := rest, applied := S.applied ++ [.own [u]] }
  | hold {u t rest us} : S.queue = .update u (some t) :: rest → S.held t = some us →
      Step S { S with
        queue := rest
        held := Function.update S.held t (some (us ++ [u]))
        accepted := Function.update S.accepted t (S.accepted t ++ [u]) }
  | start {t rest} : S.queue = .start :: rest → t ∉ S.opened →
      Step S { S with
        queue := rest
        opened := t :: S.opened
        held := Function.update S.held t (some []) }
  | commit {t rest us} : S.queue = .finish true t :: rest → S.held t = some us →
      Step S { S with
        queue := rest
        held := Function.update S.held t none
        applied := S.applied ++ [.own us] }
  | abort {t rest} : S.queue = .finish false t :: rest →
      Step S { S with queue := rest, held := Function.update S.held t none }
  | lose : Step S { S with queue := [], held := fun _ => none }
  | others {us} : Step S { S with applied := S.applied ++ [.others us] }
  | reserve {t} : t ∉ S.opened → Step S { S with opened := t :: S.opened }

/-- Some steps of a store. -/
abbrev Reach [DecidableEq ι] : Store ι υ → Store ι υ → Prop := Relation.ReflTransGen Step

/-- A store that refuses nothing it can do, and names its transactions by `fresh`. -/
def serve [DecidableEq ι] (fresh : ι) (S : Store ι υ) : Message ι υ → Store ι υ
  | .start =>
    if fresh ∈ S.opened then S
    else { S with opened := fresh :: S.opened, held := Function.update S.held fresh (some []) }
  | .update u none => { S with applied := S.applied ++ [.own [u]] }
  | .update u (some t) =>
    match S.held t with
    | none => S
    | some us =>
      { S with
        held := Function.update S.held t (some (us ++ [u]))
        accepted := Function.update S.accepted t (S.accepted t ++ [u]) }
  | .finish true t =>
    match S.held t with
    | none => S
    | some us => { S with held := Function.update S.held t none, applied := S.applied ++ [.own us] }
  | .finish false t => { S with held := Function.update S.held t none }
  | .other => S

/-- It deals with a message in one step. -/
theorem serve_step [DecidableEq ι] (fresh : ι) (S : Store ι υ) (m : Message ι υ) (hqueue : S.queue = []) :
    (S.receive m).Step (S.serve fresh m) := by
  obtain ⟨queue, opened, held, accepted, applied⟩ := S
  obtain rfl : queue = [] := hqueue
  unfold serve
  split
  · split
    · exact .refuse rfl
    · exact .start rfl ‹_›
  · exact .apply rfl
  · split
    · exact .refuse rfl
    · exact .hold rfl ‹_›
  · split
    · exact .refuse rfl
    · exact .commit rfl ‹_›
  · exact .abort rfl
  · exact .refuse rfl

theorem serve_queue [DecidableEq ι] (fresh : ι) (S : Store ι υ) (m : Message ι υ) :
    (S.serve fresh m).queue = S.queue := by
  unfold serve
  split
  · split <;> rfl
  · rfl
  · split <;> rfl
  · split <;> rfl
  · rfl
  · rfl

/-! ## A transaction -/

/-- Transaction `t` since `before` was carried out for the client, with the updates `asked` for:
nothing is carried out, or what it has accepted is, if `ending` says that a commit was asked for. -/
structure Atomic (t : ι) (before : List (List υ)) (asked : List υ) (ending : Option Bool)
    (S : Store ι υ) : Prop where
  opened : t ∈ S.opened
  held : ∀ us, S.held t = some us → us = S.accepted t
  queue : ∀ m ∈ S.queue, m.Within t ∨ ∃ commit, ending = some commit ∧ m = .finish commit t
  asked : (S.accepted t ++ S.queue.flatMap Message.updates).Sublist asked
  applied : S.own = before ∨
    ending = some true ∧ S.held t = none ∧ S.own = before ++ [S.accepted t]

namespace Atomic

variable {t : ι} {before : List (List υ)} {asked : List υ} {ending : Option Bool} {S S' : Store ι υ}

/-- A transaction is atomic when it is entered. -/
theorem entered (hopened : t ∈ S.opened) (hheld : ∀ us, S.held t = some us → us = [])
    (hqueue : S.queue = []) (haccepted : S.accepted t = []) : Atomic t S.own [] none S where
  opened := hopened
  held us hus := by rw [haccepted, hheld us hus]
  queue m hm := by
    rw [hqueue] at hm
    cases hm
  asked := by
    rw [hqueue, haccepted]
    exact .slnil
  applied := .inl rfl

/-- Before its end is asked for, nothing is carried out. -/
theorem isolated (h : Atomic t before asked none S) : S.own = before := by
  rcases h.applied with heq | ⟨hnone, -⟩
  · exact heq
  · cases hnone

theorem finishing (h : Atomic t before asked none S) (commit : Bool) :
    Atomic t before asked (some commit) S where
  opened := h.opened
  held := h.held
  queue m hm := by
    rcases h.queue m hm with hwithin | ⟨c, hnone, -⟩
    · exact .inl hwithin
    · cases hnone
  asked := h.asked
  applied := .inl h.isolated

/-- While updates are held, nothing was carried out. -/
theorem applied_of_held (h : Atomic t before asked ending S) {us : List υ} (hus : S.held t = some us) :
    S.own = before := by
  rcases h.applied with heq | ⟨-, hnone, -⟩
  · exact heq
  · rw [hus] at hnone
    cases hnone

/-- A message of the transaction, or one that ends it. -/
theorem receive (h : Atomic t before asked ending S) {m : Message ι υ}
    (hm : m.Within t ∨ ∃ commit, ending = some commit ∧ m = .finish commit t) :
    Atomic t before (asked ++ m.updates) ending (S.receive m) where
  opened := h.opened
  held := h.held
  queue m' hm' := by
    rcases List.mem_append.mp hm' with hold | hnew
    · exact h.queue m' hold
    · obtain rfl := List.mem_singleton.mp hnew
      exact hm
  asked := by
    show (S.accepted t ++ (S.queue ++ [m]).flatMap Message.updates).Sublist (asked ++ m.updates)
    rw [List.flatMap_append, List.flatMap_singleton, ← List.append_assoc]
    exact h.asked.append (List.Sublist.refl _)
  applied := h.applied

/-- The transaction after the first message was dealt with. -/
theorem next (h : Atomic t before asked ending S) {m : Message ι υ} {rest : List (Message ι υ)}
    (hqueue : S.queue = m :: rest) :
    (m.Within t ∨ ∃ commit, ending = some commit ∧ m = .finish commit t) ∧
    (∀ m' ∈ rest, m'.Within t ∨ ∃ commit, ending = some commit ∧ m' = .finish commit t) ∧
    (S.accepted t ++ m.updates ++ rest.flatMap Message.updates).Sublist asked := by
  have hall := h.queue
  have hasked := h.asked
  rw [hqueue] at hall hasked
  rw [List.flatMap_cons, ← List.append_assoc] at hasked
  exact ⟨hall m (List.mem_cons_self ..), fun m' hm' => hall m' (List.mem_cons_of_mem _ hm'), hasked⟩

theorem step [DecidableEq ι] (h : Atomic t before asked ending S) (hstep : S.Step S') :
    Atomic t before asked ending S' := by
  cases hstep with
  | refuse hqueue =>
    obtain ⟨-, hrest, hasked⟩ := h.next hqueue
    refine ⟨h.opened, h.held, hrest, ?_, h.applied⟩
    rw [List.append_assoc] at hasked
    exact ((List.Sublist.refl _).append (List.sublist_append_right _ _)).trans hasked
  | apply hqueue =>
    -- the update belongs to no transaction
    rcases (h.next hqueue).1 with hwithin | ⟨commit, -, hfinish⟩
    · cases hwithin
    · cases hfinish
  | hold hqueue hus =>
    obtain ⟨hwithin | ⟨commit, -, hfinish⟩, hrest, hasked⟩ := h.next hqueue
    · obtain rfl := Option.some.inj hwithin
      refine ⟨h.opened, fun us' hus' => ?_, hrest, ?_, .inl (h.applied_of_held hus)⟩
      · simp only [Function.update_self] at hus' ⊢
        rw [← Option.some.inj hus', h.held _ hus]
      · simp only [Function.update_self]
        exact hasked
    · cases hfinish
  | start hqueue hfresh =>
    obtain ⟨-, hrest, hasked⟩ := h.next hqueue
    have hne : ∀ {t'}, t' ∉ S.opened → t ≠ t' := fun hfresh heq => hfresh (heq ▸ h.opened)
    refine ⟨List.mem_cons_of_mem _ h.opened, fun us hus => ?_, hrest, ?_, ?_⟩
    · simp only [Function.update_of_ne (hne hfresh)] at hus
      exact h.held us hus
    · simpa [Message.updates] using hasked
    · simp only [Function.update_of_ne (hne hfresh)]
      exact h.applied
  | commit hqueue hus =>
    obtain ⟨hwithin | ⟨commit, hending, hfinish⟩, hrest, hasked⟩ := h.next hqueue
    · cases hwithin
    · cases hfinish
      refine ⟨h.opened, fun us' hus' => ?_, hrest, ?_, .inr ⟨hending, Function.update_self .., ?_⟩⟩
      · simp only [Function.update_self] at hus'
        cases hus'
      · simpa [Message.updates] using hasked
      · rw [← h.applied_of_held hus, ← h.held _ hus]
        exact List.filterMap_append ..
  | abort hqueue =>
    obtain ⟨hwithin | ⟨commit, hending, hfinish⟩, hrest, hasked⟩ := h.next hqueue
    · cases hwithin
    · cases hfinish
      refine ⟨h.opened, fun us' hus' => ?_, hrest, ?_, ?_⟩
      · simp only [Function.update_self] at hus'
        cases hus'
      · simpa [Message.updates] using hasked
      · exact h.applied.imp id fun hcommitted => ⟨hcommitted.1, Function.update_self .., hcommitted.2.2⟩
  | lose =>
    refine ⟨h.opened, fun us hus => ?_, fun m hm => ?_, ?_, ?_⟩
    · cases hus
    · cases hm
    · rw [List.flatMap_nil, List.append_nil]
      exact (List.sublist_append_left _ _).trans h.asked
    · exact h.applied.imp id fun hcommitted => ⟨hcommitted.1, rfl, hcommitted.2.2⟩
  | @others us =>
    have hown : ({ S with applied := S.applied ++ [.others us] } : Store ι υ).own = S.own :=
      (List.filterMap_append ..).trans (List.append_nil _)
    refine ⟨h.opened, h.held, h.queue, h.asked, ?_⟩
    rw [hown]
    exact h.applied
  | reserve hfresh => exact ⟨List.mem_cons_of_mem _ h.opened, h.held, h.queue, h.asked, h.applied⟩

theorem reach [DecidableEq ι] (h : Atomic t before asked ending S) (hreach : S.Reach S') :
    Atomic t before asked ending S' := by
  induction hreach with
  | refl => exact h
  | tail _ hstep ih => exact ih.step hstep

/-- What has been accepted was asked for, in this order. -/
theorem accepted_sublist (h : Atomic t before asked ending S) : (S.accepted t).Sublist asked :=
  (List.sublist_append_left _ _).trans h.asked

end Atomic

end Store

end FreeIam.Transactions
