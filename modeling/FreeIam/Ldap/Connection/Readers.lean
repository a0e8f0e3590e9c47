import FreeIam.Ldap.Connection.Rules

/-!
# Readers of concurrent operations

The tasks of an event loop may run several operations of one asynchronous
connection. Each that waits has a future and registers a reader that completes it,
but the loop has one reader for a descriptor: the next operation to register
replaces it, and whoever removes a reader removes the one that is there. Here the
loop has a slot for the descriptor of one LDAP object, which is neither closed nor
reconnected, and the steps of the tasks come in any order.
-/

namespace FreeIam.Ldap

open FreeIam.Py FreeIam.Errors FreeIam.Exec

/-! ## Tasks -/

/-- What `loop.add_reader` has been called with besides the descriptor and the
connection: the message ID, the future, by the task that awaits it and its number,
and `_all`. -/
structure Reader where
  task : Nat
  fut : Nat
  msgid : MsgId
  all : Bool
  deriving DecidableEq

/-- Where a task is in its operation. `received` says that `_execute` has its response. -/
inductive Task
  | idle
  /-- It awaits its future. -/
  | waiting (msgid : MsgId) (all received : Bool) (fut : Nat)
  /-- Its future is done, or the wait was ended, and it will be resumed. -/
  | settled (msgid : MsgId) (all received : Bool) (outcome : Except PyExc Response)
  /-- Its generator is suspended at a `yield`. -/
  | yielded (msgid : MsgId) (response : Response)
  | finished

/-- The event loop: the state of the connection, the reader of its descriptor, the
number of futures that have been created, and the tasks. -/
structure Loop (ω : Type) where
  state : State ω
  reader : Option Reader
  futures : Nat
  tasks : Nat → Task

/-- `asyncio.CancelledError`, which is no `Exception`. -/
def cancelledError : PyExc := .raised "CancelledError"

/-- What may happen next. -/
inductive Event (ω : Type)
  /-- A task calls `_execute`, with `all`, or takes the first response of `_execute_iter`. -/
  | start (i : Nat) (op : Operation) (all : Bool)
  /-- The descriptor is readable. -/
  | ready
  /-- A task goes on after its wait. -/
  | resume (i : Nat)
  /-- A task takes the next response of its generator. -/
  | next (i : Nat)
  /-- A task closes its generator. -/
  | close (i : Nat) (polls : Nat)
  /-- The wait of a task times out. -/
  | expire (i : Nat)
  /-- A task is cancelled. -/
  | cancel (i : Nat)
  /-- Responses arrive, or anything else changes outside. -/
  | outside (world : ω)

namespace Loop

variable {ω : Type} (env : Env ω) (o : Obj)

/-- A loop with no operation started. -/
def init (state : State ω) : Loop ω :=
  { state := state, reader := none, futures := 0, tasks := fun _ => .idle }

def setTask (l : Loop ω) (i : Nat) (task : Task) : Loop ω :=
  { l with tasks := Function.update l.tasks i task }

/-- `Connection._add_reader`: it replaces the reader that is there. -/
def addReader (l : Loop ω) (reader : Reader) : Loop ω := { l with reader := some reader }

/-- `Connection._remove_reader` -/
def removeReader (l : Loop ω) : Loop ω := { l with reader := none }

/-- The beginning of a round of `_poll`: a new future, its reader, and the wait. -/
def poll (l : Loop ω) (i : Nat) (msgid : MsgId) (all received : Bool) : Loop ω :=
  let l := l.addReader { task := i, fut := l.futures, msgid := msgid, all := all }
  let l := l.setTask i (.waiting msgid all received l.futures)
  { l with futures := l.futures + 1 }

/-- An operation from its request on. -/
def start (l : Loop ω) (i : Nat) (op : Operation) (all : Bool) : Loop ω :=
  match l.tasks i with
  | .idle =>
    match (Method.request env o op).run l.state with
    | .ok (some msgid) s => { l with state := s }.poll i msgid all false
    | .ok none s => { l with state := s }.setTask i .finished
    | .error _ s => { l with state := s }.setTask i .finished
  | _ => l

/-- `fut.set_result` or `fut.set_exception`, and `_remove_reader` after it: a future
that is done, or was cancelled, raises before. -/
def complete (l : Loop ω) (reader : Reader) (outcome : Except PyExc Response) : Loop ω :=
  match l.tasks reader.task with
  | .waiting msgid all received fut =>
    if fut = reader.fut then
      (l.setTask reader.task (.settled msgid all received outcome)).removeReader
    else l
  | _ => l

/-- `Connection._ready`, called with what the reader was registered with. -/
def ready (l : Loop ω) : Loop ω :=
  match l.reader with
  | none => l
  | some reader =>
    match (Method.ready env o reader.msgid reader.all).run l.state with
    | .ok none s => { l with state := s }
    | .ok (some response) s => { l with state := s }.complete reader (.ok response)
    | .error e s => { l with state := s }.complete reader (.error e)

/-- A task after `await self._wait_for(fut)`. With a response, `_execute` ends unless
`_poll` goes on, and `_execute_iter` yields it. An `Exception` removes the reader. -/
def resume (l : Loop ω) (i : Nat) : Loop ω :=
  match l.tasks i with
  | .settled msgid all received (.ok response) =>
    if all then
      if Method.goesOn response ∧ received = false then l.poll i msgid all true
      else l.setTask i .finished
    else l.setTask i (.yielded msgid response)
  | .settled _ _ _ (.error e) =>
    if e = cancelledError then l.setTask i .finished else l.removeReader.setTask i .finished
  | _ => l

/-- A generator after its `yield`. -/
def next (l : Loop ω) (i : Nat) : Loop ω :=
  match l.tasks i with
  | .yielded msgid response =>
    if Method.goesOn response then l.poll i msgid false false else l.setTask i .finished
  | _ => l

/-- A generator closed at its `yield`: the synchronous connection cancels the
operation, which has nothing to do with the loop. -/
def close (l : Loop ω) (i : Nat) (polls : Nat) : Loop ω :=
  match l.tasks i with
  | .yielded _ response =>
    match response.msgid with
    | none => l.setTask i .finished
    | some msgid =>
      { l with state := final ((Method.onSyncConnection (Method.cancel env polls msgid)).run l.state) }.setTask
        i .finished
  | _ => l

/-- `asyncio.wait_for` gives up, if the connection has a timeout. -/
def expire (l : Loop ω) (i : Nat) : Loop ω :=
  match l.tasks i with
  | .waiting msgid all received _ =>
    if 0 < l.state.self.timeout then l.setTask i (.settled msgid all received (.error .timeoutError)) else l
  | _ => l

/-- `task.cancel()`: also a task that is about to be resumed gets the exception. -/
def cancel (l : Loop ω) (i : Nat) : Loop ω :=
  match l.tasks i with
  | .waiting msgid all received _ => l.setTask i (.settled msgid all received (.error cancelledError))
  | .settled msgid all received _ => l.setTask i (.settled msgid all received (.error cancelledError))
  | _ => l

/-- The loop after an event. -/
def step (l : Loop ω) : Event ω → Loop ω
  | .start i op all => l.start env o i op all
  | .ready => l.ready env o
  | .resume i => l.resume i
  | .next i => l.next i
  | .close i polls => l.close env i polls
  | .expire i => l.expire i
  | .cancel i => l.cancel i
  | .outside world => { l with state := { l.state with world := world } }

/-! ## What is required, and when it holds -/

/-- Every operation that awaits its future has a reader registered for its message ID
and that future. -/
def Served (l : Loop ω) : Prop :=
  ∀ i msgid all received fut, l.tasks i = .waiting msgid all received fut →
    l.reader = some { task := i, fut := fut, msgid := msgid, all := all }

/-- After an event every waiting operation has its reader, and the event has not removed
or replaced the reader of an operation that goes on waiting. -/
def KeepsReaders (l : Loop ω) (event : Event ω) : Prop :=
  (l.step env o event).Served ∧
    ∀ i msgid all received fut, l.tasks i = .waiting msgid all received fut →
      (l.step env o event).tasks i = .waiting msgid all received fut →
        (l.step env o event).reader = l.reader

/-- No task awaits a future. -/
def NoneWaiting (l : Loop ω) : Prop :=
  ∀ i msgid all received fut, l.tasks i ≠ .waiting msgid all received fut

/-- A task that will register a reader or remove one when it is resumed: `_execute`
polls once more, or the wait has raised. -/
def TouchesOnResume : Task → Prop
  | .settled _ all received (.ok response) =>
    all = true ∧ Method.goesOn response = true ∧ received = false
  | .settled _ _ _ (.error e) => e ≠ cancelledError
  | _ => False

/-- A generator that will register a reader when the next response is taken. -/
def TouchesOnNext : Task → Prop
  | .yielded _ response => Method.goesOn response = true
  | _ => False

/-- An event by which a task registers a reader or removes one, other than the callback. -/
def Touches (l : Loop ω) : Event ω → Prop
  | .start i op _ => l.tasks i = .idle ∧
      ∃ msgid s, (Method.request env o op).run l.state = .ok (some msgid) s
  | .resume i => TouchesOnResume (l.tasks i)
  | .next i => TouchesOnNext (l.tasks i)
  | _ => False

/-- No operation is waiting when a task registers or removes a reader. -/
def Alone (l : Loop ω) (event : Event ω) : Prop := l.Touches env o event → l.NoneWaiting

/-! ## Steps -/

section Steps

variable {env} {o} {l : Loop ω} {i j : Nat}

@[simp] theorem setTask_self (task : Task) : (l.setTask i task).tasks i = task :=
  Function.update_self ..

@[simp] theorem setTask_of_ne (task : Task) (h : j ≠ i) : (l.setTask i task).tasks j = l.tasks j :=
  Function.update_of_ne h ..

@[simp] theorem setTask_reader (task : Task) : (l.setTask i task).reader = l.reader := rfl

@[simp] theorem removeReader_tasks : l.removeReader.tasks = l.tasks := rfl

@[simp] theorem removeReader_reader : l.removeReader.reader = none := rfl

theorem poll_self (msgid : MsgId) (all received : Bool) :
    (l.poll i msgid all received).tasks i = .waiting msgid all received l.futures :=
  Function.update_self ..

theorem poll_of_ne (msgid : MsgId) (all received : Bool) (h : j ≠ i) :
    (l.poll i msgid all received).tasks j = l.tasks j :=
  Function.update_of_ne h ..

theorem poll_reader (msgid : MsgId) (all received : Bool) :
    (l.poll i msgid all received).reader =
      some { task := i, fut := l.futures, msgid := msgid, all := all } := rfl

/-- A task that does not wait after all needs no reader. -/
theorem Served.setTask (h : l.Served) {task : Task}
    (htask : ∀ msgid all received fut, task ≠ .waiting msgid all received fut) :
    (l.setTask i task).Served := by
  intro j msgid all received fut hj
  by_cases hji : j = i
  · subst hji
    rw [setTask_self] at hj
    exact (htask _ _ _ _ hj).elim
  · rw [setTask_of_ne _ hji] at hj
    exact h j msgid all received fut hj

theorem Served.finish (h : l.Served) : (l.setTask i .finished).Served :=
  h.setTask fun _ _ _ _ hwaiting => by cases hwaiting

theorem Served.settle (h : l.Served) (msgid : MsgId) (all received : Bool)
    (outcome : Except PyExc Response) : (l.setTask i (.settled msgid all received outcome)).Served :=
  h.setTask fun _ _ _ _ hwaiting => by cases hwaiting

/-- With nobody waiting, a task may register its reader. -/
theorem NoneWaiting.poll (h : l.NoneWaiting) (msgid : MsgId) (all received : Bool) :
    (l.poll i msgid all received).Served := by
  intro j msgid' all' received' fut' hj
  by_cases hji : j = i
  · subst hji
    rw [poll_self] at hj
    cases hj
    rfl
  · rw [poll_of_ne _ _ _ hji] at hj
    exact (h _ _ _ _ _ hj).elim

/-- If somebody else waits, they lose their reader to a task that registers its own. -/
theorem not_served_poll {msgid msgid' : MsgId} {all all' received received' : Bool} {fut : Nat}
    (hj : l.tasks j = .waiting msgid all received fut) (hji : j ≠ i) :
    ¬(l.poll i msgid' all' received').Served := by
  intro h
  have hreader := h j msgid all received fut (by rw [poll_of_ne _ _ _ hji, hj])
  rw [poll_reader] at hreader
  exact hji (congrArg Reader.task (Option.some.inj hreader)).symm

/-- What a task comes to that registers or removes a reader: in every other task's
place nothing has changed. -/
theorem poll_served_iff (hi : ∀ msgid all received fut, l.tasks i ≠ .waiting msgid all received fut)
    (msgid : MsgId) (all received : Bool) :
    (l.poll i msgid all received).Served ↔ l.NoneWaiting := by
  constructor
  · intro h j msgid' all' received' fut' hj
    by_cases hji : j = i
    · exact hi msgid' all' received' fut' (hji ▸ hj)
    · exact not_served_poll hj hji h
  · exact fun h => h.poll msgid all received

theorem finish_removed_served_iff
    (hi : ∀ msgid all received fut, l.tasks i ≠ .waiting msgid all received fut) :
    (l.removeReader.setTask i .finished).Served ↔ l.NoneWaiting := by
  constructor
  · intro h j msgid all received fut hj
    by_cases hji : j = i
    · exact hi msgid all received fut (hji ▸ hj)
    · have hreader := h j msgid all received fut (by rw [setTask_of_ne _ hji]; exact hj)
      cases hreader
  · intro h j msgid all received fut hj
    by_cases hji : j = i
    · subst hji
      rw [setTask_self] at hj
      cases hj
    · rw [setTask_of_ne _ hji] at hj
      exact (h _ _ _ _ _ hj).elim

/-- The callback serves the one task whose reader it is. -/
theorem Served.complete (h : l.Served) {reader : Reader} (hreader : l.reader = some reader)
    (outcome : Except PyExc Response) : (l.complete reader outcome).Served := by
  unfold Loop.complete
  cases htask : l.tasks reader.task with
  | waiting msgid all received fut =>
    by_cases hfut : fut = reader.fut
    · simp only [hfut, if_true]
      intro j msgid' all' received' fut' hj
      rw [removeReader_tasks] at hj
      by_cases hji : j = reader.task
      · rw [hji, setTask_self] at hj
        cases hj
      · rw [setTask_of_ne _ hji] at hj
        have hother := h j msgid' all' received' fut' hj
        rw [hreader] at hother
        exact absurd (congrArg Reader.task (Option.some.inj hother)).symm hji
    · simp only [hfut, if_false]
      exact h
  | _ => exact h

/-- The reader of a task that waits completes its future with what `_ready` gets for
its message ID. -/
theorem Served.completes (h : l.Served) {msgid : MsgId} {all received : Bool} {fut : Nat}
    (hi : l.tasks i = .waiting msgid all received fut) {response : Response} {s : State ω}
    (hready : (Method.ready env o msgid all).run l.state = .ok (some response) s) :
    (l.step env o .ready).tasks i = .settled msgid all received (.ok response) := by
  have hreader := h i msgid all received fut hi
  show (l.ready env o).tasks i = _
  unfold Loop.ready
  rw [hreader]
  simp only [hready]
  unfold Loop.complete
  simp only [hi, if_true, removeReader_tasks, setTask_self]

theorem alone_of_not_touches {event : Event ω} (h : ¬l.Touches env o event) : l.Alone env o event :=
  fun htouches => absurd htouches h

theorem alone_iff_of_touches {event : Event ω} (h : l.Touches env o event) :
    l.Alone env o event ↔ l.NoneWaiting :=
  ⟨fun halone => halone h, fun hnone _ => hnone⟩

theorem start_served_iff (h : l.Served) (op : Operation) (all : Bool) :
    (l.start env o i op all).Served ↔ l.Alone env o (.start i op all) := by
  unfold Loop.start
  cases htask : l.tasks i with
  | idle =>
    cases hrun : (Method.request env o op).run l.state with
    | error e s =>
      -- the request fails
      refine iff_of_true (Served.finish (l := { l with state := s }) h) ?_
      refine alone_of_not_touches fun htouches => ?_
      obtain ⟨-, msgid, s', hrun'⟩ := htouches
      rw [hrun] at hrun'
      cases hrun'
    | ok msgid s =>
      cases msgid with
      | none =>
        -- nothing to wait for
        refine iff_of_true (Served.finish (l := { l with state := s }) h) ?_
        refine alone_of_not_touches fun htouches => ?_
        obtain ⟨-, msgid, s', hrun'⟩ := htouches
        rw [hrun] at hrun'
        cases hrun'
      | some msgid =>
        have htouches : l.Touches env o (.start i op all) := by
          exact ⟨htask, msgid, s, hrun⟩
        rw [alone_iff_of_touches htouches]
        refine poll_served_iff (l := { l with state := s }) (fun _ _ _ _ hi => ?_) msgid all false
        cases htask.symm.trans hi
  | _ =>
    refine iff_of_true h (alone_of_not_touches fun htouches => ?_)
    have hidle := htouches.1
    rw [htask] at hidle
    cases hidle

theorem resume_served_iff (h : l.Served) :
    (l.resume i).Served ↔ l.Alone env o (.resume i) := by
  unfold Loop.resume
  cases htask : l.tasks i with
  | settled msgid all received outcome =>
    have hi : ∀ msgid all received fut, l.tasks i ≠ .waiting msgid all received fut :=
      fun _ _ _ _ hi => by cases htask.symm.trans hi
    cases outcome with
    | ok response =>
      by_cases hmore : all = true ∧ Method.goesOn response = true ∧ received = false
      · -- `_execute` polls once more
        obtain ⟨rfl, hgoes, rfl⟩ := hmore
        have htouches : l.Touches env o (.resume i) := by
          show TouchesOnResume (l.tasks i)
          rw [htask]
          exact ⟨rfl, hgoes, rfl⟩
        rw [alone_iff_of_touches htouches]
        simp only [if_true, hgoes, true_and]
        exact poll_served_iff hi msgid true true
      -- the task returns without a look at the readers
      · refine iff_of_true ?_ (alone_of_not_touches fun htouches => ?_)
        · cases all with
          | true =>
            have hlast : ¬(Method.goesOn response = true ∧ received = false) :=
              fun hlast => hmore ⟨rfl, hlast⟩
            simp only [if_true, if_neg hlast]
            exact h.finish
          | false =>
            simp only [Bool.false_eq_true, if_false]
            exact h.setTask fun _ _ _ _ h => by cases h
        · have hresume : TouchesOnResume (l.tasks i) := htouches
          rw [htask] at hresume
          exact hmore hresume
    | error e =>
      -- any exception but the cancellation removes the reader
      by_cases hcancelled : e = cancelledError
      · simp only [if_pos hcancelled]
        refine iff_of_true h.finish (alone_of_not_touches fun htouches => ?_)
        have hresume : TouchesOnResume (l.tasks i) := htouches
        rw [htask] at hresume
        exact hresume hcancelled
      · have htouches : l.Touches env o (.resume i) := by
          show TouchesOnResume (l.tasks i)
          rw [htask]
          exact hcancelled
        rw [alone_iff_of_touches htouches]
        simp only [if_neg hcancelled]
        exact finish_removed_served_iff hi
  | _ =>
    refine iff_of_true h (alone_of_not_touches fun htouches => ?_)
    have hresume : TouchesOnResume (l.tasks i) := htouches
    rw [htask] at hresume
    exact hresume

theorem next_served_iff (h : l.Served) : (l.next i).Served ↔ l.Alone env o (.next i) := by
  unfold Loop.next
  cases htask : l.tasks i with
  | yielded msgid response =>
    by_cases hgoes : Method.goesOn response = true
    · have htouches : l.Touches env o (.next i) := by
        show TouchesOnNext (l.tasks i)
        rw [htask]
        exact hgoes
      rw [alone_iff_of_touches htouches]
      simp only [if_pos hgoes]
      exact poll_served_iff (fun _ _ _ _ hi => by cases htask.symm.trans hi) msgid false false
    · simp only [if_neg hgoes]
      refine iff_of_true h.finish (alone_of_not_touches fun htouches => ?_)
      have hnext : TouchesOnNext (l.tasks i) := htouches
      rw [htask] at hnext
      exact hgoes hnext
  | _ =>
    refine iff_of_true h (alone_of_not_touches fun htouches => ?_)
    have hnext : TouchesOnNext (l.tasks i) := htouches
    rw [htask] at hnext
    exact hnext

theorem Served.ready (h : l.Served) : (l.ready env o).Served := by
  unfold Loop.ready
  split
  · exact h
  next reader hreader =>
    split
    next s _ => exact h
    next response s _ => exact Served.complete (l := { l with state := s }) h hreader _
    next e s _ => exact Served.complete (l := { l with state := s }) h hreader _

theorem Served.close (h : l.Served) (polls : Nat) : (l.close env i polls).Served := by
  unfold Loop.close
  split
  next response _ =>
    split
    · exact h.finish
    next msgid _ => exact Served.finish (l := { l with state := _ }) h
  · exact h

theorem Served.expire (h : l.Served) : (l.expire i).Served := by
  unfold Loop.expire
  cases l.tasks i with
  | waiting msgid all received fut =>
    by_cases htimeout : 0 < l.state.self.timeout
    · simp only [if_pos htimeout]
      exact h.settle msgid all received _
    · simp only [if_neg htimeout]
      exact h
  | _ => exact h

theorem Served.cancel (h : l.Served) : (l.cancel i).Served := by
  unfold Loop.cancel
  split
  next msgid all received _ _ => exact h.settle msgid all received _
  next msgid all received _ _ => exact h.settle msgid all received _
  · exact h

/-- An event leaves every waiting operation its reader exactly if it finds no
operation waiting or neither registers nor removes a reader. -/
theorem step_served_iff (h : l.Served) (event : Event ω) :
    (l.step env o event).Served ↔ l.Alone env o event := by
  cases event with
  | start i op all => exact start_served_iff h op all
  | resume i => exact resume_served_iff h
  | next i => exact next_served_iff h
  | ready => exact iff_of_true h.ready (alone_of_not_touches fun h => h)
  | close i polls => exact iff_of_true (h.close polls) (alone_of_not_touches fun h => h)
  | expire i => exact iff_of_true h.expire (alone_of_not_touches fun h => h)
  | cancel i => exact iff_of_true h.cancel (alone_of_not_touches fun h => h)
  | outside world => exact iff_of_true h (alone_of_not_touches fun h => h)

/-- An operation that goes on waiting with its reader goes on with the same one. -/
theorem Served.same_reader {l' : Loop ω} (h : l.Served) (h' : l'.Served) {msgid : MsgId}
    {all received : Bool} {fut : Nat} (hi : l.tasks i = .waiting msgid all received fut)
    (hi' : l'.tasks i = .waiting msgid all received fut) : l'.reader = l.reader :=
  (h' i msgid all received fut hi').trans (h i msgid all received fut hi).symm

theorem keepsReaders_iff (h : l.Served) (event : Event ω) :
    l.KeepsReaders env o event ↔ l.Alone env o event := by
  unfold KeepsReaders
  rw [← step_served_iff h]
  exact ⟨fun hkeeps => hkeeps.1,
    fun hserved => ⟨hserved, fun i _ _ _ _ hi hi' => h.same_reader hserved hi hi'⟩⟩

end Steps

/-! ## Every interleaving -/

theorem init_served (state : State ω) : (init state).Served := fun _ _ _ _ _ hi => by cases hi

/-- In every interleaving of operations, every waiting operation has its reader after
every event exactly if no event by which a task registers or removes a reader finds an
operation waiting. -/
theorem readers_kept_iff (state : State ω) (events : List (Event ω)) :
    Along (step env o) (KeepsReaders env o) (init state) events ↔
      Along (step env o) (Alone env o) (init state) events := by
  suffices hall : ∀ l : Loop ω, l.Served → (Along (step env o) (KeepsReaders env o) l events ↔
      Along (step env o) (Alone env o) l events) from hall _ (init_served state)
  induction events with
  | nil => exact fun _ _ => Iff.rfl
  | cons event events ih =>
    intro l h
    have hiff : l.KeepsReaders env o event ↔ l.Alone env o event := keepsReaders_iff h event
    constructor
    · rintro ⟨hkeeps, hrest⟩
      exact ⟨hiff.mp hkeeps, (ih _ hkeeps.1).mp hrest⟩
    · rintro ⟨halone, hrest⟩
      have hkeeps := hiff.mpr halone
      exact ⟨hkeeps, (ih _ hkeeps.1).mpr hrest⟩

/-- Two operations started one after the other: both await their futures, and the
reader is the second one's. -/
theorem reader_replaced :
    ¬Along (step (Env.idle Unit) 0) (KeepsReaders (Env.idle Unit) 0)
      (init { self := { Connection.init true (py "ldap://localhost") with conn := some 0 }
              world := (), calls := [] })
      [.start 0 { request := .deleteExt [] } true, .start 1 { request := .deleteExt [] } true] := by
  rintro ⟨-, ⟨hserved, -⟩, -⟩
  have hreader := hserved 0 ⟨1, 0⟩ true false 0 rfl
  cases hreader

/-- One operation times out, another one starts, and the first one, resumed with the
`TimeoutError`, removes the reader of the second. -/
theorem reader_removed :
    ¬Along (step (Env.idle Unit) 0) (KeepsReaders (Env.idle Unit) 0)
      (init { self := { Connection.init true (py "ldap://localhost") with conn := some 0, timeout := 1 }
              world := (), calls := [] })
      [.start 0 { request := .deleteExt [] } true, .expire 0,
        .start 1 { request := .deleteExt [] } true, .resume 0] := by
  rintro ⟨-, -, -, ⟨hserved, -⟩, -⟩
  have hreader := hserved 1 ⟨1, 1⟩ true false 1 rfl
  cases hreader

end Loop

end FreeIam.Ldap
