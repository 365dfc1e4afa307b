import FmClient.Lib.SerialQueue
import FmClient.Lib.TransitionSystem
import Mathlib.Data.Multiset.Range

/-! The event queue of `IStateMachine` and the io threads that run its tasks.
Every section under `lock` is one atomic step; the threads interleave freely. -/
namespace FmClient.System
open FmClient.Lib
variable {Event : Type*}

/-- A `Task` of the source is the closure `handleEvent(event); proceed();`,
so that a queued task is the event it captured. -/
structure IStateMachine (Event : Type*) where
  queue : List Event
  processing : Bool
  deferred : List Event

namespace IStateMachine

/-- The machine afterwards and the task given to `execute`, if any. -/
def notifyEvent (m : IStateMachine Event) (event : Event) : IStateMachine Event × Option Event :=
  if m.processing then ({ m with queue := m.queue ++ [event] }, none)
  else ({ m with processing := true }, some event)

def defer (m : IStateMachine Event) (event : Event) : IStateMachine Event :=
  { m with deferred := m.deferred ++ [event] }

def «recall» (m : IStateMachine Event) : IStateMachine Event × Option Event :=
  match m.deferred with
  | [] => (m, none)
  | event :: rest => notifyEvent { m with deferred := rest } event

def proceed (m : IStateMachine Event) : IStateMachine Event × Option Event :=
  match m.queue with
  | task :: rest => ({ m with queue := rest }, some task)
  | [] => ({ m with processing := false }, none)

def initial : IStateMachine Event := ⟨[], false, []⟩

/-- `processing` and `queue` form a serial queue of tasks. -/
def tasks (m : IStateMachine Event) : SerialQueue Event := ⟨m.processing, m.queue⟩

variable (m : IStateMachine Event) (event : Event)

theorem notifyEvent_tasks :
    (m.notifyEvent event).1.tasks = (m.tasks.submit event).1 ∧
      (m.notifyEvent event).2 = (m.tasks.submit event).2 := by
  cases h : m.processing <;> simp [notifyEvent, tasks, SerialQueue.submit, h]

theorem proceed_tasks :
    m.proceed.1.tasks = m.tasks.complete.1 ∧ m.proceed.2 = m.tasks.complete.2 := by
  cases h : m.queue <;> simp [proceed, tasks, SerialQueue.complete, h]

@[simp] theorem notifyEvent_deferred : (m.notifyEvent event).1.deferred = m.deferred := by
  cases h : m.processing <;> simp [notifyEvent, h]

@[simp] theorem proceed_deferred : m.proceed.1.deferred = m.deferred := by
  cases h : m.queue <;> simp [proceed, h]

theorem notifyEvent_place :
    ((m.notifyEvent event).2.toList ++ (m.notifyEvent event).1.queue).Perm (event :: m.queue) := by
  cases h : m.processing with
  | true => simp [notifyEvent, h]
  | false => simp [notifyEvent, h]

theorem proceed_place : m.proceed.2.toList ++ m.proceed.1.queue = m.queue := by
  cases h : m.queue <;> simp [proceed, h]

end IStateMachine

/-- One event given to `notifyEvent` or `defer`, told apart from all others. -/
structure Ticketed (Event : Type*) where
  ticket : ℕ
  event : Event

/-- What an io thread does with the machine's task: it is inside `handleEvent`
(and may have deferred its own event), or `handleEvent` has returned. -/
inductive Activity (Event : Type*) where
  | handling (event : Event) (deferredOwn : Bool)
  | returned

def Activity.isHandling : Activity Event → Bool
  | .handling _ _ => true
  | .returned => false

def Activity.held : Activity Event → Option Event
  | .handling event false => some event
  | _ => none

@[simp] theorem Activity.held_handling (event : Event) :
    (Activity.handling event false).held = some event := rfl
@[simp] theorem Activity.held_deferred (event : Event) :
    (Activity.handling event true).held = none := rfl
@[simp] theorem Activity.held_returned : (Activity.returned : Activity Event).held = none := rfl

inductive Call (Event : Type*) where
  | notifyEvent (event : Event)
  | defer (event : Event)
  | deferOwn
  | «recall»

inductive Action (Event : Type*) where
  | notifyEvent (event : Event)
  | run (task : ℕ)
  | call (thread : ℕ) (c : Call Event)
  | returns (thread : ℕ)
  | throws (thread : ℕ)
  | proceed (thread : ℕ)

/-- The machine, the tasks it has in the io service, and histories: the events in the
order of `notifyEvent`'s lock, of `handleEvent`, of its return, of `defer` and of `recall`. -/
structure Service (Event : Type*) where
  machine : IStateMachine (Ticketed Event)
  posted : List (Ticketed Event)
  running : List (Activity (Ticketed Event))
  issued : ℕ
  notified : List (Ticketed Event)
  started : List (Ticketed Event)
  handled : List (Ticketed Event)
  deferrals : List (Ticketed Event)
  recalled : List (Ticketed Event)

namespace Service

def initial : Service Event := ⟨.initial, [], [], 0, [], [], [], [], []⟩

def inProgress (s : Service Event) : List (Ticketed Event) :=
  s.posted ++ s.running.filterMap Activity.held

def fresh (s : Service Event) (event : Event) : Ticketed Event := ⟨s.issued, event⟩

def notify (s : Service Event) (event : Ticketed Event) : Service Event :=
  { s with
    machine := (s.machine.notifyEvent event).1
    posted := s.posted ++ (s.machine.notifyEvent event).2.toList
    notified := s.notified ++ [event] }

def issue (s : Service Event) : Service Event := { s with issued := s.issued + 1 }

def defer (s : Service Event) (event : Ticketed Event) : Service Event :=
  { s with machine := s.machine.defer event, deferrals := s.deferrals ++ [event] }

def «recall» (s : Service Event) : Service Event :=
  { s with
    machine := s.machine.recall.1
    posted := s.posted ++ s.machine.recall.2.toList
    notified := s.notified ++ s.machine.deferred.head?.toList
    recalled := s.recalled ++ s.machine.deferred.head?.toList }

def proceed (s : Service Event) : Service Event :=
  { s with machine := s.machine.proceed.1, posted := s.posted ++ s.machine.proceed.2.toList }

def call (s : Service Event) (thread : ℕ) (own : Ticketed Event) (deferredOwn : Bool) :
    Call Event → Option (Service Event)
  | .notifyEvent event => some (s.notify (s.fresh event)).issue
  | .defer event => some (s.defer (s.fresh event)).issue
  | .deferOwn =>
    if deferredOwn then none
    else some { s.defer own with running := s.running.set thread (.handling own true) }
  | .«recall» => some s.recall

def step (s : Service Event) : Action Event → Option (Service Event)
  | .notifyEvent event => some (s.notify (s.fresh event)).issue
  | .run task =>
    match s.posted[task]? with
    | some event => some { s with
        posted := s.posted.eraseIdx task
        running := s.running ++ [.handling event false]
        started := s.started ++ [event] }
    | none => none
  | .call thread c =>
    match s.running[thread]? with
    | some (.handling own deferredOwn) => s.call thread own deferredOwn c
    | _ => none
  | .returns thread =>
    match s.running[thread]? with
    | some (.handling own deferredOwn) => some { s with
        running := s.running.set thread .returned
        handled := if deferredOwn then s.handled else s.handled ++ [own] }
    | _ => none
  -- the exception leaves the lambda: `proceed` is skipped
  | .throws thread =>
    match s.running[thread]? with
    | some (.handling _ _) => some { s with running := s.running.eraseIdx thread }
    | _ => none
  | .proceed thread =>
    match s.running[thread]? with
    | some .returned => some { s.proceed with running := s.running.eraseIdx thread }
    | _ => none

end Service

def service (Event : Type*) : TransitionSystem (Service Event) (Action Event) :=
  .ofStep .initial Service.step

end FmClient.System
