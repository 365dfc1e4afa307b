import FmClient.System.IStateMachine
import Mathlib.Algebra.Order.Group.Multiset
import Mathlib.Tactic.Abel

/-! Any interleaving of notifying threads and io threads handles the events one
at a time, in the order of the lock, and neither loses nor repeats one. -/
namespace FmClient.System
open FmClient.Lib
variable {Event : Type*}

namespace Service

def located (s : Service Event) : Multiset (Ticketed Event) :=
  s.handled + s.inProgress + s.machine.queue + s.machine.deferred

def active (s : Service Event) : ℕ := s.posted.length + s.running.length

structure Inv (s : Service Event) : Prop where
  serial : s.machine.tasks.Inv s.active (s.started ++ s.posted) s.notified
  live : s.machine.tasks.Live s.active
  located : s.located.map Ticketed.ticket = Multiset.range s.issued
  deferrals : s.recalled ++ s.machine.deferred = s.deferrals

theorem initial_inv : (initial : Service Event).Inv := by
  refine ⟨⟨?_, ?_, ?_⟩, ?_, ?_, ?_⟩ <;>
    simp [initial, IStateMachine.initial, IStateMachine.tasks, active, SerialQueue.Live,
      Service.located, inProgress]

variable {s t : Service Event}

theorem Inv.posted_alone (h : s.Inv) {task : ℕ} {event : Ticketed Event}
    (he : s.posted[task]? = some event) :
    task = 0 ∧ s.posted = [event] ∧ s.running = [] := by
  have hle := h.serial.active_le_one
  obtain ⟨hlt, hget⟩ := List.getElem?_eq_some_iff.mp he
  unfold active at hle
  have hp : s.posted.length = 1 := by omega
  have hr : s.running.length = 0 := by omega
  obtain ⟨e, hposted⟩ := List.length_eq_one_iff.mp hp
  have htask : task = 0 := by omega
  subst htask
  simp only [hposted, List.getElem_cons_zero] at hget
  exact ⟨rfl, by rw [hposted, hget], List.length_eq_zero_iff.mp hr⟩

theorem Inv.running_alone (h : s.Inv) {thread : ℕ} {activity : Activity (Ticketed Event)}
    (ha : s.running[thread]? = some activity) :
    thread = 0 ∧ s.running = [activity] ∧ s.posted = [] := by
  have hle := h.serial.active_le_one
  obtain ⟨hlt, hget⟩ := List.getElem?_eq_some_iff.mp ha
  unfold active at hle
  have hr : s.running.length = 1 := by omega
  have hp : s.posted.length = 0 := by omega
  obtain ⟨b, hrunning⟩ := List.length_eq_one_iff.mp hr
  have hthread : thread = 0 := by omega
  subst hthread
  simp only [hrunning, List.getElem_cons_zero] at hget
  exact ⟨rfl, by rw [hrunning, hget], List.length_eq_zero_iff.mp hp⟩

theorem Inv.notify (h : s.Inv) (event : Event) : (s.notify (s.fresh event)).issue.Inv := by
  obtain ⟨htasks, hpost⟩ := s.machine.notifyEvent_tasks (s.fresh event)
  have hplace := Multiset.coe_eq_coe.mpr (s.machine.notifyEvent_place (s.fresh event))
  refine ⟨?_, ?_, ?_, ?_⟩
  · have hs := h.serial.submit (s.fresh event)
    rw [← htasks, ← hpost] at hs
    simpa [Service.notify, issue, active, Nat.add_right_comm] using hs
  · have hl := h.live.submit (s.fresh event)
    rw [← htasks, ← hpost] at hl
    simpa [Service.notify, issue, active, Nat.add_right_comm] using hl
  · have hmoved : (s.notify (s.fresh event)).issue.located = {s.fresh event} + s.located := by
      simp only [Service.located, Service.notify, issue, inProgress, ← Multiset.coe_add,
        ← Multiset.cons_coe, ← Multiset.singleton_add,
        IStateMachine.notifyEvent_deferred] at hplace ⊢
      calc
        _ = (s.handled : Multiset (Ticketed Event)) + (s.posted +
              (s.running.filterMap Activity.held)) + ((s.machine.notifyEvent _).2.toList +
              (s.machine.notifyEvent _).1.queue) + s.machine.deferred := by abel
        _ = _ := by rw [hplace]; abel
    rw [hmoved, Multiset.map_add, h.located]
    simp [fresh, issue, Service.notify, Multiset.range_succ]
  · simpa [Service.notify, issue] using h.deferrals

theorem Inv.defer (h : s.Inv) (event : Event) : (s.defer (s.fresh event)).issue.Inv := by
  refine ⟨h.serial, h.live, ?_, ?_⟩
  · have hmoved : (s.defer (s.fresh event)).issue.located = {s.fresh event} + s.located := by
      simp only [Service.located, Service.defer, IStateMachine.defer, issue, inProgress,
        ← Multiset.coe_add, ← Multiset.coe_singleton]
      abel
    rw [hmoved, Multiset.map_add, h.located]
    simp [fresh, issue, Service.defer, Multiset.range_succ]
  · simp [Service.defer, IStateMachine.defer, issue, ← h.deferrals]

theorem Inv.deferOwn (h : s.Inv) {own : Ticketed Event} (hr : s.running = [.handling own false]) :
    Inv { s.defer own with running := [.handling own true] } := by
  refine ⟨?_, ?_, ?_, ?_⟩
  · simpa [Service.defer, IStateMachine.defer, IStateMachine.tasks, active, hr] using h.serial
  · simpa [Service.defer, IStateMachine.defer, IStateMachine.tasks, active, hr] using h.live
  · have hl := h.located
    rw [show s.issued = (s.defer own).issued from rfl] at hl
    rw [← hl]
    congr 1
    simp only [Service.located, Service.defer, IStateMachine.defer, inProgress, hr,
      List.filterMap_cons, List.filterMap_nil, Activity.held_handling, Activity.held_deferred,
      ← Multiset.coe_add, Multiset.coe_nil, add_zero]
    abel
  · simp [Service.defer, IStateMachine.defer, ← h.deferrals]

theorem recall_nil (hd : s.machine.deferred = []) : s.recall = s := by
  simp [Service.recall, IStateMachine.recall, hd]

theorem recall_cons {event : Ticketed Event} {rest : List (Ticketed Event)}
    (hd : s.machine.deferred = event :: rest) :
    s.recall = { ({ s with machine := { s.machine with deferred := rest } } : Service Event).notify
      event with recalled := s.recalled ++ [event] } := by
  simp [Service.recall, IStateMachine.recall, hd, Service.notify]

theorem Inv.recall (h : s.Inv) : s.recall.Inv := by
  cases hd : s.machine.deferred with
  | nil => rwa [recall_nil hd]
  | cons event rest =>
    rw [recall_cons hd]
    let m : IStateMachine (Ticketed Event) := { s.machine with deferred := rest }
    obtain ⟨htasks, hpost⟩ := m.notifyEvent_tasks event
    have hplace := Multiset.coe_eq_coe.mpr (m.notifyEvent_place event)
    have hsame : m.tasks = s.machine.tasks := rfl
    refine ⟨?_, ?_, ?_, ?_⟩
    · have hs := h.serial.submit event
      rw [← hsame, ← htasks, ← hpost] at hs
      simpa [Service.notify, active, Nat.add_right_comm, m] using hs
    · have hl := h.live.submit event
      rw [← hsame, ← htasks, ← hpost] at hl
      simpa [Service.notify, active, Nat.add_right_comm, m] using hl
    · refine Eq.trans (congrArg _ ?_) h.located
      simp only [Service.located, Service.notify, inProgress, hd, ← Multiset.coe_add,
        ← Multiset.cons_coe, ← Multiset.singleton_add,
        IStateMachine.notifyEvent_deferred] at hplace ⊢
      calc
        _ = (s.handled : Multiset (Ticketed Event)) + (s.posted +
              (s.running.filterMap Activity.held)) + ((m.notifyEvent _).2.toList +
              (m.notifyEvent _).1.queue) + rest := by abel
        _ = _ := by rw [hplace]; simp only [m]; abel
    · simpa [Service.notify, hd] using h.deferrals

theorem Inv.call (h : s.Inv) {thread : ℕ} {own : Ticketed Event} {deferredOwn : Bool}
    (ha : s.running[thread]? = some (.handling own deferredOwn)) {c : Call Event}
    (hs : s.call thread own deferredOwn c = some t) : t.Inv := by
  obtain ⟨rfl, hrunning, -⟩ := h.running_alone ha
  cases c with
  | notifyEvent event =>
    simp only [Service.call, Option.some.injEq] at hs
    exact hs ▸ h.notify event
  | defer event =>
    simp only [Service.call, Option.some.injEq] at hs
    exact hs ▸ h.defer event
  | deferOwn =>
    cases deferredOwn with
    | true => simp [Service.call] at hs
    | false =>
      simp only [Service.call, hrunning, List.set_cons_zero, Bool.false_eq_true, if_false,
        Option.some.injEq] at hs
      exact hs ▸ h.deferOwn hrunning
  | «recall» =>
    simp only [Service.call, Option.some.injEq] at hs
    exact hs ▸ h.recall

theorem Inv.run (h : s.Inv) {task : ℕ} (hs : s.step (.run task) = some t) : t.Inv := by
  simp only [Service.step] at hs
  split at hs
  · rename_i event he
    obtain ⟨rfl, hposted, hrunning⟩ := h.posted_alone he
    simp only [Option.some.injEq] at hs
    subst hs
    refine ⟨?_, ?_, ?_, h.deferrals⟩
    · simpa [active, hposted, hrunning] using h.serial
    · simpa [active, hposted, hrunning] using h.live
    · refine Eq.trans (congrArg _ ?_) h.located
      simp [Service.located, inProgress, hposted, hrunning]
  · cases hs

theorem Inv.returns (h : s.Inv) {thread : ℕ} (hs : s.step (.returns thread) = some t) : t.Inv := by
  simp only [Service.step] at hs
  split at hs
  · rename_i own deferredOwn ha
    obtain ⟨rfl, hrunning, hposted⟩ := h.running_alone ha
    simp only [Option.some.injEq] at hs
    subst hs
    refine ⟨?_, ?_, ?_, h.deferrals⟩
    · simpa [active, hposted, hrunning] using h.serial
    · simpa [active, hposted, hrunning] using h.live
    · refine Eq.trans (congrArg _ ?_) h.located
      have hmoved : (↑(s.handled ++ [own]) : Multiset (Ticketed Event)) = s.handled + {own} :=
        (Multiset.coe_add s.handled [own]).symm
      cases deferredOwn <;>
        simp [Service.located, inProgress, hposted, hrunning, List.filterMap_cons, hmoved,
          -Multiset.coe_add]
  · cases hs

theorem Inv.proceed (h : s.Inv) {thread : ℕ} (hs : s.step (.proceed thread) = some t) : t.Inv := by
  simp only [Service.step] at hs
  split at hs
  · rename_i ha
    obtain ⟨rfl, hrunning, hposted⟩ := h.running_alone ha
    simp only [Option.some.injEq] at hs
    subst hs
    have hactive : s.active = 0 + 1 := by simp [active, hrunning, hposted]
    obtain ⟨htasks, hpost⟩ := s.machine.proceed_tasks
    refine ⟨?_, ?_, ?_, ?_⟩
    · have hc := (hactive ▸ h.serial).complete
      rw [← htasks, ← hpost] at hc
      simpa [Service.proceed, active, hrunning, hposted] using hc
    · have hl := (hactive ▸ h.live).complete
      rw [← htasks, ← hpost] at hl
      simpa [Service.proceed, active, hrunning, hposted] using hl
    · have hplace := congrArg (Multiset.ofList) s.machine.proceed_place
      refine Eq.trans (congrArg _ ?_) h.located
      simp only [Service.located, Service.proceed, inProgress, hrunning, hposted,
        List.eraseIdx_cons_zero, List.filterMap_cons, List.filterMap_nil, Activity.held_returned,
        ← Multiset.coe_add, IStateMachine.proceed_deferred] at hplace ⊢
      rw [← hplace]
      simp only [Multiset.coe_nil, add_zero, zero_add]
      abel
    · simpa [Service.proceed] using h.deferrals
  · cases hs

end Service

def Action.Throws : Action Event → Prop
  | .throws _ => True
  | _ => False

theorem Service.Inv.step {s t : Service Event} (h : s.Inv) {a : Action Event}
    (ha : ¬ a.Throws) (hs : s.step a = some t) : t.Inv := by
  cases a with
  | notifyEvent event =>
    simp only [Service.step, Option.some.injEq] at hs
    exact hs ▸ h.notify event
  | run task => exact h.run hs
  | call thread c =>
    simp only [Service.step] at hs
    split at hs
    · rename_i own deferredOwn hthread
      exact h.call hthread hs
    · cases hs
  | returns thread => exact h.returns hs
  | throws thread => exact absurd trivial ha
  | proceed thread => exact h.proceed hs

theorem run_inv {h : List (Transition (Service Event) (Action Event))} {s : Service Event}
    (hr : (service Event).Run h s) (hthrow : ∀ t ∈ h, ¬ t.label.Throws) : s.Inv :=
  hr.invariant_of_forall (P := Service.Inv) (C := fun t => ¬ t.label.Throws)
    (fun _ hs => hs ▸ Service.initial_inv) (fun _ _ _ _ hp ht hc => hp.step hc ht) hthrow

namespace Service
variable {s : Service Event}

def countTicket (n : ℕ) (events : List (Ticketed Event)) : ℕ :=
  events.countP (fun e => e.ticket == n)

theorem Inv.processing_false_iff (h : s.Inv) :
    s.machine.processing = false ↔ s.posted = [] ∧ s.running = [] := by
  have hl := h.live
  unfold SerialQueue.Live active IStateMachine.tasks at hl
  cases hp : s.machine.processing with
  | true =>
    simp only [hp, Bool.toNat_true] at hl
    simp only [Bool.true_eq_false, false_iff]
    intro ⟨hposted, hrunning⟩
    simp [hposted, hrunning] at hl
  | false =>
    simp only [hp, Bool.toNat_false, Nat.add_eq_zero_iff, List.length_eq_zero_iff] at hl
    simpa using hl

theorem Inv.handling_le_one (h : s.Inv) : s.running.countP Activity.isHandling ≤ 1 := by
  have hle := h.serial.active_le_one
  have hc := List.countP_le_length (p := Activity.isHandling) (l := s.running)
  unfold active at hle
  omega

/-- Each event given to the machine is in one place, once. -/
theorem Inv.located_once (h : s.Inv) {n : ℕ} (hn : n < s.issued) :
    countTicket n s.handled + countTicket n s.inProgress + countTicket n s.machine.queue +
      countTicket n s.machine.deferred = 1 := by
  have hc := congrArg (Multiset.count n) h.located
  rw [Multiset.count_eq_one_of_mem (Multiset.nodup_range _) (Multiset.mem_range.mpr hn)] at hc
  simpa [Service.located, countTicket, List.count, List.countP_map, Function.comp_def,
    Nat.add_assoc, -Multiset.coe_add, Multiset.coe_count] using hc

end Service

/-- Every interleaving of notifying threads with io threads, however many there are
and whatever the handlers call, serialises the events in the order of the lock. -/
theorem events_serialised {h : List (Transition (Service Event) (Action Event))}
    {s : Service Event} (hr : (service Event).Run h s) (hthrow : ∀ t ∈ h, ¬ t.label.Throws) :
    (s.machine.processing = false ↔ s.posted = [] ∧ s.running = []) ∧
    (s.machine.processing = false → s.machine.queue = []) ∧
    (s.machine.processing = true → s.posted.length + s.running.length = 1) ∧
    s.running.countP Activity.isHandling ≤ 1 ∧
    s.started ++ s.posted ++ s.machine.queue = s.notified ∧
    (∀ n < s.issued, Service.countTicket n s.handled + Service.countTicket n s.inProgress +
      Service.countTicket n s.machine.queue + Service.countTicket n s.machine.deferred = 1) ∧
    s.recalled ++ s.machine.deferred = s.deferrals ∧
    (∀ event rest, s.machine.deferred = event :: rest →
      s.recall.machine.deferred = rest ∧ s.recall.notified = s.notified ++ [event]) := by
  have hi := run_inv hr hthrow
  refine ⟨hi.processing_false_iff, hi.serial.idle, ?_, hi.handling_le_one, hi.serial.fifo,
    fun n hn => hi.located_once hn, hi.deferrals, ?_⟩
  · intro hp
    have hl := hi.live
    simpa [SerialQueue.Live, IStateMachine.tasks, hp, Service.active] using hl
  · intro event rest hd
    simp [Service.recall_cons hd, Service.notify]

/-- Two threads notify, the first handler defers its own event and notifies a third one;
the second handler recalls the deferred event, which is then due again. -/
theorem events_serialised_deferral : ∃ h s,
    (service ℕ).Run h s ∧ s.machine.processing = true ∧
    s.notified.map Ticketed.event = [10, 20, 30, 10] ∧
    s.started ++ s.posted ++ s.machine.queue = s.notified := by
  have hr := TransitionSystem.run_execute (Service.initial : Service ℕ) Service.step
    ([.notifyEvent 10, .notifyEvent 20, .run 0, .call 0 .deferOwn,
      .call 0 (.notifyEvent 30), .returns 0, .proceed 0, .run 0, .call 0 .«recall»]) rfl
  exact ⟨_, _, hr, rfl, rfl, (events_serialised hr (by simp [Action.Throws])).2.2.2.2.1⟩

end FmClient.System
