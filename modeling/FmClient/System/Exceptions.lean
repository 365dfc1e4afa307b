import FmClient.System.Serialisation

/-! A handler that throws leaves its lambda before `proceed`, so that nobody clears the
machine's flag or takes the next event: the machine never handles another one. -/
namespace FmClient.System
open FmClient.Lib
variable {Event : Type*}

namespace Service

/-- While the flag is set a task is posted or running, and the order of the lock is kept. -/
def Responsive (s : Service Event) : Prop :=
  (s.machine.processing = true → s.posted ≠ [] ∨ s.running ≠ []) ∧
    s.started ++ s.posted ++ s.machine.queue = s.notified

/-- The flag is set, and nobody is left to clear it. -/
def Wedged (s : Service Event) : Prop :=
  s.machine.processing = true ∧ s.posted = [] ∧ s.running = []

variable {s t : Service Event} {a : Action Event}

theorem Inv.responsive (h : s.Inv) : s.Responsive := by
  refine ⟨fun hp => ?_, h.serial.fifo⟩
  by_contra hnone
  obtain ⟨hposted, hrunning⟩ := not_or.mp hnone
  have hfalse := h.processing_false_iff.mpr ⟨not_not.mp hposted, not_not.mp hrunning⟩
  simp [hp] at hfalse

theorem Inv.throws (h : s.Inv) (ha : a.Throws) (hs : s.step a = some t) : t.Wedged := by
  cases a with
  | throws thread =>
    simp only [Service.step] at hs
    split at hs
    · rename_i own deferredOwn hthread
      obtain ⟨rfl, hrunning, hposted⟩ := h.running_alone hthread
      have hprocessing : s.machine.processing = true := by
        by_contra hp
        have hidle := h.processing_false_iff.mp (by simpa using hp)
        simp [hrunning] at hidle
      cases hs
      exact ⟨hprocessing, hposted, by simp [hrunning]⟩
    · cases hs
  | _ => exact absurd ha id

theorem Wedged.not_responsive (h : s.Wedged) : ¬ s.Responsive := by
  obtain ⟨hprocessing, hposted, hrunning⟩ := h
  intro hresponsive
  simpa [hposted, hrunning] using hresponsive.1 hprocessing

theorem Wedged.step (h : s.Wedged) (hs : s.step a = some t) :
    t.Wedged ∧ t.started = s.started := by
  obtain ⟨hprocessing, hposted, hrunning⟩ := h
  cases a with
  | notifyEvent event =>
    simp only [Service.step, Option.some.injEq] at hs
    subst hs
    simp [Wedged, issue, Service.notify, IStateMachine.notifyEvent, hprocessing, hposted, hrunning]
  | _ => simp [Service.step, hposted, hrunning] at hs

theorem Wedged.execute (h : s.Wedged) {labels : List (Action Event)}
    {k : List (Transition (Service Event) (Action Event))}
    (he : TransitionSystem.execute Service.step s labels = some (k, t)) :
    t.Wedged ∧ t.started = s.started := by
  induction labels generalizing s k with
  | nil =>
    cases he
    exact ⟨h, rfl⟩
  | cons a as ih =>
    simp only [TransitionSystem.execute, Option.bind_eq_some_iff, Option.map_eq_some_iff,
      Prod.mk.injEq] at he
    obtain ⟨u, hu, ⟨k', t'⟩, hk, rfl, rfl⟩ := he
    obtain ⟨hw, hsame⟩ := h.step hu
    obtain ⟨hw', hsame'⟩ := ih hw hk
    exact ⟨hw', hsame'.trans hsame⟩

end Service

/-- The machine answers in every state of a run exactly if no handler throws in it. -/
theorem responsive_iff {h : List (Transition (Service Event) (Action Event))}
    {s : Service Event} (hr : (service Event).Run h s) :
    (∀ t ∈ h, t.target.Responsive) ↔ ∀ t ∈ h, ¬ t.label.Throws := by
  refine hr.forall_iff (I := Service.Inv) (G := fun t => t.target.Responsive)
    (fun _ hs => hs ▸ Service.initial_inv) (fun _ _ _ _ hi hs hc => hi.step hc hs) ?_
  intro s a t _ hi hs
  constructor
  · exact fun hresponsive hthrows => (hi.throws hthrows hs).not_responsive hresponsive
  · exact fun hthrows => (hi.step hthrows hs).responsive

/-- An event notified while another is handled waits, and is started after it. -/
theorem responsive_iff_returned : ∃ h s, (service ℕ).Run h s ∧
    (∀ t ∈ h, t.target.Responsive) ∧ s.started.map Ticketed.event = [10, 20] := by
  have hr := TransitionSystem.run_execute (Service.initial : Service ℕ) Service.step
    [.notifyEvent 10, .run 0, .notifyEvent 20, .returns 0, .proceed 0, .run 0] rfl
  exact ⟨_, _, hr, (responsive_iff hr).mpr (by simp [Action.Throws]), rfl⟩

/-- The first handler throws: the event notified before that and the one notified after it are
never started. -/
theorem exception_wedges : ∃ h s, (service ℕ).Run h s ∧ ¬ s.Responsive ∧
    s.machine.queue.map Ticketed.event = [20, 30] ∧ ∀ labels k t,
      TransitionSystem.execute Service.step s labels = some (k, t) → t.started = s.started := by
  have hr := TransitionSystem.run_execute (Service.initial : Service ℕ) Service.step
    [.notifyEvent 10, .run 0, .notifyEvent 20, .throws 0, .notifyEvent 30] rfl
  refine ⟨_, _, hr, Service.Wedged.not_responsive ?_, rfl, fun labels k t he => ?_⟩
  · exact ⟨rfl, rfl, rfl⟩
  · exact (Service.Wedged.execute ⟨rfl, rfl, rfl⟩ he).2

end FmClient.System
