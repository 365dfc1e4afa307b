import FmClient.Lib.Debt
import FmClient.Lib.Fifo
import FmClient.Lib.History
import Mathlib.Tactic.Simps.Basic

/-! `Timer` over `boost::asio::steady_timer`: expirations, the handlers they queue, calls of
`cancel` and the task are steps of their own, in any order. -/
namespace FmClient.System
open FmClient.Lib

inductive ErrorCode where
  | success
  | operationAborted
  deriving DecidableEq

/-- `task()` by the wait for an expiry, and `cancelationCallback(id)`. -/
inductive TimerEvent where
  | task (expiry : ℕ)
  | cancelationCallback (id : ℕ)
  deriving DecidableEq

/-- The members, with what `steady_timer` has in hand: its expiry in milliseconds from the
construction, the waits that are pending, their handlers that are queued, and those in `task`. -/
structure Timer where
  id : ℕ
  interval : ℕ
  recurring : Bool
  canceled : Bool
  expiry : ℕ
  waits : ℕ
  queued : List ErrorCode
  running : ℕ
  trace : List TimerEvent

namespace Timer

/-- The two constructors: a timer with an interval is recurring. -/
def construct (delay : ℕ) (interval : Option ℕ) (id : ℕ) : Timer :=
  ⟨id, interval.getD 0, interval.isSome, false, delay, 1, [], 0, []⟩

variable (t : Timer)

@[simps] def emit (e : TimerEvent) : Timer := { t with trace := t.trace ++ [e] }

@[simps] def complete (ec : ErrorCode) : Timer :=
  { t with waits := 0, queued := t.queued ++ List.replicate t.waits ec }

/-- `steady_timer::expires_at` cancels the pending waits. -/
@[simps] def expiresAt (expiry : ℕ) : Timer :=
  { t.complete .operationAborted with expiry := expiry }

def cancel : Timer :=
  if t.canceled then t
  else (({ t with canceled := true } : Timer).complete .operationAborted).emit
    (.cancelationCallback t.id)

/-- Up to `task()` -/
def timerTask : ErrorCode → Timer
  | .operationAborted => t
  | .success => ({ t with running := t.running + 1 } : Timer).emit (.task t.expiry)

/-- The rest of `timerTask` -/
def taskReturns : Timer :=
  let u : Timer := { t with running := t.running - 1 }
  if t.recurring then u.expiresAt (t.expiry + t.interval) else u

@[simps] def dequeue (i : ℕ) : Timer := { t with queued := t.queued.eraseIdx i }

end Timer

inductive TimerAction where
  | expire
  | dispatch (handler : ℕ)
  | taskReturns
  | cancel
  deriving DecidableEq

def TimerAction.isDispatch : TimerAction → Bool
  | .dispatch _ => true
  | _ => false

namespace Timer

def step (t : Timer) : TimerAction → Option Timer
  | .expire => if 0 < t.waits then some (t.complete .success) else none
  | .dispatch i => (t.queued[i]?).map (t.dequeue i).timerTask
  | .taskReturns => if 0 < t.running then some t.taskReturns else none
  | .cancel => some t.cancel

/-- What a step is, with what it needs. -/
inductive Stepped (t : Timer) : TimerAction → Timer → Prop where
  | expire (hw : 0 < t.waits) : Stepped t .expire (t.complete .success)
  | dispatch {i : ℕ} {ec : ErrorCode} (hi : t.queued[i]? = some ec) :
      Stepped t (.dispatch i) ((t.dequeue i).timerTask ec)
  | taskReturns (hr : 0 < t.running) : Stepped t .taskReturns t.taskReturns
  | cancel : Stepped t .cancel t.cancel

theorem stepped {t u : Timer} {a : TimerAction} (h : t.step a = some u) : t.Stepped a u := by
  cases a with
  | expire =>
    simp only [step, Option.ite_none_right_eq_some] at h
    obtain ⟨hw, hu⟩ := h
    cases hu
    exact .expire hw
  | dispatch i =>
    simp only [step, Option.map_eq_some_iff] at h
    obtain ⟨ec, hi, rfl⟩ := h
    exact .dispatch hi
  | taskReturns =>
    simp only [step, Option.ite_none_right_eq_some] at h
    obtain ⟨hr, hu⟩ := h
    cases hu
    exact .taskReturns hr
  | cancel =>
    cases h
    exact .cancel

end Timer

def timers (delay : ℕ) (interval : Option ℕ) (id : ℕ) : TransitionSystem Timer TimerAction :=
  .ofStep (.construct delay interval id) Timer.step

def TimerEvent.start? : TimerEvent → Option ℕ
  | .task expiry => some expiry
  | _ => none

def TimerEvent.callback? : TimerEvent → Option ℕ
  | .cancelationCallback id => some id
  | _ => none

def starts (trace : List TimerEvent) : List ℕ := trace.filterMap TimerEvent.start?

def callbacks (trace : List TimerEvent) : List ℕ := trace.filterMap TimerEvent.callback?

def Canceled (u : List (Transition Timer TimerAction)) : Prop := ∃ t ∈ u, t.label = .cancel

/-- A step after the history `u`. -/
structure Sound (delay : ℕ) (u : List (Transition Timer TimerAction))
    (t : Transition Timer TimerAction) : Prop where
  silent : Canceled u → starts t.target.trace = starts t.source.trace
  once : Canceled (u ++ [t]) → callbacks t.target.trace = [t.target.id]
  armed : t.label = .taskReturns → t.source.recurring = true → ¬ Canceled u →
    0 < t.target.waits ∧
      t.target.expiry = delay + (starts t.target.trace).length * t.target.interval
  times : starts t.target.trace =
    (List.range (starts t.target.trace).length).map fun k => delay + k * t.target.interval

/-- The first call of `cancel` finds no handler queued with success, and the task of a recurring
timer returns canceled only. -/
def Careful (t : Transition Timer TimerAction) : Prop :=
  (t.label = .cancel → t.source.canceled = false → .success ∉ t.source.queued) ∧
    (t.label = .taskReturns → t.source.recurring = true → t.source.canceled = true)

instance (t : Transition Timer TimerAction) : Decidable (Careful t) :=
  inferInstanceAs (Decidable (_ ∧ _))

/-! ### The life of a timer -/

/-- What carries the runs: the pending wait, its handler or the task, of which there is one at
most, and the times for which the task was started. -/
inductive Phase (delay : ℕ) (t : Timer) : Prop where
  | waiting (hw : t.waits = 1) (hq : t.queued = []) (hr : t.running = 0)
      (hs : starts t.trace = []) (he : t.expiry = delay) (hc : t.canceled = false)
  | expired (hw : t.waits = 0) (hq : t.queued = [.success]) (hr : t.running = 0)
      (hs : starts t.trace = []) (he : t.expiry = delay)
  | aborted (hw : t.waits = 0) (hq : t.queued = [.operationAborted]) (hr : t.running = 0)
      (hs : starts t.trace = []) (hc : t.canceled = true)
  | running (hw : t.waits = 0) (hq : t.queued = []) (hr : t.running = 1)
      (hs : starts t.trace = [delay])
  | returned (hw : t.waits = 0) (hq : t.queued = []) (hr : t.running = 0)
      (hs : starts t.trace = [delay])
  | never (hw : t.waits = 0) (hq : t.queued = []) (hr : t.running = 0)
      (hs : starts t.trace = []) (hc : t.canceled = true)

variable {delay id : ℕ} {interval : Option ℕ} {t u : Timer} {a : TimerAction}

theorem phase_construct : Phase delay (.construct delay interval id) :=
  .waiting rfl rfl rfl rfl rfl rfl

theorem cancel_of_canceled (hc : t.canceled = true) : t.cancel = t := if_pos hc

theorem cancel_of_not_canceled (hc : t.canceled = false) :
    t.cancel.canceled = true ∧ t.cancel.waits = 0 ∧
      t.cancel.queued = t.queued ++ List.replicate t.waits .operationAborted ∧
      t.cancel.running = t.running ∧ t.cancel.expiry = t.expiry ∧
      t.cancel.trace = t.trace ++ [.cancelationCallback t.id] := by
  simp [Timer.cancel, hc]

@[simp] theorem taskReturns_running : t.taskReturns.running = t.running - 1 := by
  cases hr : t.recurring <;> simp [Timer.taskReturns, hr]

@[simp] theorem taskReturns_canceled : t.taskReturns.canceled = t.canceled := by
  cases hr : t.recurring <;> simp [Timer.taskReturns, hr]

@[simp] theorem taskReturns_trace : t.taskReturns.trace = t.trace := by
  cases hr : t.recurring <;> simp [Timer.taskReturns, hr]

theorem taskReturns_of_idle (hw : t.waits = 0) :
    t.taskReturns.waits = 0 ∧ t.taskReturns.queued = t.queued := by
  cases hr : t.recurring <;> simp [Timer.taskReturns, hr, hw]

theorem starts_cancel : starts t.cancel.trace = starts t.trace := by
  cases hc : t.canceled with
  | true => rw [cancel_of_canceled hc]
  | false => simp [Timer.cancel, hc, starts, TimerEvent.start?]

theorem Phase.cancel (h : Phase delay t) : Phase delay t.cancel := by
  cases hc : t.canceled with
  | true => rwa [cancel_of_canceled hc]
  | false =>
    obtain ⟨hcanceled, hwaits, hqueued, hrunning, hexpiry, -⟩ := cancel_of_not_canceled hc
    cases h with
    | waiting hw hq hr hs he =>
      exact .aborted hwaits (by simp [hqueued, hq, hw]) (hrunning.trans hr)
        (starts_cancel.trans hs) hcanceled
    | expired hw hq hr hs he =>
      exact .expired hwaits (by simp [hqueued, hq, hw]) (hrunning.trans hr)
        (starts_cancel.trans hs) (hexpiry.trans he)
    | running hw hq hr hs =>
      exact .running hwaits (by simp [hqueued, hq, hw]) (hrunning.trans hr)
        (starts_cancel.trans hs)
    | returned hw hq hr hs =>
      exact .returned hwaits (by simp [hqueued, hq, hw]) (hrunning.trans hr)
        (starts_cancel.trans hs)
    | aborted _ _ _ _ hcanceled | never _ _ _ _ hcanceled => simp [hc] at hcanceled

theorem Phase.expire (h : Phase delay t) (hw : 0 < t.waits) :
    Phase delay (t.complete .success) := by
  cases h with
  | waiting hone hq hr hs he => exact .expired rfl (by simp [hq, hone]) hr hs he
  | expired hzero | aborted hzero | running hzero | returned hzero | never hzero =>
    exact absurd hzero (Nat.ne_of_gt hw)

theorem Phase.dispatch {i : ℕ} {ec : ErrorCode} (h : Phase delay t) (hi : t.queued[i]? = some ec) :
    Phase delay ((t.dequeue i).timerTask ec) := by
  cases h with
  | expired hw hq hr hs he =>
    obtain ⟨rfl, rfl⟩ := eq_of_singleton hq hi
    refine .running hw (by simp [Timer.timerTask, hq]) (by simp [Timer.timerTask, hr]) ?_
    rw [starts] at hs
    simp [Timer.timerTask, starts, hs, TimerEvent.start?, he]
  | aborted hw hq hr hs hc =>
    obtain ⟨rfl, rfl⟩ := eq_of_singleton hq hi
    exact .never hw (by simp [Timer.timerTask, hq]) hr hs hc
  | waiting _ hq | running _ hq | returned _ hq | never _ hq => simp [hq] at hi

theorem Phase.waits_eq_zero (h : Phase delay t) (hr : 0 < t.running) : t.waits = 0 := by
  cases h with
  | waiting _ _ hzero => exact absurd hzero (Nat.ne_of_gt hr)
  | expired hw | aborted hw | running hw | returned hw | never hw => exact hw

theorem Phase.taskReturns (h : Phase delay t) (hr : 0 < t.running) :
    Phase delay t.taskReturns := by
  cases h with
  | running hw hq hone hs =>
    obtain ⟨hwaits, hqueued⟩ := taskReturns_of_idle hw
    exact .returned hwaits (hqueued.trans hq) (by simp [hone]) (by simpa using hs)
  | waiting _ _ hzero | expired _ _ hzero | aborted _ _ hzero | returned _ _ hzero
  | never _ _ hzero =>
    exact absurd hzero (Nat.ne_of_gt hr)

theorem Phase.step (h : Phase delay t) (hs : t.Stepped a u) : Phase delay u := by
  cases hs with
  | expire hw => exact h.expire hw
  | dispatch hi => exact h.dispatch hi
  | taskReturns hr => exact h.taskReturns hr
  | cancel => exact h.cancel

theorem Phase.starts (h : Phase delay t) : starts t.trace = [] ∨ starts t.trace = [delay] := by
  cases h with
  | waiting _ _ _ hs | expired _ _ _ hs | aborted _ _ _ hs | never _ _ _ hs => exact .inl hs
  | running _ _ _ hs | returned _ _ _ hs => exact .inr hs

theorem reachable_phase (ht : (timers delay interval id).Reachable t) : Phase delay t := by
  refine ht.invariant (P := Phase delay) ?_ ?_
  · intro t ht
    cases ht
    exact phase_construct
  · intro t a u _ h hs
    exact h.step (Timer.stepped hs)

namespace Timer

theorem Stepped.canceled (hs : t.Stepped a u) :
    u.canceled = true ↔ t.canceled = true ∨ a = .cancel := by
  cases hs with
  | @dispatch i ec hi => cases ec <;> simp [timerTask]
  | taskReturns => simp
  | cancel => cases hc : t.canceled <;> simp [Timer.cancel, hc]
  | expire => simp

theorem Stepped.callbacks (hs : t.Stepped a u) (h : callbacks t.trace =
    if t.canceled then [t.id] else []) : callbacks u.trace = if u.canceled then [u.id] else [] := by
  cases hs with
  | @dispatch i ec hi =>
    cases ec <;>
      simpa [timerTask, System.callbacks, List.filterMap_cons, TimerEvent.callback?] using h
  | taskReturns => cases hr : t.recurring <;> simpa [Timer.taskReturns, hr] using h
  | cancel =>
    cases hc : t.canceled with
    | true => simpa [Timer.cancel, hc] using h
    | false => simpa [Timer.cancel, hc, System.callbacks, TimerEvent.callback?] using h
  | expire => exact h

theorem Stepped.starts (hs : t.Stepped a u) : System.starts u.trace = System.starts t.trace ∨
    a.isDispatch = true ∧ .success ∈ t.queued := by
  cases hs with
  | @dispatch i ec hi =>
    cases ec with
    | success => exact .inr ⟨rfl, List.mem_of_getElem? hi⟩
    | operationAborted => exact .inl rfl
  | taskReturns => exact .inl (by rw [taskReturns_trace])
  | cancel => exact .inl starts_cancel
  | expire => exact .inl rfl

end Timer

variable {h : List (Transition Timer TimerAction)} {c : Timer}

theorem canceled_iff (hr : (timers delay interval id).Run h c) :
    c.canceled = true ↔ Canceled h := by
  induction hr with
  | start hs =>
    cases hs
    simp [Timer.construct, Canceled]
  | next hr ht ih =>
    rw [(Timer.stepped ht).canceled, ih]
    simp [Canceled, or_and_right, exists_or]

theorem callbacks_eq (ht : (timers delay interval id).Reachable t) :
    callbacks t.trace = if t.canceled then [t.id] else [] := by
  refine ht.invariant (P := fun t => callbacks t.trace = if t.canceled then [t.id] else []) ?_ ?_
  · intro t ht
    cases ht
    rfl
  · intro t a u _ h hs
    exact (Timer.stepped hs).callbacks h

def Breaks (t : Transition Timer TimerAction) : Prop :=
  t.source.canceled = true ∧ starts t.target.trace ≠ starts t.source.trace

def Lapses (t : Transition Timer TimerAction) : Prop :=
  t.label = .taskReturns ∧ t.source.recurring = true ∧ t.source.canceled = false

/-- The first call of `cancel` finds a handler queued with success. -/
def CancelsLate (t : Transition Timer TimerAction) : Prop :=
  t.label = .cancel ∧ t.source.canceled = false ∧ .success ∈ t.source.queued

instance (t : Transition Timer TimerAction) : Decidable (Breaks t) :=
  inferInstanceAs (Decidable (_ ∧ _))

instance (t : Transition Timer TimerAction) : Decidable (Lapses t) :=
  inferInstanceAs (Decidable (_ ∧ _))

theorem careful_iff (t : Transition Timer TimerAction) :
    Careful t ↔ ¬ CancelsLate t ∧ ¬ Lapses t := by
  simp [Careful, CancelsLate, Lapses]

theorem sound_iff (hr : (timers delay interval id).Run h t) (hs : t.step a = some u) :
    Sound delay h ⟨t, a, u⟩ ↔ ¬ Breaks ⟨t, a, u⟩ ∧ ¬ Lapses ⟨t, a, u⟩ := by
  have hcanceled := canceled_iff hr
  have hnext : (timers delay interval id).Run (h ++ [⟨t, a, u⟩]) u := hr.next hs
  constructor
  · intro hsound
    refine ⟨fun hbreaks => hbreaks.2 (hsound.silent (hcanceled.mp hbreaks.1)), fun hlapses => ?_⟩
    obtain ⟨rfl, hrecurring, hnot⟩ : a = .taskReturns ∧ t.recurring = true ∧ t.canceled = false :=
      hlapses
    have hpending := (hsound.armed rfl hrecurring fun hc => by simp [hcanceled.mpr hc] at hnot).1
    cases Timer.stepped hs with
    | taskReturns hrunning =>
      have hwaits := (reachable_phase hr.reachable).waits_eq_zero hrunning
      exact absurd (taskReturns_of_idle hwaits).1 (Nat.ne_of_gt hpending)
  · intro ⟨hbreaks, hlapses⟩
    refine ⟨fun hc => ?_, fun hc => ?_, fun ha hrecurring hc => ?_, ?_⟩
    · by_contra hne
      exact hbreaks ⟨hcanceled.mpr hc, hne⟩
    · change callbacks u.trace = [u.id]
      rw [callbacks_eq hnext.reachable, if_pos ((canceled_iff hnext).mpr hc)]
    · refine absurd ⟨ha, hrecurring, ?_⟩ hlapses
      exact Bool.eq_false_iff.mpr fun hcanceled' => hc (hcanceled.mp hcanceled')
    · change starts u.trace =
        (List.range (starts u.trace).length).map fun k => delay + k * u.interval
      cases (reachable_phase hnext.reachable).starts with
      | inl hnil => simp [hnil]
      | inr hone => simp [hone]

theorem each_sound_iff (hr : (timers delay interval id).Run h c) :
    Each (Sound delay) h ↔ ∀ t ∈ h, ¬ Breaks t ∧ ¬ Lapses t := by
  rw [← each_const]
  exact hr.each_iff fun u t a v hr hs => sound_iff hr hs

/-- A timer that is canceled late owes a start of its task. -/
theorem debt_timers (delay : ℕ) (interval : Option ℕ) (id : ℕ) :
    Debt (timers delay interval id) CancelsLate Breaks
      (fun t => t.canceled = true ∧ .success ∈ t.queued) (fun a => a.isDispatch = true) := by
  constructor
  · intro t ht
    cases ht
    simp [Timer.construct]
  · intro t u a hr hs ⟨hc, hq⟩
    cases Timer.stepped hs with
    | expire hw =>
      cases reachable_phase hr with
      | waiting _ _ _ _ _ hnot => simp [hnot] at hc
      | expired hzero | aborted hzero | running hzero | returned hzero | never hzero =>
        exact absurd hzero (Nat.ne_of_gt hw)
    | @dispatch i ec hi => cases ec <;> exact .inl ⟨hc, List.mem_of_mem_eraseIdx hq⟩
    | taskReturns hrunning =>
      have hwaits := (reachable_phase hr).waits_eq_zero hrunning
      rw [(taskReturns_of_idle hwaits).2] at hq
      exact .inl ⟨taskReturns_canceled ▸ hc, hq⟩
    | cancel =>
      cases hcanceled : t.canceled with
      | true =>
        rw [cancel_of_canceled hcanceled] at hq
        exact .inl ⟨rfl, hq⟩
      | false =>
        rw [(cancel_of_not_canceled hcanceled).2.2.1] at hq
        exact .inr ⟨rfl, hcanceled, by simpa using hq⟩
  · intro t u a hr hs ⟨ha, hc, hq⟩
    cases Timer.stepped hs with
    | cancel =>
      obtain ⟨hcanceled, -, hqueued, -⟩ := cancel_of_not_canceled hc
      exact ⟨hcanceled, hqueued ▸ List.mem_append_left _ hq⟩
    | _ => cases ha
  · intro t u a hr hs ⟨hc, hq⟩
    cases Timer.stepped hs with
    | expire hw => exact .inl ⟨hc, List.mem_append_left _ hq⟩
    | @dispatch i ec hi =>
      cases ec with
      | success =>
        refine .inr ⟨hc, ?_⟩
        simp [Timer.timerTask, starts, TimerEvent.start?]
      | operationAborted =>
        obtain ⟨j, hj⟩ := List.mem_iff_getElem?.mp hq
        refine .inl ⟨hc, List.mem_eraseIdx_iff_getElem?.mpr ⟨j, fun heq => ?_, hj⟩⟩
        subst heq
        simp [hi] at hj
    | taskReturns hrunning =>
      have hwaits := (reachable_phase hr).waits_eq_zero hrunning
      refine .inl ⟨taskReturns_canceled.trans hc, ?_⟩
      rwa [(taskReturns_of_idle hwaits).2]
    | cancel =>
      rw [cancel_of_canceled hc]
      exact .inl ⟨hc, hq⟩
  · intro t u a hr hs ⟨hc, hne⟩
    exact ⟨hc, ((Timer.stepped hs).starts.resolve_left hne).2⟩
  · intro t hr ⟨hc, hq⟩
    obtain ⟨i, hi⟩ := List.mem_iff_getElem?.mp hq
    refine ⟨.dispatch i, (t.dequeue i).timerTask .success, rfl, ?_, hc, ?_⟩
    · change t.step (.dispatch i) = _
      simp [Timer.step, hi]
    · simp [Timer.timerTask, starts, TimerEvent.start?]
  · intro t u a ha hs hlate
    have hcancel : a = .cancel := hlate.1
    subst hcancel
    cases ha

/-- In every run, a canceled timer stays silent and a recurring one goes on, however the queued
handlers are dispatched, exactly if no call of `cancel` is late and the task of a recurring timer
returns canceled. -/
theorem sound_iff_careful (hr : (timers delay interval id).Run h c) :
    (∀ k u, (timers delay interval id).Run (h ++ k) u → (∀ t ∈ k, t.label.isDispatch = true) →
      Each (Sound delay) (h ++ k)) ↔ ∀ t ∈ h, Careful t := by
  have hdebt := (debt_timers delay interval id).forall_iff hr
  simp only [careful_iff, forall_and]
  constructor
  · intro hall
    refine ⟨hdebt.mpr fun k u hru hk t ht => ?_, fun t ht => ?_⟩
    · exact ((each_sound_iff hru).mp (hall k u hru hk) t ht).1
    · have heach := hall [] c (by simpa using hr) (by simp)
      rw [List.append_nil, each_sound_iff hr] at heach
      exact (heach t ht).2
  · intro ⟨hlate, hlapses⟩ k u hru hk
    refine (each_sound_iff hru).mpr fun t ht => ⟨hdebt.mp hlate k u hru hk t ht, ?_⟩
    cases List.mem_append.mp ht with
    | inl hmem => exact hlapses t hmem
    | inr hmem =>
      intro hreturns
      have hdispatch := hk t hmem
      rw [hreturns.1] at hdispatch
      cases hdispatch

/-- A recurring timer is canceled by its task. -/
theorem sound_iff_careful_task : ∃ h c, (timers 100 (some 50) 1).Run h c ∧
    starts c.trace = [100] ∧ callbacks c.trace = [1] ∧
    ∀ k u, (timers 100 (some 50) 1).Run (h ++ k) u → (∀ t ∈ k, t.label.isDispatch = true) →
      Each (Sound 100) (h ++ k) := by
  obtain ⟨h, c, hr, hp⟩ := TransitionSystem.exists_run (.construct 100 (some 50) 1) Timer.step
    [.expire, .dispatch 0, .cancel, .cancel, .taskReturns, .cancel]
    (p := fun h c => decide ((∀ t ∈ h, Careful t) ∧ starts c.trace = [100] ∧
      callbacks c.trace = [1])) (by decide +kernel)
  obtain ⟨hcareful, hstarts, hcallbacks⟩ := of_decide_eq_true hp
  exact ⟨h, c, hr, hstarts, hcallbacks, (sound_iff_careful hr).mpr hcareful⟩

/-- A timer is canceled while its handler is queued; a recurring timer is left alone. -/
theorem timers_unsound :
    (¬ ∀ h c, (timers 100 none 1).Run h c → Each (Sound 100) h) ∧
      ¬ ∀ h c, (timers 100 (some 50) 1).Run h c → Each (Sound 100) h := by
  constructor
  · intro hclaim
    obtain ⟨h, c, hr, hp⟩ := TransitionSystem.exists_run (.construct 100 none 1) Timer.step
      [.expire, .cancel, .dispatch 0] (p := fun h _ => decide (∃ t ∈ h, Breaks t))
      (by decide +kernel)
    obtain ⟨t, ht, hbreaks⟩ := of_decide_eq_true hp
    exact ((each_sound_iff hr).mp (hclaim h c hr) t ht).1 hbreaks
  · intro hclaim
    obtain ⟨h, c, hr, hp⟩ := TransitionSystem.exists_run (.construct 100 (some 50) 1) Timer.step
      [.expire, .dispatch 0, .taskReturns] (p := fun h _ => decide (∃ t ∈ h, Lapses t))
      (by decide +kernel)
    obtain ⟨t, ht, hlapses⟩ := of_decide_eq_true hp
    exact ((each_sound_iff hr).mp (hclaim h c hr) t ht).2 hlapses

end FmClient.System
