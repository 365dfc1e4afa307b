import FmClient.Facade.Process

/-! What one step of a client can do, and what it may rely on: a handler is alone, and makes
its calls in the order that the stage of the connection allows. -/
namespace FmClient.Facade
open Lib Handler Backend FmClient.System
variable {σ : Type} {M : ClientMachine σ} {blank : ControlMessage}

/-- The steps, by what they do. -/
inductive Stepped (M : ClientMachine σ) (blank : ControlMessage) (p : Process σ) :
    Action → Process σ → Prop where
  | notified {event : InputEvent} : Stepped M blank p (.notifyEvent event) (p.notify (.event event))
  | started {task : ℕ} {env : Environment} {notice : Notice} (hh : p.handling = none)
      (ht : p.posted[task]? = some (.machine notice)) :
      Stepped M blank p (.run task env) (p.start M blank env task notice)
  | sent {message : ClientMessage} {cs : List Call} {throws : Bool}
      (hh : p.handling = some ⟨.ready, .send message :: cs, throws⟩) :
      Stepped M blank p .call (p.after (p.link.send message) cs throws)
  | recalled {event : InputEvent} {cs : List Call} {throws : Bool}
      (hh : p.handling = some ⟨.ready, .notifyEvent event :: cs, throws⟩) :
      Stepped M blank p .call ((p.notify (.event event)).after p.link cs throws)
  | dialed {ok : Bool} {cs : List Call} {throws : Bool}
      (hh : p.handling = some ⟨.ready, .dial ok :: cs, throws⟩) :
      Stepped M blank p .call
        { p with link := p.link.dial, handling := some ⟨.opening, .dial ok :: cs, throws⟩ }
  | finishing {ok : Bool} {cs : List Call} {throws : Bool}
      (hh : p.handling = some ⟨.ready, .finish ok :: cs, throws⟩) :
      Stepped M blank p .call
        { p with
          link := p.link.finish
          handling := some ⟨.closing false, .finish ok :: cs, throws⟩ }
  | refused {cs : List Call} {throws : Bool}
      (hh : p.handling = some ⟨.ready, .dial false :: cs, throws⟩) :
      Stepped M blank p .refuse (p.after p.link cs throws)
  | connected {completion : ℕ} {a : Arrival} {cs : List Call} {throws : Bool}
      (hh : p.handling = some ⟨.opening, .dial true :: cs, throws⟩)
      (ha : p.link.completionQueue[completion]? = some a) (ho : a.opens = true) :
      Stepped M blank p (.openNext completion)
        ((p.after (p.link.take completion).connected cs throws).post .proceedGrpcQueue)
  | openFailed {completion : ℕ} {a : Arrival} {cs : List Call} {throws : Bool}
      (hh : p.handling = some ⟨.opening, .dial false :: cs, throws⟩)
      (ha : p.link.completionQueue[completion]? = some a) (ho : a.opens = false) :
      Stepped M blank p (.openNext completion)
        (p.after (p.link.take completion).refused cs throws)
  | openTimedOut {cs : List Call} {throws : Bool}
      (hh : p.handling = some ⟨.opening, .dial false :: cs, throws⟩)
      (hq : p.link.completionQueue = []) :
      Stepped M blank p .openTimeout (p.after p.link.refused cs throws)
  | drained {completion : ℕ} {a : Arrival} {draining ok : Bool} {cs : List Call} {throws : Bool}
      (hh : p.handling = some ⟨.closing draining, .finish ok :: cs, throws⟩)
      (ha : p.link.completionQueue[completion]? = some a) (hd : drains a.tag = true) :
      Stepped M blank p (.closeNext completion)
        { p with
          link := p.link.take completion
          handling := some ⟨.closing true, .finish ok :: cs, throws⟩ }
  | closed {completion : ℕ} {a : Arrival} {draining ok : Bool} {cs : List Call} {throws : Bool}
      (hh : p.handling = some ⟨.closing draining, .finish ok :: cs, throws⟩)
      (ha : p.link.completionQueue[completion]? = some a) (hd : drains a.tag = false)
      (hc : a.closes = ok) :
      Stepped M blank p (.closeNext completion)
        (p.after (p.link.take completion).finished cs throws)
  | closeStuck {releaseTag : GrpcTag} {ok : Bool} {cs : List Call} {throws : Bool}
      (hh : p.handling = some ⟨.closing false, .finish ok :: cs, throws⟩)
      (hq : p.link.completionQueue = []) (hd : drains releaseTag = true) :
      Stepped M blank p (.closeTimeout releaseTag)
        { p with handling := some ⟨.closing true, .finish ok :: cs, throws⟩ }
  | closeTimedOut {releaseTag : GrpcTag} {cs : List Call} {throws : Bool}
      (hh : p.handling = some ⟨.closing false, .finish false :: cs, throws⟩)
      (hq : p.link.completionQueue = []) (hd : drains releaseTag = false) :
      Stepped M blank p (.closeTimeout releaseTag) (p.after p.link.finished cs throws)
  | threw (hh : p.handling = some ⟨.ready, [], true⟩) :
      Stepped M blank p .leave { p with handling := none }
  | left (hh : p.handling = some ⟨.ready, [], false⟩) :
      Stepped M blank p .leave
        { p with
          machine := p.machine.proceed.1
          posted := p.posted ++ p.machine.proceed.2.toList.map .machine
          handling := none }
  | completed {operation : ℕ} {message : ControlMessage} {ok : Bool} {link : Link}
      (hl : p.link.complete operation message ok = some link) :
      Stepped M blank p (.complete operation message ok) { p with link := link }
  | taken {task completion : ℕ} {a : Arrival} (ht : p.posted[task]? = some .proceedGrpcQueue)
      (ha : p.link.completionQueue[completion]? = some a) :
      Stepped M blank p (.asyncNext task completion)
        { p with
          link := p.link.take completion
          posted := p.posted.eraseIdx task
          readers := p.readers ++ [.next (some a)] }
  | timedOut {task : ℕ} (ht : p.posted[task]? = some .proceedGrpcQueue)
      (hq : p.link.completionQueue = []) :
      Stepped M blank p (.timeout task)
        { p with posted := p.posted.eraseIdx task, readers := p.readers ++ [.next none] }
  | received {reader call : ℕ} (hn : p.readers[reader]? = some (.next (some ⟨.read, call, true⟩))) :
      Stepped M blank p (.proceed reader)
        { p.notify (.received p.link.backend.toRead) with readers := p.readers.set reader .renew }
  | wrote {reader call : ℕ} (hn : p.readers[reader]? = some (.next (some ⟨.write, call, true⟩))) :
      Stepped M blank p (.proceed reader)
        { p with link := p.link.writeCompleted, readers := p.readers.set reader .last }
  | dropped {reader : ℕ} {next : Option Arrival} (hn : p.readers[reader]? = some (.next next))
      (hd : ∀ tag call, next = some ⟨tag, call, true⟩ → drains tag = false) :
      Stepped M blank p (.proceed reader) { p with readers := p.readers.set reader .last }
  | renewed {reader : ℕ} (hn : p.readers[reader]? = some .renew) :
      Stepped M blank p (.proceed reader)
        { p with link := p.link.read, readers := p.readers.set reader .last }
  | ended {reader : ℕ} (hn : p.readers[reader]? = some .last) :
      Stepped M blank p (.proceed reader)
        { p with
          posted := p.posted ++ if p.link.backend.keepReader then [.proceedGrpcQueue] else []
          readers := p.readers.eraseIdx reader }

namespace Process
variable {p q : Process σ} {a : Action} {activity : Activity}

theorem call_stepped (hh : p.handling = some activity) (hs : p.call activity = some q) :
    Stepped M blank p .call q := by
  unfold call at hs
  split at hs <;> cases hs
  · exact .sent hh
  · exact .recalled hh
  · exact .dialed hh
  · exact .finishing hh

theorem open_stepped {completion : ℕ} (hh : p.handling = some activity)
    (hs : p.openNext completion activity = some q) :
    Stepped M blank p (.openNext completion) q := by
  unfold openNext at hs
  split at hs
  · rename_i ok cs throws
    split at hs
    · rename_i arrival ha
      split at hs <;> cases hs
      rename_i ho
      cases ok with
      | true => exact .connected hh ha ho
      | false => exact .openFailed hh ha ho
    · cases hs
  · cases hs

theorem close_stepped {completion : ℕ} (hh : p.handling = some activity)
    (hs : p.closeNext completion activity = some q) :
    Stepped M blank p (.closeNext completion) q := by
  unfold closeNext at hs
  split at hs
  · split at hs
    · rename_i arrival ha
      split at hs
      · rename_i hd
        cases hs
        exact .drained hh ha hd
      · rename_i hd
        split at hs <;> cases hs
        rename_i hc
        exact .closed hh ha (Bool.eq_false_iff.mpr hd) hc
    · cases hs
  · cases hs

theorem closeTimeout_stepped {releaseTag : GrpcTag} (hh : p.handling = some activity)
    (hs : p.closeTimeout releaseTag activity = some q) :
    Stepped M blank p (.closeTimeout releaseTag) q := by
  unfold closeTimeout at hs
  split at hs
  · split at hs
    · rename_i hq
      split at hs
      · rename_i hd
        cases hs
        exact .closeStuck hh hq hd
      · rename_i hd
        split at hs <;> cases hs
        rename_i hok
        subst hok
        exact .closeTimedOut hh hq (Bool.eq_false_iff.mpr hd)
    · cases hs
  · cases hs

theorem proceed_stepped {reader : ℕ} {r : Reader} (hn : p.readers[reader]? = some r) :
    Stepped M blank p (.proceed reader) (p.proceed reader r) := by
  unfold proceed
  split
  · exact .received hn
  · exact .wrote hn
  · rename_i hread hwrite
    refine .dropped hn fun tag call heq => ?_
    cases tag with
    | read => exact absurd heq (hread call)
    | write => exact absurd heq (hwrite call)
    | «open» | close => rfl
  · exact .renewed hn
  · exact .ended hn

theorem stepped (hs : p.step M blank a = some q) : Stepped M blank p a q := by
  cases a with
  | notifyEvent event =>
    cases hs
    exact .notified
  | run task env =>
    simp only [Process.step] at hs
    split at hs <;> cases hs
    rename_i hh ht
    exact .started hh ht
  | call =>
    obtain ⟨activity, hh, hs⟩ := Option.bind_eq_some_iff.mp hs
    exact call_stepped hh hs
  | refuse =>
    obtain ⟨activity, hh, hs⟩ := Option.bind_eq_some_iff.mp hs
    unfold refuse at hs
    split at hs <;> cases hs
    exact .refused hh
  | openNext completion =>
    obtain ⟨activity, hh, hs⟩ := Option.bind_eq_some_iff.mp hs
    exact open_stepped hh hs
  | openTimeout =>
    obtain ⟨activity, hh, hs⟩ := Option.bind_eq_some_iff.mp hs
    unfold openTimeout at hs
    split at hs
    · split at hs <;> cases hs
      rename_i hq
      exact .openTimedOut hh hq
    · cases hs
  | closeNext completion =>
    obtain ⟨activity, hh, hs⟩ := Option.bind_eq_some_iff.mp hs
    exact close_stepped hh hs
  | closeTimeout releaseTag =>
    obtain ⟨activity, hh, hs⟩ := Option.bind_eq_some_iff.mp hs
    exact closeTimeout_stepped hh hs
  | leave =>
    obtain ⟨activity, hh, hs⟩ := Option.bind_eq_some_iff.mp hs
    unfold leave at hs
    split at hs <;> cases hs
    · exact .threw hh
    · exact .left hh
  | complete operation message ok =>
    obtain ⟨link, hl, rfl⟩ := Option.map_eq_some_iff.mp hs
    exact .completed hl
  | asyncNext task completion =>
    simp only [Process.step] at hs
    split at hs <;> cases hs
    rename_i ht ha
    exact .taken ht ha
  | timeout task =>
    simp only [Process.step] at hs
    split at hs
    · rename_i ht
      split at hs <;> cases hs
      rename_i hq
      exact .timedOut ht hq
    · cases hs
  | proceed reader =>
    obtain ⟨r, hn, rfl⟩ := Option.map_eq_some_iff.mp hs
    exact proceed_stepped hn

end Process

/-! ### The sections of a task -/

namespace Process
variable {p : Process σ}

/-- The sections between which nobody comes. -/
def serve (p : Process σ) (reader : ℕ) : Option Arrival → Process σ
  | some ⟨.read, call, true⟩ =>
    ((p.proceed reader (.next (some ⟨.read, call, true⟩))).proceed reader .renew).proceed reader
      .last
  | next => (p.proceed reader (.next next)).proceed reader .last

/-- Together they are `proceedGrpcQueue`, on objects that are told apart. -/
theorem serve_proceedGrpcQueue (reader : ℕ) (next : Option Arrival)
    {backend : ClientBackend (Stamped ClientMessage) ℕ}
    {effects : Effects (Stamped ClientMessage) ℕ}
    (he : p.link.backend.proceedGrpcQueue (next.map Arrival.completion) = (backend, effects)) :
    (p.serve reader next).link.backend = { backend with
      toRead := if effects.read then some (p.link.buffer + 1) else p.link.backend.toRead } ∧
    (p.serve reader next).link.written =
      p.link.written ++ effects.write.toList.map (fun m => ⟨p.link.call, m⟩) ∧
    (p.serve reader next).posted =
      (if effects.read then p.notify (.received effects.received) else p).posted ++
        if effects.post then [.proceedGrpcQueue] else [] := by
  obtain _ | ⟨_ | _ | _ | _, call, _ | _⟩ := next <;> cases he
  case some.write.true.refl =>
    refine ⟨?_, rfl, ?_⟩ <;> cases hq : p.link.backend.sendingQueue <;>
      simp [serve, proceed, Link.writeCompleted, Link.write, ClientBackend.writeCompleted, hq]
  all_goals exact ⟨rfl, (List.append_nil _).symm, rfl⟩

end Process

/-! ### A handler is alone and in order -/

section
variable {s t : Stage}

theorem next_send {message : ClientMessage} (h : s.next (.send message) = some t) :
    (s = .opened ∨ s = .greeting ∧ message.command = .setup) ∧ t = .opened := by
  cases s <;> simp_all [Stage.next]

theorem next_dial {ok : Bool} (h : s.next (.dial ok) = some t) :
    (s = .closed ∨ s = .dialing) ∧ t = if ok then .greeting else .closed := by
  cases s <;> simp_all [Stage.next]

theorem next_finish {ok : Bool} (h : s.next (.finish ok) = some t) :
    (s = .opened ∨ s = .closing) ∧ t = .closed := by
  cases s <;> simp_all [Stage.next]

end

def Progress.fits : Progress → Stage → Bool
  | .ready, s => s ≠ .dialing && s ≠ .closing
  | .opening, s => s = .dialing
  | .closing _, s => s = .closing

def Task.isMachine : Task → Bool
  | .machine _ => true
  | .proceedGrpcQueue => false

@[simp] theorem isMachine_machine (notice : Notice) : (Task.machine notice).isMachine = true := rfl
@[simp] theorem isMachine_proceedGrpcQueue : Task.proceedGrpcQueue.isMachine = false := rfl

namespace Process

def progress (p : Process σ) : Progress := p.handling.elim .ready Activity.progress

def machineTasks (p : Process σ) : ℕ := p.posted.countP Task.isMachine

/-- Only a task of the machine, posted or in a handler, will clear the flag, and none does once
a handler has thrown. -/
structure Inv (M : ClientMachine σ) (p : Process σ) : Prop where
  rests : M.rests p.client.state = true
  tasks : p.machineTasks + p.handling.isSome.toNat ≤ p.machine.processing.toNat
  fits : p.progress.fits p.link.stage = true
  follows : ∀ a, p.handling = some a → ∃ t, p.link.stage.follow a.calls = some t ∧
    (a.throws = false → M.stage p.client.state = t)
  settled : p.handling = none → p.machineTasks = p.machine.processing.toNat →
    p.link.stage = M.stage p.client.state

theorem initial_inv : (initial M).Inv M :=
  ⟨M.initial_rests, Nat.le_refl 0, rfl, by simp [initial], fun _ _ => M.initial_stage.symm⟩

variable {p q : Process σ}

theorem Inv.same (h : p.Inv M) (hc : q.client = p.client) (hm : q.machineTasks = p.machineTasks)
    (hp : q.machine.processing = p.machine.processing) (hh : q.handling = p.handling)
    (hs : q.link.stage = p.link.stage) : q.Inv M := by
  obtain ⟨hrests, htasks, hfits, hfollows, hsettled⟩ := h
  constructor
  · rw [hc]; exact hrests
  · rw [hm, hh, hp]; exact htasks
  · rw [progress, hh, hs]; exact hfits
  · rw [hh, hs, hc]; exact hfollows
  · rw [hh, hm, hp, hs, hc]; exact hsettled

theorem machineTasks_append (tasks : List Task) :
    (p.posted ++ tasks).countP Task.isMachine = p.machineTasks + tasks.countP Task.isMachine :=
  List.countP_append

theorem machineTasks_erase {task : ℕ} {t : Task} (ht : p.posted[task]? = some t) :
    p.machineTasks = (p.posted.eraseIdx task).countP Task.isMachine + t.isMachine.toNat :=
  Session.countP_eraseIdx Task.isMachine ht

theorem machines_count (notices : List Notice) :
    (notices.map Task.machine).countP Task.isMachine = notices.length := by
  rw [List.countP_eq_length.mpr (by simp), List.length_map]

theorem notify_tasks (notice : Notice) : ∃ n : ℕ,
    (p.notify notice).machineTasks = p.machineTasks + n ∧
      (p.notify notice).machine.processing.toNat = p.machine.processing.toNat + n := by
  obtain ⟨htasks, hpost⟩ := p.machine.notifyEvent_tasks notice
  refine ⟨(p.machine.notifyEvent notice).2.toList.length, ?_, ?_⟩
  · exact (machineTasks_append _).trans (by rw [machines_count])
  · have hbusy := SerialQueue.busy_submit p.machine.tasks notice
    rw [← htasks, ← hpost] at hbusy
    exact hbusy

theorem Inv.notify (h : p.Inv M) (notice : Notice) : (p.notify notice).Inv M := by
  obtain ⟨n, hmachine, hprocessing⟩ := p.notify_tasks notice
  refine ⟨h.rests, ?_, h.fits, h.follows, fun hh heq => h.settled hh ?_⟩
  · have htasks := h.tasks
    rw [hmachine, hprocessing]
    change p.machineTasks + n + p.handling.isSome.toNat ≤ _
    omega
  · omega

theorem Inv.after (h : p.Inv M) {pr : Progress} {c : Call} {cs : List Call} {throws : Bool}
    {link : Link} (hh : p.handling = some ⟨pr, c :: cs, throws⟩)
    (hn : p.link.stage.next c = some link.stage) (hf : Progress.ready.fits link.stage = true) :
    (p.after link cs throws).Inv M := by
  obtain ⟨t, hfollow, hstage⟩ := h.follows _ hh
  refine ⟨h.rests, ?_, hf, ?_, fun hnone => by cases hnone⟩
  · have htasks := h.tasks
    rw [hh] at htasks
    exact htasks
  · intro activity ha
    cases ha
    simp only [follow_cons, hn, Option.bind_some] at hfollow
    exact ⟨t, hfollow, hstage⟩

theorem Inv.next (h : p.Inv M) {pr : Progress} {c : Call} {cs : List Call} {throws : Bool}
    (hh : p.handling = some ⟨pr, c :: cs, throws⟩) :
    pr.fits p.link.stage = true ∧ ∃ t, p.link.stage.next c = some t := by
  have hf := h.fits
  rw [progress, hh] at hf
  obtain ⟨t, hfollow, -⟩ := h.follows _ hh
  simp only [follow_cons, Option.bind_eq_some_iff] at hfollow
  obtain ⟨u, hu, -⟩ := hfollow
  exact ⟨hf, u, hu⟩

theorem Inv.wait (h : p.Inv M) {pr qr : Progress} {c : Call} {cs : List Call} {throws : Bool}
    {link : Link} (hh : p.handling = some ⟨pr, c :: cs, throws⟩)
    (hn : link.stage.next c = p.link.stage.next c) (hf : qr.fits link.stage = true) :
    ({ p with link := link, handling := some ⟨qr, c :: cs, throws⟩ } : Process σ).Inv M := by
  obtain ⟨t, hfollow, hstage⟩ := h.follows _ hh
  refine ⟨h.rests, ?_, hf, ?_, fun hnone => by cases hnone⟩
  · have htasks := h.tasks
    rw [hh] at htasks
    exact htasks
  · intro activity ha
    cases ha
    simp only [follow_cons, ← hn] at hfollow ⊢
    exact ⟨t, hfollow, hstage⟩

theorem Inv.stage_run (h : p.Inv M) {task : ℕ} {notice : Notice} (hh : p.handling = none)
    (ht : p.posted[task]? = some (.machine notice)) : p.link.stage = M.stage p.client.state := by
  refine h.settled hh ?_
  have htasks := h.tasks
  have herase := machineTasks_erase ht
  have hle := Bool.toNat_le p.machine.processing
  simp only [isMachine_machine, Bool.toNat_true] at herase
  omega

theorem Inv.start (h : p.Inv M) {task : ℕ} {env : Environment} {notice : Notice}
    (hh : p.handling = none) (ht : p.posted[task]? = some (.machine notice)) :
    (p.start M blank env task notice).Inv M := by
  have hstage := h.stage_run hh ht
  obtain ⟨t, ⟨es, htrace, hfollow, -⟩, hok⟩ :=
    M.handles env (p.event blank notice) p.client.state p.client.context h.rests
  rw [← hstage] at hfollow
  refine ⟨?_, ?_, ?_, ?_, fun hnone => by cases hnone⟩
  · simp only [Process.start, result]
    cases hr : M.handleEvent env (p.event blank notice) p.client.state p.client.context with
    | ok state w => exact M.rests_next env _ _ _ _ _ h.rests hr
    | error f w => exact h.rests
  · have htasks := h.tasks
    have herase := machineTasks_erase ht
    have hle := Bool.toNat_le p.machine.processing
    rw [hh] at htasks
    simp only [isMachine_machine, Bool.toNat_true, Option.isSome_none, Bool.toNat_false,
      Nat.add_zero] at herase htasks
    simp only [Process.start, machineTasks, Option.isSome_some, Bool.toNat_true]
    omega
  · have hf := h.fits
    rw [progress, hh] at hf
    exact hf
  · intro activity ha
    cases ha
    refine ⟨t, ?_, fun hthrows => ?_⟩
    · rw [result, htrace, List.drop_left]
      exact hfollow
    · simp only [Process.start, result] at hthrows ⊢
      cases hr : M.handleEvent env (p.event blank notice) p.client.state p.client.context with
      | ok state w => exact hok state w hr
      | error f w => simp [hr, failed] at hthrows

theorem Inv.ends (h : p.Inv M) {throws : Bool} (hh : p.handling = some ⟨.ready, [], throws⟩) :
    p.machineTasks = 0 ∧ p.machine.processing = true ∧ Progress.ready.fits p.link.stage = true ∧
      (throws = false → p.link.stage = M.stage p.client.state) := by
  have htasks := h.tasks
  have hle := Bool.toNat_le p.machine.processing
  have hf := h.fits
  obtain ⟨t, hfollow, hstage⟩ := h.follows _ hh
  simp only [hh, Option.isSome_some, Bool.toNat_true] at htasks
  rw [progress, hh] at hf
  cases hfollow
  refine ⟨by omega, ?_, hf, fun ht => (hstage ht).symm⟩
  cases hp : p.machine.processing with
  | true => rfl
  | false => simp [hp] at htasks

theorem Inv.threw (h : p.Inv M) (hh : p.handling = some ⟨.ready, [], true⟩) :
    ({ p with handling := none } : Process σ).Inv M := by
  obtain ⟨hnone, hprocessing, hf, -⟩ := h.ends hh
  refine ⟨h.rests, ?_, hf, by simp, fun _ heq => ?_⟩
  · exact Nat.le_trans (Nat.le_of_eq hnone) (Nat.zero_le _)
  · have hcontra : p.machineTasks = p.machine.processing.toNat := heq
    simp [hnone, hprocessing] at hcontra

theorem Inv.left (h : p.Inv M) (hh : p.handling = some ⟨.ready, [], false⟩) :
    ({ p with
      machine := p.machine.proceed.1
      posted := p.posted ++ p.machine.proceed.2.toList.map .machine
      handling := none } : Process σ).Inv M := by
  obtain ⟨hnone, hprocessing, hf, hstage⟩ := h.ends hh
  refine ⟨h.rests, ?_, hf, by simp, fun _ _ => hstage rfl⟩
  obtain ⟨htasks, hpost⟩ := p.machine.proceed_tasks
  change List.countP Task.isMachine _ + 0 ≤ p.machine.proceed.1.tasks.busy.toNat
  rw [machineTasks_append, machines_count, hnone, htasks, hpost,
    SerialQueue.busy_complete p.machine.tasks hprocessing]
  omega

theorem complete_stage {l k : Link} {operation : ℕ} {message : ControlMessage} {ok : Bool}
    (hk : l.complete operation message ok = some k) : k.stage = l.stage := by
  obtain ⟨op, -, rfl⟩ := Link.complete_eq_some _ hk
  rfl

theorem Inv.step {a : Action} (h : p.Inv M) (hs : Stepped M blank p a q) : q.Inv M := by
  cases hs with
  | notified => exact h.notify _
  | started hh ht => exact h.start hh ht
  | sent hh =>
    obtain ⟨-, t, hn⟩ := h.next hh
    obtain ⟨-, rfl⟩ := next_send hn
    exact h.after hh hn rfl
  | recalled hh =>
    have hf := (h.next hh).1
    exact (h.notify _).after hh rfl hf
  | dialed hh =>
    obtain ⟨hf, t, hn⟩ := h.next hh
    obtain ⟨hs, -⟩ := next_dial hn
    refine h.wait hh ?_ rfl
    obtain hs | hs := hs <;> rw [hs] <;> rfl
  | finishing hh =>
    obtain ⟨hf, t, hn⟩ := h.next hh
    obtain ⟨hs, -⟩ := next_finish hn
    refine h.wait hh ?_ rfl
    obtain hs | hs := hs <;> rw [hs] <;> rfl
  | refused hh =>
    obtain ⟨hf, t, hn⟩ := h.next hh
    obtain ⟨hs | hs, rfl⟩ := next_dial hn
    · exact h.after hh (by rw [hs]; rfl) hf
    · rw [hs] at hf
      cases hf
  | @connected completion arrival cs throws hh =>
    obtain ⟨-, t, hn⟩ := h.next hh
    obtain ⟨-, rfl⟩ := next_dial hn
    have hafter : (p.after (p.link.take completion).connected cs throws).Inv M := h.after hh hn rfl
    refine hafter.same rfl ?_ rfl rfl rfl
    exact (machineTasks_append _).trans (Nat.add_zero _)
  | openFailed hh | openTimedOut hh =>
    obtain ⟨-, t, hn⟩ := h.next hh
    obtain ⟨-, rfl⟩ := next_dial hn
    exact h.after hh hn rfl
  | drained hh =>
    have hf := (h.next hh).1
    exact h.wait hh rfl hf
  | closed hh | closeTimedOut hh =>
    obtain ⟨-, t, hn⟩ := h.next hh
    obtain ⟨-, rfl⟩ := next_finish hn
    exact h.after hh hn rfl
  | closeStuck hh =>
    have hf := (h.next hh).1
    exact h.wait hh rfl hf
  | threw hh => exact h.threw hh
  | left hh => exact h.left hh
  | completed hl => exact h.same rfl rfl rfl rfl (complete_stage hl)
  | taken ht | timedOut ht => exact h.same rfl (machineTasks_erase ht).symm rfl rfl rfl
  | received => exact (h.notify _).same rfl rfl rfl rfl rfl
  | wrote | dropped | renewed => exact h.same rfl rfl rfl rfl rfl
  | ended =>
    refine h.same rfl ?_ rfl rfl rfl
    change List.countP Task.isMachine _ = _
    rw [machineTasks_append]
    cases p.link.backend.keepReader <;> rfl

end Process

theorem reachable_inv {p : Process σ} (hp : (process M blank).Reachable p) : p.Inv M :=
  hp.invariant (fun _ h => h ▸ Process.initial_inv) fun _ _ _ _ hi hs =>
    hi.step (Process.stepped hs)

theorem Process.Inv.alone {p : Process σ} (h : p.Inv M) {activity : Activity}
    (hh : p.handling = some activity) : ∀ t ∈ p.posted, t.isMachine = false := by
  have htasks := h.tasks
  have hle := Bool.toNat_le p.machine.processing
  simp only [hh, Option.isSome_some, Bool.toNat_true] at htasks
  have hzero : p.machineTasks = 0 := by omega
  simpa [machineTasks, List.countP_eq_zero] using hzero

theorem Stepped.connects {p q : Process σ} {a : Action} (hs : Stepped M blank p a q)
    (h : p.Inv M) (hp : p.link.stage.isOpen = false) (hq : q.link.stage.isOpen = true) :
    ∃ completion arrival cs throws, p.handling = some ⟨.opening, .dial true :: cs, throws⟩ ∧
      p.link.completionQueue[completion]? = some arrival ∧ arrival.opens = true ∧
      q = (p.after (p.link.take completion).connected cs throws).post .proceedGrpcQueue := by
  cases hs with
  | connected hh ha ho => exact ⟨_, _, _, _, hh, ha, ho, rfl⟩
  | sent hh =>
    obtain ⟨-, t, hn⟩ := h.next hh
    obtain ⟨ho | ⟨ho, -⟩, -⟩ := next_send hn <;> rw [ho] at hp <;> cases hp
  | dialed | finishing | openFailed | openTimedOut | closed | closeTimedOut => cases hq
  | completed hl =>
    rw [Process.complete_stage hl, hp] at hq
    cases hq
  | _ => exact absurd (hp.symm.trans hq) Bool.false_ne_true

/-! ### What happens to the link -/

namespace Link
variable {l k : Link}

theorem take_length : l.take l.completionQueue.length = l := by
  unfold take
  rw [List.eraseIdx_of_length_le (Nat.le_refl _)]

def Changes (l k : Link) : Prop := ∃ i, k = l.take i ∨ (l.take i).Move k

theorem Changes.refl (l : Link) : l.Changes l := ⟨_, .inl take_length.symm⟩

theorem Move.changes (h : l.Move k) : l.Changes k :=
  ⟨l.completionQueue.length, .inr (take_length.symm ▸ h)⟩

end Link

theorem Stepped.changes {p q : Process σ} {a : Action} (hs : Stepped M blank p a q)
    (h : p.Inv M) : p.link.Changes q.link := by
  cases hs with
  | sent hh =>
    obtain ⟨-, t, hn⟩ := h.next hh
    obtain ⟨ho | ⟨hg, hsetup⟩, -⟩ := next_send hn
    · exact (Link.Move.send ho).changes
    · exact (Link.Move.greet hg hsetup).changes
  | dialed hh =>
    obtain ⟨hf, t, hn⟩ := h.next hh
    obtain ⟨hc | hd, -⟩ := next_dial hn
    · exact (Link.Move.dial hc).changes
    · rw [hd] at hf
      cases hf
  | finishing hh =>
    obtain ⟨hf, t, hn⟩ := h.next hh
    obtain ⟨ho | hc, -⟩ := next_finish hn
    · exact (Link.Move.finish ho).changes
    · rw [hc] at hf
      cases hf
  | connected hh => exact ⟨_, .inr (.connected (of_decide_eq_true (h.next hh).1))⟩
  | openFailed hh => exact ⟨_, .inr (.refused (of_decide_eq_true (h.next hh).1))⟩
  | openTimedOut hh => exact (Link.Move.refused (of_decide_eq_true (h.next hh).1)).changes
  | closed hh => exact ⟨_, .inr (.finished (of_decide_eq_true (h.next hh).1))⟩
  | closeTimedOut hh => exact (Link.Move.finished (of_decide_eq_true (h.next hh).1)).changes
  | drained | taken => exact ⟨_, .inl rfl⟩
  | completed hl => exact (Link.Move.complete hl).changes
  | wrote => exact Link.Move.writeCompleted.changes
  | renewed => exact Link.Move.read.changes
  | _ => exact .refl _

theorem link_invariant {I : Link → Prop} {C : Link → Link → Prop}
    {h : List (Transition (Process σ) Action)} {p : Process σ} (hr : (process M blank).Run h p)
    (hinit : I .initial) (htake : ∀ l i, I l → I (l.take i))
    (hcond : ∀ l k i, C l k → C (l.take i) k) (hmove : ∀ l k, I l → l.Move k → C l k → I k)
    (hall : ∀ t ∈ h, C t.source.link t.target.link) : I p.link := by
  refine hr.invariant_of_forall (P := fun p => I p.link) (fun _ h => h ▸ hinit) ?_ hall
  intro p a q hp hi hs hc
  obtain ⟨i, hq | hm⟩ := (Process.stepped hs).changes (reachable_inv hp)
  · exact hq ▸ htake _ i hi
  · exact hmove _ _ (htake _ i hi) hm (hcond _ _ i hc)

def Dials (t : Transition (Process σ) Action) : Prop := t.target.link.call ≠ t.source.link.call

instance (t : Transition (Process σ) Action) : Decidable (Dials t) :=
  inferInstanceAs (Decidable (_ ≠ _))

/-- `openFacadeConnection` finds the connection open. -/
def Connects (t : Transition (Process σ) Action) : Prop :=
  t.source.link.stage = .dialing ∧ t.target.link.stage = .greeting

instance (t : Transition (Process σ) Action) : Decidable (Connects t) :=
  inferInstanceAs (Decidable (_ ∧ _))

/-! ### Parts of runs -/

/-- A message that nothing was read into, where the first values of the enumerations are these. -/
def unread : ControlMessage := { command := .heartbeat, response := .accepted }

namespace Action

def handle : Action := .run 0 (.permissive fun _ => true)

/-- A message is read, and the task that takes it reads on and posts itself. -/
def reading (operation : ℕ) (message : ControlMessage) : List Action :=
  [.complete operation message true, .asyncNext 0 0, .proceed 0, .proceed 0, .proceed 0]

/-- A message has been written, and the task that is told so posts itself. -/
def writing (operation : ℕ) : List Action :=
  [.complete operation unread true, .asyncNext 0 0, .proceed 0, .proceed 0]

def opening : List Action :=
  [.notifyEvent (.user (.operate 5 [])), handle, .call, .complete 0 unread true, .openNext 0,
    .call, .leave]

/-- The `SETUP` and `CHANNELS_READY` of a pilot are accepted; the latter is written only after
`middle`. -/
def operating (middle : List Action) : List Action :=
  opening ++ writing 1 ++ reading 0 { command := .setup, response := .accepted } ++
    [handle, .call, .leave] ++ middle ++
    reading 0 { command := .channelsReady, response := .accepted } ++ [handle, .leave]

def releasing (operation : ℕ) : List Action :=
  reading operation { command := .release, response := .accepted } ++ [handle, .call, .call] ++
    List.replicate 3 (.complete 0 unread true) ++ List.replicate 3 (.closeNext 0) ++ [.leave]

/-- A task finds nothing, and posts itself if it is still wanted. -/
def idling : List Action := [.timeout 0, .proceed 0, .proceed 0]

end Action

end FmClient.Facade
