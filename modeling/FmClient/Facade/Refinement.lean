import FmClient.Facade.ProcessSpec
import FmClient.Lib.Simulation

/-! A client in whole, with its threads and with gRPC, does what its machine does on one event
after the other: each that it is notified of is handled once, in that order, and what the machine
sends is what the backend is given. -/
namespace FmClient.Facade
open Lib Handler Backend FmClient.System
variable {σ : Type} {M : ClientMachine σ} {blank : ControlMessage}

def machine (M : ClientMachine σ) : TransitionSystem (Client σ) Handling :=
  .ofStep ⟨M.initial, .initial⟩ (Client.step M.handleEvent)

def Task.notice? : Task → Option Notice
  | .machine notice => some notice
  | .proceedGrpcQueue => none

def notified? (t : Transition (Process σ) Action) : Option Notice :=
  match t.label with
  | .notifyEvent event => some (.event event)
  | .call =>
    match t.source.handling with
    | some ⟨.ready, .notifyEvent event :: _, _⟩ => some (.event event)
    | _ => none
  | .proceed reader =>
    match t.source.readers[reader]? with
    | some (.next (some ⟨.read, _, true⟩)) => some (.received t.source.link.backend.toRead)
    | _ => none
  | _ => none

def started? (t : Transition (Process σ) Action) : Option Notice :=
  match t.label with
  | .run task _ => (t.source.posted[task]?).bind Task.notice?
  | _ => none

def handling? (blank : ControlMessage) (t : Transition (Process σ) Action) : Option Handling :=
  match t.label with
  | .run _ env => (started? t).map fun notice => ⟨env, t.source.event blank notice⟩
  | _ => none

def Throws (t : Transition (Process σ) Action) : Prop :=
  t.target.handling.any Activity.throws = true

instance (t : Transition (Process σ) Action) : Decidable (Throws t) :=
  inferInstanceAs (Decidable (_ = _))

def Call.message? : Call → Option ClientMessage
  | .send message => some message
  | _ => none

def Process.unsent (p : Process σ) : List ClientMessage :=
  (p.handling.elim [] Activity.calls).filterMap Call.message?

/-! ### The machine -/

section
variable {p q : Process σ} {a : Action}

theorem settled_of_ok {s : σ} {r : EStateM.Result Fault Context σ} (hr : failed r = false) :
    ∃ state w, r = .ok state w ∧ settled s r = ⟨state, w⟩ := by
  cases r with
  | ok state w => exact ⟨state, w, rfl, rfl⟩
  | error f w => cases hr

theorem Stepped.handling (hs : Stepped M blank p a q) :
    (∃ task env notice, a = .run task env ∧ p.posted[task]? = some (.machine notice) ∧
      q = p.start M blank env task notice) ∨
    handling? blank ⟨p, a, q⟩ = none ∧ q.client = p.client := by
  cases hs with
  | started hh ht => exact .inl ⟨_, _, _, rfl, ht, rfl⟩
  | _ => exact .inr ⟨rfl, rfl⟩

/-- Where no handler throws, the machine of the client takes the steps of the machine alone. -/
theorem simulation : Simulation (process M blank) (machine M) Process.client (handling? blank)
    fun t => ¬ Throws t where
  init p hp := hp ▸ rfl
  step p a q b _ hs hc hb := by
    obtain ⟨task, env, notice, rfl, ht, rfl⟩ | ⟨hnone, -⟩ := (Process.stepped hs).handling
    · simp only [handling?, started?, ht, Option.bind_some, Task.notice?, Option.map_some,
        Option.some.injEq] at hb
      subst hb
      have hfailed : failed (p.result M blank env notice) = false := by
        simpa [Throws, Process.start] using hc
      obtain ⟨state, w, hr, hsettled⟩ := settled_of_ok (s := p.client.state) hfailed
      rw [Process.result] at hr
      simp only [machine, TransitionSystem.ofStep, Client.step, hr, Process.start, hsettled]
    · rw [hnone] at hb
      cases hb
  stutter p a q _ hs _ hb := by
    obtain ⟨task, env, notice, rfl, ht, rfl⟩ | ⟨-, hclient⟩ := (Process.stepped hs).handling
    · simp [handling?, started?, ht, Task.notice?] at hb
    · exact hclient

end

/-! ### In the order of `notifyEvent` -/

section
variable {α β : Type*} {f : α → Option β} {l : List α} {i : ℕ} {x : α} {b : β}

theorem filterMap_concat : (l ++ [x]).filterMap f = l.filterMap f ++ (f x).toList := by
  cases hx : f x <;> simp [hx]

theorem eq_take_cons_drop (hi : l[i]? = some x) : l = l.take i ++ x :: l.drop (i + 1) := by
  obtain ⟨hlt, hget⟩ := List.getElem?_eq_some_iff.mp hi
  rw [← hget, List.getElem_cons_drop, List.take_append_drop]

theorem filterMap_eraseIdx_none (hi : l[i]? = some x) (hx : f x = none) :
    (l.eraseIdx i).filterMap f = l.filterMap f := by
  conv_rhs => rw [eq_take_cons_drop hi]
  rw [List.eraseIdx_eq_take_drop_succ, List.filterMap_append, List.filterMap_append,
    List.filterMap_cons_none hx]

theorem filterMap_eraseIdx_some (hl : (l.filterMap f).length ≤ 1) (hi : l[i]? = some x)
    (hx : f x = some b) : l.filterMap f = [b] ∧ (l.eraseIdx i).filterMap f = [] := by
  have hfilter : l.filterMap f = (l.take i).filterMap f ++ b :: (l.drop (i + 1)).filterMap f := by
    conv_lhs => rw [eq_take_cons_drop hi]
    rw [List.filterMap_append, List.filterMap_cons_some hx]
  rw [hfilter, List.length_append, List.length_cons] at hl
  have hbefore : (l.take i).filterMap f = [] := List.length_eq_zero_iff.mp (by omega)
  have hafter : (l.drop (i + 1)).filterMap f = [] := List.length_eq_zero_iff.mp (by omega)
  rw [hfilter, List.eraseIdx_eq_take_drop_succ, List.filterMap_append, hbefore, hafter]
  exact ⟨rfl, rfl⟩

end

namespace Process
variable {p q : Process σ} {a : Action} {u : List (Transition (Process σ) Action)}

def posts (p : Process σ) : List Notice := p.posted.filterMap Task.notice?

def waiting (p : Process σ) : List Notice := p.posts ++ p.machine.queue

theorem posts_length (p : Process σ) : p.posts.length = p.machineTasks := by
  rw [posts, List.length_filterMap_eq_countP]
  refine List.countP_congr fun t _ => ?_
  cases t <;> simp [Task.notice?]

theorem posts_machine (notices : List Notice) :
    (notices.map Task.machine).filterMap Task.notice? = notices := by
  rw [List.filterMap_map]
  exact List.filterMap_some

/-- The machine's tasks are a serial queue of the notices, in the order of `notifyEvent`. -/
def Serial (u : List (Transition (Process σ) Action)) (p : Process σ) : Prop :=
  p.machine.tasks.Inv (p.posts.length + p.handling.isSome.toNat)
    (u.filterMap started? ++ p.posts) (u.filterMap notified?)

theorem Serial.next (started notified : Option Notice) (hstarted : started? ⟨p, a, q⟩ = started)
    (hnotified : notified? ⟨p, a, q⟩ = notified)
    (h : q.machine.tasks.Inv (q.posts.length + q.handling.isSome.toNat)
      (u.filterMap started? ++ started.toList ++ q.posts)
      (u.filterMap notified? ++ notified.toList)) : Serial (u ++ [⟨p, a, q⟩]) q := by
  subst hstarted hnotified
  rw [Serial, filterMap_concat, filterMap_concat]
  exact h

theorem Serial.same (h : Serial u p) (hstarted : started? ⟨p, a, q⟩ = none)
    (hnotified : notified? ⟨p, a, q⟩ = none) (hm : q.machine = p.machine)
    (hp : q.posts = p.posts) (hh : q.handling.isSome = p.handling.isSome) :
    Serial (u ++ [⟨p, a, q⟩]) q := by
  refine .next none none hstarted hnotified ?_
  rw [hm, hp, hh, Option.toList_none, List.append_nil, List.append_nil]
  exact h

theorem Serial.notify (h : Serial u p) {notice : Notice} (hstarted : started? ⟨p, a, q⟩ = none)
    (hnotified : notified? ⟨p, a, q⟩ = some notice)
    (hm : q.machine = (p.machine.notifyEvent notice).1)
    (hp : q.posts = (p.notify notice).posts) (hh : q.handling.isSome = p.handling.isSome) :
    Serial (u ++ [⟨p, a, q⟩]) q := by
  obtain ⟨htasks, hpost⟩ := p.machine.notifyEvent_tasks notice
  have hposts : q.posts = p.posts ++ (p.machine.tasks.submit notice).2.toList := by
    rw [hp, ← hpost]
    simp only [posts, Process.notify, List.filterMap_append, posts_machine]
  refine .next none (some notice) hstarted hnotified ?_
  rw [hm, htasks, hposts, hh, Option.toList_none, Option.toList_some, List.append_nil,
    List.length_append, Nat.add_right_comm, ← List.append_assoc]
  exact SerialQueue.Inv.submit h notice

theorem Serial.start (h : Serial u p) {task : ℕ} {env : Environment} {notice : Notice}
    (hh : p.handling = none) (ht : p.posted[task]? = some (.machine notice)) :
    Serial (u ++ [⟨p, .run task env, p.start M blank env task notice⟩])
      (p.start M blank env task notice) := by
  have hlength : p.posts.length ≤ 1 := Nat.le_of_add_right_le h.active_le_one
  obtain ⟨hone, hnone⟩ := filterMap_eraseIdx_some hlength ht (f := Task.notice?) rfl
  have hposts : p.posts = [notice] := hone
  have hrest : (p.start M blank env task notice).posts = [] := hnone
  rw [Serial, hposts, hh] at h
  refine .next (some notice) none (by simp [started?, ht, Task.notice?]) rfl ?_
  rw [hrest, Option.toList_none, Option.toList_some, List.append_nil, List.append_nil]
  exact h

theorem Serial.left (h : Serial u p) (hi : p.Inv M) (hh : p.handling = some ⟨.ready, [], false⟩)
    (hm : q.machine = p.machine.proceed.1)
    (hp : q.posted = p.posted ++ p.machine.proceed.2.toList.map .machine)
    (hq : q.handling = none) : Serial (u ++ [⟨p, .leave, q⟩]) q := by
  have hnone : p.posts = [] := List.length_eq_zero_iff.mp (p.posts_length.trans (hi.ends hh).1)
  obtain ⟨htasks, hpost⟩ := p.machine.proceed_tasks
  have hposts : q.posts = p.machine.tasks.complete.2.toList := by
    rw [posts, hp, List.filterMap_append, posts_machine, hpost]
    simp only [show p.posted.filterMap Task.notice? = [] from hnone, List.nil_append]
  rw [Serial, hh, hnone, List.append_nil] at h
  refine .next none none rfl rfl ?_
  rw [hm, htasks, hposts, hq, Option.toList_none, List.append_nil, List.append_nil]
  simpa using h.complete

theorem Serial.step (h : Serial u p) (hs : Stepped M blank p a q) (hi : p.Inv M) :
    Serial (u ++ [⟨p, a, q⟩]) q := by
  cases hs with
  | notified => exact h.notify rfl rfl rfl rfl rfl
  | started hh ht => exact h.start hh ht
  | recalled hh => exact h.notify rfl (by simp [notified?, hh]) rfl rfl (by rw [hh]; rfl)
  | received hn => exact h.notify rfl (by simp [notified?, hn]) rfl rfl rfl
  | sent hh | dialed hh | finishing hh =>
    exact h.same rfl (by simp [notified?, hh]) rfl rfl (by rw [hh]; rfl)
  | refused hh | openFailed hh | openTimedOut hh | drained hh | closed hh | closeStuck hh
  | closeTimedOut hh => exact h.same rfl rfl rfl rfl (by rw [hh]; rfl)
  | connected hh =>
    refine h.same rfl rfl rfl ?_ (by rw [hh]; rfl)
    exact (List.filterMap_append).trans (List.append_nil _)
  | threw hh =>
    rw [Serial, hh] at h
    refine .next none none rfl rfl ?_
    rw [Option.toList_none, List.append_nil, List.append_nil]
    exact h.lose
  | left hh => exact h.left hi hh rfl rfl rfl
  | completed => exact h.same rfl rfl rfl rfl rfl
  | taken ht | timedOut ht =>
    exact h.same rfl rfl rfl (filterMap_eraseIdx_none ht rfl) rfl
  | wrote hn | renewed hn => exact h.same rfl (by simp [notified?, hn]) rfl rfl rfl
  | dropped hn hd =>
    refine h.same rfl ?_ rfl rfl rfl
    simp only [notified?, hn]
    split
    · rename_i call heq
      cases heq
      cases hd .read call rfl
    · rfl
  | ended hn =>
    refine h.same rfl (by simp [notified?, hn]) rfl ?_ rfl
    cases p.link.backend.keepReader <;> simp [posts, Task.notice?]

theorem serial {h : List (Transition (Process σ) Action)} (hr : (process M blank).Run h p) :
    Serial h p := by
  refine hr.induct (P := Serial) ?_ fun h p a q hr hi hs => ?_
  · rintro p rfl
    exact ⟨Nat.le_refl 0, fun _ => rfl, rfl⟩
  · exact hi.step (stepped hs) (reachable_inv hr.reachable)

/-- Every notice is handled once, in the order of `notifyEvent`, or still waits. -/
theorem Serial.fifo (h : Serial u p) :
    u.filterMap notified? = u.filterMap started? ++ p.waiting := by
  have hfifo := SerialQueue.Inv.fifo h
  rw [waiting, ← List.append_assoc]
  exact hfifo.symm

end Process

/-! ### What is sent -/

section
variable {p q : Process σ} {a : Action}

theorem message_calls (env : Environment) (es : List Effect) :
    (calls env es).filterMap Call.message? = sent es := by
  rw [calls, List.filterMap_filterMap]
  refine List.filterMap_congr fun e _ => ?_
  cases e <;> rfl

/-- What the machine has sent the backend was given, or the handler has still to send. -/
def Process.Sends (p : Process σ) : Prop :=
  sent p.client.context.trace = p.link.accepted.map Stamped.content ++ p.unsent

theorem Process.Sends.same (h : p.Sends) (hc : q.client = p.client)
    (hl : q.link.accepted = p.link.accepted) (hu : q.unsent = p.unsent) : q.Sends := by
  rw [Sends, hc, hl, hu]
  exact h

theorem Process.Sends.start (h : p.Sends) (hi : p.Inv M) {task : ℕ} {env : Environment}
    {notice : Notice} (hh : p.handling = none) : (p.start M blank env task notice).Sends := by
  obtain ⟨t, ⟨es, htrace, -, -⟩, -⟩ :=
    M.handles env (p.event blank notice) p.client.state p.client.context hi.rests
  have hcontext : (p.start M blank env task notice).client.context =
      contextOf (p.result M blank env notice) := by
    simp only [Process.start]
    cases p.result M blank env notice <;> rfl
  have hunsent : (p.start M blank env task notice).unsent = sent es := by
    rw [← message_calls env, ← @List.drop_left _ p.client.context.trace es, ← htrace]
    rfl
  rw [Sends, Process.unsent, hh] at h
  rw [Sends, hcontext, hunsent, Process.result, htrace, sent_append, h]
  simp [Process.start]

theorem Process.Sends.step (h : p.Sends) (hs : Stepped M blank p a q) (hi : p.Inv M) :
    q.Sends := by
  cases hs with
  | started hh ht => exact h.start hi hh
  | @sent message cs throws hh =>
    have haccepted : (p.link.send message).accepted =
        p.link.accepted ++ [⟨p.link.session, message⟩] := rfl
    rw [Sends, Process.unsent, hh] at h
    rw [Sends]
    simpa [after, Process.unsent, haccepted, Call.message?] using h
  | recalled hh | refused hh | openFailed hh | openTimedOut hh | closed hh | closeTimedOut hh
  | dialed hh | finishing hh | drained hh | closeStuck hh | connected hh | threw hh | left hh =>
    exact h.same rfl rfl (by rw [Process.unsent, Process.unsent, hh]; rfl)
  | completed hl =>
    obtain ⟨op, -, rfl⟩ := Link.complete_eq_some _ hl
    exact h.same rfl rfl rfl
  | _ => exact h.same rfl rfl rfl

theorem Process.sends {h : List (Transition (Process σ) Action)}
    (hr : (process M blank).Run h p) : p.Sends :=
  hr.reachable.invariant (fun _ hp => hp ▸ rfl) fun _ _ _ hp hi hs =>
    hi.step (stepped hs) (reachable_inv hp)

end

/-- In a run in which no handler throws, a client in whole is its machine, which handles every
notice once, in the order of `notifyEvent`, and whose messages are those the backend has been
given, but for what the handler under way has still to send. -/
theorem refines {h : List (Transition (Process σ) Action)} {p : Process σ}
    (hr : (process M blank).Run h p) (hthrows : ∀ t ∈ h, ¬ Throws t) :
    (∃ k, (machine M).Run k p.client ∧
      k.map Transition.label = h.filterMap (handling? blank)) ∧
    h.filterMap notified? = h.filterMap started? ++ p.waiting ∧
    sent p.client.context.trace = p.link.accepted.map Stamped.content ++ p.unsent :=
  ⟨simulation.run hr hthrows, (Process.serial hr).fifo, Process.sends hr⟩

/-- A pilot operates and is released, which are four events to its machine. -/
theorem refines_released : ∃ h p, (process pilot unread).Run h p ∧
    (h.filterMap (handling? unread)).length = 4 ∧
    ∃ k, (machine pilot).Run k p.client ∧
      k.map Transition.label = h.filterMap (handling? unread) := by
  obtain ⟨h, p, hr, hp⟩ := TransitionSystem.exists_run (.initial pilot) (Process.step pilot unread)
    (Action.operating (Action.writing 1) ++ Action.releasing 0)
    (p := fun h _ => decide ((∀ t ∈ h, ¬ Throws t) ∧
      (h.filterMap (handling? unread)).length = 4)) (by decide +kernel)
  obtain ⟨hthrows, hlength⟩ := of_decide_eq_true hp
  exact ⟨h, p, hr, hlength, (refines hr hthrows).1⟩

end FmClient.Facade
