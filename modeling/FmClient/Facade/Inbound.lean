import FmClient.Facade.ProcessSpec

/-! Which session the messages come from that a client handles. A `Received` event does not tell,
and waits in the queue of the machine together with what the user wants next. -/
namespace FmClient.Facade
open Lib Handler Backend FmClient.System
variable {σ : Type} {M : ClientMachine σ} {blank : ControlMessage}

namespace Link
variable {l k : Link} {b : ℕ}

/-- Nothing is read into an object before it is made. -/
structure Bounded (l : Link) : Prop where
  operations : ∀ op ∈ l.operations, op.buffer ≤ l.buffer
  contents : ∀ c m, l.contents c = some m → c ≤ l.buffer

/-- The objects from `b` on are of the last call. -/
structure Recent (l : Link) (b : ℕ) : Prop where
  made : b ≤ l.buffer
  toRead : l.backend.toRead = some l.buffer
  operations : ∀ op ∈ l.operations, op.tag = .read → b ≤ op.buffer → op.call = l.call
  contents : ∀ c m, b ≤ c → l.contents c = some m → m.session = l.call

theorem fill_eq_some {op : Operation} {message : ControlMessage} {ok : Bool} {c : ℕ}
    {m : Stamped ControlMessage} (h : l.fill op message ok c = some m) :
    l.contents c = some m ∨ op.tag = .read ∧ c = op.buffer ∧ m.session = op.call := by
  unfold fill at h
  split at h
  · rename_i hread
    by_cases hc : c = op.buffer
    · subst hc
      simp only [Function.update_self, Option.some.injEq] at h
      exact .inr ⟨hread.1, rfl, h ▸ rfl⟩
    · rw [Function.update_of_ne hc] at h
      exact .inl h
  · exact .inl h

theorem initial_bounded : initial.Bounded := by
  constructor <;> simp [initial]

theorem Bounded.read (h : l.Bounded) : l.read.Bounded :=
  ⟨l.forall_started (fun _ => mem_read _) (fun op hop => Nat.le_succ_of_le (h.operations op hop))
    (Nat.le_refl _), fun c m hc => Nat.le_succ_of_le (h.contents c m hc)⟩

theorem Bounded.complete (h : l.Bounded) {operation : ℕ} {message : ControlMessage} {ok : Bool}
    (hk : l.complete operation message ok = some k) : k.Bounded := by
  obtain ⟨op, hop, rfl⟩ := complete_eq_some _ hk
  refine ⟨fun o ho => h.operations o (List.mem_of_mem_eraseIdx ho), fun c m hc => ?_⟩
  obtain hc | ⟨-, rfl, -⟩ := fill_eq_some hc
  · exact h.contents c m hc
  · exact h.operations op (List.mem_of_getElem? hop)

theorem Bounded.move (h : l.Bounded) (hm : l.Move k) : k.Bounded := by
  cases hm with
  | greet | send | writeCompleted =>
    exact ⟨l.forall_started (fun _ => mem_write _) h.operations (Nat.zero_le _), h.contents⟩
  | dial => exact ⟨l.forall_started (fun _ => mem_dial _) h.operations (Nat.zero_le _), h.contents⟩
  | finish =>
    exact ⟨l.forall_started (fun _ => mem_finish _) h.operations (Nat.zero_le _), h.contents⟩
  | connected | read => exact ⟨h.read.operations, h.read.contents⟩
  | refused | finished => exact ⟨h.operations, h.contents⟩
  | complete hk => exact h.complete hk

theorem Bounded.connected (h : l.Bounded) : l.connected.Recent (l.buffer + 1) := by
  refine ⟨Nat.le_refl _, rfl, ?_, fun c m hle hc => ?_⟩
  · refine l.forall_started (fun _ => mem_read _) (fun op hop _ hle => ?_) fun _ _ => rfl
    exact absurd hle (Nat.not_le.mpr (Nat.lt_succ_of_le (h.operations op hop)))
  · exact absurd hle (Nat.not_le.mpr (Nat.lt_succ_of_le (h.contents c m hc)))

theorem send_toRead (message : ClientMessage) :
    (l.send message).backend.toRead = l.backend.toRead := by
  cases hb : l.backend.sending <;> simp [send, write, ClientBackend.send, hb]

theorem writeCompleted_toRead : l.writeCompleted.backend.toRead = l.backend.toRead := by
  cases hq : l.backend.sendingQueue <;>
    simp [writeCompleted, write, ClientBackend.writeCompleted, hq]

theorem Recent.move (h : l.Recent b) (hm : l.Move k) (hl : l.stage.isOpen = true)
    (hk : k.stage.isOpen = true) : k.Recent b := by
  cases hm with
  | greet | send =>
    exact ⟨h.made, (send_toRead _).trans h.toRead,
      l.forall_started (fun _ => mem_write _) h.operations (by simp), h.contents⟩
  | writeCompleted =>
    exact ⟨h.made, writeCompleted_toRead.trans h.toRead,
      l.forall_started (fun _ => mem_write _) h.operations (by simp), h.contents⟩
  | connected hs | refused hs | finished hs =>
    rw [hs] at hl
    cases hl
  | dial | finish => cases hk
  | complete hc =>
    obtain ⟨op, hop, rfl⟩ := complete_eq_some _ hc
    refine ⟨h.made, h.toRead, fun o ho => h.operations o (List.mem_of_mem_eraseIdx ho),
      fun c m hle hc => ?_⟩
    obtain hc | ⟨htag, rfl, hsession⟩ := fill_eq_some hc
    · exact h.contents c m hle hc
    · exact hsession.trans (h.operations op (List.mem_of_getElem? hop) htag hle)
  | read =>
    exact ⟨Nat.le_succ_of_le h.made, rfl,
      l.forall_started (fun _ => mem_read _) h.operations fun _ _ => rfl, h.contents⟩

theorem Bounded.take (h : l.Bounded) (i : ℕ) : (l.take i).Bounded := ⟨h.operations, h.contents⟩

theorem Bounded.changes (h : l.Bounded) (hk : l.Changes k) : k.Bounded := by
  obtain ⟨i, rfl | hm⟩ := hk
  · exact h.take i
  · exact (h.take i).move hm

theorem Recent.take (h : l.Recent b) (i : ℕ) : (l.take i).Recent b :=
  ⟨h.made, h.toRead, h.operations, h.contents⟩

theorem Recent.changes (h : l.Recent b) (hk : l.Changes k) (hl : l.stage.isOpen = true)
    (ho : k.stage.isOpen = true) : k.Recent b := by
  obtain ⟨i, rfl | hm⟩ := hk
  · exact h.take i
  · exact (h.take i).move hm hl ho

end Link

namespace Process
variable {p q : Process σ}

/-- A notice has not come to its handler yet. -/
def Waits (p : Process σ) (notice : Notice) : Prop :=
  notice ∈ p.machine.queue ∨ .machine notice ∈ p.posted

theorem Waits.of_notify {n notice : Notice} (h : (p.notify notice).Waits n) :
    p.Waits n ∨ n = notice := by
  cases hp : p.machine.processing <;>
    simp only [Waits, notify, IStateMachine.notifyEvent, hp, Bool.false_eq_true, if_true, if_false,
      Option.toList_none, Option.toList_some, List.map_nil, List.map_cons, List.append_nil,
      List.mem_append, List.mem_singleton, Task.machine.injEq] at h ⊢
  · exact or_assoc.mpr h
  · exact h.elim (fun h => h.imp .inl id) fun h => .inl (.inr h)

end Process

section
variable {p q : Process σ} {a : Action}
open Process

theorem Stepped.waits (hs : Stepped M blank p a q) {toRead : Option ℕ}
    (hn : q.Waits (.received toRead)) :
    p.Waits (.received toRead) ∨ toRead = p.link.backend.toRead := by
  cases hs with
  | notified | recalled =>
    obtain h | h := Waits.of_notify hn
    · exact .inl h
    · cases h
  | received =>
    obtain h | h := Waits.of_notify hn
    · exact .inl h
    · cases h
      exact .inr rfl
  | left =>
    refine .inl ?_
    have hplace := p.machine.proceed_place
    obtain h | h := hn
    · exact .inl (hplace ▸ List.mem_append_right _ h)
    · obtain h | h := List.mem_append.mp h
      · exact .inr h
      · obtain ⟨n, hmem, heq⟩ := List.mem_map.mp h
        cases heq
        exact .inl (hplace ▸ List.mem_append_left _ hmem)
  | started | taken | timedOut =>
    exact .inl (hn.imp_right List.mem_of_mem_eraseIdx)
  | connected => exact .inl (hn.imp_right fun h => by simpa [post, after] using h)
  | ended =>
    refine .inl (hn.imp_right fun h => ?_)
    cases hk : p.link.backend.keepReader <;> simpa [hk] using h
  | _ => exact .inl hn

end

namespace Process
variable {p q : Process σ}

/-- While a connection is open, what is read and what waits is of its session. -/
structure Inbound (p : Process σ) : Prop where
  bounded : p.link.Bounded
  recent : p.link.stage.isOpen = true → ∃ b, p.link.Recent b ∧
    ∀ toRead, p.Waits (.received toRead) → ∃ c, b ≤ c ∧ toRead = some c

theorem initial_inbound : (initial M).Inbound :=
  ⟨Link.initial_bounded, fun h => by cases h⟩

theorem Inbound.step {a : Action} (h : p.Inbound) (hs : Stepped M blank p a q) (hi : p.Inv M)
    (hc : p.link.stage = .dialing → q.link.stage = .greeting →
      ∀ toRead, .received toRead ∉ p.machine.queue) : q.Inbound := by
  have hchanges := hs.changes hi
  refine ⟨h.bounded.changes hchanges, fun hq => ?_⟩
  cases hp : p.link.stage.isOpen with
  | true =>
    obtain ⟨b, hrecent, hwaits⟩ := h.recent hp
    refine ⟨b, hrecent.changes hchanges hp hq, fun toRead hn => ?_⟩
    obtain hn | rfl := hs.waits hn
    · exact hwaits toRead hn
    · exact ⟨p.link.buffer, hrecent.made, hrecent.toRead⟩
  | false =>
    obtain ⟨i, arrival, cs, throws, hh, -, -, rfl⟩ := hs.connects hi hp hq
    have hnone := hc (of_decide_eq_true (hi.next hh).1) rfl
    refine ⟨p.link.buffer + 1, ?_, fun toRead hn => ?_⟩
    · exact (h.bounded.take i).connected
    · obtain hqueued | hposted := hn
      · exact absurd hqueued (hnone toRead)
      · cases hi.alone hh _ (by simpa [post, after] using hposted)

end Process

def handled (t : Transition (Process σ) Action) : Option (Stamped ControlMessage) :=
  match t.label with
  | .run task _ =>
    match t.source.posted[task]? with
    | some (.machine (.received (some b))) => t.source.link.contents b
    | _ => none
  | _ => none

/-- What `Connecting` or `Connected` handles is of the session they are in. -/
def Contemporary (M : ClientMachine σ) (t : Transition (Process σ) Action) : Prop :=
  M.stage t.source.client.state = .opened → ∀ m ∈ handled t, m.session = t.source.link.call

instance (t : Transition (Process σ) Action) : Decidable (Contemporary M t) :=
  inferInstanceAs (Decidable (_ → _))

def Notice.isReceived : Notice → Bool
  | .received _ => true
  | .event _ => false

/-- Where no message waits in the queue of the machine when a connection is opened, no message
is handled in a later session than its own. -/
theorem inbound_isolated {h : List (Transition (Process σ) Action)} {p : Process σ}
    (hr : (process M blank).Run h p)
    (hnone : ∀ t ∈ h, Connects t → ∀ n ∈ t.source.machine.queue, n.isReceived = false) :
    ∀ t ∈ h, Contemporary M t := by
  refine hr.forall_of_forall (I := Process.Inbound) (fun _ h => h ▸ Process.initial_inbound)
    ?_ hnone
  intro p a q hp hi hs hc
  have hinv := reachable_inv hp
  have hstep := Process.stepped hs
  refine ⟨hi.step hstep hinv fun hd hg toRead hmem => ?_, fun hopened m hm => ?_⟩
  · cases hc ⟨hd, hg⟩ _ hmem
  · cases hstep with
    | @started task env notice hh ht =>
      simp only [handled, ht] at hm
      split at hm
      · rename_i b heq
        cases heq
        have hstage : p.link.stage = .opened := (hinv.stage_run hh ht).trans hopened
        obtain ⟨b₀, hrecent, hwaits⟩ := hi.recent (by rw [hstage]; rfl)
        obtain ⟨c, hle, hc⟩ := hwaits _ (.inr (List.mem_of_getElem? ht))
        cases hc
        exact hrecent.contents _ m hle hm
      · cases hm
    | _ => cases hm

/-- A pilot that has been released connects again, and its second `SETUP` is accepted. -/
theorem inbound_isolated_reopened : ∃ h p, (process pilot unread).Run h p ∧
    (∀ t ∈ h, Contemporary pilot t) ∧
    ∃ t ∈ h, handled t = some ⟨2, { command := .setup, response := .accepted }⟩ := by
  obtain ⟨h, p, hr, hp⟩ := TransitionSystem.exists_run (.initial pilot)
    (Process.step pilot unread)
    (Action.operating (Action.writing 1) ++ Action.releasing 0 ++ Action.idling ++
      Action.opening ++ Action.writing 1 ++
      Action.reading 0 { command := .setup, response := .accepted } ++ [.handle])
    (p := fun h _ => decide (
      (∀ t ∈ h, Connects t → ∀ n ∈ t.source.machine.queue, n.isReceived = false) ∧
      ∃ t ∈ h, handled t = some ⟨2, { command := .setup, response := .accepted }⟩))
    (by decide +kernel)
  obtain ⟨hnone, hsetup⟩ := of_decide_eq_true hp
  exact ⟨h, p, hr, inbound_isolated hr hnone, hsetup⟩

/-- The user wants to operate again while a pilot is being released, and the facade has sent a
heartbeat after the release: `Connecting` answers it to the new session. -/
theorem heartbeat_answered_later : ¬ ∀ h p, (process pilot unread).Run h p →
    ∀ t ∈ h, Contemporary pilot t := by
  intro hclaim
  obtain ⟨h, p, hr, hp⟩ := TransitionSystem.exists_run (.initial pilot)
    (Process.step pilot unread)
    (Action.operating (Action.writing 1) ++ [.notifyEvent (.user .attach)] ++
      Action.reading 0 { command := .release, response := .accepted } ++ [.handle, .leave] ++
      [.notifyEvent (.user (.operate 5 []))] ++
      Action.reading 0 { command := .heartbeat, response := .accepted
                         heartbeat := some { key := "k" } } ++
      [.handle, .call, .call] ++ List.replicate 3 (.complete 0 unread true) ++
      List.replicate 3 (.closeNext 0) ++ [.leave] ++ Action.idling ++
      [.handle, .call, .complete 0 unread true, .openNext 0, .call, .leave] ++
      Action.idling ++ [.handle, .call])
    (p := fun h p => decide ((∃ t ∈ h, ¬ Contemporary pilot t) ∧
      p.link.accepted.getLast?.map (fun m => (m.session, m.content.command)) =
        some (2, .heartbeat))) (by decide +kernel)
  obtain ⟨⟨t, ht, hnot⟩, -⟩ := of_decide_eq_true hp
  exact hnot (hclaim h p hr t ht)

end FmClient.Facade
