import FmClient.Facade.ProcessSpec

/-! What goes out on the stream of a session. `sendingQueue` outlives the session that filled it:
nothing clears it in `closeFacadeConnection` or in `openFacadeConnection`. -/
namespace FmClient.Facade
open Lib Backend
variable {σ : Type} {M : ClientMachine σ} {blank : ControlMessage}

/-- The first message on every stream is its `SETUP`. -/
def StartsWithSetup (written : List Written) : Prop :=
  ∀ k x, (written.find? fun x => x.stream = k) = some x → x.message.content.command = .setup

theorem StartsWithSetup.concat {written : List Written} {x : Written} (h : StartsWithSetup written)
    (hx : x.message.content.command = .setup ∨ ∃ y ∈ written, y.stream = x.stream) :
    StartsWithSetup (written ++ [x]) := by
  intro k z hz
  rw [List.find?_append, Option.or_eq_some_iff] at hz
  obtain hz | ⟨hnone, hz⟩ := hz
  · exact h k z hz
  · simp only [List.find?_singleton] at hz
    split at hz <;> cases hz
    rename_i hk
    obtain hsetup | ⟨y, hy, heq⟩ := hx
    · exact hsetup
    · have hne := List.find?_eq_none.mp hnone y hy
      simp_all

namespace Link
variable {l k : Link}

/-- Every message on a stream was sent after that stream had been opened and before the next one
was, and the first is `SETUP`. -/
def Isolated (l : Link) : Prop :=
  (∀ x ∈ l.written, x.message.session = x.stream ∧ x.stream ∈ l.opened) ∧
    StartsWithSetup l.written

theorem send_busy {message : ClientMessage} (hb : l.backend.sending = true) :
    l.send message = { l with
      backend := { l.backend with
        sendingQueue := l.backend.sendingQueue ++ [⟨l.session, message⟩] }
      stage := .opened
      accepted := l.accepted ++ [⟨l.session, message⟩] } := by
  simp [send, write, ClientBackend.send, hb]

theorem send_idle {message : ClientMessage} (hb : l.backend.sending = false) :
    l.send message = { l with
      backend := { l.backend with sending := true }
      stage := .opened
      operations := l.operations ++ [⟨.write, l.call, 0⟩]
      accepted := l.accepted ++ [⟨l.session, message⟩]
      written := l.written ++ [⟨l.call, ⟨l.session, message⟩⟩] } := by
  simp [send, write, ClientBackend.send, hb]

theorem writeCompleted_nil (hq : l.backend.sendingQueue = []) :
    l.writeCompleted = { l with backend := { l.backend with sending := false } } := by
  simp [writeCompleted, write, ClientBackend.writeCompleted, hq]

theorem writeCompleted_cons {m : Stamped ClientMessage} {rest : List (Stamped ClientMessage)}
    (hq : l.backend.sendingQueue = m :: rest) :
    l.writeCompleted = { l with
      backend := { l.backend with sendingQueue := rest }
      operations := l.operations ++ [⟨.write, l.call, 0⟩]
      written := l.written ++ [⟨l.call, m⟩] } := by
  simp [writeCompleted, write, ClientBackend.writeCompleted, hq]

/-- What waits in `sendingQueue` is of the session whose stream it will be written on, and a new
stream finds the queue empty. -/
structure Separate (l : Link) : Prop where
  session : l.stage.isOpen = true → l.session = l.call ∧ l.call ∈ l.opened
  begun : l.stage = .opened → ∃ x ∈ l.written, x.stream = l.call
  fresh : l.stage = .dialing ∨ l.stage = .greeting →
    l.backend.sendingQueue = [] ∧ ∀ x ∈ l.written, x.stream ≠ l.call
  idle : l.stage = .greeting → l.backend.sending = false
  queued : ∀ m ∈ l.backend.sendingQueue, m.session = l.call ∧ l.call ∈ l.opened ∧
    ∃ x ∈ l.written, x.stream = l.call
  written : ∀ x ∈ l.written, x.message.session = x.stream ∧ x.stream ∈ l.opened ∧
    x.stream ≤ l.call
  setup : StartsWithSetup l.written

theorem initial_separate : initial.Separate := by
  constructor <;> simp [initial, Stage.isOpen, StartsWithSetup]

theorem Separate.isolated (h : l.Separate) : l.Isolated :=
  ⟨fun x hx => ⟨(h.written x hx).1, (h.written x hx).2.1⟩, h.setup⟩

theorem Separate.write (h : l.Separate) {m : Stamped ClientMessage}
    (hm : m.session = l.call ∧ l.call ∈ l.opened)
    (hx : m.content.command = .setup ∨ ∃ x ∈ l.written, x.stream = l.call) :
    (∀ x ∈ l.written ++ [⟨l.call, m⟩], x.message.session = x.stream ∧ x.stream ∈ l.opened ∧
      x.stream ≤ l.call) ∧ StartsWithSetup (l.written ++ [⟨l.call, m⟩]) := by
  refine ⟨?_, h.setup.concat hx⟩
  rw [List.forall_mem_append, List.forall_mem_singleton]
  exact ⟨h.written, hm.1, hm.2, Nat.le_refl _⟩

theorem Separate.greet (h : l.Separate) {message : ClientMessage} (hs : l.stage = .greeting)
    (hm : message.command = .setup) : (l.send message).Separate := by
  obtain ⟨hq, -⟩ := h.fresh (.inr hs)
  have hsession := h.session (by rw [hs]; rfl)
  obtain ⟨hwritten, hsetup⟩ := h.write (m := ⟨l.session, message⟩) hsession (.inl hm)
  rw [send_idle (h.idle hs)]
  refine ⟨fun _ => hsession, ?_, by simp, by simp, ?_, hwritten, hsetup⟩
  · exact fun _ => ⟨_, List.mem_append_right _ (List.mem_singleton_self _), rfl⟩
  · simp [hq]

theorem Separate.send (h : l.Separate) {message : ClientMessage} (hs : l.stage = .opened) :
    (l.send message).Separate := by
  have hsession := h.session (by rw [hs]; rfl)
  have hbegun := h.begun hs
  cases hb : l.backend.sending with
  | true =>
    rw [send_busy hb]
    refine ⟨fun _ => hsession, fun _ => hbegun, by simp, by simp, ?_, h.written, h.setup⟩
    rw [List.forall_mem_append, List.forall_mem_singleton]
    exact ⟨h.queued, hsession.1, hsession.2, hbegun⟩
  | false =>
    obtain ⟨hwritten, hsetup⟩ := h.write (m := ⟨l.session, message⟩) hsession (.inr hbegun)
    obtain ⟨x, hx, heq⟩ := hbegun
    rw [send_idle hb]
    refine ⟨fun _ => hsession, fun _ => ⟨x, List.mem_append_left _ hx, heq⟩, by simp, by simp,
      fun m hm => ?_, hwritten, hsetup⟩
    obtain ⟨hcall, hopened, y, hy, hstream⟩ := h.queued m hm
    exact ⟨hcall, hopened, y, List.mem_append_left _ hy, hstream⟩

theorem Separate.writeCompleted (h : l.Separate) : l.writeCompleted.Separate := by
  cases hq : l.backend.sendingQueue with
  | nil =>
    rw [writeCompleted_nil hq]
    exact ⟨h.session, h.begun, h.fresh, fun _ => rfl, h.queued, h.written, h.setup⟩
  | cons m rest =>
    have hqueued := h.queued
    rw [hq, List.forall_mem_cons] at hqueued
    obtain ⟨⟨hcall, hopened, hbegun⟩, hrest⟩ := hqueued
    obtain ⟨hwritten, hsetup⟩ := h.write ⟨hcall, hopened⟩ (.inr hbegun)
    -- the queue is empty while a connection is opened
    have hnot : ¬ (l.stage = .dialing ∨ l.stage = .greeting) := fun hs => by
      simp [(h.fresh hs).1] at hq
    obtain ⟨x, hx, heq⟩ := hbegun
    rw [writeCompleted_cons hq]
    exact ⟨h.session, fun _ => ⟨x, List.mem_append_left _ hx, heq⟩, fun hs => absurd hs hnot,
      fun hs => absurd (.inr hs) hnot,
      fun n hn => ⟨(hrest n hn).1, hopened, x, List.mem_append_left _ hx, heq⟩, hwritten, hsetup⟩

theorem Separate.dial (h : l.Separate) (hq : l.backend.sendingQueue = []) : l.dial.Separate := by
  refine ⟨by simp [Link.dial, Stage.isOpen], by simp [Link.dial], fun _ => ⟨hq, ?_⟩,
    by simp [Link.dial], ?_, ?_, h.setup⟩
  · intro x hx
    have hle := (h.written x hx).2.2
    simp only [Link.dial]
    omega
  · simp [Link.dial, hq]
  · intro x hx
    obtain ⟨hsession, hopened, hle⟩ := h.written x hx
    exact ⟨hsession, hopened, Nat.le_succ_of_le hle⟩

theorem Separate.connected (h : l.Separate) (hs : l.stage = .dialing) : l.connected.Separate := by
  obtain ⟨hq, hnew⟩ := h.fresh (.inl hs)
  refine ⟨fun _ => ?_, by simp [Link.connected], fun _ => ⟨hq, hnew⟩, fun _ => rfl, ?_, ?_, h.setup⟩
  · simp [Link.connected, Link.session, read]
  · simp [Link.connected, read, hq]
  · intro x hx
    obtain ⟨hsession, hopened, hle⟩ := h.written x hx
    exact ⟨hsession, List.mem_append_left _ hopened, hle⟩

theorem Separate.closes (h : l.Separate) {stage : Stage} {b : ClientBackend _ _}
    {operations : List Operation} (hs : stage = .closed ∨ stage = .closing)
    (hb : b.sendingQueue = l.backend.sendingQueue) :
    ({ l with backend := b, stage := stage, operations := operations } : Link).Separate := by
  refine ⟨?_, ?_, ?_, ?_, hb ▸ h.queued, h.written, h.setup⟩ <;>
    obtain rfl | rfl := hs <;> simp [Stage.isOpen]

theorem Separate.complete (h : l.Separate) {operation : ℕ} {message : ControlMessage} {ok : Bool}
    (hk : l.complete operation message ok = some k) : k.Separate := by
  obtain ⟨op, -, rfl⟩ := complete_eq_some _ hk
  exact ⟨h.session, h.begun, h.fresh, h.idle, h.queued, h.written, h.setup⟩

theorem Separate.move (h : l.Separate) (hm : l.Move k)
    (hc : k.call ≠ l.call → l.backend.sendingQueue = []) : k.Separate := by
  cases hm with
  | greet hs hsetup => exact h.greet hs hsetup
  | send hs => exact h.send hs
  | dial => exact h.dial (hc (by simp [Link.dial]))
  | connected hs => exact h.connected hs
  | refused | finished => exact h.closes (.inl rfl) rfl
  | finish => exact h.closes (.inr rfl) rfl
  | complete hk => exact h.complete hk
  | read => exact ⟨h.session, h.begun, h.fresh, h.idle, h.queued, h.written, h.setup⟩
  | writeCompleted => exact h.writeCompleted

theorem Separate.take (h : l.Separate) (i : ℕ) : (l.take i).Separate :=
  ⟨h.session, h.begun, h.fresh, h.idle, h.queued, h.written, h.setup⟩

end Link

/-- Where every call of `Asynccontrol` finds `sendingQueue` empty, sessions stay apart. -/
theorem outbound_isolated {h : List (Transition (Process σ) Action)} {p : Process σ}
    (hr : (process M blank).Run h p)
    (hempty : ∀ t ∈ h, Dials t → t.source.link.backend.sendingQueue = []) : p.link.Isolated :=
  Link.Separate.isolated <|
    link_invariant (C := fun l k => k.call ≠ l.call → l.backend.sendingQueue = []) hr
      Link.initial_separate (fun _ i h => h.take i) (fun _ _ _ h => h)
      (fun _ _ h hm hc => h.move hm hc) hempty

/-- A pilot is released while nothing is being written, and connects again. -/
theorem outbound_isolated_reopened : ∃ h p,
    (process pilot unread).Run h p ∧ p.link.Isolated ∧
    p.link.written.map Written.stream = [1, 1, 1, 2] := by
  obtain ⟨h, p, hr, hp⟩ := TransitionSystem.exists_run (.initial pilot) (Process.step pilot unread)
    (Action.operating (Action.writing 1) ++ Action.releasing 0 ++ Action.idling ++ Action.opening)
    (p := fun h p => decide ((∀ t ∈ h, Dials t → t.source.link.backend.sendingQueue = []) ∧
      p.link.written.map Written.stream = [1, 1, 1, 2])) (by decide +kernel)
  obtain ⟨hempty, hwritten⟩ := of_decide_eq_true hp
  exact ⟨h, p, hr, outbound_isolated hr hempty, hwritten⟩

/-- `CHANNELS_READY` is still being written when a pilot is released: its answer waits in
`sendingQueue`, and is written on the next stream. -/
theorem release_leaks : ¬ ∀ h p, (process pilot unread).Run h p → p.link.Isolated := by
  intro hclaim
  obtain ⟨h, p, hr, hp⟩ := TransitionSystem.exists_run (.initial pilot)
    (Process.step pilot unread) (Action.operating [] ++ Action.releasing 1 ++ Action.idling ++
      Action.opening ++ Action.writing 1)
    (p := fun _ p => decide (∃ x ∈ p.link.written, x.message.session ≠ x.stream))
    (by decide +kernel)
  obtain ⟨x, hx, hne⟩ := of_decide_eq_true hp
  exact hne ((hclaim h p hr).1 x hx).1

/-! ### Flushing -/

namespace Link
variable {l k : Link}

/-- All that was sent in the session has been given to `Write`, in order. -/
def Flushed (l : Link) : Prop :=
  (l.written.filter fun x => x.stream = l.call).map Written.message =
    l.accepted.filter fun m => m.session = l.call

/-- Where `closeFacadeConnection` has always found the queue empty. -/
structure Flushing (l : Link) : Prop extends l.Separate where
  fifo : l.written.map Written.message ++ l.backend.sendingQueue = l.accepted
  quiet : l.backend.sending = false → l.backend.sendingQueue = []
  kept : l.stage ≠ .opened → l.backend.sendingQueue = []

theorem initial_flushing : initial.Flushing :=
  ⟨initial_separate, rfl, fun _ => rfl, fun _ => rfl⟩

theorem Flushing.send (h : l.Flushing) {message : ClientMessage}
    (hs : (l.send message).Separate) : (l.send message).Flushing := by
  have hfifo := h.fifo
  cases hb : l.backend.sending with
  | true =>
    rw [send_busy hb] at hs ⊢
    refine ⟨hs, ?_, fun hf => by simp [hb] at hf, by simp⟩
    simp only [← hfifo, List.append_assoc]
  | false =>
    have hq := h.quiet hb
    rw [hq, List.append_nil] at hfifo
    rw [send_idle hb] at hs ⊢
    refine ⟨hs, ?_, by simp, by simp⟩
    simp [hq, hfifo]

theorem Flushing.writeCompleted (h : l.Flushing) : l.writeCompleted.Flushing := by
  have hs := h.toSeparate.writeCompleted
  cases hq : l.backend.sendingQueue with
  | nil =>
    rw [writeCompleted_nil hq] at hs ⊢
    exact ⟨hs, h.fifo, fun _ => hq, fun _ => hq⟩
  | cons m rest =>
    have hbusy : l.backend.sending ≠ false := fun hf => by simp [h.quiet hf] at hq
    have hopened : l.stage = .opened := by
      by_contra hne
      simp [h.kept hne] at hq
    have hfifo := h.fifo
    rw [hq] at hfifo
    rw [writeCompleted_cons hq] at hs ⊢
    exact ⟨hs, by simpa using hfifo, fun hf => absurd hf hbusy, fun hne => absurd hopened hne⟩

theorem Flushing.move (h : l.Flushing) (hm : l.Move k)
    (hc : l.stage ≠ .closing → k.stage = .closing → l.backend.sendingQueue = []) :
    k.Flushing := by
  have hs : k.Separate := h.toSeparate.move hm fun hcall => by
    cases hm with
    | dial hclosed => exact h.kept (by simp [hclosed])
    | complete hk =>
      obtain ⟨op, -, rfl⟩ := complete_eq_some _ hk
      exact absurd rfl hcall
    | _ => exact absurd rfl hcall
  cases hm with
  | greet | send => exact h.send hs
  | dial hclosed => exact ⟨hs, h.fifo, h.quiet, fun _ => h.kept (by simp [hclosed])⟩
  | connected hd | refused hd =>
    have hq := h.kept (by simp [hd])
    exact ⟨hs, h.fifo, fun _ => hq, fun _ => hq⟩
  | finish ho => exact ⟨hs, h.fifo, h.quiet, fun _ => hc (by simp [ho]) rfl⟩
  | finished hclosing => exact ⟨hs, h.fifo, h.quiet, fun _ => h.kept (by simp [hclosing])⟩
  | complete hk =>
    obtain ⟨op, -, rfl⟩ := complete_eq_some _ hk
    exact ⟨hs, h.fifo, h.quiet, h.kept⟩
  | read => exact ⟨hs, h.fifo, h.quiet, h.kept⟩
  | writeCompleted => exact h.writeCompleted

theorem Flushing.flushed_iff_nil (h : l.Flushing) : l.Flushed ↔ l.backend.sendingQueue = [] := by
  have hqueued : (l.backend.sendingQueue.filter fun m => m.session = l.call) =
      l.backend.sendingQueue :=
    List.filter_eq_self.mpr fun m hm => by simp [(h.queued m hm).1]
  have hwritten : ((l.written.map Written.message).filter fun m => m.session = l.call) =
      (l.written.filter fun x => x.stream = l.call).map Written.message := by
    rw [List.filter_map]
    congr 1
    refine List.filter_congr fun x hx => ?_
    simp [(h.written x hx).1]
  rw [Flushed, ← h.fifo, List.filter_append, hwritten, hqueued]
  constructor
  · exact fun heq => List.append_right_eq_self.mp heq.symm
  · exact fun hq => by rw [hq, List.append_nil]

theorem Flushing.take (h : l.Flushing) (i : ℕ) : (l.take i).Flushing :=
  ⟨h.toSeparate.take i, h.fifo, h.quiet, h.kept⟩

theorem Flushing.changes (h : l.Flushing) (hk : l.Changes k)
    (hc : l.stage ≠ .closing → k.stage = .closing → l.backend.sendingQueue = []) :
    k.Flushing := by
  obtain ⟨i, rfl | hm⟩ := hk
  · exact h.take i
  · exact (h.take i).move hm hc

theorem Changes.not_opened (hk : l.Changes k) (hs : l.stage = .closing) : k.stage ≠ .opened := by
  obtain ⟨i, rfl | hm⟩ := hk
  · simp [take, hs]
  · cases hm with
    | complete hk => simp [Process.complete_stage hk, take, hs]
    | finished => simp [Link.finished]
    | read => simp [Link.read, take, hs]
    | writeCompleted => simp [Link.writeCompleted, write, take, hs]
    | greet hg | send hg | dial hg | connected hg | refused hg | finish hg =>
      simp [take, hs] at hg

end Link

def Finishes (t : Transition (Process σ) Action) : Prop :=
  t.source.link.stage ≠ .closing ∧ t.target.link.stage = .closing

instance (t : Transition (Process σ) Action) : Decidable (Finishes t) :=
  inferInstanceAs (Decidable (_ ∧ _))

def Finished (t : Transition (Process σ) Action) : Prop :=
  t.source.link.stage = .closing ∧ t.target.link.stage ≠ .closing

/-- Every session is flushed before `Finish`, and leaves nothing behind, exactly where `Finish`
always finds `sendingQueue` empty. -/
theorem flushed_iff {h : List (Transition (Process σ) Action)} {p : Process σ}
    (hr : (process M blank).Run h p) :
    (∀ t ∈ h, (Finishes t → t.source.link.Flushed) ∧
      (Finished t → t.target.link.backend.sendingQueue = [])) ↔
    ∀ t ∈ h, Finishes t → t.source.link.backend.sendingQueue = [] := by
  have hchanges {p a q} (hp : (process M blank).Reachable p) (hs : (process M blank).step p a q) :
      p.link.Changes q.link := (Process.stepped hs).changes (reachable_inv hp)
  refine hr.forall_iff (I := fun p => p.link.Flushing)
    (G := fun t => (Finishes t → t.source.link.Flushed) ∧
      (Finished t → t.target.link.backend.sendingQueue = []))
    (fun _ h => h ▸ Link.initial_flushing) ?_ ?_
  · intro p a q hp hi hs hc
    exact hi.changes (hchanges hp hs) fun hl hk => hc ⟨hl, hk⟩
  · intro p a q hp hi hs
    refine ⟨fun hg hf => hi.flushed_iff_nil.mp (hg.1 hf), fun hc => ⟨fun hf => ?_, fun hf => ?_⟩⟩
    · exact hi.flushed_iff_nil.mpr (hc hf)
    · obtain ⟨hclosing, -⟩ := hf
      have hq := hi.changes (hchanges hp hs) fun hne => absurd hclosing hne
      exact hq.kept ((hchanges hp hs).not_opened hclosing)

/-- The answer to the release of a pilot is written at once. -/
theorem flushed_iff_idle : ∃ h p, (process pilot unread).Run h p ∧
    (∀ t ∈ h, (Finishes t → t.source.link.Flushed) ∧
      (Finished t → t.target.link.backend.sendingQueue = [])) ∧
    p.link.written.map (fun x => x.message.content.command) =
      [.setup, .channelsReady, .release] := by
  obtain ⟨h, p, hr, hp⟩ := TransitionSystem.exists_run (.initial pilot)
    (Process.step pilot unread) (Action.operating (Action.writing 1) ++ Action.releasing 0)
    (p := fun h p => decide (
      (∀ t ∈ h, Finishes t → t.source.link.backend.sendingQueue = []) ∧
      p.link.written.map (fun x => x.message.content.command) =
        [.setup, .channelsReady, .release])) (by decide +kernel)
  obtain ⟨hempty, hwritten⟩ := of_decide_eq_true hp
  exact ⟨h, p, hr, (flushed_iff hr).mpr hempty, hwritten⟩

/-- The answer still waits when the stream is finished, and after that. -/
theorem release_unwritten : ¬ ∀ h p, (process pilot unread).Run h p →
    ∀ t ∈ h, (Finishes t → t.source.link.Flushed) ∧
      (Finished t → t.target.link.backend.sendingQueue = []) := by
  intro hclaim
  obtain ⟨h, p, hr, hp⟩ := TransitionSystem.exists_run (.initial pilot)
    (Process.step pilot unread) (Action.operating [] ++ Action.releasing 1)
    (p := fun h _ => decide (
      ∃ t ∈ h, Finishes t ∧ t.source.link.backend.sendingQueue ≠ [])) (by decide +kernel)
  obtain ⟨t, ht, hfinishes, hne⟩ := of_decide_eq_true hp
  exact hne ((flushed_iff hr).mp (hclaim h p hr) t ht hfinishes)

end FmClient.Facade
