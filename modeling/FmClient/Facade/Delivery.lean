import FmClient.Facade.Outbound
import FmClient.Facade.Refinement

/-! From the machine to the streams. Whatever `sendingQueue` and the streams do to its messages,
none is lost and none comes twice. -/
namespace FmClient.Facade
open Lib Handler Backend FmClient.System
variable {σ : Type} {M : ClientMachine σ} {blank : ControlMessage}

namespace Link
variable {l k : Link}

/-- Every message accepted has been written once, or waits. -/
def Conserves (l : Link) : Prop :=
  (l.written.map Written.message ++ l.backend.sendingQueue).Perm l.accepted

theorem Conserves.send (h : l.Conserves) (message : ClientMessage) :
    (l.send message).Conserves := by
  cases hb : l.backend.sending with
  | true =>
    rw [send_busy hb, Conserves, ← List.append_assoc]
    exact h.append_right _
  | false =>
    rw [send_idle hb, Conserves, List.map_append, List.append_assoc]
    refine (List.perm_append_comm.append_left _).trans ?_
    rw [← List.append_assoc]
    exact h.append_right _

theorem Conserves.writeCompleted (h : l.Conserves) : l.writeCompleted.Conserves := by
  cases hq : l.backend.sendingQueue with
  | nil =>
    rw [writeCompleted_nil hq]
    exact h
  | cons m rest =>
    rw [Conserves, hq] at h
    rw [writeCompleted_cons hq, Conserves, List.map_append, List.append_assoc]
    exact h

theorem Conserves.move (h : l.Conserves) (hm : l.Move k) : k.Conserves := by
  cases hm with
  | greet | send => exact h.send _
  | writeCompleted => exact h.writeCompleted
  | complete hk =>
    obtain ⟨op, -, rfl⟩ := complete_eq_some _ hk
    exact h
  | _ => exact h

/-- The messages go out in the order they were sent in, where a connection that is opened has
found `sendingQueue` empty. -/
structure Ordered (l : Link) : Prop extends l.Separate where
  fifo : l.written.map Written.message ++ l.backend.sendingQueue = l.accepted
  quiet : l.backend.sending = false → l.backend.sendingQueue = []

theorem initial_ordered : initial.Ordered :=
  ⟨initial_separate, rfl, fun _ => rfl⟩

theorem Ordered.send (h : l.Ordered) {message : ClientMessage}
    (hs : (l.send message).Separate) : (l.send message).Ordered := by
  have hfifo := h.fifo
  cases hb : l.backend.sending with
  | true =>
    rw [send_busy hb] at hs ⊢
    refine ⟨hs, ?_, fun hf => by simp [hb] at hf⟩
    simp only [← hfifo, List.append_assoc]
  | false =>
    have hq := h.quiet hb
    rw [hq, List.append_nil] at hfifo
    rw [send_idle hb] at hs ⊢
    exact ⟨hs, by simp [hq, hfifo], by simp⟩

theorem Ordered.writeCompleted (h : l.Ordered) : l.writeCompleted.Ordered := by
  have hs := h.toSeparate.writeCompleted
  cases hq : l.backend.sendingQueue with
  | nil =>
    rw [writeCompleted_nil hq] at hs ⊢
    exact ⟨hs, h.fifo, fun _ => hq⟩
  | cons m rest =>
    have hfifo := h.fifo
    rw [hq] at hfifo
    rw [writeCompleted_cons hq] at hs ⊢
    refine ⟨hs, by simpa using hfifo, fun hf => ?_⟩
    simp [h.quiet hf] at hq

theorem Ordered.move (h : l.Ordered) (hm : l.Move k)
    (hc : k.call ≠ l.call → l.backend.sendingQueue = []) : k.Ordered := by
  have hs := h.toSeparate.move hm hc
  cases hm with
  | greet | send => exact h.send hs
  | writeCompleted => exact h.writeCompleted
  | connected hd => exact ⟨hs, h.fifo, fun _ => (h.fresh (.inl hd)).1⟩
  | complete hk =>
    obtain ⟨op, -, rfl⟩ := complete_eq_some _ hk
    exact ⟨hs, h.fifo, h.quiet⟩
  | _ => exact ⟨hs, h.fifo, h.quiet⟩

theorem Ordered.take (h : l.Ordered) (i : ℕ) : (l.take i).Ordered :=
  ⟨h.toSeparate.take i, h.fifo, h.quiet⟩

end Link

theorem Process.ordered {h : List (Transition (Process σ) Action)} {p : Process σ}
    (hr : (process M blank).Run h p)
    (hempty : ∀ t ∈ h, Dials t → t.source.link.backend.sendingQueue = []) : p.link.Ordered :=
  link_invariant (C := fun l k => k.call ≠ l.call → l.backend.sendingQueue = []) hr
    Link.initial_ordered (fun _ i h => h.take i) (fun _ _ _ h => h)
    (fun _ _ h hm hc => h.move hm hc) hempty

/-- What the machine has sent is on the streams, in `sendingQueue`, or still to be sent by the
handler under way, each message once. It is there in order, where every call of `Asynccontrol`
has found `sendingQueue` empty. -/
theorem outbound_delivered {h : List (Transition (Process σ) Action)} {p : Process σ}
    (hr : (process M blank).Run h p) :
    (p.link.written.map (fun x => x.message.content) ++
      p.link.backend.sendingQueue.map Stamped.content ++ p.unsent).Perm
        (sent p.client.context.trace) ∧
    ((∀ t ∈ h, Dials t → t.source.link.backend.sendingQueue = []) →
      p.link.written.map (fun x => x.message.content) ++
        p.link.backend.sendingQueue.map Stamped.content ++ p.unsent =
          sent p.client.context.trace) := by
  have hsends := Process.sends hr
  have hmap : p.link.written.map (fun x => x.message.content) ++
      p.link.backend.sendingQueue.map Stamped.content =
        (p.link.written.map Written.message ++
          p.link.backend.sendingQueue).map Stamped.content := by
    simp
  rw [hmap, hsends]
  constructor
  · have hconserves : p.link.Conserves := link_invariant (C := fun _ _ => True) hr (.refl _)
      (fun _ _ h => h) (fun _ _ _ h => h) (fun _ _ h hm _ => h.move hm) fun _ _ => trivial
    exact (hconserves.map _).append_right _
  · intro hempty
    rw [(Process.ordered hr hempty).fifo]

/-- `CHANNELS_READY` is sent while `SETUP` is being written, and has still to go out. -/
theorem outbound_delivered_queued : ∃ h p, (process pilot unread).Run h p ∧
    sent p.client.context.trace =
      p.link.written.map (fun x => x.message.content) ++
        p.link.backend.sendingQueue.map Stamped.content ++ p.unsent ∧
    (sent p.client.context.trace).map ClientMessage.command =
      [.setup, .channelsReady] ∧ p.link.backend.sendingQueue.length = 1 := by
  obtain ⟨h, p, hr, hp⟩ := TransitionSystem.exists_run (.initial pilot) (Process.step pilot unread)
    (Action.opening ++ Action.reading 0 { command := .setup, response := .accepted } ++
      [.handle, .call, .leave])
    (p := fun h p => decide ((∀ t ∈ h, Dials t → t.source.link.backend.sendingQueue = []) ∧
      (sent p.client.context.trace).map ClientMessage.command =
        [.setup, .channelsReady] ∧ p.link.backend.sendingQueue.length = 1)) (by decide +kernel)
  obtain ⟨hempty, hsent, hlength⟩ := of_decide_eq_true hp
  exact ⟨h, p, hr, ((outbound_delivered hr).2 hempty).symm, hsent, hlength⟩

end FmClient.Facade
