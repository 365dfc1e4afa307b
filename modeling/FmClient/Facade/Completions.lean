import FmClient.Facade.ProcessSpec

/-! Which completion `openFacadeConnection` gets. It takes the first one there is, and its tag
is the same for every call. -/
namespace FmClient.Facade
open Lib Backend FmClient.System
variable {σ : Type} {M : ClientMachine σ} {blank : ControlMessage}

namespace Link
variable {l k : Link}

structure Past (l : Link) : Prop where
  operations : ∀ op ∈ l.operations, op.call ≤ l.call
  completed : ∀ a ∈ l.completed, a.call ≤ l.call

theorem initial_past : initial.Past := by
  constructor <;> simp [initial]

theorem Past.move (h : l.Past) (hm : l.Move k) : k.Past := by
  cases hm with
  | greet | send | writeCompleted =>
    exact ⟨l.forall_started (fun _ => mem_write _) h.operations (Nat.le_refl _), h.completed⟩
  | dial =>
    refine ⟨l.forall_started (fun _ => mem_dial _) (fun op hop => ?_) (Nat.le_refl _),
      fun a ha => ?_⟩
    · exact Nat.le_succ_of_le (h.operations op hop)
    · exact Nat.le_succ_of_le (h.completed a ha)
  | connected | read =>
    exact ⟨l.forall_started (fun _ => mem_read _) h.operations (Nat.le_refl _), h.completed⟩
  | finish =>
    exact ⟨l.forall_started (fun _ => mem_finish _) h.operations (Nat.le_refl _), h.completed⟩
  | refused | finished => exact ⟨h.operations, h.completed⟩
  | complete hk =>
    obtain ⟨op, hop, rfl⟩ := complete_eq_some _ hk
    refine ⟨fun o ho => h.operations o (List.mem_of_mem_eraseIdx ho), ?_⟩
    simp only [List.forall_mem_append, List.forall_mem_singleton]
    exact ⟨h.completed, h.operations op (List.mem_of_getElem? hop)⟩

theorem Past.take (h : l.Past) (i : ℕ) : (l.take i).Past := ⟨h.operations, h.completed⟩

theorem Past.changes (h : l.Past) (hk : l.Changes k) : k.Past := by
  obtain ⟨i, rfl | hm⟩ := hk
  · exact h.take i
  · exact (h.take i).move hm

/-- gRPC has the `OPEN` of the last call in hand, or has completed it, and nothing else. -/
inductive Own (l : Link) : Prop where
  | pending (ho : l.operations = [⟨.open, l.call, 0⟩]) (hq : l.completionQueue = [])
      (hc : ∀ ok, ⟨.open, l.call, ok⟩ ∉ l.completed)
  | completed (ok : Bool) (ho : l.operations = []) (hq : l.completionQueue = [⟨.open, l.call, ok⟩])
      (hc : ⟨.open, l.call, ok⟩ ∈ l.completed)

theorem Past.dial (h : l.Past) (ho : l.operations = []) (hq : l.completionQueue = []) :
    l.dial.Own := by
  refine .pending (by simp [Link.dial, ho]) hq fun ok hmem => ?_
  exact absurd (h.completed _ hmem) (Nat.not_succ_le_self _)

theorem Own.complete (h : l.Own) {operation : ℕ} {message : ControlMessage} {ok : Bool}
    (hk : l.complete operation message ok = some k) : k.Own := by
  obtain ⟨op, hop, rfl⟩ := complete_eq_some _ hk
  cases h with
  | pending ho hq =>
    rw [ho] at hop
    obtain ⟨rfl, rfl⟩ : operation = 0 ∧ op = ⟨.open, l.call, 0⟩ := by
      cases operation with
      | zero => exact ⟨rfl, (Option.some.inj hop).symm⟩
      | succ n => cases hop
    exact .completed ok (by simp [ho]) (by simp [hq]) (by simp)
  | completed _ ho =>
    rw [ho] at hop
    cases hop

theorem Own.arrival (h : l.Own) {completion : ℕ} {a : Arrival}
    (ha : l.completionQueue[completion]? = some a) :
    ∃ ok, a = ⟨.open, l.call, ok⟩ ∧ a ∈ l.completed := by
  cases h with
  | pending _ hq =>
    rw [hq] at ha
    cases ha
  | completed ok _ hq hc =>
    have hmem := List.mem_of_getElem? ha
    rw [hq, List.mem_singleton] at hmem
    exact ⟨ok, hmem, hmem ▸ hc⟩

end Link

namespace Process
variable {p q : Process σ}

/-- Nothing is left of earlier calls: no operation, no completion and no task. -/
def Quiet (p : Process σ) : Prop :=
  p.link.operations = [] ∧ p.link.completionQueue = [] ∧ p.readers = [] ∧
    .proceedGrpcQueue ∉ p.posted

instance (p : Process σ) : Decidable p.Quiet := inferInstanceAs (Decidable (_ ∧ _))

/-- While `openFacadeConnection` waits there is only its own operation, and nobody else to take
the completion. -/
structure Awaiting (p : Process σ) : Prop where
  past : p.link.Past
  own : p.link.stage = .dialing → p.link.Own ∧ p.readers = [] ∧ .proceedGrpcQueue ∉ p.posted

theorem initial_awaiting : (initial M).Awaiting :=
  ⟨Link.initial_past, fun h => by cases h⟩

theorem not_posted_notify {notice : Notice} (h : .proceedGrpcQueue ∉ p.posted) :
    .proceedGrpcQueue ∉ (p.notify notice).posted := by
  simp [notify, h]

theorem Awaiting.step {a : Action} (h : p.Awaiting) (hs : Stepped M blank p a q) (hi : p.Inv M)
    (hc : q.link.call ≠ p.link.call → p.Quiet) : q.Awaiting := by
  refine ⟨h.past.changes (hs.changes hi), fun hq => ?_⟩
  cases hs with
  | notified | recalled =>
    obtain ⟨hown, hreaders, hposted⟩ := h.own hq
    exact ⟨hown, hreaders, not_posted_notify hposted⟩
  | started =>
    obtain ⟨hown, hreaders, hposted⟩ := h.own hq
    exact ⟨hown, hreaders, fun hmem => hposted (List.mem_of_mem_eraseIdx hmem)⟩
  | dialed hh =>
    obtain ⟨hoperations, hqueue, hreaders, hposted⟩ := hc (by simp [Link.dial])
    exact ⟨h.past.dial hoperations hqueue, hreaders, hposted⟩
  | sent | finishing | connected | openFailed | openTimedOut | closed | closeTimedOut => cases hq
  | drained hh =>
    have hclosing : p.link.stage = .closing := of_decide_eq_true (hi.next hh).1
    rw [Link.take, hclosing] at hq
    cases hq
  | left =>
    obtain ⟨hown, hreaders, hposted⟩ := h.own hq
    exact ⟨hown, hreaders, by simpa using hposted⟩
  | completed hl =>
    obtain ⟨hown, hreaders, hposted⟩ := h.own ((complete_stage hl).symm.trans hq)
    exact ⟨hown.complete hl, hreaders, hposted⟩
  | taken ht | timedOut ht => exact absurd (List.mem_of_getElem? ht) (h.own hq).2.2
  | received hn | wrote hn | dropped hn | renewed hn | ended hn =>
    rw [(h.own hq).2.1] at hn
    cases hn
  | refused | closeStuck | threw => exact h.own hq

end Process

/-- `openFacadeConnection` throws after `Asynccontrol`. -/
def Refuses (t : Transition (Process σ) Action) : Prop :=
  t.source.link.stage = .dialing ∧ t.target.link.stage = .closed

def Action.isOpenTimeout : Action → Bool
  | .openTimeout => true
  | _ => false

/-- `openFacadeConnection` returns once its own `OPEN` has succeeded, and throws only if that
failed or was not there by the deadline. -/
def Attributed (t : Transition (Process σ) Action) : Prop :=
  (Connects t → ⟨.open, t.source.link.call, true⟩ ∈ t.source.link.completed) ∧
  (Refuses t → ⟨.open, t.source.link.call, false⟩ ∈ t.source.link.completed ∨
    t.label.isOpenTimeout = true ∧
      ∀ ok, ⟨.open, t.source.link.call, ok⟩ ∉ t.source.link.completed)

section
variable {p q : Process σ} {a : Action}

theorem Process.Awaiting.connects (h : p.Awaiting) (hs : Stepped M blank p a q) (hi : p.Inv M)
    (hc : Connects ⟨p, a, q⟩) : ⟨.open, p.link.call, true⟩ ∈ p.link.completed := by
  obtain ⟨hdialing, hgreeting⟩ := hc
  obtain ⟨i, arrival, cs, throws, hh, ha, ho, -⟩ :=
    hs.connects hi (by rw [hdialing]; rfl) (by rw [hgreeting]; rfl)
  obtain ⟨ok, rfl, hmem⟩ := (h.own hdialing).1.arrival ha
  have hok : ok = true := by simpa [Arrival.opens] using ho
  exact hok ▸ hmem

theorem Process.Awaiting.refuses (h : p.Awaiting) (hs : Stepped M blank p a q) (hi : p.Inv M)
    (hr : Refuses ⟨p, a, q⟩) : ⟨.open, p.link.call, false⟩ ∈ p.link.completed ∨
      a.isOpenTimeout = true ∧ ∀ ok, ⟨.open, p.link.call, ok⟩ ∉ p.link.completed := by
  obtain ⟨hdialing, hclosed⟩ := hr
  obtain ⟨hown, -⟩ := h.own hdialing
  cases hs with
  | openFailed hh ha ho =>
    obtain ⟨ok, rfl, hmem⟩ := hown.arrival ha
    have hok : ok = false := by simpa [Arrival.opens] using ho
    exact .inl (hok ▸ hmem)
  | openTimedOut hh hq =>
    cases hown with
    | pending ho hnone hc => exact .inr ⟨rfl, hc⟩
    | completed ok ho hsome =>
      rw [hq] at hsome
      cases hsome
  | closed hh | closeTimedOut hh =>
    have hclosing : p.link.stage = .closing := of_decide_eq_true (hi.next hh).1
    cases hdialing.symm.trans hclosing
  | completed hl => cases hdialing.symm.trans ((complete_stage hl).symm.trans hclosed)
  | sent | dialed | finishing | connected => cases hclosed
  | _ => cases hdialing.symm.trans hclosed

end

/-- Where nothing is left of earlier calls when a call is made, every completion is put down to
the call that it is of. -/
theorem completion_attributed {h : List (Transition (Process σ) Action)} {p : Process σ}
    (hr : (process M blank).Run h p) (hquiet : ∀ t ∈ h, Dials t → t.source.Quiet) :
    ∀ t ∈ h, Attributed t := by
  refine hr.forall_of_forall (I := Process.Awaiting) (fun _ h => h ▸ Process.initial_awaiting)
    ?_ hquiet
  intro p a q hp hi hs hc
  have hinv := reachable_inv hp
  have hstep := Process.stepped hs
  exact ⟨hi.step hstep hinv hc, hi.connects hstep hinv, hi.refuses hstep hinv⟩

/-- A second connection is opened when the first has been closed and its task has ended. -/
theorem completion_attributed_reopened : ∃ h p, (process pilot unread).Run h p ∧
    (∀ t ∈ h, Attributed t) ∧ p.link.opened = [1, 2] := by
  obtain ⟨h, p, hr, hp⟩ := TransitionSystem.exists_run (.initial pilot)
    (Process.step pilot unread)
    (Action.operating (Action.writing 1) ++ Action.releasing 0 ++ Action.idling ++ Action.opening)
    (p := fun h p => decide ((∀ t ∈ h, Dials t → t.source.Quiet) ∧ p.link.opened = [1, 2]))
    (by decide +kernel)
  obtain ⟨hquiet, hopened⟩ := of_decide_eq_true hp
  exact ⟨h, p, hr, completion_attributed hr hquiet, hopened⟩

/-- The first call is given up after five seconds. Its `OPEN` succeeds when the second one is
waited for, and that is taken to be open. -/
theorem late_open_taken : ¬ ∀ h p, (process pilot unread).Run h p → ∀ t ∈ h, Attributed t := by
  intro hclaim
  obtain ⟨h, p, hr, hp⟩ := TransitionSystem.exists_run (.initial pilot)
    (Process.step pilot unread)
    [.notifyEvent (.user (.operate 5 [])),
      .run 0 { Environment.permissive fun _ => true with openFacade := .error "timeout" }, .call,
      .openTimeout, .leave, .notifyEvent (.user (.operate 5 [])), .handle, .call,
      .complete 0 unread true, .openNext 0]
    (p := fun h _ => decide (∃ t ∈ h, Connects t ∧
      ⟨.open, t.source.link.call, true⟩ ∉ t.source.link.completed)) (by decide +kernel)
  obtain ⟨t, ht, hconnects, hnot⟩ := of_decide_eq_true hp
  exact hnot ((hclaim h p hr t ht).1 hconnects)

end FmClient.Facade
