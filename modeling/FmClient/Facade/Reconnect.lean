import FmClient.Facade.ProcessSpec

/-! Connecting again. A `ClientBackend` has one `ClientContext`, and every call of
`Asynccontrol` is given it: a client can connect once. -/
namespace FmClient.Facade
open Lib Handler Backend FmClient.System
variable {σ : Type} {M : ClientMachine σ} {blank : ControlMessage}

/-- The objects of the class. -/
inductive ClientContext where
  | context
  deriving DecidableEq

def contextsGiven (h : List (Transition (Process σ) Action)) : List ClientContext :=
  (h.filter fun t => Dials t).map fun _ => .context

/-- No call was given a context that an earlier one had used, and when one was made gRPC had
nothing left to do for an earlier stream. -/
def ConnectsAfresh (h : List (Transition (Process σ) Action)) : Prop :=
  (contextsGiven h).Nodup ∧ ∀ t ∈ h, Dials t → t.source.link.operations = []

def Activity.asks : Activity → Bool
  | ⟨.ready, .dial _ :: _, _⟩ => true
  | _ => false

/-- A handler of `ATTACH` or `OPERATE` gets as far as `Asynccontrol`. -/
def asks (t : Transition (Process σ) Action) : Bool :=
  match t.label with
  | .call => t.source.handling.any Activity.asks
  | _ => false

section
variable {p q : Process σ} {a : Action} {h : List (Transition (Process σ) Action)}

theorem Stepped.call (hs : Stepped M blank p a q) :
    q.link.call = p.link.call + (asks ⟨p, a, q⟩).toNat := by
  cases hs with
  | sent hh | recalled hh | finishing hh | dialed hh => simp [asks, hh, Activity.asks]; rfl
  | completed hl =>
    obtain ⟨op, -, rfl⟩ := Link.complete_eq_some _ hl
    rfl
  | _ => rfl

theorem Stepped.dials_iff (hs : Stepped M blank p a q) :
    Dials ⟨p, a, q⟩ ↔ asks ⟨p, a, q⟩ = true := by
  have hcall := hs.call
  unfold Dials
  cases hasks : asks ⟨p, a, q⟩ <;> simp [hasks] at hcall ⊢ <;> omega

theorem call_eq (hr : (process M blank).Run h p) : p.link.call = (h.filter asks).length := by
  refine hr.induct (P := fun h p => p.link.call = (h.filter asks).length) ?_ ?_
  · intro p hp
    cases hp
    rfl
  · intro h p a q _ hi hs
    rw [(Process.stepped hs).call, hi, List.filter_append, List.length_append]
    cases hasks : asks ⟨p, a, q⟩ <;> simp [hasks]

theorem contextsGiven_length (hr : (process M blank).Run h p) :
    (contextsGiven h).length = (h.filter asks).length := by
  rw [contextsGiven, List.length_map]
  congr 1
  refine List.filter_congr fun t ht => ?_
  have hs := Process.stepped (hr.mem_step ht).2
  simp [hs.dials_iff]

structure Process.Untouched (p : Process σ) : Prop where
  stage : p.link.stage = .closed
  operations : p.link.operations = []
  readers : p.readers = []
  posted : ∀ t ∈ p.posted, t.isMachine = true

theorem Process.Untouched.step (hp : p.Untouched) (hi : p.Inv M) (hs : Stepped M blank p a q)
    (hq : q.link.call = p.link.call) : q.Untouched := by
  obtain ⟨hstage, hoperations, hreaders, hposted⟩ := hp
  have hmachine (tasks : List Notice) : ∀ t ∈ p.posted ++ tasks.map Task.machine,
      t.isMachine = true := by
    simpa [or_imp, forall_and] using hposted
  cases hs with
  | notified => exact ⟨hstage, hoperations, hreaders, hmachine _⟩
  | started hh ht =>
    exact ⟨hstage, hoperations, hreaders, fun t ht => hposted t (List.mem_of_mem_eraseIdx ht)⟩
  | sent hh =>
    obtain ⟨-, t, hn⟩ := hi.next hh
    obtain ⟨ho | ⟨ho, -⟩, -⟩ := next_send hn <;> rw [ho] at hstage <;> cases hstage
  | recalled hh => exact ⟨hstage, hoperations, hreaders, hmachine _⟩
  | dialed hh => exact absurd hq (Nat.succ_ne_self _)
  | finishing hh =>
    obtain ⟨-, t, hn⟩ := hi.next hh
    obtain ⟨ho | ho, -⟩ := next_finish hn <;> rw [ho] at hstage <;> cases hstage
  | refused => exact ⟨hstage, hoperations, hreaders, hposted⟩
  | connected hh | openFailed hh | openTimedOut hh | drained hh | closed hh | closeStuck hh
  | closeTimedOut hh =>
    -- no handler waits in a call
    have hf := (hi.next hh).1
    rw [hstage] at hf
    cases hf
  | threw => exact ⟨hstage, hoperations, hreaders, hposted⟩
  | left => exact ⟨hstage, hoperations, hreaders, hmachine _⟩
  | completed hl =>
    obtain ⟨op, hop, -⟩ := Link.complete_eq_some _ hl
    simp [hoperations] at hop
  | taken ht | timedOut ht => exact absurd (hposted _ (List.mem_of_getElem? ht)) (by simp)
  | received hn | wrote hn | dropped hn | renewed hn | ended hn => simp [hreaders] at hn

theorem untouched_of_call (hp : (process M blank).Reachable p) (h0 : p.link.call = 0) :
    p.Untouched := by
  refine hp.invariant (P := fun p => p.link.call = 0 → p.Untouched) ?_ ?_ h0
  · intro p hp _
    cases hp
    exact ⟨rfl, rfl, rfl, by simp [Process.initial]⟩
  · intro p a q hp hi hs h0
    have hcall := (Process.stepped hs).call
    have hzero : p.link.call = 0 := by omega
    exact (hi hzero).step (reachable_inv hp) (Process.stepped hs) (by omega)

theorem nodup_contextsGiven : (contextsGiven h).Nodup ↔ (contextsGiven h).length ≤ 1 := by
  simp [contextsGiven, List.map_const', List.nodup_replicate]

/-- A client connects afresh whenever it connects exactly if it does so no more than once. -/
theorem connectsAfresh_iff (hr : (process M blank).Run h p) :
    ConnectsAfresh h ↔ (h.filter asks).length ≤ 1 := by
  rw [ConnectsAfresh, nodup_contextsGiven, contextsGiven_length hr]
  refine and_iff_left_of_imp fun hle t ht hdials => ?_
  have hasks := (Process.stepped (hr.mem_step ht).2).dials_iff.mp hdials
  obtain ⟨u, w, rfl⟩ := List.append_of_mem ht
  have hnone : (u.filter asks).length = 0 := by
    rw [List.filter_append, List.filter_cons_of_pos hasks, List.length_append,
      List.length_cons] at hle
    omega
  have hcall := call_eq hr.before
  exact (untouched_of_call hr.before.reachable (hcall.trans hnone)).operations

end

theorem connectsAfresh_iff_first : ∃ h p, (process pilot unread).Run h p ∧ ConnectsAfresh h ∧
    p.link.opened = [1] := by
  obtain ⟨h, p, hr, hp⟩ := TransitionSystem.exists_run (.initial pilot)
    (Process.step pilot unread) (Action.operating (Action.writing 1) ++ Action.releasing 0)
    (p := fun h p => decide ((h.filter asks).length ≤ 1 ∧ p.link.opened = [1]))
    (by decide +kernel)
  obtain ⟨honce, hopened⟩ := of_decide_eq_true hp
  exact ⟨h, p, hr, (connectsAfresh_iff hr).mpr honce, hopened⟩

/-- The first call is given up after five seconds; the second one is given the same context, and
gRPC has not done with the first. -/
theorem context_reused : ¬ ∀ h p, (process pilot unread).Run h p → ConnectsAfresh h := by
  intro hclaim
  let env : Environment := { Environment.permissive fun _ => true with openFacade := .error "" }
  let attempt : List Action := [.notifyEvent (.user (.operate 5 [])), .run 0 env, .call]
  obtain ⟨h, p, hr, hp⟩ := TransitionSystem.exists_run (.initial pilot)
    (Process.step pilot unread) (attempt ++ [.openTimeout, .leave] ++ attempt)
    (p := fun h _ => decide (contextsGiven h = [.context, .context])) (by decide +kernel)
  have hnodup := (hclaim h p hr).1
  simp [of_decide_eq_true hp] at hnodup

end FmClient.Facade
