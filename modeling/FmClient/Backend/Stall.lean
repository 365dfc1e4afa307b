import FmClient.Backend.ClientBackend
import FmClient.Event

/-! Whether the control stream keeps going: a `Read` is out all the time, and a `Write` as long
as `sending` is set. A completion that failed is dropped, so that its operation is not renewed. -/
namespace FmClient.Backend
open FmClient.Lib
variable {Out : Type*}

def Completion.isRead (c : Completion) : Bool := c.tag = .read

@[simp] theorem Completion.isRead_read (ok : Bool) : (Completion.mk .read ok).isRead = true := rfl
@[simp] theorem Completion.isRead_write (ok : Bool) :
    (Completion.mk .write ok).isRead = false := rfl

namespace Session
variable {In : Type*}

def unserved (p : Completion → Bool) (s : Session Out In) : ℕ :=
  s.completionQueue.countP p + s.taken.countP fun next => next.any p

def reads (s : Session Out In) : ℕ := s.reading + s.unserved Completion.isRead

def writes (s : Session Out In) : ℕ := s.writing.length + s.unserved Completion.isWrite

/-- One `Read`, and one `Write` exactly while `sending` is set. -/
structure Balanced (s : Session Out In) : Prop where
  reads : s.reads = 1
  writes : s.writes = s.backend.sending.toNat
  keeps : s.backend.keepReader = true

/-- After `openFacadeConnection`, which leaves alone what an earlier session has queued. -/
def reopened (left : List Out) : Session Out In :=
  { opened with backend := { sending := false, sendingQueue := left, toRead := none
                             keepReader := true } }

theorem reopened_balanced (left : List Out) : (reopened left : Session Out In).Balanced :=
  ⟨rfl, rfl, rfl⟩

variable {s t : Session Out In}

theorem Balanced.send (h : s.Balanced) (message : Out) : (s.send message).Balanced := by
  obtain ⟨hreads, hwrites, hkeeps⟩ := h
  simp only [Session.writes, unserved] at hwrites
  cases hb : s.backend.sending with
  | true =>
    simp only [hb, Bool.toNat_true] at hwrites
    refine ⟨hreads, ?_, ?_⟩ <;>
      simpa [Session.writes, unserved, Session.send, ClientBackend.send, hb]
  | false =>
    simp only [hb, Bool.toNat_false] at hwrites
    refine ⟨hreads, ?_, ?_⟩
    · simp only [Session.writes, unserved, Session.send, ClientBackend.send, hb,
        Bool.false_eq_true, if_false, Option.toList_some, List.length_append,
        List.length_singleton, Bool.toNat_true]
      omega
    · simpa [Session.send, ClientBackend.send, hb] using hkeeps

theorem Balanced.complete (h : s.Balanced) {a : SessionAction Out In} (hs : s.step a = some t)
    (hsend : ∀ message, a ≠ .send message) (hserve : ∀ task, a ≠ .serve task) : t.Balanced := by
  obtain ⟨hreads, hwrites, hkeeps⟩ := h
  simp only [Session.reads, unserved] at hreads
  simp only [Session.writes, unserved] at hwrites
  cases a with
  | send message => exact absurd rfl (hsend message)
  | serve task => exact absurd rfl (hserve task)
  | writeDone write ok =>
    simp only [Session.step] at hs
    split at hs
    · rename_i hlt
      cases hs
      have hlength := List.length_eraseIdx_of_lt hlt
      refine ⟨?_, ?_, hkeeps⟩
      · simpa [Session.reads, unserved] using hreads
      · simp only [Session.writes, unserved, hlength, List.countP_append, List.countP_singleton,
          Completion.isWrite_write, if_true]
        omega
    · cases hs
  | readDone message ok =>
    simp only [Session.step] at hs
    split at hs
    · cases hs
      refine ⟨?_, ?_, hkeeps⟩
      · simp only [Session.reads, unserved, List.countP_append, List.countP_singleton,
          Completion.isRead_read, if_true]
        omega
      · simpa [Session.writes, unserved] using hwrites
    · cases hs
  | asyncNext completion =>
    simp only [Session.step] at hs
    split at hs
    · rename_i c hc
      split at hs
      · cases hs
        have hr := countP_eraseIdx Completion.isRead hc
        have hw := countP_eraseIdx Completion.isWrite hc
        have hone (p : Completion → Bool) : (if p c = true then 1 else 0) = (p c).toNat := by
          cases p c <;> rfl
        refine ⟨?_, ?_, hkeeps⟩
        · simp only [Session.reads, unserved, List.countP_append, List.countP_singleton,
            Option.any_some, hone]
          omega
        · simp only [Session.writes, unserved, List.countP_append, List.countP_singleton,
            Option.any_some, hone]
          omega
      · cases hs
    · cases hs
  | timeout =>
    simp only [Session.step] at hs
    split at hs
    · cases hs
      exact ⟨by simpa [Session.reads, unserved] using hreads,
        by simpa [Session.writes, unserved] using hwrites, hkeeps⟩
    · cases hs

theorem unserved_eraseIdx (p : Completion → Bool) {task : ℕ} {next : Option Completion}
    (hnext : s.taken[task]? = some next) :
    s.unserved p = ({ s with taken := s.taken.eraseIdx task } : Session Out In).unserved p +
      (next.any p).toNat := by
  have hcount := countP_eraseIdx (fun next => next.any p) hnext
  simp only [unserved, hcount, Nat.add_assoc]

theorem reads_serve (next : Option Completion) :
    (s.serve next).reads = s.reads + (s.backend.proceedGrpcQueue next).2.read.toNat := by
  simp only [Session.reads, unserved, Session.serve]
  omega

theorem writes_serve (next : Option Completion) :
    (s.serve next).writes = s.writes + (s.backend.proceedGrpcQueue next).2.write.toList.length := by
  simp only [Session.writes, unserved, Session.serve, List.length_append]
  omega

/-- What `proceedGrpcQueue` passes over: the completion of an operation that failed. -/
def dropped : Option Completion → Bool
  | some ⟨.read, false⟩ | some ⟨.write, false⟩ => true
  | _ => false

theorem proceedGrpcQueue_dropped (b : ClientBackend Out In) {next : Option Completion}
    (hd : dropped next = true) : b.proceedGrpcQueue next = (b, { post := b.keepReader }) := by
  obtain _ | ⟨_ | _ | _ | _, _ | _⟩ := next <;> first | rfl | cases hd

theorem proceedGrpcQueue_renews (b : ClientBackend Out In) {next : Option Completion}
    (hd : dropped next = false) (hb : next.any Completion.isWrite = true → b.sending = true) :
    (b.proceedGrpcQueue next).2.read.toNat = (next.any Completion.isRead).toNat ∧
    (b.proceedGrpcQueue next).2.write.toList.length + b.sending.toNat =
      (next.any Completion.isWrite).toNat + (b.proceedGrpcQueue next).1.sending.toNat ∧
    (b.proceedGrpcQueue next).1.keepReader = b.keepReader := by
  obtain _ | ⟨_ | _ | _ | _, _ | _⟩ := next
  case some.write.true =>
    have hsending := hb rfl
    cases hq : b.sendingQueue <;>
      simp [ClientBackend.proceedGrpcQueue, ClientBackend.writeCompleted, hq, hsending]
  case some.read.false | some.write.false => cases hd
  all_goals simp [ClientBackend.proceedGrpcQueue, Completion.isRead, Completion.isWrite]

theorem Balanced.serve (h : s.Balanced) {task : ℕ} {next : Option Completion}
    (hnext : s.taken[task]? = some next) (hd : dropped next = false) :
    ({ s with taken := s.taken.eraseIdx task }.serve next : Session Out In).Balanced := by
  obtain ⟨hreads, hwrites, hkeeps⟩ := h
  have hr := unserved_eraseIdx Completion.isRead hnext
  have hw := unserved_eraseIdx Completion.isWrite hnext
  simp only [Session.reads] at hreads
  simp only [Session.writes] at hwrites
  have hsending (hwrite : next.any Completion.isWrite = true) : s.backend.sending = true := by
    have hle := Bool.toNat_le s.backend.sending
    simp only [hwrite, Bool.toNat_true] at hw
    exact Bool.toNat_eq_one.mp (by omega)
  obtain ⟨hread, hwrite, hkeep⟩ := proceedGrpcQueue_renews s.backend hd hsending
  refine ⟨?_, ?_, hkeep.trans hkeeps⟩
  · rw [reads_serve]
    simp only [Session.reads]
    omega
  · rw [writes_serve]
    simp only [Session.writes, Session.serve]
    omega

/-- A completion that is passed over leaves the stream without a reader, or the flag without a
write. -/
theorem Balanced.drop (h : s.Balanced) {task : ℕ} {next : Option Completion}
    (hnext : s.taken[task]? = some next) (hd : dropped next = true)
    (ht : t = { s with taken := s.taken.eraseIdx task }.serve next) :
    t.backend = s.backend ∧ (t.reads = 0 ∨ s.backend.sending = true ∧ t.writes = 0) := by
  obtain ⟨hreads, hwrites, -⟩ := h
  have hr := unserved_eraseIdx Completion.isRead hnext
  have hw := unserved_eraseIdx Completion.isWrite hnext
  have hsame := proceedGrpcQueue_dropped s.backend hd
  simp only [Session.reads] at hreads
  simp only [Session.writes] at hwrites
  have hle := Bool.toNat_le s.backend.sending
  subst ht
  rw [reads_serve, writes_serve]
  simp only [Session.reads, Session.writes, Session.serve, hsame, Bool.toNat_false,
    Option.toList_none, List.length_nil]
  refine ⟨trivial, ?_⟩
  obtain _ | ⟨_ | _ | _ | _, _ | _⟩ := next <;> simp only [dropped, Bool.false_eq_true] at hd
  · right
    simp only [Option.any_some, Completion.isWrite_write, Bool.toNat_true] at hw
    exact ⟨Bool.toNat_eq_one.mp (by omega), by omega⟩
  · left
    simp only [Option.any_some, Completion.isRead_read, Bool.toNat_true] at hr
    omega

end Session

abbrev SessionStep (Out : Type*) :=
  Transition (Session Out ControlMessage) (SessionAction Out ControlMessage)

def Session.notified (s : Session Out ControlMessage) : List ConnectionEvent :=
  s.received.map .received

/-- The stream goes on, or the client was told that it does not. -/
def Session.Flowing (s : Session Out ControlMessage) : Prop :=
  s.backend.keepReader = true →
    0 < s.reads ∧ (s.backend.sending = true → 0 < s.writes) ∨
      ∃ e ∈ s.notified, e = .lost ∨ e = .closed ∨ e = .error

instance : DecidablePred (@Session.Flowing Out) :=
  fun _ => inferInstanceAs (Decidable (_ → _))

namespace Session
variable {s t : Session Out ControlMessage}

theorem Balanced.flowing (h : s.Balanced) : s.Flowing := by
  refine fun _ => .inl ⟨by rw [h.reads]; exact Nat.one_pos, fun hsending => ?_⟩
  rw [h.writes, hsending]
  exact Nat.one_pos

def dropsFailure (t : SessionStep Out) : Bool :=
  match t.label with
  | .serve task => (t.source.taken[task]?).any dropped
  | _ => false

theorem Balanced.step {a : SessionAction Out ControlMessage} (h : s.Balanced)
    (hs : s.step a = some t) (hd : dropsFailure ⟨s, a, t⟩ = false) : t.Balanced := by
  cases a with
  | send message =>
    cases hs
    exact h.send message
  | serve task =>
    simp only [Session.step] at hs
    split at hs
    · rename_i next hnext
      cases hs
      exact h.serve hnext (by simpa [dropsFailure, hnext] using hd)
    · cases hs
  | _ => exact h.complete hs (by simp) (by simp)

theorem not_mem_notified : ¬ ∃ e ∈ s.notified, e = .lost ∨ e = .closed ∨ e = .error := by
  simp [Session.notified]

theorem Balanced.not_flowing {a : SessionAction Out ControlMessage} (h : s.Balanced)
    (hs : s.step a = some t) (hd : dropsFailure ⟨s, a, t⟩ = true) : ¬ t.Flowing := by
  cases a with
  | serve task =>
    simp only [Session.step] at hs
    split at hs
    · rename_i next hnext
      have hdropped : dropped next = true := by simpa [dropsFailure, hnext] using hd
      obtain ⟨hbackend, hgone⟩ := h.drop hnext hdropped (Option.some.inj hs).symm
      intro hflowing
      obtain ⟨hreads, hwrites⟩ | htold := hflowing (hbackend ▸ h.keeps)
      · obtain hzero | ⟨hsending, hzero⟩ := hgone
        · omega
        · have hpos := hwrites (hbackend ▸ hsending)
          omega
      · exact not_mem_notified htold
    · cases hs
  | _ => exact absurd hd Bool.false_ne_true

end Session

/-- A session that may find messages of an earlier one in the queue. -/
def laterSession (left : List Out) :
    TransitionSystem (Session Out ControlMessage) (SessionAction Out ControlMessage) :=
  .ofStep (.reopened left) Session.step

/-- The stream goes on in every state of a run exactly if no completion of a failed `Read` or
`Write` is served in it. -/
theorem flowing_iff {left : List Out} {h : List (SessionStep Out)} {s : Session Out ControlMessage}
    (hr : (laterSession left).Run h s) :
    (∀ t ∈ h, t.target.Flowing) ↔ ∀ t ∈ h, Session.dropsFailure t = false := by
  refine hr.forall_iff (I := Session.Balanced) (G := fun t => t.target.Flowing)
    (fun _ hs => hs ▸ Session.reopened_balanced left) (fun _ _ _ _ hb hs hd => hb.step hs hd) ?_
  intro s a t _ hb hs
  constructor
  · intro hflowing
    by_contra hd
    exact hb.not_flowing hs (by simpa using hd) hflowing
  · exact fun hd => (hb.step hs hd).flowing

/-- A message is read and another one sent, and both operations are renewed or done. -/
theorem flowing_iff_served : ∃ h s, (laterSession [] : TransitionSystem (Session ℕ _) _).Run h s ∧
    (∀ t ∈ h, t.target.Flowing) ∧ s.notified.length = 1 ∧ s.written = [1] := by
  obtain ⟨h, s, hr, hp⟩ := TransitionSystem.exists_run
    (Session.reopened [] : Session ℕ ControlMessage) Session.step
    [.send 1, .readDone { command := .heartbeat, response := .accepted } true, .asyncNext 0,
      .serve 0, .writeDone 0 true, .asyncNext 0, .serve 0]
    (p := fun h s => decide ((∀ t ∈ h, Session.dropsFailure t = false) ∧
      s.notified.length = 1 ∧ s.written = [1])) (by decide +kernel)
  obtain ⟨hd, hlast⟩ := of_decide_eq_true hp
  exact ⟨h, s, hr, (flowing_iff hr).mpr hd, hlast⟩

/-- The first write fails: the next message waits for ever, and nobody is told. -/
theorem write_failure_stalls : ¬ ∀ left h s,
    (laterSession left : TransitionSystem (Session ℕ _) _).Run h s →
      ∀ t ∈ h, t.target.Flowing := by
  intro hclaim
  obtain ⟨h, s, hr, hp⟩ := TransitionSystem.exists_run
    (Session.reopened [] : Session ℕ ControlMessage) Session.step
    [.send 1, .writeDone 0 false, .asyncNext 0, .serve 0, .send 2]
    (p := fun h _ => decide (¬ ∀ t ∈ h, t.target.Flowing)) (by decide +kernel)
  exact of_decide_eq_true hp (hclaim [] h s hr)

end FmClient.Backend
