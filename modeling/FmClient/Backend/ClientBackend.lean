import FmClient.Lib.SerialQueue
import FmClient.Lib.TransitionSystem
import Mathlib.Data.List.Perm.Basic

/-! The control stream of `ClientBackend`: `send` from any thread, and
`proceedGrpcQueue`, which takes one completion and serves it. -/
namespace FmClient.Backend
open FmClient.Lib
variable {Out In : Type*}

inductive GrpcTag where
  | open | close | write | read
  deriving DecidableEq

/-- What `AsyncNext` reports about one operation. -/
structure Completion where
  tag : GrpcTag
  ok : Bool

def Completion.isWrite (c : Completion) : Bool := c.tag = .write

@[simp] theorem Completion.isWrite_write (ok : Bool) :
    (Completion.mk .write ok).isWrite = true := rfl
@[simp] theorem Completion.isWrite_read (ok : Bool) :
    (Completion.mk .read ok).isWrite = false := rfl

structure ClientBackend (Out In : Type*) where
  sending : Bool
  sendingQueue : List Out
  toRead : Option In
  keepReader : Bool

/-- What one call leaves for others to do: the `Write` and the `Read` it starts,
the message given to `notifyEvent`, and the task it posts. -/
structure Effects (Out In : Type*) where
  write : Option Out := none
  read : Bool := false
  received : Option In := none
  post : Bool := false

namespace ClientBackend

/-- The section under `sendingLock`. -/
def send (b : ClientBackend Out In) (message : Out) : ClientBackend Out In × Option Out :=
  if b.sending then ({ b with sendingQueue := b.sendingQueue ++ [message] }, none)
  else ({ b with sending := true }, some message)

/-- `case WRITE`, also under `sendingLock`. -/
def writeCompleted (b : ClientBackend Out In) : ClientBackend Out In × Option Out :=
  match b.sendingQueue with
  | [] => ({ b with sending := false }, none)
  | message :: rest => ({ b with sendingQueue := rest }, some message)

/-- The part after `AsyncNext`; a timeout gives no completion and leaves `ok` false. -/
def proceedGrpcQueue (b : ClientBackend Out In) (next : Option Completion) :
    ClientBackend Out In × Effects Out In :=
  match next with
  | some ⟨.read, true⟩ =>
    ({ b with toRead := none }, { received := b.toRead, read := true, post := b.keepReader })
  | some ⟨.write, true⟩ =>
    (b.writeCompleted.1, { write := b.writeCompleted.2, post := b.keepReader })
  | _ => (b, { post := b.keepReader })

def messages (b : ClientBackend Out In) : SerialQueue Out := ⟨b.sending, b.sendingQueue⟩

variable (b : ClientBackend Out In)

theorem send_messages (message : Out) :
    (b.send message).1.messages = (b.messages.submit message).1 ∧
      (b.send message).2 = (b.messages.submit message).2 := by
  cases h : b.sending <;> simp [send, messages, SerialQueue.submit, h]

theorem writeCompleted_messages :
    b.writeCompleted.1.messages = b.messages.complete.1 ∧
      b.writeCompleted.2 = b.messages.complete.2 := by
  cases h : b.sendingQueue <;> simp [writeCompleted, messages, SerialQueue.complete, h]

end ClientBackend

/-- The backend within one facade session, with the operations gRPC has in hand.
`taken` are the tasks between `AsyncNext` and the rest of `proceedGrpcQueue`. -/
structure Session (Out In : Type*) where
  backend : ClientBackend Out In
  writing : List Out
  reading : ℕ
  completionQueue : List Completion
  posted : ℕ
  taken : List (Option Completion)
  accepted : List Out
  written : List Out
  received : List In

inductive SessionAction (Out In : Type*) where
  | send (message : Out)
  | writeDone (write : ℕ) (ok : Bool)
  | readDone (message : In) (ok : Bool)
  | asyncNext (completion : ℕ)
  | timeout
  | serve (task : ℕ)

namespace Session

def opened : Session Out In :=
  ⟨⟨false, [], none, true⟩, [], 1, [], 1, [], [], [], []⟩

def send (s : Session Out In) (message : Out) : Session Out In :=
  { s with
    backend := (s.backend.send message).1
    writing := s.writing ++ (s.backend.send message).2.toList
    accepted := s.accepted ++ [message]
    written := s.written ++ (s.backend.send message).2.toList }

def serve (s : Session Out In) (next : Option Completion) : Session Out In :=
  let (backend, effects) := s.backend.proceedGrpcQueue next
  { s with
    backend := backend
    writing := s.writing ++ effects.write.toList
    reading := s.reading + effects.read.toNat
    posted := s.posted + effects.post.toNat
    written := s.written ++ effects.write.toList
    received := s.received ++ effects.received.toList }

def step (s : Session Out In) : SessionAction Out In → Option (Session Out In)
  | .send message => some (s.send message)
  | .writeDone write ok =>
    if write < s.writing.length then some { s with
      writing := s.writing.eraseIdx write
      completionQueue := s.completionQueue ++ [⟨.write, ok⟩] }
    else none
  | .readDone message ok =>
    if 0 < s.reading then some { s with
      reading := s.reading - 1
      backend := { s.backend with toRead := if ok then some message else s.backend.toRead }
      completionQueue := s.completionQueue ++ [⟨.read, ok⟩] }
    else none
  | .asyncNext completion =>
    match s.completionQueue[completion]? with
    | some c =>
      if 0 < s.posted then some { s with
        posted := s.posted - 1
        completionQueue := s.completionQueue.eraseIdx completion
        taken := s.taken ++ [some c] }
      else none
    | none => none
  | .timeout =>
    if 0 < s.posted then some { s with posted := s.posted - 1, taken := s.taken ++ [none] }
    else none
  | .serve task =>
    match s.taken[task]? with
    | some next => some ({ s with taken := s.taken.eraseIdx task }.serve next)
    | none => none

/-- A `Write` is outstanding until `AsyncNext` has returned its tag. -/
def outstandingWrites (s : Session Out In) : ℕ :=
  s.writing.length + s.completionQueue.countP Completion.isWrite

end Session

def session (Out In : Type*) : TransitionSystem (Session Out In) (SessionAction Out In) :=
  .ofStep .opened Session.step

/-! ## One write at a time -/

namespace Session

def served (next : Option Completion) : Bool :=
  match next with
  | some ⟨.write, true⟩ => true
  | _ => false

/-- The `Write`s that will still reach `case WRITE`, or may. -/
def activeWrites (s : Session Out In) : ℕ := s.outstandingWrites + s.taken.countP served

def Inv (s : Session Out In) : Prop :=
  s.backend.messages.Inv s.activeWrites s.written s.accepted

theorem countP_eraseIdx {α : Type*} (p : α → Bool) {l : List α} {i : ℕ} {x : α}
    (hx : l[i]? = some x) : l.countP p = (l.eraseIdx i).countP p + (p x).toNat := by
  obtain ⟨hi, rfl⟩ := List.getElem?_eq_some_iff.mp hx
  rw [← (List.getElem_cons_eraseIdx_perm hi).countP_eq, List.countP_cons]
  cases p l[i] <;> rfl

theorem opened_inv : (opened : Session Out In).Inv :=
  ⟨by simp [opened, activeWrites, outstandingWrites], by simp [opened, ClientBackend.messages],
    by simp [opened, ClientBackend.messages]⟩

variable {s t : Session Out In}

theorem Inv.send (h : s.Inv) (message : Out) : (s.send message).Inv := by
  obtain ⟨hm, hw⟩ := s.backend.send_messages message
  have hs := SerialQueue.Inv.submit h message
  rw [← hm, ← hw] at hs
  simpa [Inv, Session.send, activeWrites, outstandingWrites, Nat.add_assoc, Nat.add_comm,
    Nat.add_left_comm] using hs

theorem Inv.writeDone (h : s.Inv) {write : ℕ} {ok : Bool}
    (hs : s.step (.writeDone write ok) = some t) : t.Inv := by
  simp only [Session.step] at hs
  split at hs
  · rename_i hlt
    cases hs
    have hlen : (s.writing.eraseIdx write).length + 1 = s.writing.length := by
      rw [List.length_eraseIdx_of_lt hlt]
      omega
    have hactive : s.writing.length + s.completionQueue.countP Completion.isWrite +
        s.taken.countP served = (s.writing.eraseIdx write).length +
        (s.completionQueue ++ [Completion.mk .write ok]).countP Completion.isWrite +
        s.taken.countP served := by
      simp only [List.countP_append, List.countP_singleton, Completion.isWrite_write, if_true]
      omega
    simpa only [Inv, activeWrites, outstandingWrites, hactive] using h
  · cases hs

theorem Inv.readDone (h : s.Inv) {message : In} {ok : Bool}
    (hs : s.step (.readDone message ok) = some t) : t.Inv := by
  simp only [Session.step] at hs
  split at hs
  · cases hs
    simpa [Inv, activeWrites, outstandingWrites, ClientBackend.messages] using h
  · cases hs

/-- A failed `WRITE` completion is taken and never served: its write is lost to the flag. -/
theorem Inv.asyncNext (h : s.Inv) {completion : ℕ}
    (hs : s.step (.asyncNext completion) = some t) : t.Inv := by
  simp only [Session.step] at hs
  split at hs
  · rename_i c hc
    split at hs
    · cases hs
      have hcount := countP_eraseIdx Completion.isWrite hc
      simp only [Inv, activeWrites, outstandingWrites, hcount] at h
      simp only [Inv, activeWrites, outstandingWrites, List.countP_append, List.countP_singleton]
      obtain ⟨tag, ok⟩ := c
      cases tag <;> cases ok <;>
        simp only [served, Completion.isWrite, reduceCtorEq, decide_true, decide_false,
          Bool.toNat_true, Bool.toNat_false, Bool.false_eq_true, if_true, if_false,
          Nat.add_zero] at h ⊢
      case write.false =>
        rw [← Nat.add_assoc, Nat.add_right_comm] at h
        exact SerialQueue.Inv.lose h
      case write.true =>
        simpa only [Nat.add_assoc, Nat.add_comm, Nat.add_left_comm] using h
      all_goals exact h
    · cases hs
  · cases hs

theorem Inv.timeout (h : s.Inv) (hs : s.step .timeout = some t) : t.Inv := by
  simp only [Session.step] at hs
  split at hs
  · cases hs
    simpa [Inv, activeWrites, outstandingWrites, served] using h
  · cases hs

theorem Inv.serve (h : s.Inv) {task : ℕ} (hs : s.step (.serve task) = some t) : t.Inv := by
  simp only [Session.step] at hs
  split at hs
  · rename_i next hnext
    simp only [Option.some.injEq] at hs
    subst hs
    have hcount := countP_eraseIdx served hnext
    simp only [Inv, activeWrites, hcount, ← Nat.add_assoc] at h
    obtain _ | ⟨_ | _ | _ | _, _ | _⟩ := next <;>
      simp only [served, Bool.toNat_true, Bool.toNat_false, Nat.add_zero] at h
    case some.write.true =>
      obtain ⟨hm, hw⟩ := s.backend.writeCompleted_messages
      have hc := SerialQueue.Inv.complete h
      rw [← hm, ← hw] at hc
      simpa [Inv, Session.serve, ClientBackend.proceedGrpcQueue, activeWrites, outstandingWrites,
        Nat.add_assoc, Nat.add_comm, Nat.add_left_comm] using hc
    all_goals simpa [Inv, Session.serve, ClientBackend.proceedGrpcQueue, ClientBackend.messages,
      activeWrites, outstandingWrites] using h
  · cases hs

theorem Inv.step (h : s.Inv) {a : SessionAction Out In} (hs : s.step a = some t) : t.Inv := by
  cases a with
  | send message =>
    simp only [Session.step, Option.some.injEq] at hs
    exact hs ▸ h.send message
  | writeDone => exact h.writeDone hs
  | readDone => exact h.readDone hs
  | asyncNext => exact h.asyncNext hs
  | timeout => exact h.timeout hs
  | serve => exact h.serve hs

end Session

/-- Whatever the order of `send` calls and completions, and whatever their flags, writes
do not overlap and the stream gets the messages in the order of the lock. -/
theorem writes_serialised {s : Session Out In} (hs : (session Out In).Reachable s) :
    s.outstandingWrites ≤ 1 ∧
    s.written ++ s.backend.sendingQueue = s.accepted ∧
    (s.backend.sending = false → s.outstandingWrites = 0 ∧ s.backend.sendingQueue = []) := by
  have hi : s.Inv :=
    hs.invariant (fun _ h => h ▸ Session.opened_inv) fun _ _ _ _ hp ht => hp.step ht
  have hone := hi.active_le_one
  unfold Session.activeWrites at hone
  refine ⟨by omega, hi.fifo, fun hf => ?_⟩
  obtain ⟨hzero, hempty⟩ := hi.quiet hf
  unfold Session.activeWrites at hzero
  exact ⟨by omega, hempty⟩

/-- Three messages, of which the second waits for the first `WRITE` completion
and the third for one that fails. -/
theorem writes_serialised_failure : ∃ s, (session ℕ ℕ).Reachable s ∧
    s.written = [1, 2] ∧ s.backend.sendingQueue = [3] ∧ s.outstandingWrites ≤ 1 := by
  have hr := TransitionSystem.run_execute (Session.opened : Session ℕ ℕ) Session.step
    [.send 1, .send 2, .writeDone 0 true, .asyncNext 0, .serve 0, .send 3, .writeDone 0 false,
      .asyncNext 0, .serve 0] rfl
  exact ⟨_, hr.reachable, rfl, rfl, (writes_serialised hr.reachable).1⟩

end FmClient.Backend
