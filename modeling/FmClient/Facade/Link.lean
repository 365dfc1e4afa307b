import FmClient.Backend.ClientBackend
import FmClient.Facade.Calls
import Mathlib.Logic.Function.Basic

/-! The backend with the operations that gRPC has in hand, over any number of calls of
`Asynccontrol`. All of them complete on one queue, and a tag does not tell the call it is of. -/
namespace FmClient.Facade
open Lib Backend

/-- A message with its session: that of the stream it was read from, or the one that had been
opened last when it was sent. -/
structure Stamped (α : Type) where
  session : ℕ
  content : α
  deriving DecidableEq

/-- An operation in gRPC's hands; a `Read` fills the buffer it was started with. -/
structure Operation where
  tag : GrpcTag
  call : ℕ
  buffer : ℕ := 0
  deriving DecidableEq

structure Arrival where
  tag : GrpcTag
  call : ℕ
  ok : Bool
  deriving DecidableEq

def Arrival.completion (a : Arrival) : Completion := ⟨a.tag, a.ok⟩

/-- A message handed to `stream->Write`, with the call of the stream. -/
structure Written where
  stream : ℕ
  message : Stamped ClientMessage
  deriving DecidableEq

/-- `buffer` is the last object made for `toRead`, and `contents` what was read into each.
`accepted`, `written`, `opened` and `completed` are histories: of `send`, of `Write`, of the
calls that `openFacadeConnection` found open, and of gRPC. -/
structure Link where
  backend : ClientBackend (Stamped ClientMessage) ℕ
  call : ℕ
  buffer : ℕ
  contents : ℕ → Option (Stamped ControlMessage)
  stage : Stage
  operations : List Operation
  completionQueue : List Arrival
  accepted : List (Stamped ClientMessage)
  written : List Written
  opened : List ℕ
  completed : List Arrival

namespace Link

def initial : Link :=
  ⟨⟨false, [], none, false⟩, 0, 0, fun _ => none, .closed, [], [], [], [], [], []⟩

variable (l : Link)

def write (message : Option (Stamped ClientMessage)) : Link :=
  { l with
    operations := l.operations ++ message.toList.map fun _ => ⟨.write, l.call, 0⟩
    written := l.written ++ message.toList.map fun m => ⟨l.call, m⟩ }

/-- The call that `openFacadeConnection` has found open last; there is no call 0. -/
def session : ℕ := l.opened.getLastD 0

def send (message : ClientMessage) : Link :=
  ({ l with
    backend := (l.backend.send ⟨l.session, message⟩).1
    stage := .opened
    accepted := l.accepted ++ [⟨l.session, message⟩] } : Link).write
      (l.backend.send ⟨l.session, message⟩).2

def writeCompleted : Link :=
  ({ l with backend := l.backend.writeCompleted.1 } : Link).write l.backend.writeCompleted.2

def read : Link :=
  { l with
    backend := { l.backend with toRead := some (l.buffer + 1) }
    buffer := l.buffer + 1
    operations := l.operations ++ [⟨.read, l.call, l.buffer + 1⟩] }

/-- `openFacadeConnection` up to `AsyncNext`. -/
def dial : Link :=
  { l with
    call := l.call + 1
    stage := .dialing
    operations := l.operations ++ [⟨.open, l.call + 1, 0⟩] }

/-- The rest of `openFacadeConnection`. What `sendingQueue` holds stays there. -/
def connected : Link :=
  { l.read with
    backend := { l.read.backend with sending := false, keepReader := true }
    stage := .greeting
    opened := l.opened ++ [l.call] }

/-- `openFacadeConnection` throws. -/
def refused : Link := { l with stage := .closed }

/-- `closeFacadeConnection` up to `AsyncNext`. -/
def finish : Link :=
  { l with
    backend := { l.backend with keepReader := false }
    stage := .closing
    operations := l.operations ++ [⟨.close, l.call, 0⟩] }

/-- `closeFacadeConnection` returns or throws. -/
def finished : Link := { l with stage := .closed }

def take (completion : ℕ) : Link :=
  { l with completionQueue := l.completionQueue.eraseIdx completion }

def fill (op : Operation) (message : ControlMessage) (ok : Bool) :
    ℕ → Option (Stamped ControlMessage) :=
  if op.tag = .read ∧ ok = true then
    Function.update l.contents op.buffer (some ⟨op.call, message⟩)
  else l.contents

def complete (operation : ℕ) (message : ControlMessage) (ok : Bool) : Option Link :=
  match l.operations[operation]? with
  | some op => some { l with
      contents := l.fill op message ok
      operations := l.operations.eraseIdx operation
      completionQueue := l.completionQueue ++ [⟨op.tag, op.call, ok⟩]
      completed := l.completed ++ [⟨op.tag, op.call, ok⟩] }
  | none => none

theorem complete_eq_some {k : Link} {operation : ℕ} {message : ControlMessage} {ok : Bool}
    (hk : l.complete operation message ok = some k) : ∃ op, l.operations[operation]? = some op ∧
      k = { l with
        contents := l.fill op message ok
        operations := l.operations.eraseIdx operation
        completionQueue := l.completionQueue ++ [⟨op.tag, op.call, ok⟩]
        completed := l.completed ++ [⟨op.tag, op.call, ok⟩] } := by
  unfold complete at hk
  split at hk <;> cases hk
  rename_i op hop
  exact ⟨op, hop, rfl⟩

theorem forall_started {P : Operation → Prop} {op : Operation} {operations : List Operation}
    (hops : ∀ o ∈ operations, o ∈ l.operations ∨ o = op) (h : ∀ o ∈ l.operations, P o)
    (hop : P op) : ∀ o ∈ operations, P o := by
  intro o ho
  obtain hmem | rfl := hops o ho
  · exact h o hmem
  · exact hop

theorem mem_write {message : Option (Stamped ClientMessage)} {op : Operation}
    (h : op ∈ (l.write message).operations) : op ∈ l.operations ∨ op = ⟨.write, l.call, 0⟩ := by
  obtain h | h := List.mem_append.mp h
  · exact .inl h
  · obtain ⟨m, -, rfl⟩ := List.mem_map.mp h
    exact .inr rfl

theorem mem_dial {op : Operation} (h : op ∈ l.dial.operations) :
    op ∈ l.operations ∨ op = ⟨.open, l.call + 1, 0⟩ := by
  simpa [dial] using h

theorem mem_finish {op : Operation} (h : op ∈ l.finish.operations) :
    op ∈ l.operations ∨ op = ⟨.close, l.call, 0⟩ := by
  simpa [finish] using h

theorem mem_read {op : Operation} (h : op ∈ l.read.operations) :
    op ∈ l.operations ∨ op = ⟨.read, l.call, l.buffer + 1⟩ := by
  simpa [read] using h

/-- A change of the link, as a client makes it that keeps to the order of calls. -/
inductive Move : Link → Link → Prop where
  | greet {l : Link} {message : ClientMessage} (hs : l.stage = .greeting)
      (hm : message.command = .setup) : Move l (l.send message)
  | send {l : Link} {message : ClientMessage} (hs : l.stage = .opened) : Move l (l.send message)
  | dial {l : Link} (hs : l.stage = .closed) : Move l l.dial
  | connected {l : Link} (hs : l.stage = .dialing) : Move l l.connected
  | refused {l : Link} (hs : l.stage = .dialing) : Move l l.refused
  | finish {l : Link} (hs : l.stage = .opened) : Move l l.finish
  | finished {l : Link} (hs : l.stage = .closing) : Move l l.finished
  | complete {l k : Link} {operation : ℕ} {message : ControlMessage} {ok : Bool}
      (hk : l.complete operation message ok = some k) : Move l k
  | read {l : Link} : Move l l.read
  | writeCompleted {l : Link} : Move l l.writeCompleted

end Link

end FmClient.Facade
