import FmClient.Facade.Link
import FmClient.System.IStateMachine

/-! A client in whole: the machine's handler, the tasks of `proceedGrpcQueue` and gRPC work on
one backend and interleave freely, over any number of connections to the facade. -/
namespace FmClient.Facade
open Lib Handler Backend FmClient.System

/-- What `notifyEvent` gets. `Received` holds the object that `toRead` pointed to, and is read
when it is handled. -/
inductive Notice where
  | event (event : InputEvent)
  | received (toRead : Option ℕ)
  deriving DecidableEq

inductive Task where
  | machine (notice : Notice)
  | proceedGrpcQueue
  deriving DecidableEq

/-- A task in `proceedGrpcQueue`: after `AsyncNext`, between `notifyEvent` and the next `Read`,
and before it looks at `keepReader`. -/
inductive Reader where
  | next (completion : Option Arrival)
  | renew
  | last
  deriving DecidableEq

/-- Whether a handler waits in a call of the backend. In `closeFacadeConnection` it goes on
after a timeout while `releaseTag` is `READ` or `WRITE`. -/
inductive Progress where
  | ready
  | opening
  | closing (draining : Bool)
  deriving DecidableEq

/-- A handler with the calls it has still to make; the first is the one it waits in. -/
structure Activity where
  progress : Progress
  calls : List Call
  throws : Bool
  deriving DecidableEq

inductive Action where
  | notifyEvent (event : InputEvent)
  | run (task : ℕ) (env : Environment)
  | call
  | refuse
  | openNext (completion : ℕ)
  | openTimeout
  | closeNext (completion : ℕ)
  | closeTimeout (releaseTag : GrpcTag)
  | leave
  | complete (operation : ℕ) (message : ControlMessage) (ok : Bool)
  | asyncNext (task : ℕ) (completion : ℕ)
  | timeout (task : ℕ)
  | proceed (reader : ℕ)

structure Process (σ : Type) where
  machine : IStateMachine Notice
  client : Client σ
  link : Link
  posted : List Task
  handling : Option Activity
  readers : List Reader

/-- The condition for success in `openFacadeConnection`. -/
def Arrival.opens (a : Arrival) : Bool := a.ok && a.tag = .open

/-- The condition for success in `closeFacadeConnection`. -/
def Arrival.closes (a : Arrival) : Bool := a.ok && a.tag = .close

/-- The tags that `closeFacadeConnection` cleans up. -/
def drains : GrpcTag → Bool
  | .read | .write => true
  | .open | .close => false

/-- The client once a handler has ended. Where one throws, `IStateMachine` may have swapped another
state in by then (`Disconnecting`, whose `start` throws); the state kept here is read no more. -/
def settled {σ : Type} (s : σ) : EStateM.Result Fault Context σ → Client σ
  | .ok state w => ⟨state, w⟩
  | .error _ w => ⟨s, w⟩

def failed {σ : Type} : EStateM.Result Fault Context σ → Bool
  | .ok _ _ => false
  | .error _ _ => true

namespace Process
variable {σ : Type} (M : ClientMachine σ) (blank : ControlMessage) (p : Process σ)

def initial : Process σ := ⟨.initial, ⟨M.initial, .initial⟩, .initial, [], none, []⟩

/-- The event that a notice is when it is handled; `blank` is a message nothing was read into. -/
def event : Notice → InputEvent
  | .event e => e
  | .received toRead =>
    .received (((toRead.bind p.link.contents).map Stamped.content).getD blank)

def notify (notice : Notice) : Process σ :=
  { p with
    machine := (p.machine.notifyEvent notice).1
    posted := p.posted ++ (p.machine.notifyEvent notice).2.toList.map .machine }

/-- What the handler will come to, given what the calls outside will give it. Nobody else
touches the client, so that it may be taken now and the calls made one by one. -/
def result (env : Environment) (notice : Notice) : EStateM.Result Fault Context σ :=
  M.handleEvent env (p.event blank notice) p.client.state p.client.context

def start (env : Environment) (task : ℕ) (notice : Notice) : Process σ :=
  { p with
    client := settled p.client.state (p.result M blank env notice)
    posted := p.posted.eraseIdx task
    handling := some ⟨.ready, calls env ((contextOf (p.result M blank env notice)).trace.drop
      p.client.context.trace.length), failed (p.result M blank env notice)⟩ }

def after (link : Link) (cs : List Call) (throws : Bool) : Process σ :=
  { p with link := link, handling := some ⟨.ready, cs, throws⟩ }

def post (task : Task) : Process σ := { p with posted := p.posted ++ [task] }

def call : Activity → Option (Process σ)
  | ⟨.ready, .send message :: cs, throws⟩ => some (p.after (p.link.send message) cs throws)
  | ⟨.ready, .notifyEvent event :: cs, throws⟩ =>
    some ((p.notify (.event event)).after p.link cs throws)
  | ⟨.ready, .dial ok :: cs, throws⟩ =>
    some { p with link := p.link.dial, handling := some ⟨.opening, .dial ok :: cs, throws⟩ }
  | ⟨.ready, .finish ok :: cs, throws⟩ =>
    some { p with
      link := p.link.finish, handling := some ⟨.closing false, .finish ok :: cs, throws⟩ }
  | _ => none

/-- `openFacadeConnection` throws before `Asynccontrol`. -/
def refuse : Activity → Option (Process σ)
  | ⟨.ready, .dial false :: cs, throws⟩ => some (p.after p.link cs throws)
  | _ => none

def openNext (completion : ℕ) : Activity → Option (Process σ)
  | ⟨.opening, .dial ok :: cs, throws⟩ =>
    match p.link.completionQueue[completion]? with
    | some a =>
      if a.opens = ok then some (
        if ok then (p.after (p.link.take completion).connected cs throws).post .proceedGrpcQueue
        else p.after (p.link.take completion).refused cs throws)
      else none
    | none => none
  | _ => none

def openTimeout : Activity → Option (Process σ)
  | ⟨.opening, .dial false :: cs, throws⟩ =>
    if p.link.completionQueue = [] then some (p.after p.link.refused cs throws) else none
  | _ => none

def closeNext (completion : ℕ) : Activity → Option (Process σ)
  | ⟨.closing _, .finish ok :: cs, throws⟩ =>
    match p.link.completionQueue[completion]? with
    | some a =>
      if drains a.tag then some { p with
        link := p.link.take completion
        handling := some ⟨.closing true, .finish ok :: cs, throws⟩ }
      else if a.closes = ok then some (p.after (p.link.take completion).finished cs throws)
      else none
    | none => none
  | _ => none

/-- The first `AsyncNext` gives nothing: `releaseTag` is whatever it happens to be. -/
def closeTimeout (releaseTag : GrpcTag) : Activity → Option (Process σ)
  | ⟨.closing false, .finish ok :: cs, throws⟩ =>
    if p.link.completionQueue = [] then
      if drains releaseTag then some { p with
        handling := some ⟨.closing true, .finish ok :: cs, throws⟩ }
      else if ok = false then some (p.after p.link.finished cs throws)
      else none
    else none
  | _ => none

/-- The handler ends, and `proceed` follows unless it throws. -/
def leave : Activity → Option (Process σ)
  | ⟨.ready, [], true⟩ => some { p with handling := none }
  | ⟨.ready, [], false⟩ => some { p with
      machine := p.machine.proceed.1
      posted := p.posted ++ p.machine.proceed.2.toList.map .machine
      handling := none }
  | _ => none

/-- The next section of a task in `proceedGrpcQueue`. -/
def proceed (reader : ℕ) : Reader → Process σ
  | .next (some ⟨.read, _, true⟩) =>
    { p.notify (.received p.link.backend.toRead) with readers := p.readers.set reader .renew }
  | .next (some ⟨.write, _, true⟩) =>
    { p with link := p.link.writeCompleted, readers := p.readers.set reader .last }
  | .next _ => { p with readers := p.readers.set reader .last }
  | .renew => { p with link := p.link.read, readers := p.readers.set reader .last }
  | .last =>
    { p with
      posted := p.posted ++ if p.link.backend.keepReader then [.proceedGrpcQueue] else []
      readers := p.readers.eraseIdx reader }

def step (p : Process σ) : Action → Option (Process σ)
  | .notifyEvent event => some (p.notify (.event event))
  | .run task env =>
    match p.handling, p.posted[task]? with
    | none, some (.machine notice) => some (p.start M blank env task notice)
    | _, _ => none
  | .call => p.handling.bind p.call
  | .refuse => p.handling.bind p.refuse
  | .openNext completion => p.handling.bind (p.openNext completion)
  | .openTimeout => p.handling.bind p.openTimeout
  | .closeNext completion => p.handling.bind (p.closeNext completion)
  | .closeTimeout releaseTag => p.handling.bind (p.closeTimeout releaseTag)
  | .leave => p.handling.bind p.leave
  | .complete operation message ok =>
    (p.link.complete operation message ok).map fun link => { p with link := link }
  | .asyncNext task completion =>
    match p.posted[task]?, p.link.completionQueue[completion]? with
    | some .proceedGrpcQueue, some a => some { p with
        link := p.link.take completion
        posted := p.posted.eraseIdx task
        readers := p.readers ++ [.next (some a)] }
    | _, _ => none
  | .timeout task =>
    match p.posted[task]? with
    | some .proceedGrpcQueue =>
      if p.link.completionQueue = [] then some { p with
        posted := p.posted.eraseIdx task
        readers := p.readers ++ [.next none] }
      else none
    | _ => none
  | .proceed reader => (p.readers[reader]?).map (p.proceed reader)

end Process

def process {σ : Type} (M : ClientMachine σ) (blank : ControlMessage) :
    TransitionSystem (Process σ) Action :=
  .ofStep (.initial M) (Process.step M blank)

end FmClient.Facade
