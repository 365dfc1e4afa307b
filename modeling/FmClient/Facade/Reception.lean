import FmClient.Facade.Inbound
import FmClient.Facade.Refinement
import FmClient.Facade.Turns

/-! From the streams to the machine. A `Received` event holds the object that `toRead` pointed to,
and gRPC has filled it once, before; what is handled is what was read, in that order. -/
namespace FmClient.Facade
open Lib Handler Backend FmClient.System
variable {σ : Type} {M : ClientMachine σ} {blank : ControlMessage}

/-! ### Objects and who holds them -/

/-- The objects made for `toRead`, and how many `Read`s are to fill one, how many have and nobody
has been notified, and how many tasks will make another. -/
structure Inbox where
  contents : ℕ → Option (Stamped ControlMessage)
  buffer : ℕ
  toRead : Option ℕ
  reading : ℕ
  unnoticed : ℕ
  renewals : ℕ

namespace Inbox
variable (x : Inbox)

def message? : Notice → Option ControlMessage
  | .received (some b) => (x.contents b).map Stamped.content
  | _ => none

def coming : List Notice := List.replicate x.unnoticed (.received x.toRead)

def messages (notices : List Notice) : List ControlMessage :=
  (notices ++ x.coming).filterMap x.message?

def turns : ℕ := x.reading + x.unnoticed + x.renewals

/-- Every notice has its own object, which is filled. What was read and is not among the messages
was dropped. -/
structure Keeps (notices : List Notice) (read : List ControlMessage) (dropped : ℕ) : Prop where
  one : x.turns ≤ 1
  toRead : 0 < x.turns → x.toRead = some x.buffer
  filled : 0 < x.unnoticed → ∃ m, x.contents x.buffer = some m
  known : ∀ r, .received r ∈ notices → ∃ b m, r = some b ∧ x.contents b = some m ∧
    b + (x.reading + x.unnoticed) ≤ x.buffer
  order : (x.messages notices).Sublist read
  count : read.length = (x.messages notices).length + dropped

variable {x} {y : Inbox} {notices : List Notice} {read : List ControlMessage} {dropped : ℕ}

theorem Keeps.event (h : x.Keeps notices read dropped) (e : InputEvent) :
    x.Keeps (notices ++ [.event e]) read dropped := by
  have hmessages : x.messages (notices ++ [.event e]) = x.messages notices := by
    simp [messages, message?, List.filterMap_cons]
  refine ⟨h.one, h.toRead, h.filled, fun r hr => h.known r (by simpa using hr), ?_, ?_⟩
  · rw [hmessages]; exact h.order
  · rw [hmessages]; exact h.count

theorem Keeps.fail (h : x.Keeps notices read dropped) {n : ℕ} (hn : n ≤ x.reading) :
    ({ x with reading := n } : Inbox).Keeps notices read dropped := by
  obtain ⟨hone, htoRead, hfilled, hknown, horder, hcount⟩ := h
  simp only [turns] at hone htoRead
  refine ⟨?_, fun hpos => htoRead ?_, hfilled, fun r hr => ?_, horder, hcount⟩
  · simp only [turns]; omega
  · simp only [turns] at hpos; omega
  · obtain ⟨b, m, hb, hm, hle⟩ := hknown r hr
    exact ⟨b, m, hb, hm, by simp only; omega⟩

theorem Keeps.start (h : x.Keeps notices read dropped) (hr : x.reading = 0)
    (hu : x.unnoticed = 0) :
    ({ x with buffer := x.buffer + 1, toRead := some (x.buffer + 1), reading := 1, renewals := 0 } :
      Inbox).Keeps notices read dropped := by
  have hmessages : ({ x with buffer := x.buffer + 1, toRead := some (x.buffer + 1), reading := 1
                             renewals := 0 } : Inbox).messages notices = x.messages notices := by
    simp only [messages, coming, hu, List.replicate_zero]
    rfl
  refine ⟨by simp [turns, hu], fun _ => rfl, fun hpos => by simp [hu] at hpos, fun r hr' => ?_,
    hmessages ▸ h.order, hmessages ▸ h.count⟩
  obtain ⟨b, m, hb, hm, hle⟩ := h.known r hr'
  exact ⟨b, m, hb, hm, by simp only [hu]; omega⟩

theorem Keeps.update (h : x.Keeps notices read dropped) (hr : 0 < x.reading)
    (m : Stamped ControlMessage) {n : Notice} (hn : n ∈ notices) (hy : y.contents =
      Function.update x.contents x.buffer (some m)) : y.message? n = x.message? n := by
  cases n with
  | event => rfl
  | received r =>
    obtain ⟨b, c, rfl, -, hle⟩ := h.known r hn
    have hne : b ≠ x.buffer := by omega
    rw [message?, message?, hy, Function.update_of_ne hne]

theorem Keeps.fill (h : x.Keeps notices read dropped) (hr : 0 < x.reading)
    (m : Stamped ControlMessage) :
    ({ x with
      contents := Function.update x.contents x.buffer (some m)
      reading := x.reading - 1
      unnoticed := x.unnoticed + 1 } : Inbox).Keeps notices (read ++ [m.content]) dropped := by
  have hone := h.one
  simp only [turns] at hone
  have hu : x.unnoticed = 0 := by omega
  have htoRead : x.toRead = some x.buffer := h.toRead (by simp only [turns]; omega)
  have hold : x.messages notices = notices.filterMap x.message? := by
    simp [messages, coming, hu]
  have hmessages : ({ x with
      contents := Function.update x.contents x.buffer (some m)
      reading := x.reading - 1
      unnoticed := x.unnoticed + 1 } : Inbox).messages notices =
        x.messages notices ++ [m.content] := by
    rw [messages, List.filterMap_append, List.filterMap_congr fun n hn => h.update hr m hn rfl,
      hold]
    simp only [coming, hu, htoRead, Nat.zero_add, List.replicate_one, List.filterMap_cons, message?,
      Function.update_self, Option.map_some, List.filterMap_nil]
    rfl
  refine ⟨by simp only [turns]; omega, fun _ => htoRead, fun _ => ⟨m, Function.update_self ..⟩,
    fun r hn => ?_, ?_, ?_⟩
  · obtain ⟨b, c, hb, hc, hle⟩ := h.known r hn
    have hne : b ≠ x.buffer := by omega
    exact ⟨b, c, hb, (Function.update_of_ne hne ..).trans hc, by simp only; omega⟩
  · rw [hmessages]
    exact h.order.append (.refl _)
  · simp only [hmessages, List.length_append, h.count, List.length_singleton]
    omega

theorem Keeps.notice (h : x.Keeps notices read dropped) (hu : 0 < x.unnoticed) :
    ({ x with unnoticed := x.unnoticed - 1, renewals := x.renewals + 1 } : Inbox).Keeps
      (notices ++ [.received x.toRead]) read dropped := by
  have hone := h.one
  simp only [turns] at hone
  have hu : x.unnoticed = 1 := by omega
  have htoRead : x.toRead = some x.buffer := h.toRead (by simp only [turns]; omega)
  have hmessages : ({ x with unnoticed := x.unnoticed - 1, renewals := x.renewals + 1 } :
      Inbox).messages (notices ++ [.received x.toRead]) = x.messages notices := by
    simp only [messages, coming, hu, Nat.sub_self, List.replicate_zero, List.append_nil,
      List.replicate_one]
    rfl
  refine ⟨by simp only [turns]; omega, fun _ => htoRead, fun hpos => by simp [hu] at hpos,
    fun r hr => ?_, hmessages ▸ h.order, hmessages ▸ h.count⟩
  obtain hr | hr := List.mem_append.mp hr
  · obtain ⟨b, m, hb, hm, hle⟩ := h.known r hr
    exact ⟨b, m, hb, hm, by simp only; omega⟩
  · cases List.mem_singleton.mp hr
    obtain ⟨m, hm⟩ := h.filled (by omega)
    exact ⟨x.buffer, m, htoRead, hm, by simp only; omega⟩

theorem Keeps.drop (h : x.Keeps notices read dropped) (hu : 0 < x.unnoticed) :
    ({ x with unnoticed := x.unnoticed - 1 } : Inbox).Keeps notices read (dropped + 1) := by
  have hone := h.one
  simp only [turns] at hone
  have hu : x.unnoticed = 1 := by omega
  have htoRead : x.toRead = some x.buffer := h.toRead (by simp only [turns]; omega)
  obtain ⟨m, hm⟩ := h.filled (by omega)
  have hold : x.messages notices = notices.filterMap x.message? ++ [m.content] := by
    simp [messages, coming, hu, message?, htoRead, hm]
  have hmessages : ({ x with unnoticed := x.unnoticed - 1 } : Inbox).messages notices =
      notices.filterMap x.message? := by
    simp only [messages, coming, hu, Nat.sub_self, List.replicate_zero, List.append_nil]
    rfl
  have hcount := h.count
  have horder := h.order
  rw [hold] at hcount horder
  refine ⟨by simp only [turns]; omega, fun _ => htoRead, fun hpos => by simp [hu] at hpos,
    fun r hr => ?_, ?_, ?_⟩
  · obtain ⟨b, c, hb, hc, hle⟩ := h.known r hr
    exact ⟨b, c, hb, hc, by simp only; omega⟩
  · rw [hmessages]
    exact (List.sublist_append_left _ _).trans horder
  · rw [hmessages, hcount, List.length_append, List.length_singleton]
    omega

end Inbox

/-! ### The inbox of a client -/

def Arrival.fills (a : Arrival) : Bool := a.ok && a.tag = .read

def Reader.notifies : Reader → Bool
  | .next (some a) => a.fills
  | _ => false

/-- What gRPC reads. -/
def read? (t : Transition (Process σ) Action) : Option ControlMessage :=
  match t.label with
  | .complete operation message true =>
    if (t.source.link.operations[operation]?).any (·.tag = .read) then some message else none
  | _ => none

/-- `closeFacadeConnection` takes the completion of a `Read`. -/
def Drops (t : Transition (Process σ) Action) : Bool :=
  match t.label with
  | .closeNext completion => (t.source.link.completionQueue[completion]?).any Arrival.fills
  | _ => false

def message? : InputEvent → Option ControlMessage
  | .received message => some message
  | _ => none

def received? (blank : ControlMessage) (t : Transition (Process σ) Action) :
    Option ControlMessage :=
  match started? t with
  | some (.received toRead) => message? (t.source.event blank (.received toRead))
  | _ => none

namespace Process
variable {p q : Process σ} {a : Action} {u : List (Transition (Process σ) Action)}

def inbox (p : Process σ) : Inbox where
  contents := p.link.contents
  buffer := p.link.buffer
  toRead := p.link.backend.toRead
  reading := p.link.operations.countP (·.tag = .read)
  unnoticed := p.link.completionQueue.countP Arrival.fills + p.readers.countP Reader.notifies
  renewals := p.readers.countP (· = .renew)

theorem inbox_turns (p : Process σ) : p.inbox.turns = p.turns .read := by
  have hreaders : p.readers.countP (Reader.holds .read) =
      p.readers.countP Reader.notifies + p.readers.countP (· = .renew) := by
    induction p.readers with
    | nil => rfl
    | cons r readers ih =>
      obtain (_ | a) | _ | _ := r <;>
        simp [List.countP_cons, ih, Reader.holds, Reader.notifies, Arrival.fills] <;> omega
  simp only [inbox, Inbox.turns, turns, Link.turns, hreaders]
  change _ + (_ + _) + _ = _ + List.countP Arrival.fills _ + _
  omega

/-- What has been read has come to the machine, or is on the way to it; each `Read` in hand is
for the last object. -/
structure Receives (u : List (Transition (Process σ) Action)) (p : Process σ) : Prop where
  aimed : ∀ op ∈ p.link.operations, op.tag = .read → op.buffer = p.link.buffer
  keeps : p.inbox.Keeps (u.filterMap notified?) (u.filterMap read?) (u.countP Drops)

theorem initial_receives : (initial M).Receives [] := by
  refine ⟨by simp [initial, Link.initial], ?_⟩
  constructor <;> simp [initial, Link.initial, inbox, Inbox.turns, Inbox.messages, Inbox.coming]

theorem Receives.next (notified : Option Notice) (read : Option ControlMessage) (drops : Bool)
    (ha : ∀ op ∈ q.link.operations, op.tag = .read → op.buffer = q.link.buffer)
    (hn : notified? ⟨p, a, q⟩ = notified) (hr : read? ⟨p, a, q⟩ = read)
    (hd : Drops ⟨p, a, q⟩ = drops) {x : Inbox} (hx : q.inbox = x)
    (h : x.Keeps (u.filterMap notified? ++ notified.toList)
      (u.filterMap read? ++ read.toList) (u.countP Drops + drops.toNat)) :
    q.Receives (u ++ [⟨p, a, q⟩]) := by
  subst hn hr hd hx
  refine ⟨ha, ?_⟩
  rw [filterMap_concat, filterMap_concat, countP_concat]
  exact h

theorem Receives.silent (ha : ∀ op ∈ q.link.operations, op.tag = .read → op.buffer = q.link.buffer)
    (hn : notified? ⟨p, a, q⟩ = none) (hr : read? ⟨p, a, q⟩ = none) (hd : Drops ⟨p, a, q⟩ = false)
    {x : Inbox} (hx : q.inbox = x)
    (h : x.Keeps (u.filterMap notified?) (u.filterMap read?) (u.countP Drops)) :
    q.Receives (u ++ [⟨p, a, q⟩]) := by
  refine .next none none false ha hn hr hd hx ?_
  rw [Option.toList_none, Option.toList_none, List.append_nil, List.append_nil]
  exact h

theorem Receives.same (h : p.Receives u)
    (ha : ∀ op ∈ q.link.operations, op.tag = .read → op.buffer = q.link.buffer)
    (hx : q.inbox = p.inbox) (hn : ∀ n, notified? ⟨p, a, q⟩ = some n → ∃ e, n = .event e)
    (hr : read? ⟨p, a, q⟩ = none) (hd : Drops ⟨p, a, q⟩ = false) :
    q.Receives (u ++ [⟨p, a, q⟩]) := by
  cases hnotified : notified? ⟨p, a, q⟩ with
  | none => exact .silent ha hnotified hr hd hx h.keeps
  | some n =>
    obtain ⟨e, rfl⟩ := hn n hnotified
    refine .next (some (.event e)) none false ha hnotified hr hd hx ?_
    rw [Option.toList_none, List.append_nil]
    exact h.keeps.event e

theorem reading_write {l : Link} (message : Option (Stamped ClientMessage)) :
    (l.write message).operations.countP (·.tag = .read) =
      l.operations.countP (·.tag = .read) := by
  cases message <;> simp [Link.write]

theorem unnoticed_take {i : ℕ} {a : Arrival} (ha : p.link.completionQueue[i]? = some a) :
    p.link.completionQueue.countP Arrival.fills =
      (p.link.take i).completionQueue.countP Arrival.fills + a.fills.toNat :=
  Session.countP_eraseIdx Arrival.fills ha

theorem not_reading (hr : p.inbox.reading = 0) {op : Operation} (hop : op ∈ p.link.operations) :
    op.tag ≠ .read := by
  simpa using List.countP_eq_zero.mp hr op hop

theorem aimed_read {l : Link} (hl : l.operations = p.link.operations) (hr : p.inbox.reading = 0) :
    ∀ op ∈ l.read.operations, op.tag = .read → op.buffer = l.buffer + 1 := by
  intro op hop htag
  obtain hop | rfl := l.mem_read hop
  · exact absurd htag (not_reading hr (hl ▸ hop))
  · rfl

theorem Receives.connect (h : p.Receives u) (ht : p.turns .read = 0) {completion : ℕ} {a : Arrival}
    (ha : p.link.completionQueue[completion]? = some a) (cs : List Call) (throws : Bool) :
    ((p.after (p.link.take completion).connected cs throws).post .proceedGrpcQueue).Receives
      (u ++ [⟨p, .openNext completion,
        (p.after (p.link.take completion).connected cs throws).post .proceedGrpcQueue⟩]) := by
  have hqueue := unnoticed_take ha
  rw [← inbox_turns, Inbox.turns] at ht
  have hr : p.inbox.reading = 0 := by omega
  have hu : p.inbox.unnoticed = 0 := by omega
  refine .silent (aimed_read rfl hr) rfl rfl rfl ?_ (h.keeps.start hr hu)
  simp only [inbox] at ht hr hu
  simp only [inbox, Link.connected, Link.read, after, post, countP_concat, Inbox.mk.injEq]
  simp only [Link.take] at hqueue ⊢
  refine ⟨trivial, trivial, trivial, ?_, ?_, ?_⟩
  · simp [hr]
  · omega
  · omega

theorem Receives.renew (h : p.Receives u) {reader : ℕ} (hn : p.readers[reader]? = some .renew) :
    ({ p with link := p.link.read, readers := p.readers.set reader .last } : Process σ).Receives
      (u ++ [⟨p, .proceed reader,
        { p with link := p.link.read, readers := p.readers.set reader .last }⟩]) := by
  have hcount := countP_set_add Reader.notifies hn .last
  have hrenew := countP_set_add (· = .renew) hn .last
  have hone := h.keeps.one
  simp only [Reader.notifies, decide_true, reduceCtorEq, decide_false, Bool.toNat_true,
    Bool.toNat_false, Nat.add_zero] at hcount hrenew
  simp only [Inbox.turns] at hone
  have hr : p.inbox.reading = 0 := by simp only [inbox] at hone ⊢; omega
  have hu : p.inbox.unnoticed = 0 := by simp only [inbox] at hone ⊢; omega
  refine .silent (aimed_read rfl hr) (by simp [notified?, hn]) rfl rfl ?_ (h.keeps.start hr hu)
  simp only [inbox] at hone hr hu
  simp only [inbox, Link.read, countP_concat, hcount, Inbox.mk.injEq]
  refine ⟨trivial, trivial, trivial, ?_, trivial, ?_⟩
  · simp [hr]
  · omega

theorem Receives.drain (h : p.Receives u) {completion : ℕ} {a : Arrival}
    (ha : p.link.completionQueue[completion]? = some a)
    (hlink : q.link.operations = p.link.operations ∧ q.link.buffer = p.link.buffer ∧
      q.link.contents = p.link.contents ∧ q.link.backend.toRead = p.link.backend.toRead)
    (hqueue : q.link.completionQueue = p.link.completionQueue.eraseIdx completion)
    (hreaders : q.readers = p.readers) :
    q.Receives (u ++ [⟨p, .closeNext completion, q⟩]) := by
  obtain ⟨hoperations, hbuffer, hcontents, htoRead⟩ := hlink
  have hcount : p.link.completionQueue.countP Arrival.fills =
      q.link.completionQueue.countP Arrival.fills + a.fills.toNat := hqueue ▸ unnoticed_take ha
  have haimed : ∀ op ∈ q.link.operations, op.tag = .read → op.buffer = q.link.buffer := by
    rw [hoperations, hbuffer]
    exact h.aimed
  have hd : Drops ⟨p, .closeNext completion, q⟩ = a.fills := by simp [Drops, ha]
  cases hfills : a.fills with
  | false =>
    rw [hfills, Bool.toNat_false, Nat.add_zero] at hcount
    refine .silent haimed rfl rfl (hd.trans hfills) ?_ h.keeps
    simp only [inbox, hcount, hoperations, hbuffer, hcontents, htoRead, hreaders]
  | true =>
    rw [hfills, Bool.toNat_true] at hcount
    have hpos : 0 < p.inbox.unnoticed := by
      simp only [inbox]
      omega
    have hx : q.inbox = { p.inbox with unnoticed := p.inbox.unnoticed - 1 } := by
      simp only [inbox, hcount, hoperations, hbuffer, hcontents, htoRead, hreaders, Inbox.mk.injEq]
      exact ⟨trivial, trivial, trivial, trivial, by omega, trivial⟩
    refine .next none none true haimed rfl rfl (hd.trans hfills) hx ?_
    rw [Option.toList_none, Option.toList_none, List.append_nil, List.append_nil]
    exact h.keeps.drop hpos

theorem Receives.complete (h : p.Receives u) {operation : ℕ} {message : ControlMessage} {ok : Bool}
    {link : Link} (hl : p.link.complete operation message ok = some link) :
    ({ p with link := link } : Process σ).Receives
      (u ++ [⟨p, .complete operation message ok, { p with link := link }⟩]) := by
  obtain ⟨op, hop, rfl⟩ := Link.complete_eq_some _ hl
  have hmem := List.mem_of_getElem? hop
  have hcount := Session.countP_eraseIdx (fun op : Operation => decide (op.tag = .read)) hop
  have haimed : ∀ o ∈ p.link.operations.eraseIdx operation, o.tag = .read →
      o.buffer = p.link.buffer := fun o ho => h.aimed o (List.mem_of_mem_eraseIdx ho)
  by_cases hread : op.tag = .read
  · rw [decide_eq_true hread, Bool.toNat_true] at hcount
    have hpos : 0 < p.inbox.reading := by
      simp only [inbox]
      omega
    cases ok with
    | false =>
      refine .silent haimed rfl rfl rfl ?_ (h.keeps.fail (Nat.sub_le p.inbox.reading 1))
      simp only [inbox, hcount, Inbox.mk.injEq, Link.fill]
      simp [Arrival.fills]
    | true =>
      have hkeeps := h.keeps.fill hpos ⟨op.call, message⟩
      rw [← List.append_nil (u.filterMap notified?)] at hkeeps
      refine .next none (some message) false haimed rfl (by simp [read?, hop, hread]) rfl ?_ hkeeps
      simp only [inbox, hcount, Inbox.mk.injEq, Link.fill, hread, h.aimed op hmem hread]
      simp [Arrival.fills]
      omega
  · rw [decide_eq_false hread, Bool.toNat_false, Nat.add_zero] at hcount
    refine h.same haimed ?_ (fun n hn => by cases hn) ?_ rfl
    · simp only [inbox, hcount, Inbox.mk.injEq, Link.fill]
      simp [Arrival.fills, hread]
    · cases ok <;> simp [read?, hop, hread]

theorem Receives.notice (h : p.Receives u) {reader call : ℕ}
    (hn : p.readers[reader]? = some (.next (some ⟨.read, call, true⟩))) :
    ({ p.notify (.received p.link.backend.toRead) with
      readers := p.readers.set reader .renew } : Process σ).Receives (u ++ [⟨p, .proceed reader,
        { p.notify (.received p.link.backend.toRead) with
          readers := p.readers.set reader .renew }⟩]) := by
  have hcount := countP_set_add Reader.notifies hn .renew
  have hrenew := countP_set_add (· = .renew) hn .renew
  simp only [Reader.notifies, Arrival.fills, decide_true, reduceCtorEq, decide_false,
    Bool.and_true, Bool.toNat_true, Bool.toNat_false, Nat.add_zero] at hcount hrenew
  have hpos : 0 < p.inbox.unnoticed := by
    simp only [inbox]
    omega
  have hkeeps := h.keeps.notice hpos
  rw [← List.append_nil (u.filterMap read?)] at hkeeps
  refine .next (some (.received p.link.backend.toRead)) none false h.aimed
    (by simp [notified?, hn]) rfl rfl ?_ hkeeps
  simp only [inbox, notify, Inbox.mk.injEq]
  exact ⟨trivial, trivial, trivial, trivial, by omega, by omega⟩

theorem rest_readers {reader : ℕ} {r : Reader}
    (hn : p.readers[reader]? = some r) (hr : r.notifies = false) (hrenew : r ≠ .renew) :
    (p.readers.set reader .last).countP Reader.notifies = p.readers.countP Reader.notifies ∧
      (p.readers.set reader .last).countP (· = .renew) = p.readers.countP (· = .renew) := by
  have hcount := countP_set_add Reader.notifies hn .last
  have hrenew' := countP_set_add (· = .renew) hn .last
  rw [hr] at hcount
  rw [decide_eq_false hrenew] at hrenew'
  exact ⟨hcount, hrenew'⟩

theorem Receives.step (h : p.Receives u) (hs : Stepped M blank p a q) (hi : p.Inv M)
    (ht : p.InTurn) : q.Receives (u ++ [⟨p, a, q⟩]) := by
  have haimed := h.aimed
  cases hs with
  | notified => exact h.same haimed rfl (fun n hn => ⟨_, (Option.some.inj hn).symm⟩) rfl rfl
  | started => exact h.same haimed rfl (fun n hn => by cases hn) rfl rfl
  | sent hh =>
    refine h.same (p.link.forall_started (fun _ => Link.mem_write _) haimed (by simp)) ?_
      (fun n hn => by simp [notified?, hh] at hn) rfl rfl
    simp only [inbox, after, Link.send_toRead]
    simp only [Link.send, reading_write]
    rfl
  | recalled hh =>
    refine h.same haimed rfl (fun n hn => ?_) rfl rfl
    simp only [notified?, hh, Option.some.injEq] at hn
    exact ⟨_, hn.symm⟩
  | dialed hh =>
    refine h.same (p.link.forall_started (fun _ => Link.mem_dial _) haimed (by simp)) ?_
      (fun n hn => by simp [notified?, hh] at hn) rfl rfl
    simp [inbox, Link.dial]
  | finishing hh =>
    refine h.same (p.link.forall_started (fun _ => Link.mem_finish _) haimed (by simp)) ?_
      (fun n hn => by simp [notified?, hh] at hn) rfl rfl
    simp [inbox, Link.finish]
  | refused | openTimedOut | closeTimedOut | closeStuck | threw | left =>
    exact h.same haimed rfl (fun n hn => by cases hn) rfl rfl
  | @connected completion arrival cs throws hh ha ho =>
    exact h.connect (ht.fresh (of_decide_eq_true (hi.next hh).1)).1 ha cs throws
  | openFailed hh ha =>
    -- a stream that is being opened has no completed `Read`
    have hcount := unnoticed_take ha
    have hfresh := (ht.fresh (of_decide_eq_true (hi.next hh).1)).1
    rw [← inbox_turns, Inbox.turns] at hfresh
    refine h.same haimed ?_ (fun n hn => by cases hn) rfl rfl
    simp only [inbox] at hfresh
    simp only [inbox, after, Link.refused, Inbox.mk.injEq]
    exact ⟨rfl, rfl, rfl, rfl, by omega, trivial⟩
  | drained hh ha | closed hh ha => exact h.drain ha ⟨rfl, rfl, rfl, rfl⟩ rfl rfl
  | completed hl => exact h.complete hl
  | taken ht ha =>
    have hcount := unnoticed_take ha
    refine h.same haimed ?_ (fun n hn => by cases hn) rfl rfl
    simp only [inbox, countP_concat, Reader.notifies, Inbox.mk.injEq]
    exact ⟨rfl, rfl, rfl, rfl, by omega, by simp⟩
  | timedOut ht =>
    refine h.same haimed ?_ (fun n hn => by cases hn) rfl rfl
    simp [inbox, Reader.notifies]
  | received hn => exact h.notice hn
  | wrote hn =>
    obtain ⟨hnotifies, hrenew⟩ := rest_readers hn rfl (by simp)
    refine h.same (p.link.forall_started (fun _ => Link.mem_write _) haimed (by simp)) ?_
      (fun n hnotified => by simp [notified?, hn] at hnotified) rfl rfl
    simp only [inbox, hnotifies, hrenew, Link.writeCompleted_toRead]
    simp only [Link.writeCompleted, reading_write]
    rfl
  | @dropped reader next hn hd =>
    have hfills : (Reader.next next).notifies = false := by
      obtain _ | ⟨tag, call, ok⟩ := next
      · rfl
      · cases ok with
        | false => rfl
        | true =>
          cases tag with
          | read => cases hd .read call rfl
          | _ => rfl
    obtain ⟨hnotifies, hrenew⟩ := rest_readers hn hfills (by simp)
    refine h.same haimed ?_ (fun n hnotified => ?_) rfl rfl
    · simp only [inbox, hnotifies, hrenew]
    · simp only [notified?, hn] at hnotified
      split at hnotified
      · rename_i call heq
        cases heq
        cases hd .read call rfl
      · cases hnotified
  | renewed hn => exact h.renew hn
  | ended hn =>
    have hnotifies := Session.countP_eraseIdx Reader.notifies hn
    have hrenew := Session.countP_eraseIdx (· = .renew) hn
    refine h.same haimed ?_ (fun n hnotified => by simp [notified?, hn] at hnotified) rfl rfl
    simp only [inbox, Inbox.mk.injEq]
    simp only [Reader.notifies, reduceCtorEq, decide_false, Bool.toNat_false, Nat.add_zero]
      at hnotifies hrenew
    exact ⟨trivial, trivial, trivial, trivial, by omega, by omega⟩

theorem Receives.handled (h : p.Receives u) (hserial : Serial u p) (hs : Stepped M blank p a q)
    (ih : u.filterMap (received? blank) = (u.filterMap started?).filterMap p.inbox.message?) :
    (u ++ [Transition.mk p a q]).filterMap (received? blank) =
      ((u ++ [Transition.mk p a q]).filterMap started?).filterMap q.inbox.message? := by
  have hfifo := hserial.fifo
  cases hs with
  | @started task env notice hh ht =>
    have hstarted (q : Process σ) : started? ⟨p, .run task env, q⟩ = some notice := by
      simp [started?, ht, Task.notice?]
    have hmem : notice ∈ u.filterMap notified? := by
      rw [hfifo]
      refine List.mem_append_right _ (List.mem_append_left _ ?_)
      exact List.mem_filterMap.mpr ⟨_, List.mem_of_getElem? ht, rfl⟩
    rw [filterMap_concat, filterMap_concat, List.filterMap_append, ih, hstarted, received?,
      hstarted]
    refine congrArg (_ ++ ·) ?_
    cases notice with
    | event => rfl
    | received r =>
      obtain ⟨b, m, rfl, hm, -⟩ := h.keeps.known r hmem
      have hcontents : p.link.contents b = some m := hm
      simp [Facade.message?, event, Inbox.message?, inbox, hcontents, Process.start]
  | @completed operation message ok link hl =>
    obtain ⟨op, hop, rfl⟩ := Link.complete_eq_some _ hl
    rw [filterMap_concat, filterMap_concat, ih]
    refine (List.append_nil _).trans ?_
    refine (List.filterMap_congr fun n hn => ?_).trans (congrArg _ (List.append_nil _).symm)
    by_cases hread : op.tag = .read ∧ ok = true
    · have haimed := h.aimed op (List.mem_of_getElem? hop) hread.1
      have hpos : 0 < p.inbox.reading :=
        List.countP_pos_iff.mpr ⟨op, List.mem_of_getElem? hop, decide_eq_true hread.1⟩
      refine (h.keeps.update hpos ⟨op.call, message⟩ (hfifo ▸ List.mem_append_left _ hn) ?_).symm
      simp only [inbox, Link.fill, hread, and_self, if_true, haimed]
    · simp [Inbox.message?, inbox, Link.fill, hread]
  | _ =>
    rw [filterMap_concat, filterMap_concat, ih]
    exact (List.append_nil _).trans (congrArg (List.filterMap _) (List.append_nil _).symm)

/-- What holds of the messages along a run in which a connection is opened when the last one
has come to rest. -/
theorem receives {h : List (Transition (Process σ) Action)} (hr : (process M blank).Run h p)
    (hrested : ∀ t ∈ h, Dials t → t.source.Rested) : p.Receives h ∧
      h.filterMap (received? blank) = (h.filterMap started?).filterMap p.inbox.message? := by
  induction hr with
  | start hs =>
    cases hs
    exact ⟨initial_receives, rfl⟩
  | @next u p q a hr hs ih =>
    obtain ⟨hbefore, -⟩ := List.forall_mem_append.mp hrested
    obtain ⟨hi, hhandled⟩ := ih hbefore
    have hstep := stepped hs
    have hturn := inTurn hr hbefore
    exact ⟨hi.step hstep (reachable_inv hr.reachable) hturn, hi.handled (serial hr) hstep hhandled⟩

end Process

/-- Where no `Read` or `Write` is under way when a connection is opened, the machine is given each
message that gRPC has read once and in that order, but for those that `closeFacadeConnection` has
taken the completions of and those that it has still to be given. -/
theorem inbound_delivered {h : List (Transition (Process σ) Action)} {p : Process σ}
    (hr : (process M blank).Run h p) (hrested : ∀ t ∈ h, Dials t → t.source.Rested) :
    (h.filterMap (received? blank) ++ p.inbox.messages p.waiting).Sublist (h.filterMap read?) ∧
    (h.filterMap read?).length =
      (h.filterMap (received? blank) ++ p.inbox.messages p.waiting).length + h.countP Drops := by
  obtain ⟨hreceives, hhandled⟩ := Process.receives hr hrested
  have hmessages : h.filterMap (received? blank) ++ p.inbox.messages p.waiting =
      p.inbox.messages (h.filterMap notified?) := by
    rw [hhandled, (Process.serial hr).fifo]
    simp only [Inbox.messages, List.append_assoc, List.filterMap_append]
  rw [hmessages]
  exact ⟨hreceives.keeps.order, hreceives.keeps.count⟩

/-- A pilot is released while a `Read` is under way, whose message it is never given. -/
theorem inbound_delivered_released : ∃ h p, (process pilot unread).Run h p ∧
    (h.filterMap (received? unread) ++ p.inbox.messages p.waiting).map ControlMessage.command =
      [.setup, .channelsReady, .release] ∧
    (h.filterMap (received? unread) ++ p.inbox.messages p.waiting).Sublist (h.filterMap read?) ∧
    h.countP Drops = 1 := by
  obtain ⟨h, p, hr, hp⟩ := TransitionSystem.exists_run (.initial pilot) (Process.step pilot unread)
    (Action.operating (Action.writing 1) ++ Action.releasing 0)
    (p := fun h p => decide ((∀ t ∈ h, Dials t → t.source.Rested) ∧
      (h.filterMap (received? unread) ++ p.inbox.messages p.waiting).map ControlMessage.command =
        [.setup, .channelsReady, .release] ∧ h.countP Drops = 1)) (by decide +kernel)
  obtain ⟨hrested, hmessages, hdrops⟩ := of_decide_eq_true hp
  exact ⟨h, p, hr, hmessages, (inbound_delivered hr hrested).1, hdrops⟩

end FmClient.Facade
