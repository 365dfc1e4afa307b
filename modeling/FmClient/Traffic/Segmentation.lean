import FmClient.Traffic.Buffers
import FmClient.Traffic.ChannelImpl

/-! Opening a channel over TCP or TLS, where a read gives any part of what the peer has sent:
`readBlocking` takes one for the response, and `doRead` hands the others on. -/
namespace FmClient.Traffic
open Lib

/-- The reads of a stream that is received to its end: the first by `readBlocking`, and those
after it by `doRead`. -/
structure Segmentation (stream : List UInt8) where
  segments : List (List UInt8)
  flatten : segments.flatten = stream
  nonempty : ∀ s ∈ segments, s ≠ []
  response : ∀ s ∈ segments.head?, s.length ≤ 256
  packets : ∀ s ∈ segments.tail, s.length ≤ 1024

/-- The packets that the rounds of `Socket.doRead` and its handler pass to `onReceived`
(`handedOver_rounds`): each completed read is handed on and another one started, until one fails. -/
def doRead : List (Except String (List UInt8)) → List (List UInt8)
  | .ok data :: reads => data :: doRead reads
  | _ => []

/-! ### The reads of a socket -/

section
variable {kind : SocketKind}

/-- What happens to a socket whose reads end so: each is performed and its handler runs, which
hands on what was received and starts the next one. -/
def rounds (source : Remote kind) : List (Except String (List UInt8)) → List (Action kind)
  | .ok data :: reads =>
    .readDone 0 (.ok (data, source)) :: .readHandler 0 :: .received :: rounds source reads
  | .error what :: _ => [.readDone 0 (.error what), .readHandler 0]
  | [] => []

/-- A read into the one vector of `readBuffer` has been started. -/
structure Socket.Reading (s : Socket kind) : Prop where
  vector : ∃ b, s.readBuffer = [b] ∧ s.reads = [⟨b.address, 1024, none⟩]
  receiving : s.receiving = 0

theorem Socket.reading_startReading {s : Socket kind} (hb : s.readBuffer = []) (hr : s.reads = [])
    (hc : s.receiving = 0) : s.startReading.Reading :=
  ⟨⟨⟨s.allocated, blank⟩, by simp [startReading, hb], by simp [startReading, hr]⟩, hc⟩

theorem Socket.Reading.round {s : Socket kind} (h : s.Reading) {data : List UInt8}
    (hd : data.length ≤ 1024) (source : Remote kind) :
    ∃ t u v, s.step (.readDone 0 (.ok (data, source))) = some t ∧
      t.step (.readHandler 0) = some u ∧ u.step .received = some v ∧ v.Reading ∧
      handedOver v.trace = handedOver s.trace ++ [data] := by
  obtain ⟨⟨b, hb, hr⟩, hc⟩ := h
  let t := s.readDone 0 ⟨b.address, 1024, none⟩ (.ok (data, source))
  have hdone : s.step (.readDone 0 (.ok (data, source))) = some t := by
    simp [Socket.step, hr, admitsRead, hd, t]
  have hhandler : t.step (.readHandler 0) = some (t.readHandler 0 (.ok data.length)) := by
    simp [Socket.step, readDone, hr, t]
  have hreceived : (t.readHandler 0 (.ok data.length)).step .received =
      some (t.readHandler 0 (.ok data.length)).received := by
    simp [Socket.step, readHandler]
  refine ⟨t, _, _, hdone, hhandler, hreceived, ⟨⟨⟨s.allocated, blank⟩, ?_, ?_⟩, ?_⟩, ?_⟩
  · simp [readHandler, readDone, hb, t]
  · simp [readHandler, readDone, hr, t]
  · simp [readHandler, readDone, hc, t]
  · simp [handedOver, readHandler, readDone, hb, t, fill]
    rfl

theorem Socket.Reading.last {s : Socket kind} (h : s.Reading) (what : String) :
    ∃ t u, s.step (.readDone 0 (.error what)) = some t ∧ t.step (.readHandler 0) = some u ∧
      handedOver u.trace = handedOver s.trace := by
  obtain ⟨⟨b, hb, hr⟩, hc⟩ := h
  let t := s.readDone 0 ⟨b.address, 1024, none⟩ (.error what)
  refine ⟨t, t.readHandler 0 (.error what), ?_, ?_, ?_⟩
  · simp [Socket.step, hr, admitsRead, t]
  · simp [Socket.step, readDone, hr, t]
  · simp [handedOver, readHandler, readDone, t]
    rfl

/-- What the rounds of a socket pass to `onReceived` is what `doRead` gives. The induction is on the
reads: a round ends with the next read started. -/
theorem handedOver_rounds {s : Socket kind} (h : s.Reading)
    {reads : List (Except String (List UInt8))}
    (hreads : ∀ data, .ok data ∈ reads → data.length ≤ 1024) (source : Remote kind) :
    ∃ k t, TransitionSystem.execute Socket.step s (rounds source reads) = some (k, t) ∧
      handedOver t.trace = handedOver s.trace ++ doRead reads := by
  induction reads generalizing s with
  | nil => exact ⟨[], s, rfl, (List.append_nil _).symm⟩
  | cons read reads ih =>
    cases read with
    | error what =>
      obtain ⟨t, u, ht, hu, htrace⟩ := h.last what
      refine ⟨_, u, by simp [rounds, TransitionSystem.execute, ht, hu]; rfl, ?_⟩
      simp [htrace, doRead]
    | ok data =>
      obtain ⟨t, u, v, ht, hu, hv, hreading, htrace⟩ := h.round (hreads data (by simp)) source
      obtain ⟨k, x, hx, htail⟩ := ih hreading fun d hd => hreads d (List.mem_cons_of_mem _ hd)
      refine ⟨_, x, by simp [rounds, TransitionSystem.execute, ht, hu, hv, hx]; rfl, ?_⟩
      rw [htail, htrace, doRead, List.append_assoc]
      rfl

end

namespace Segmentation
variable {stream : List UInt8} (s : Segmentation stream)

/-- What the reads give; after the last segment the peer closes. -/
def reads : List (Except String (List UInt8)) := s.segments.map .ok ++ [.error "End of file"]

def network (sent : ℕ) : Network := ⟨.ok (), .ok sent, s.reads.headD (.error "End of file")⟩

def first : List UInt8 := s.segments.headD []

theorem doRead_segments (segments : List (List UInt8)) (what : String) :
    doRead (segments.map .ok ++ [.error what]) = segments := by
  induction segments with
  | nil => rfl
  | cons data segments ih => simpa [doRead] using ih

theorem first_append : s.first ++ s.segments.tail.flatten = stream := by
  refine Eq.trans ?_ s.flatten
  unfold first
  cases s.segments <;> rfl

theorem segments_ne_nil (h : stream ≠ []) : s.segments ≠ [] := by
  intro hnil
  have hflatten := s.flatten
  rw [hnil, List.flatten_nil] at hflatten
  exact h hflatten.symm

theorem segments_eq_nil (s : Segmentation []) : s.segments = [] := by
  refine List.eq_nil_iff_forall_not_mem.mpr fun data hdata => s.nonempty data hdata ?_
  exact List.flatten_eq_nil_iff.mp s.flatten data hdata

theorem reads_eq (h : stream ≠ []) : ∃ rest, s.segments = s.first :: rest ∧
    s.reads = .ok s.first :: (rest.map .ok ++ [.error "End of file"]) := by
  unfold first reads
  cases hs : s.segments with
  | nil => exact absurd hs (s.segments_ne_nil h)
  | cons data rest => exact ⟨rest, rfl, rfl⟩

theorem tail_flatten_iff {response payload : List UInt8} (s : Segmentation (response ++ payload)) :
    s.segments.tail.flatten = payload ↔ s.first = response := by
  have happend := s.first_append
  constructor
  · intro h
    rw [h] at happend
    exact List.append_cancel_right happend
  · intro h
    rw [h] at happend
    exact List.append_cancel_left happend

/-- The reads after the response, by a socket that has not started any yet. -/
theorem handedOver_eq {kind : SocketKind} {u : Socket kind} (hb : u.readBuffer = [])
    (hr : u.reads = []) (hc : u.receiving = 0) (source : Remote kind) : ∃ k t,
      TransitionSystem.execute Socket.step u (.startReading :: rounds source s.reads.tail) =
        some (k, t) ∧ handedOver t.trace = handedOver u.trace ++ doRead s.reads.tail := by
  have hreads (data : List UInt8) (hdata : .ok data ∈ s.reads.tail) : data.length ≤ 1024 := by
    refine s.packets data ?_
    unfold reads at hdata
    cases hs : s.segments <;> simp_all
  obtain ⟨k, t, ht, htrace⟩ :=
    handedOver_rounds (Socket.reading_startReading hb hr hc) hreads source
  refine ⟨_, t, by simp [TransitionSystem.execute, Socket.step, ht]; rfl, htrace.trans ?_⟩
  simp [handedOver, Socket.startReading, SocketEvent.handed?]

end Segmentation

def attempt (protobuf : Protobuf) (channel : ChannelResponse) {stream : List UInt8}
    (s : Segmentation stream) : Attempt :=
  ⟨channel, s.network ((protobuf.serializeToArray ⟨channel.key⟩).getD []).length⟩

def onReceived (protobuf : Protobuf) (channel : ChannelResponse) {stream : List UInt8}
    (s : Segmentation stream) : List (List UInt8) :=
  if .startReading ∈ (attempt protobuf channel s).calls protobuf then doRead s.reads.tail else []

/-- `open` returns the same in both runs, and if it is true the packets are the payload. -/
def Unsegmented (protobuf : Protobuf) (channel : ChannelResponse) {response payload : List UInt8}
    (s t : Segmentation (response ++ payload)) : Prop :=
  (attempt protobuf channel s).result protobuf = (attempt protobuf channel t).result protobuf ∧
    ((attempt protobuf channel s).result protobuf = .ok true →
      (onReceived protobuf channel s).flatten = payload ∧
      (onReceived protobuf channel t).flatten = payload)

section
variable {protobuf : Protobuf} {channel : ChannelResponse} {stream : List UInt8}

theorem attempt_serialize (h : protobuf.serializeToArray ⟨channel.key⟩ = none)
    (s : Segmentation stream) : (attempt protobuf channel s).result protobuf = .ok false := by
  have hrun : (attempt protobuf channel s).run protobuf = _ := Attempt.run_unserialized rfl h
  rw [Attempt.result]
  exact hrun ▸ rfl

theorem attempt_eof (s : Segmentation []) :
    (attempt protobuf channel s).result protobuf = .ok false := by
  cases hser : protobuf.serializeToArray ⟨channel.key⟩ with
  | none => exact attempt_serialize hser s
  | some request =>
    have hread : (attempt protobuf channel s).network.readSome = .error "End of file" := by
      simp [attempt, Segmentation.network, Segmentation.reads, s.segments_eq_nil]
    have hrun : (attempt protobuf channel s).run protobuf = _ := Attempt.run_unread rfl hser
      (by simp [Segmentation.network, hser]) hread
    rw [Attempt.result]
    exact hrun ▸ rfl

theorem attempt_first {request : List UInt8}
    (h : protobuf.serializeToArray ⟨channel.key⟩ = some request) (s : Segmentation stream)
    (hs : stream ≠ []) :
    (attempt protobuf channel s).result protobuf = .ok (Attempt.reads protobuf s.first) ∧
      onReceived protobuf channel s = s.segments.tail := by
  obtain ⟨rest, hsegments, hreads⟩ := s.reads_eq hs
  have hreceived : (attempt protobuf channel s).received protobuf = some s.first := by
    simp [Attempt.received, attempt, Segmentation.network, h, hreads]
  cases (attempt protobuf channel s).run_cases protobuf with
  | inl hnone => simp [hnone.1] at hreceived
  | inr hsome =>
    obtain ⟨first, hfirst, hcalls, hresult⟩ := hsome
    cases hfirst.symm.trans hreceived
    refine ⟨hresult, ?_⟩
    rw [onReceived, if_pos hcalls, hreads, hsegments, List.tail_cons, List.tail_cons,
      Segmentation.doRead_segments]

end

/-- Two runs are alike exactly if both first reads give the response and nothing else, or
neither is an acceptance. -/
theorem unsegmented_iff (protobuf : Protobuf) (channel : ChannelResponse)
    {response payload : List UInt8} (s t : Segmentation (response ++ payload)) :
    Unsegmented protobuf channel s t ↔ protobuf.serializeToArray ⟨channel.key⟩ = none ∨
      s.first = response ∧ t.first = response ∨
      Attempt.reads protobuf s.first = false ∧ Attempt.reads protobuf t.first = false := by
  cases hser : protobuf.serializeToArray ⟨channel.key⟩ with
  | none =>
    refine iff_of_true ?_ (.inl rfl)
    simp [Unsegmented, attempt_serialize hser]
  | some request =>
    rw [or_iff_right (by simp)]
    by_cases hstream : response ++ payload = []
    · obtain ⟨hresponse, hpayload⟩ := List.append_eq_nil_iff.mp hstream
      subst hresponse hpayload
      refine iff_of_true ?_ (.inl ?_)
      · simp [Unsegmented, attempt_eof]
      · simp [Segmentation.first, Segmentation.segments_eq_nil]
    · obtain ⟨hs, hsr⟩ := attempt_first hser s hstream
      obtain ⟨ht, htr⟩ := attempt_first hser t hstream
      simp only [Unsegmented, hs, ht, hsr, htr, s.tail_flatten_iff, t.tail_flatten_iff,
        Except.ok.injEq]
      constructor
      · intro hsame
        cases hacc : Attempt.reads protobuf s.first with
        | true => exact .inl (hsame.2 hacc)
        | false => exact .inr ⟨rfl, hsame.1.symm.trans hacc⟩
      · intro hcond
        cases hcond with
        | inl hfirst => exact ⟨by rw [hfirst.1, hfirst.2], fun _ => hfirst⟩
        | inr hnone => simp [hnone]

/-- The response comes in one segment, or in two. -/
theorem segmented : ¬ Unsegmented enumeration { id := 1 }
    (⟨[[8, 1]], rfl, by decide, by decide, by decide⟩ : Segmentation ([8, 1] ++ []))
    ⟨[[8], [1]], rfl, by decide, by decide, by decide⟩ := by
  intro h
  exact absurd h.1 (by decide)

end FmClient.Traffic
