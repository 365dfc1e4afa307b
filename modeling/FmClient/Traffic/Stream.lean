import FmClient.Lib.Pieces
import FmClient.Traffic.Buffers

/-! What `send` writes to a stream: whether the writes overlap, and whether the packets are
written in full. -/
namespace FmClient.Traffic
open Lib
variable {kind : SocketKind}

def SocketEvent.started? : SocketEvent kind → Option Buffer
  | .started buffer _ => some buffer
  | _ => none

def SocketEvent.completed? : SocketEvent kind → Option ℕ
  | .performed address _ => some address
  | _ => none

def SocketEvent.wrote? : SocketEvent kind → Option (List UInt8)
  | .performed _ (.ok bytes) => bytes
  | _ => none

def packets (trace : List (SocketEvent kind)) : List Buffer :=
  trace.filterMap SocketEvent.started?

def completions (trace : List (SocketEvent kind)) : List ℕ :=
  trace.filterMap SocketEvent.completed?

def written (trace : List (SocketEvent kind)) : List (List UInt8) :=
  trace.filterMap SocketEvent.wrote?

def Socket.waiting (s : Socket kind) : List Buffer :=
  s.sendBuffer.filter fun b => b.address ∉ completions s.trace

/-- One write at a time, in the order of the calls of `send`. -/
structure InTurn (s : Socket kind) : Prop where
  single : s.writes.length ≤ 1
  order : completions s.trace ++ s.waiting.map Buffer.address =
    (packets s.trace).map Buffer.address

/-- What was sent is what has been written, and then the packets whose write is in flight. -/
structure Delivered (s : Socket kind) : Prop where
  stream : (Traffic.written s.trace).flatten ++ s.waiting.flatMap Buffer.bytes =
    (packets s.trace).flatMap Buffer.bytes
  inFlight : ∀ b ∈ s.waiting, ∃ op ∈ s.writes, op.address = b.address ∧ op.outcome = none

def Action.blocks : Action kind → Bool
  | .sendBlocking _ => true
  | _ => false

/-- Nothing is sent while a write is in flight. -/
def SendsAlone (t : Transition (Socket kind) (Action kind)) : Prop :=
  t.label.sends = true → t.source.writes = []

def Action.performs? : Action kind → Option (ℕ × Except String ℕ)
  | .writeDone i result => some (i, result)
  | _ => none

/-- The writes are performed without an error, one after another in the order of their starts. -/
def Steady (t : Transition (Socket kind) (Action kind)) : Prop :=
  t.label.blocks = false ∧ ∀ x ∈ t.label.performs?,
    (∀ op ∈ t.source.writes.take x.1, op.outcome ≠ none) ∧ x.2.isOk = true

/-- A write that is performed takes the whole packet. -/
def Full (t : Transition (Socket kind) (Action kind)) : Prop :=
  ∀ x ∈ t.label.performs?, ∀ op ∈ t.source.writes[x.1]?, x.2 = .ok op.size

instance (t : Transition (Socket kind) (Action kind)) : Decidable (SendsAlone t) :=
  inferInstanceAs (Decidable (_ → _))

instance (t : Transition (Socket kind) (Action kind)) : Decidable (Steady t) :=
  inferInstanceAs (Decidable (_ ∧ _))

instance (t : Transition (Socket kind) (Action kind)) : Decidable (Full t) :=
  inferInstanceAs (Decidable (∀ x ∈ t.label.performs?, ∀ op ∈ t.source.writes[x.1]?,
    x.2 = .ok op.size))

/-! ### Writes in turn -/

/-- The writes, the packets in `sendBuffer`, the writes performed and the packets sent where
there is one write at most. -/
@[mk_iff]
inductive Turn : List Operation → List Buffer → List ℕ → List ℕ → Prop where
  | idle {x : List ℕ} : Turn [] [] x x
  | writing {k size : ℕ} {bytes : List UInt8} {x : List ℕ} (hk : k ∉ x) :
      Turn [⟨k, size, none⟩] [⟨k, bytes⟩] x (x ++ [k])
  | written {k size : ℕ} {result : Except String ℕ} {bytes : List UInt8} {x : List ℕ}
      (hk : k ∈ x) : Turn [⟨k, size, some result⟩] [⟨k, bytes⟩] x x

structure Alternating (s : Socket kind) : Prop where
  turn : Turn s.writes s.sendBuffer (completions s.trace) ((packets s.trace).map Buffer.address)
  fresh : ∀ b ∈ packets s.trace, b.address < s.allocated
  blocking : s.blocking = []

section
variable {s t : Socket kind} {a : Action kind} {z : List (SocketEvent kind)}

@[simp] theorem packets_append (x y : List (SocketEvent kind)) :
    packets (x ++ y) = packets x ++ packets y := List.filterMap_append

@[simp] theorem completions_append (x y : List (SocketEvent kind)) :
    completions (x ++ y) = completions x ++ completions y := List.filterMap_append

@[simp] theorem written_append (x y : List (SocketEvent kind)) :
    Traffic.written (x ++ y) = Traffic.written x ++ Traffic.written y := List.filterMap_append

def SocketEvent.isWriting : SocketEvent kind → Bool
  | .started _ _ | .performed _ _ => true
  | _ => false

def Action.isWriting : Action kind → Bool
  | .sendBlocking _ | .sendBlockingReturns _ _ | .send _ | .writeDone _ _ | .writeHandler _ => true
  | _ => false

structure Aside (s t : Socket kind) : Prop where
  writes : t.writes = s.writes
  sendBuffer : t.sendBuffer = s.sendBuffer
  blocking : t.blocking = s.blocking
  allocated : s.allocated ≤ t.allocated
  packets : packets t.trace = packets s.trace
  completions : completions t.trace = completions s.trace
  written : Traffic.written t.trace = Traffic.written s.trace

theorem filterMap_append_of_not_writing {β : Type} {f : SocketEvent kind → Option β}
    (hf : ∀ e, e.isWriting = false → f e = none) (hz : ∀ e ∈ z, e.isWriting = false)
    (ht : t.trace = s.trace ++ z) : t.trace.filterMap f = s.trace.filterMap f := by
  have hnil : z.filterMap f = [] := List.filterMap_eq_nil_iff.mpr fun e he => hf e (hz e he)
  rw [ht, List.filterMap_append, hnil, List.append_nil]

theorem aside_of_trace (hwrites : t.writes = s.writes) (hbuffer : t.sendBuffer = s.sendBuffer)
    (hblocking : t.blocking = s.blocking) (hallocated : s.allocated ≤ t.allocated)
    (ht : t.trace = s.trace ++ z) (hz : ∀ e ∈ z, e.isWriting = false) : Aside s t := by
  refine ⟨hwrites, hbuffer, hblocking, hallocated, ?_, ?_, ?_⟩
  all_goals
    refine filterMap_append_of_not_writing (fun e he => ?_) hz ht
    cases e <;> first | rfl | cases he

theorem aside_printed (s : Socket kind) (line : String) : Aside s (s.emit [.printed line]) :=
  aside_of_trace rfl rfl rfl le_rfl rfl (by simp [SocketEvent.isWriting])

theorem Socket.Stepped.aside (hs : s.Stepped a t) (ha : a.isWriting = false) : Aside s t := by
  cases hs with
  | startReading | received =>
    refine aside_of_trace (z := [_, _]) rfl rfl rfl (Nat.le_succ _) (List.append_assoc _ _ _) ?_
    simp [SocketEvent.isWriting]
  | read | lost =>
    exact aside_of_trace (z := []) rfl rfl rfl le_rfl (List.append_nil _).symm (by simp)
  | unread | disconnect | arrived | onReceived | stopped =>
    exact aside_of_trace rfl rfl rfl le_rfl rfl (by simp [SocketEvent.isWriting])
  | _ => cases ha

theorem packets_send (packet : List UInt8) :
    packets (s.send packet).trace = packets s.trace ++ [⟨s.allocated, packet⟩] := by
  simp [packets, SocketEvent.started?]

theorem completions_send (packet : List UInt8) :
    completions (s.send packet).trace = completions s.trace := by
  simp [completions, SocketEvent.completed?]

theorem written_send (packet : List UInt8) :
    Traffic.written (s.send packet).trace = Traffic.written s.trace := by
  simp [Traffic.written, SocketEvent.wrote?]

theorem packets_writeDone (i : ℕ) (op : Operation) (result : Except String ℕ) :
    packets (s.writeDone i op result).trace = packets s.trace := by
  simp [packets, SocketEvent.started?]

theorem completions_writeDone (i : ℕ) (op : Operation) (result : Except String ℕ) :
    completions (s.writeDone i op result).trace = completions s.trace ++ [op.address] := by
  simp [completions, SocketEvent.completed?]

theorem packets_popSend : packets s.popSend.trace = packets s.trace := by
  simp [packets, SocketEvent.started?]

theorem completions_popSend : completions s.popSend.trace = completions s.trace := by
  simp [completions, SocketEvent.completed?]

theorem written_popSend : Traffic.written s.popSend.trace = Traffic.written s.trace := by
  simp [Traffic.written, SocketEvent.wrote?]

theorem alternating_initial (remoteEndpoint : Remote kind) :
    Alternating (Socket.initial remoteEndpoint) :=
  ⟨.idle, by simp [Socket.initial, packets], rfl⟩

theorem Alternating.inTurn (h : Alternating s) : InTurn s := by
  obtain ⟨hwrites, hbuffer, hsent⟩ | ⟨k, size, bytes, hk, hwrites, hbuffer, hsent⟩ |
    ⟨k, size, result, bytes, hk, hwrites, hbuffer, hsent⟩ := (turn_iff _ _ _ _).mp h.turn
  · exact ⟨by simp [hwrites], by simp [Socket.waiting, hbuffer, hsent]⟩
  · exact ⟨by simp [hwrites], by simp [Socket.waiting, hbuffer, hsent, hk]⟩
  · exact ⟨by simp [hwrites], by simp [Socket.waiting, hbuffer, hsent, hk]⟩

theorem Alternating.aside (h : Alternating s) (ha : Aside s t) : Alternating t := by
  constructor
  · rw [ha.writes, ha.sendBuffer, ha.completions, ha.packets]
    exact h.turn
  · rw [ha.packets]
    exact fun b hb => (h.fresh b hb).trans_le ha.allocated
  · rw [ha.blocking]
    exact h.blocking

theorem Alternating.send (h : Alternating s) (hw : s.writes = []) (packet : List UInt8) :
    Alternating (s.send packet) := by
  obtain ⟨-, hbuffer, hsent⟩ | ⟨k, size, bytes, -, hwrites, -⟩ |
    ⟨k, size, result, bytes, -, hwrites, -⟩ := (turn_iff _ _ _ _).mp h.turn
  · refine ⟨?_, ?_, h.blocking⟩
    · have hk : s.allocated ∉ completions s.trace := by
        rw [← hsent]
        exact address_not_mem h.fresh
      rw [packets_send, completions_send, List.map_append, hsent]
      simp only [Socket.send_writes, Socket.send_sendBuffer, Socket.startWrite_sendBuffer, hw,
        hbuffer, List.nil_append]
      exact .writing hk
    · rw [packets_send]
      exact address_lt_succ h.fresh
  · simp [hw] at hwrites
  · simp [hw] at hwrites

theorem Alternating.perform (h : Alternating s) {i : ℕ} {op : Operation}
    (hop : s.writes[i]? = some op) (hout : op.outcome = none) (result : Except String ℕ) :
    Alternating (s.writeDone i op result) := by
  obtain ⟨hwrites, -⟩ | ⟨k, size, bytes, hk, hwrites, hbuffer, hsent⟩ |
    ⟨k, size, result, bytes, -, hwrites, -⟩ := (turn_iff _ _ _ _).mp h.turn
  · simp [hwrites] at hop
  · obtain ⟨rfl, rfl⟩ := eq_of_singleton hwrites hop
    refine ⟨?_, ?_, h.blocking⟩
    · rw [packets_writeDone, completions_writeDone, hsent]
      simp only [Socket.writeDone_writes, Socket.writeDone_sendBuffer, Socket.perform_sendBuffer,
        hwrites, hbuffer, List.set_cons_zero]
      exact .written (by simp)
    · rw [packets_writeDone]
      exact h.fresh
  · obtain ⟨-, rfl⟩ := eq_of_singleton hwrites hop
    cases hout

theorem Alternating.finish (h : Alternating s) {i : ℕ} {op : Operation} {result : Except String ℕ}
    (hop : s.writes[i]? = some op) (hout : op.outcome = some result) :
    Alternating (s.finishWrite i).popSend := by
  obtain ⟨hwrites, -⟩ | ⟨k, size, bytes, -, hwrites, -⟩ |
    ⟨k, size, result, bytes, hk, hwrites, hbuffer, hsent⟩ := (turn_iff _ _ _ _).mp h.turn
  · simp [hwrites] at hop
  · obtain ⟨-, rfl⟩ := eq_of_singleton hwrites hop
    cases hout
  · obtain ⟨rfl, rfl⟩ := eq_of_singleton hwrites hop
    refine ⟨?_, ?_, h.blocking⟩
    · rw [packets_popSend, completions_popSend, Socket.finishWrite_trace, hsent]
      simp only [Socket.popSend_writes, Socket.popSend_sendBuffer, Socket.finishWrite_writes,
        Socket.finishWrite_sendBuffer, hwrites, hbuffer, List.eraseIdx_zero, List.tail_cons]
      exact .idle
    · rw [packets_popSend]
      exact h.fresh

theorem Alternating.step (h : Alternating s) (hs : s.Stepped a t) (hb : a.blocks = false)
    (hc : SendsAlone ⟨s, a, t⟩) : Alternating t := by
  have hnone {i : ℕ} {call : Buffer} (hcall : s.blocking[i]? = some call) : False := by
    simp [h.blocking] at hcall
  have haside := hs.aside
  cases hs with
  | sendBlocking packet => cases hb
  | sent hcall | short hcall | unsent hcall => exact (hnone hcall).elim
  | send packet => exact h.send (hc rfl) packet
  | writeDone hop hout => exact h.perform hop hout _
  | written hop hout => exact h.finish hop hout
  | unwritten hop hout => exact (h.finish hop hout).aside (aside_printed _ _)
  | _ => exact h.aside (haside rfl)

end

/-- Every TLS write starts after the one before it exactly if nothing is sent while one is in
flight. -/
theorem writes_in_turn_iff {h : List (Transition TlsTcpSocket (Action .tlsTcp))}
    {c : TlsTcpSocket} (hr : (@sockets .tlsTcp ()).Run h c) (hb : ∀ t ∈ h, t.label.blocks = false) :
    (∀ t ∈ h, InTurn t.target) ↔ ∀ t ∈ h, SendsAlone t := by
  refine (hr.restrict (D := fun t => t.label.blocks = false) hb).forall_iff
    (I := Alternating) ?_ ?_ ?_
  · intro s hs
    cases hs
    exact alternating_initial _
  · intro s a t _ hi ht hc
    exact hi.step (Socket.stepped ht.1) ht.2 hc
  · intro s a t _ hi ht
    refine ⟨?_, fun hc => (hi.step (Socket.stepped ht.1) ht.2 hc).inTurn⟩
    intro hturn hsends
    have hsingle := hturn.single
    cases Socket.stepped ht.1 with
    | sendBlocking packet => cases ht.2
    | send packet => simpa using hsingle
    | _ => cases hsends

/-- Each packet is sent after the write of the one before. -/
theorem writes_in_turn_iff_apart : ∃ h c, (@sockets .tlsTcp ()).Run h c ∧
    (packets c.trace).map Buffer.bytes = [[1, 2], [3]] ∧ ∀ t ∈ h, InTurn t.target := by
  obtain ⟨h, c, hr, hp⟩ := TransitionSystem.exists_run (.initial () : TlsTcpSocket) Socket.step
    [.send [1, 2], .writeDone 0 (.ok 2), .writeHandler 0, .send [3], .writeDone 0 (.ok 1),
      .writeHandler 0]
    (p := fun h c => decide (((∀ t ∈ h, t.label.blocks = false) ∧ ∀ t ∈ h, SendsAlone t) ∧
      (packets c.trace).map Buffer.bytes = [[1, 2], [3]])) (by decide +kernel)
  obtain ⟨⟨hb, hc⟩, hsent⟩ := of_decide_eq_true hp
  exact ⟨h, c, hr, hsent, (writes_in_turn_iff hr hb).mpr hc⟩

/-- Two packets are sent before a write completes. -/
theorem writes_overlap : ¬ ∀ h c, (@sockets .tlsTcp ()).Run h c →
    (∀ t ∈ h, t.label.blocks = false) → ∀ t ∈ h, InTurn t.target := by
  intro hclaim
  obtain ⟨h, c, hr, hp⟩ := TransitionSystem.exists_run (.initial () : TlsTcpSocket) Socket.step
    [.send [1], .send [2]]
    (p := fun h _ => decide ((∀ t ∈ h, t.label.blocks = false) ∧
      ∃ t ∈ h, t.target.writes.length = 2)) (by decide +kernel)
  obtain ⟨hb, t, ht, hlength⟩ := of_decide_eq_true hp
  exact absurd (hclaim h c hr hb t ht).single (by omega)

/-! ### Packets in full -/

def Buffer.write (b : Buffer) : Operation := ⟨b.address, b.bytes.length, none⟩

/-- What carries the steady runs: the packets whose handlers have run, those that have been
written besides, and those whose writes are in flight. -/
structure Streaming (s : Socket kind) (gone kept rest : List Buffer) : Prop where
  packets : packets s.trace = gone ++ kept ++ rest
  completions : completions s.trace = (gone ++ kept).map Buffer.address
  begins : Begins (Traffic.written s.trace) ((gone ++ kept).map Buffer.bytes)
  sendBuffer : s.sendBuffer = kept ++ rest
  writes : ∃ done : List Operation, s.writes = done ++ rest.map Buffer.write ∧
    done.length = kept.length ∧ ∀ op ∈ done, op.outcome ≠ none
  nodup : ((gone ++ kept ++ rest).map Buffer.address).Nodup
  fresh : ∀ b ∈ gone ++ kept ++ rest, b.address < s.allocated
  blocking : s.blocking = []

section
variable {s t : Socket kind} {a : Action kind} {z : List (SocketEvent kind)}
  {gone kept rest : List Buffer}

theorem streaming_initial (remoteEndpoint : Remote kind) :
    Streaming (Socket.initial remoteEndpoint) [] [] [] :=
  ⟨rfl, rfl, .nil, rfl, ⟨[], rfl, rfl, by simp⟩, .nil, by simp, rfl⟩

theorem Streaming.waiting (h : Streaming s gone kept rest) : s.waiting = rest := by
  have hnodup := h.nodup
  rw [List.map_append, List.nodup_append'] at hnodup
  obtain ⟨-, -, hdisjoint⟩ := hnodup
  rw [Socket.waiting, h.sendBuffer, List.filter_append, h.completions]
  have hkept : kept.filter (fun b => b.address ∉ (gone ++ kept).map Buffer.address) = [] := by
    refine List.filter_eq_nil_iff.mpr fun b hb hnot => ?_
    exact of_decide_eq_true hnot (List.mem_map_of_mem (List.mem_append_right _ hb))
  have hrest : rest.filter (fun b => b.address ∉ (gone ++ kept).map Buffer.address) = rest := by
    refine List.filter_eq_self.mpr fun b hb => decide_eq_true fun hmem => ?_
    exact hdisjoint hmem (List.mem_map_of_mem hb)
  rw [hkept, hrest, List.nil_append]

theorem Streaming.stream_iff (h : Streaming s gone kept rest) :
    Delivered s ↔ Traffic.written s.trace = (gone ++ kept).map Buffer.bytes := by
  rw [← h.begins.flatten_eq_iff, ← List.flatMap_def]
  constructor
  · intro hd
    have hstream := hd.stream
    rwa [h.waiting, h.packets, List.flatMap_append, List.append_left_inj] at hstream
  · intro heq
    constructor
    · rw [h.waiting, h.packets, List.flatMap_append, heq]
    · rw [h.waiting]
      intro b hb
      obtain ⟨done, hwrites, -⟩ := h.writes
      refine ⟨b.write, ?_, rfl, rfl⟩
      rw [hwrites]
      exact List.mem_append_right _ (List.mem_map_of_mem hb)

theorem Streaming.aside (h : Streaming s gone kept rest) (ha : Aside s t) :
    Streaming t gone kept rest := by
  refine ⟨?_, ?_, ?_, ?_, ?_, h.nodup, ?_, ?_⟩
  · rw [ha.packets, h.packets]
  · rw [ha.completions, h.completions]
  · rw [ha.written]
    exact h.begins
  · rw [ha.sendBuffer, h.sendBuffer]
  · rw [ha.writes]
    exact h.writes
  · exact fun b hb => (h.fresh b hb).trans_le ha.allocated
  · rw [ha.blocking, h.blocking]

theorem Streaming.send (h : Streaming s gone kept rest) (packet : List UInt8) :
    Streaming (s.send packet) gone kept (rest ++ [⟨s.allocated, packet⟩]) := by
  obtain ⟨done, hwrites, hlength, hdone⟩ := h.writes
  refine ⟨?_, ?_, ?_, ?_, ⟨done, ?_, hlength, hdone⟩, ?_, ?_, h.blocking⟩
  · rw [packets_send, h.packets, List.append_assoc]
  · rw [completions_send, h.completions]
  · rw [written_send]
    exact h.begins
  · simp [h.sendBuffer]
  · simp [hwrites, Buffer.write]
  · rw [← List.append_assoc, List.map_append]
    refine List.Nodup.append h.nodup (List.nodup_singleton _) ?_
    rw [List.map_singleton, List.disjoint_singleton]
    exact address_not_mem h.fresh
  · rw [← List.append_assoc]
    exact address_lt_succ h.fresh

theorem Streaming.next (h : Streaming s gone kept rest) {i : ℕ} {op : Operation}
    (hop : s.writes[i]? = some op) (hout : op.outcome = none)
    (hbefore : ∀ op ∈ s.writes.take i, op.outcome ≠ none) :
    ∃ b rest', rest = b :: rest' ∧ op = b.write ∧ ∃ done : List Operation,
      s.writes = done ++ op :: rest'.map Buffer.write ∧ i = done.length ∧
      done.length = kept.length ∧ ∀ op ∈ done, op.outcome ≠ none := by
  obtain ⟨done, hwrites, hlength, hdone⟩ := h.writes
  rw [hwrites] at hop hbefore
  have hle : done.length ≤ i := by
    by_contra hlt
    rw [List.getElem?_append_left (Nat.lt_of_not_le hlt)] at hop
    exact hdone op (List.mem_of_getElem? hop) hout
  cases rest with
  | nil =>
    rw [List.map_nil, List.append_nil] at hop
    exact absurd (List.getElem?_eq_some_iff.mp hop).1 (Nat.not_lt.mpr hle)
  | cons b rest =>
    obtain rfl : i = done.length := by
      by_contra hne
      refine hbefore b.write ?_ rfl
      have hlt : done.length < i := Nat.lt_of_le_of_ne hle (Ne.symm hne)
      rw [List.take_append, List.map_cons, List.take_cons (Nat.sub_pos_of_lt hlt)]
      simp
    have heq : op = b.write := by simpa using hop.symm
    exact ⟨b, rest, rfl, heq, done, by rw [hwrites, heq]; rfl, rfl, hlength, hdone⟩

theorem Streaming.bytesAt {b : Buffer} (h : Streaming s gone kept (b :: rest)) :
    s.bytesAt b.address = some b.bytes := by
  have hnodup := h.nodup
  rw [List.map_append, List.nodup_append'] at hnodup
  obtain ⟨-, -, hdisjoint⟩ := hnodup
  have hkept : kept.find? (·.address = b.address) = none := by
    refine List.find?_eq_none.mpr fun x hx heq => ?_
    refine hdisjoint (a := b.address) ?_ (by simp)
    rw [← of_decide_eq_true heq]
    exact List.mem_map_of_mem (List.mem_append_right _ hx)
  rw [Socket.bytesAt, h.sendBuffer, List.find?_append, hkept]
  simp

theorem Streaming.perform {b : Buffer} {n : ℕ} {done : List Operation}
    (h : Streaming s gone kept (b :: rest))
    (hwrites : s.writes = done ++ b.write :: rest.map Buffer.write)
    (hlength : done.length = kept.length) (hdone : ∀ op ∈ done, op.outcome ≠ none) :
    Streaming (s.writeDone done.length b.write (.ok n)) gone (kept ++ [b]) rest ∧
      Traffic.written (s.writeDone done.length b.write (.ok n)).trace =
        Traffic.written s.trace ++ [b.bytes.take n] := by
  have hwritten : Traffic.written (s.writeDone done.length b.write (.ok n)).trace =
      Traffic.written s.trace ++ [b.bytes.take n] := by
    simp [Traffic.written, SocketEvent.wrote?, Except.map, Buffer.write, h.bytesAt]
  refine ⟨⟨?_, ?_, ?_, ?_, ⟨done ++ [{ b.write with outcome := some (.ok n) }], ?_, ?_, ?_⟩, ?_, ?_,
    h.blocking⟩, hwritten⟩
  · rw [packets_writeDone, h.packets]
    simp
  · rw [completions_writeDone, h.completions]
    simp [Buffer.write]
  · rw [hwritten, ← List.append_assoc, List.map_append, List.map_singleton]
    exact h.begins.concat (List.take_prefix _ _)
  · simpa using h.sendBuffer
  · simp [hwrites]
  · simp [hlength]
  · exact List.forall_mem_append.mpr ⟨hdone, by simp⟩
  · simpa using h.nodup
  · simpa using h.fresh

theorem Streaming.finish (h : Streaming s gone kept rest) {i : ℕ} {op : Operation}
    {result : Except String ℕ} (hop : s.writes[i]? = some op) (hout : op.outcome = some result) :
    ∃ b kept', kept = b :: kept' ∧
      Streaming (s.finishWrite i).popSend (gone ++ [b]) kept' rest := by
  obtain ⟨done, hwrites, hlength, hdone⟩ := h.writes
  have hlt : i < done.length := by
    by_contra hle
    rw [hwrites, List.getElem?_append_right (Nat.not_lt.mp hle)] at hop
    obtain ⟨b, -, rfl⟩ := List.mem_map.mp (List.mem_of_getElem? hop)
    cases hout
  cases kept with
  | nil => exact absurd hlt (by simp [hlength])
  | cons b kept =>
    refine ⟨b, kept, rfl, ?_, ?_, ?_, ?_, ⟨done.eraseIdx i, ?_, ?_, ?_⟩, ?_, ?_, h.blocking⟩
    · rw [packets_popSend, Socket.finishWrite_trace, h.packets]
      simp
    · rw [completions_popSend, Socket.finishWrite_trace, h.completions]
      simp
    · rw [written_popSend, Socket.finishWrite_trace]
      simpa using h.begins
    · simp [h.sendBuffer]
    · simp [hwrites, List.eraseIdx_append_of_lt_length hlt]
    · rw [List.length_eraseIdx_of_lt hlt, hlength, List.length_cons, Nat.add_sub_cancel]
    · exact fun op hmem => hdone op (List.mem_of_mem_eraseIdx hmem)
    · simpa using h.nodup
    · simpa using h.fresh

theorem Streaming.step (h : Streaming s gone kept rest) (hs : s.Stepped a t)
    (hd : Steady ⟨s, a, t⟩) : ∃ gone' kept' rest', Streaming t gone' kept' rest' ∧
      (Traffic.written t.trace = (gone' ++ kept').map Buffer.bytes ↔
        Traffic.written s.trace = (gone ++ kept).map Buffer.bytes ∧ Full ⟨s, a, t⟩) := by
  have hnone {i : ℕ} {call : Buffer} (hcall : s.blocking[i]? = some call) : False := by
    simp [h.blocking] at hcall
  have haside := hs.aside
  -- a step that performs no write may move packets from the one list to the other
  have hquiet {gone' kept' : List Buffer} (ha : a.performs? = none)
      (hsplit : gone' ++ kept' = gone ++ kept) (ht : Streaming t gone' kept' rest)
      (hw : Traffic.written t.trace = Traffic.written s.trace) :
      ∃ gone' kept' rest', Streaming t gone' kept' rest' ∧
        (Traffic.written t.trace = (gone' ++ kept').map Buffer.bytes ↔
          Traffic.written s.trace = (gone ++ kept).map Buffer.bytes ∧ Full ⟨s, a, t⟩) := by
    refine ⟨gone', kept', rest, ht, ?_⟩
    rw [hw, hsplit]
    exact (and_iff_left (by simp [Full, ha])).symm
  cases hs with
  | sendBlocking packet => cases hd.1
  | sent hcall | short hcall | unsent hcall => exact (hnone hcall).elim
  | send packet =>
    refine ⟨gone, kept, _, h.send packet, ?_⟩
    rw [written_send]
    exact (and_iff_left (by simp [Full, Action.performs?])).symm
  | @writeDone i op result hop hout hr =>
    obtain ⟨hbefore, hok⟩ := hd.2 _ rfl
    obtain ⟨b, rest, rfl, rfl, done, hwrites, rfl, hlength, hdone⟩ := h.next hop hout hbefore
    cases result with
    | error what => cases hok
    | ok n =>
      obtain ⟨hnext, hwritten⟩ := h.perform hwrites hlength hdone (n := n)
      refine ⟨gone, kept ++ [b], rest, hnext, ?_⟩
      have hn : n ≤ b.bytes.length := by
        simp only [admitsWrite, Buffer.write, Bool.and_eq_true] at hr
        exact of_decide_eq_true hr.1
      have hfull : b.bytes.take n = b.bytes ↔ n = b.bytes.length := by
        constructor
        · intro heq
          rw [← heq, List.length_take_of_le hn]
        · rintro rfl
          exact List.take_length
      rw [hwritten, ← List.append_assoc, List.map_append, List.map_singleton,
        List.append_singleton_inj, hfull]
      simp [Full, Action.performs?, hwrites, Buffer.write]
  | written hop hout =>
    obtain ⟨b, kept, rfl, hnext⟩ := h.finish hop hout
    exact hquiet rfl (List.append_assoc gone [b] kept) hnext written_popSend
  | unwritten hop hout =>
    obtain ⟨b, kept, rfl, hnext⟩ := h.finish hop hout
    refine hquiet rfl (List.append_assoc gone [b] kept) (hnext.aside (aside_printed _ _)) ?_
    exact Eq.trans (aside_printed _ _).written written_popSend
  | _ => exact hquiet rfl rfl (h.aside (haside rfl)) (haside rfl).written

end

variable {remoteEndpoint : Remote kind} {h : List (Transition (Socket kind) (Action kind))}
  {c : Socket kind}

/-- Where the writes of a stream are performed one after another and without an error, the packets
are delivered exactly if every write takes the whole of its packet. -/
theorem bytes_delivered_iff (hr : (sockets remoteEndpoint).Run h c) (hd : ∀ t ∈ h, Steady t) :
    Delivered c ↔ ∀ t ∈ h, Full t := by
  suffices hs : ∃ gone kept rest, Streaming c gone kept rest ∧
      (Traffic.written c.trace = (gone ++ kept).map Buffer.bytes ↔ ∀ t ∈ h, Full t) by
    obtain ⟨gone, kept, rest, hi, hiff⟩ := hs
    rw [hi.stream_iff, hiff]
  replace hr := hr.restrict hd
  clear hd
  induction hr with
  | start hs =>
    cases hs
    exact ⟨[], [], [], streaming_initial _, by simp [Socket.initial, Traffic.written]⟩
  | next _ ht ih =>
    obtain ⟨gone, kept, rest, hi, hiff⟩ := ih
    obtain ⟨gone', kept', rest', hi', hiff'⟩ := hi.step (Socket.stepped ht.1) ht.2
    refine ⟨gone', kept', rest', hi', ?_⟩
    rw [hiff', hiff, List.forall_mem_append, List.forall_mem_singleton]

/-- Two packets in flight at once, each taken whole. -/
theorem bytes_delivered_iff_whole : ∃ h c, (@sockets .tcp ()).Run h c ∧
    (packets c.trace).map Buffer.bytes = [[1, 2], [3]] ∧ Delivered c := by
  obtain ⟨h, c, hr, hp⟩ := TransitionSystem.exists_run (.initial () : TcpSocket) Socket.step
    [.send [1, 2], .send [3], .writeDone 0 (.ok 2), .writeDone 1 (.ok 1), .writeHandler 0]
    (p := fun h c => decide (((∀ t ∈ h, Steady t) ∧ ∀ t ∈ h, Full t) ∧
      (packets c.trace).map Buffer.bytes = [[1, 2], [3]])) (by decide +kernel)
  obtain ⟨⟨hd, hc⟩, hsent⟩ := of_decide_eq_true hp
  exact ⟨h, c, hr, hsent, (bytes_delivered_iff hr hd).mpr hc⟩

/-- A write takes one of the two bytes of its packet. -/
theorem bytes_lost : ¬ ∀ h c, (@sockets .tcp ()).Run h c → (∀ t ∈ h, Steady t) →
    Delivered c := by
  intro hclaim
  obtain ⟨h, c, hr, hp⟩ := TransitionSystem.exists_run (.initial () : TcpSocket) Socket.step
    [.send [1, 2], .writeDone 0 (.ok 1), .writeHandler 0, .send [3], .writeDone 0 (.ok 1)]
    (p := fun h c => decide ((∀ t ∈ h, Steady t) ∧
      (Traffic.written c.trace).flatten ++ c.waiting.flatMap Buffer.bytes ≠
        (packets c.trace).flatMap Buffer.bytes)) (by decide +kernel)
  obtain ⟨hd, hne⟩ := of_decide_eq_true hp
  exact hne (hclaim h c hr hd).stream

end FmClient.Traffic
