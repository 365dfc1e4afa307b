import FmClient.Lib.Fifo
import FmClient.Lib.History
import FmClient.Traffic.Socket

/-! The vectors in the deques of a socket against the operations that use them. -/
namespace FmClient.Traffic
open Lib
variable {kind : SocketKind}

def SocketEvent.arrival? : SocketEvent kind → Option (List UInt8)
  | .arrived data _ => some data
  | _ => none

def SocketEvent.handed? : SocketEvent kind → Option (List UInt8)
  | .onReceived data => data
  | _ => none

def arrivals (trace : List (SocketEvent kind)) : List (List UInt8) :=
  trace.filterMap SocketEvent.arrival?

def handedOver (trace : List (SocketEvent kind)) : List (List UInt8) :=
  trace.filterMap SocketEvent.handed?

/-- What is passed to `onReceived` is what the last read gave, and all before it were passed. -/
def HandsOver (u : List (SocketEvent kind)) : SocketEvent kind → Prop
  | .onReceived data => ∃ d, data = some d ∧ handedOver u ++ [d] = arrivals u
  | _ => True

/-- The buffers are there as long as they are needed. -/
structure Kept (s : Socket kind) : Prop where
  writes : ∀ op ∈ s.writes, ∃ b ∈ s.sendBuffer, b.address = op.address
  popped : .popped none ∉ s.trace
  readPopped : .readPopped none ∉ s.trace
  reads : s.reads.length ≤ 1
  handed : Each HandsOver s.trace

def Action.handles? : Action kind → Option ℕ
  | .writeHandler i => some i
  | _ => none

def Action.returns? : Action kind → Option (ℕ × ℕ)
  | .sendBlockingReturns i (.ok sent) => some (i, sent)
  | _ => none

/-- The handlers of the writes run in the order of these, and `startReading` is called once. -/
def Orderly (t : Transition (Socket kind) (Action kind)) : Prop :=
  (∀ i ∈ t.label.handles?, i = 0) ∧ (t.label = .startReading → .reading ∉ t.source.trace)

/-- A call of `sendBlocking` that has written everything returns while the front of `sendBuffer`
is not a packet in flight. -/
def ReturnsFreely (t : Transition (Socket kind) (Action kind)) : Prop :=
  ∀ x ∈ t.label.returns?, ∀ call ∈ t.source.blocking[x.1]?, call.bytes.length = x.2 →
    ∀ b ∈ t.source.sendBuffer.head?, ∀ op ∈ t.source.writes, op.address ≠ b.address

instance (t : Transition (Socket kind) (Action kind)) : Decidable (Orderly t) :=
  inferInstanceAs (Decidable (_ ∧ _))

instance (t : Transition (Socket kind) (Action kind)) : Decidable (ReturnsFreely t) :=
  inferInstanceAs (Decidable (∀ x ∈ t.label.returns?, ∀ call ∈ t.source.blocking[x.1]?,
    call.bytes.length = x.2 → ∀ b ∈ t.source.sendBuffer.head?,
      ∀ op ∈ t.source.writes, op.address ≠ b.address))

/-! ### Writes -/

def Socket.held (s : Socket kind) : List ℕ := s.writes.map Operation.address
def Socket.queue (s : Socket kind) : List ℕ := s.sendBuffer.map Buffer.address

/-- What carries the runs: the packets in flight are in `sendBuffer` in the order of their
writes, and each pop has an element of its own. -/
structure Writing (s : Socket kind) : Prop where
  held : Held s.held s.queue
  fresh : ∀ b ∈ s.sendBuffer, b.address < s.allocated
  count : s.writes.length + s.blocking.length ≤ s.sendBuffer.length
  popped : .popped none ∉ s.trace

section
variable {s t : Socket kind} {a : Action kind}

theorem map_address_set {ops : List Operation} {i : ℕ} {op : Operation}
    (hop : ops[i]? = some op) (outcome : Option (Except String ℕ)) :
    (ops.set i { op with outcome := outcome }).map Operation.address =
      ops.map Operation.address := by
  obtain ⟨hi, rfl⟩ := List.getElem?_eq_some_iff.mp hop
  rw [List.map_set]
  refine Eq.trans ?_ (List.set_getElem_self (i := i) (by simpa using hi))
  rw [List.getElem_map]

theorem address_not_mem {buffers : List Buffer} {allocated : ℕ}
    (h : ∀ b ∈ buffers, b.address < allocated) : allocated ∉ buffers.map Buffer.address := by
  intro hmem
  obtain ⟨b, hb, heq⟩ := List.mem_map.mp hmem
  exact absurd (h b hb) (heq ▸ Nat.lt_irrefl _)

theorem address_lt_succ {buffers : List Buffer} {allocated : ℕ} {bytes : List UInt8}
    (h : ∀ b ∈ buffers, b.address < allocated) :
    ∀ b ∈ buffers ++ [⟨allocated, bytes⟩], b.address < allocated + 1 := by
  refine List.forall_mem_append.mpr ⟨fun b hb => (h b hb).trans (Nat.lt_succ_self _), ?_⟩
  exact List.forall_mem_singleton.mpr (Nat.lt_succ_self _)

theorem writing_initial (remoteEndpoint : Remote kind) :
    Writing (Socket.initial remoteEndpoint) :=
  ⟨.nil, by simp [Socket.initial], by simp [Socket.initial], by simp [Socket.initial]⟩

theorem Writing.not_mem (h : Writing s) : s.allocated ∉ s.queue := address_not_mem h.fresh

theorem Writing.same (h : Writing s) (hbuffer : t.sendBuffer = s.sendBuffer)
    (hheld : t.held = s.held) (hblocking : t.blocking.length ≤ s.blocking.length)
    (hallocated : s.allocated ≤ t.allocated) (hpopped : .popped none ∉ t.trace) : Writing t := by
  have hwrites : t.writes.length = s.writes.length := by
    simpa [Socket.held] using congrArg List.length hheld
  refine ⟨?_, ?_, ?_, hpopped⟩
  · rw [hheld, Socket.queue, hbuffer]
    exact h.held
  · rw [hbuffer]
    exact fun b hb => (h.fresh b hb).trans_le hallocated
  · rw [hwrites, hbuffer]
    exact (Nat.add_le_add_left hblocking _).trans h.count

theorem Writing.push {packet : List UInt8} (h : Writing s)
    (hbuffer : t.sendBuffer = s.sendBuffer ++ [⟨s.allocated, packet⟩])
    (hheld : Held t.held (s.queue ++ [s.allocated]))
    (hcount : t.writes.length + t.blocking.length = s.writes.length + s.blocking.length + 1)
    (hallocated : t.allocated = s.allocated + 1) (hpopped : .popped none ∉ t.trace) :
    Writing t := by
  refine ⟨?_, ?_, ?_, hpopped⟩
  · rw [Socket.queue, hbuffer, List.map_append]
    exact hheld
  · rw [hbuffer, hallocated]
    exact address_lt_succ h.fresh
  · rw [hbuffer, hcount, List.length_append, List.length_singleton]
    exact Nat.succ_le_succ h.count

theorem Writing.pop (h : Writing s) (hbuffer : t.sendBuffer = s.sendBuffer.tail)
    (hheld : Held t.held s.queue.tail)
    (hcount : t.writes.length + t.blocking.length < s.writes.length + s.blocking.length)
    (hallocated : t.allocated = s.allocated) (hpopped : .popped none ∉ t.trace) : Writing t := by
  refine ⟨?_, ?_, ?_, hpopped⟩
  · rw [Socket.queue, hbuffer, List.map_tail]
    exact hheld
  · rw [hbuffer, hallocated]
    exact fun b hb => h.fresh b (List.mem_of_mem_tail hb)
  · rw [hbuffer, List.length_tail]
    have hle := h.count
    omega

theorem Writing.head (h : Writing s) (hpos : 0 < s.writes.length + s.blocking.length) :
    none ≠ s.sendBuffer.head?.map Buffer.address := by
  have hle := h.count
  cases hb : s.sendBuffer with
  | nil =>
    rw [hb, List.length_nil] at hle
    omega
  | cons b rest => simp

theorem length_eraseIdx_lt {α : Type*} {x : List α} {i : ℕ} {y : α} (h : x[i]? = some y) :
    (x.eraseIdx i).length < x.length := by
  obtain ⟨hi, -⟩ := List.getElem?_eq_some_iff.mp h
  rw [List.length_eraseIdx_of_lt hi]
  omega

theorem Writing.step (h : Writing s) (hs : s.Stepped a t) (ho : Orderly ⟨s, a, t⟩)
    (hc : ReturnsFreely ⟨s, a, t⟩) : Writing t := by
  have hpopped := h.popped
  cases hs with
  | sendBlocking packet =>
    exact h.push rfl (h.held.pushFree h.not_mem) (by simp [Nat.add_assoc]) rfl
      (by simpa using hpopped)
  | send packet =>
    refine h.push rfl ?_ (by simp [Nat.add_right_comm]) rfl (by simpa using hpopped)
    simpa [Socket.held] using h.held.push h.not_mem
  | @sent i call hcall =>
    have hlt := length_eraseIdx_lt hcall
    have hhead := h.head (Nat.lt_add_left _ (Nat.zero_lt_of_lt hlt))
    refine h.pop rfl (h.held.pop ?_) (Nat.add_lt_add_left hlt _) rfl ?_
    · intro k hk hheld
      obtain ⟨b, hb, rfl⟩ : ∃ b, b ∈ s.sendBuffer.head? ∧ b.address = k := by
        simpa [Socket.queue] using hk
      obtain ⟨op, hop, heq⟩ := List.mem_map.mp hheld
      exact hc (i, _) rfl call hcall rfl b hb op hop heq
    · simpa [hpopped] using hhead
  | short hcall | unsent hcall =>
    exact h.same rfl rfl (length_eraseIdx_lt hcall).le le_rfl (by simpa using hpopped)
  | writeDone hop ho hr =>
    exact h.same rfl (map_address_set hop _) le_rfl le_rfl (by simpa using hpopped)
  | @written i n op hop hout | @unwritten i op what hop hout =>
    -- the oldest write gives up with the front
    obtain rfl := ho.1 i rfl
    have hlt := length_eraseIdx_lt hop
    have hhead := h.head (Nat.lt_add_right _ (Nat.zero_lt_of_lt hlt))
    refine h.pop rfl ?_ (Nat.add_lt_add_right hlt _) rfl (by simpa [hpopped] using hhead)
    simpa [Socket.held, List.eraseIdx_zero, List.map_tail] using h.held.release
  | startReading | received =>
    refine h.same rfl rfl le_rfl (Nat.le_succ _) ?_
    simpa [Socket.startReading] using hpopped
  | _ =>
    refine h.same rfl rfl le_rfl le_rfl ?_
    simpa [Socket.disconnect, Socket.readDone, Socket.readHandler] using hpopped

end

/-! ### Reads -/

/-- How far reading has come: the operations, the handlers in `onReceived`, the vectors, what was
handed over and what has arrived. -/
@[mk_iff]
inductive Progress : List Operation → ℕ → List Buffer → List (List UInt8) → List (List UInt8) →
    Prop where
  | idle {buffers : List Buffer} {x : List (List UInt8)} : Progress [] 0 buffers x x
  | pending {k size : ℕ} {bytes : List UInt8} {x : List (List UInt8)} :
      Progress [⟨k, size, none⟩] 0 [⟨k, bytes⟩] x x
  | arrived {k size : ℕ} {data rest : List UInt8} {x : List (List UInt8)} :
      Progress [⟨k, size, some (.ok data.length)⟩] 0 [⟨k, data ++ rest⟩] x (x ++ [data])
  | lost {k size : ℕ} {what : String} {buffers : List Buffer} {x : List (List UInt8)} :
      Progress [⟨k, size, some (.error what)⟩] 0 buffers x x
  | handing {b : Buffer} {x : List (List UInt8)} : Progress [] 1 [b] x x

structure Reading (s : Socket kind) : Prop where
  progress : Progress s.reads s.receiving s.readBuffer (handedOver s.trace) (arrivals s.trace)
  unstarted : .reading ∉ s.trace → s.reads = [] ∧ s.receiving = 0 ∧ s.readBuffer = []
  readPopped : .readPopped none ∉ s.trace
  handed : Each HandsOver s.trace

section
variable {s t : Socket kind} {a : Action kind} {z : List (SocketEvent kind)}

@[simp] theorem arrivals_append (x y : List (SocketEvent kind)) :
    arrivals (x ++ y) = arrivals x ++ arrivals y := List.filterMap_append

@[simp] theorem handedOver_append (x y : List (SocketEvent kind)) :
    handedOver (x ++ y) = handedOver x ++ handedOver y := List.filterMap_append

theorem reading_initial (remoteEndpoint : Remote kind) :
    Reading (Socket.initial remoteEndpoint) :=
  ⟨.idle, fun _ => ⟨rfl, rfl, rfl⟩, by simp [Socket.initial], each_nil⟩

def SocketEvent.isReading : SocketEvent kind → Bool
  | .reading | .arrived _ _ | .onReceived _ | .readPopped _ => true
  | _ => false

theorem observe_eq_nil (hz : ∀ e ∈ z, e.isReading = false) :
    arrivals z = [] ∧ handedOver z = [] := by
  constructor
  · refine List.filterMap_eq_nil_iff.mpr fun e he => ?_
    have hnot := hz e he
    cases e <;> simp_all [SocketEvent.isReading, SocketEvent.arrival?]
  · refine List.filterMap_eq_nil_iff.mpr fun e he => ?_
    have hnot := hz e he
    cases e <;> simp_all [SocketEvent.isReading, SocketEvent.handed?]

theorem each_handsOver_append {x : List (SocketEvent kind)}
    (hz : ∀ e ∈ z, e.isReading = false) : Each HandsOver (x ++ z) ↔ Each HandsOver x := by
  refine each_append fun e he u => ?_
  have hnot := hz e he
  cases e <;> simp_all [SocketEvent.isReading, HandsOver]

theorem Reading.same (h : Reading s) (hreads : t.reads = s.reads)
    (hreceiving : t.receiving = s.receiving) (hbuffer : t.readBuffer = s.readBuffer)
    (htrace : t.trace = s.trace ++ z) (hz : ∀ e ∈ z, e.isReading = false) : Reading t := by
  obtain ⟨harrivals, hhanded⟩ := observe_eq_nil hz
  obtain ⟨hprogress, hunstarted, hpopped, hall⟩ := h
  constructor
  · simpa [hreads, hreceiving, hbuffer, htrace, harrivals, hhanded] using hprogress
  · rw [hreads, hreceiving, hbuffer, htrace]
    exact fun hnot => hunstarted fun hmem => hnot (List.mem_append_left _ hmem)
  · rw [htrace]
    intro hmem
    cases List.mem_append.mp hmem with
    | inl hmem => exact hpopped hmem
    | inr hmem => simpa [SocketEvent.isReading] using hz _ hmem
  · rw [htrace]
    exact (each_handsOver_append hz).mpr hall

theorem Reading.started (h : Reading s) {i : ℕ} {op : Operation} (hop : s.reads[i]? = some op) :
    .reading ∈ s.trace := by
  by_contra hnot
  simp [(h.unstarted hnot).1] at hop

theorem Reading.pending (h : Reading s) {i : ℕ} {op : Operation} (hop : s.reads[i]? = some op)
    (hout : op.outcome = none) : i = 0 ∧ s.reads = [op] ∧ s.receiving = 0 ∧
      (∃ bytes, s.readBuffer = [⟨op.address, bytes⟩]) ∧
      arrivals s.trace = handedOver s.trace := by
  obtain ⟨hreads, -⟩ | ⟨k, size, bytes, hreads, hreceiving, hbuffer, heq⟩ |
    ⟨k, size, d, rest, hreads, -⟩ | ⟨k, size, what, hreads, -⟩ | ⟨b, hreads, -⟩ :=
    (progress_iff _ _ _ _ _).mp h.progress
  · simp [hreads] at hop
  · obtain ⟨rfl, rfl⟩ := eq_of_singleton hreads hop
    exact ⟨rfl, hreads, hreceiving, ⟨bytes, hbuffer⟩, heq⟩
  · obtain ⟨-, rfl⟩ := eq_of_singleton hreads hop
    cases hout
  · obtain ⟨-, rfl⟩ := eq_of_singleton hreads hop
    cases hout
  · simp [hreads] at hop

theorem Reading.filled (h : Reading s) {i n : ℕ} {op : Operation} (hop : s.reads[i]? = some op)
    (hout : op.outcome = some (.ok n)) : i = 0 ∧ s.reads = [op] ∧ s.receiving = 0 ∧
      ∃ b data, s.readBuffer = [b] ∧ b.bytes.take n = data ∧
        arrivals s.trace = handedOver s.trace ++ [data] := by
  obtain ⟨hreads, -⟩ | ⟨k, size, bytes, hreads, -⟩ |
    ⟨k, size, d, rest, hreads, hreceiving, hbuffer, heq⟩ | ⟨k, size, what, hreads, -⟩ |
    ⟨b, hreads, -⟩ := (progress_iff _ _ _ _ _).mp h.progress
  · simp [hreads] at hop
  · obtain ⟨-, rfl⟩ := eq_of_singleton hreads hop
    cases hout
  · obtain ⟨rfl, rfl⟩ := eq_of_singleton hreads hop
    cases hout
    exact ⟨rfl, hreads, hreceiving, _, d, hbuffer, List.take_left, heq⟩
  · obtain ⟨-, rfl⟩ := eq_of_singleton hreads hop
    cases hout
  · simp [hreads] at hop

theorem Reading.failed (h : Reading s) {i : ℕ} {op : Operation} {what : String}
    (hop : s.reads[i]? = some op) (hout : op.outcome = some (.error what)) :
    i = 0 ∧ s.reads = [op] ∧ s.receiving = 0 ∧ arrivals s.trace = handedOver s.trace := by
  obtain ⟨hreads, -⟩ | ⟨k, size, bytes, hreads, -⟩ | ⟨k, size, d, rest, hreads, -⟩ |
    ⟨k, size, other, hreads, hreceiving, heq⟩ | ⟨b, hreads, -⟩ :=
    (progress_iff _ _ _ _ _).mp h.progress
  · simp [hreads] at hop
  · obtain ⟨-, rfl⟩ := eq_of_singleton hreads hop
    cases hout
  · obtain ⟨-, rfl⟩ := eq_of_singleton hreads hop
    cases hout
  · obtain ⟨rfl, rfl⟩ := eq_of_singleton hreads hop
    exact ⟨rfl, hreads, hreceiving, heq⟩
  · simp [hreads] at hop

theorem Reading.handing (h : Reading s) (hr : 0 < s.receiving) : s.reads = [] ∧ s.receiving = 1 ∧
    (∃ b, s.readBuffer = [b]) ∧ arrivals s.trace = handedOver s.trace := by
  obtain ⟨-, hreceiving, -⟩ | ⟨k, size, bytes, -, hreceiving, -⟩ |
    ⟨k, size, d, rest, -, hreceiving, -⟩ | ⟨k, size, what, -, hreceiving, -⟩ |
    ⟨b, hreads, hreceiving, hbuffer, heq⟩ := (progress_iff _ _ _ _ _).mp h.progress
  · exact absurd hreceiving hr.ne'
  · exact absurd hreceiving hr.ne'
  · exact absurd hreceiving hr.ne'
  · exact absurd hreceiving hr.ne'
  · exact ⟨hreads, hreceiving, ⟨b, hbuffer⟩, heq⟩

theorem Reading.extend {x y : List (List UInt8)} (h : Reading s)
    (htrace : t.trace = s.trace ++ z) (hx : handedOver z = x) (hy : arrivals z = y)
    (hprogress : Progress t.reads t.receiving t.readBuffer (handedOver s.trace ++ x)
      (arrivals s.trace ++ y))
    (hstarted : .reading ∈ t.trace) (hpopped : .readPopped none ∉ z)
    (hhanded : Each HandsOver (s.trace ++ z)) : Reading t := by
  subst hx hy
  constructor
  · rwa [htrace, handedOver_append, arrivals_append]
  · exact fun hnot => absurd hstarted hnot
  · rw [htrace, List.mem_append, not_or]
    exact ⟨h.readPopped, hpopped⟩
  · rwa [htrace]

theorem Reading.start (h : Reading s) (hnot : .reading ∉ s.trace) : Reading s.startReading := by
  obtain ⟨hreads, hreceiving, hbuffer⟩ := h.unstarted hnot
  have heq : arrivals s.trace = handedOver s.trace := by
    simpa [progress_iff, hreads, hreceiving, hbuffer] using h.progress
  refine h.extend (x := []) (y := []) (z := [.reading, .emplaced s.allocated])
    (List.append_assoc _ _ _) rfl rfl ?_ (by simp [Socket.startReading]) (by simp)
    ((each_append (by simp [HandsOver])).mpr h.handed)
  simp only [Socket.startReading, Socket.doRead_reads, Socket.doRead_receiving,
    Socket.doRead_readBuffer, Socket.emit_reads, Socket.emit_receiving, Socket.emit_readBuffer,
    hreads, hreceiving, hbuffer, heq, List.nil_append, List.append_nil]
  exact .pending

theorem Reading.arrive {i : ℕ} {op : Operation} {data : List UInt8} {source : Remote kind}
    (h : Reading s) (hop : s.reads[i]? = some op) (hout : op.outcome = none) :
    Reading (s.readDone i op (.ok (data, source))) := by
  obtain ⟨rfl, hreads, hreceiving, ⟨bytes, hbuffer⟩, heq⟩ := h.pending hop hout
  refine h.extend (x := []) (y := [data]) (z := [.arrived data source]) rfl rfl rfl ?_
    (List.mem_append_left _ (h.started hop)) (by simp)
    ((each_append (by simp [HandsOver])).mpr h.handed)
  simp only [Socket.readDone, hreads, hreceiving, hbuffer, heq, List.map_cons, List.map_nil,
    Socket.fill, if_true, List.set_cons_zero, List.append_nil]
  exact .arrived

theorem Reading.lose {i : ℕ} {op : Operation} {what : String} (h : Reading s)
    (hop : s.reads[i]? = some op) (hout : op.outcome = none) :
    Reading (s.readDone i op (.error what)) := by
  obtain ⟨rfl, hreads, hreceiving, -, heq⟩ := h.pending hop hout
  refine h.extend (x := []) (y := []) (z := []) (List.append_nil _).symm rfl rfl ?_
    (h.started hop) (by simp) (by simpa using h.handed)
  simp only [Socket.readDone, hreads, hreceiving, heq, List.set_cons_zero, List.append_nil]
  exact .lost

theorem Reading.hand {i n : ℕ} {op : Operation} (h : Reading s)
    (hop : s.reads[i]? = some op) (hout : op.outcome = some (.ok n)) :
    Reading (s.readHandler i (.ok n)) := by
  obtain ⟨rfl, hreads, hreceiving, b, data, hbuffer, rfl, heq⟩ := h.filled hop hout
  have hfront : s.readBuffer.head?.map (·.bytes.take n) = some (b.bytes.take n) := by
    rw [hbuffer]
    rfl
  refine h.extend (x := [b.bytes.take n]) (y := [])
    (z := [.onReceived (some (b.bytes.take n))]) ?_ rfl rfl ?_
    (List.mem_append_left _ (h.started hop)) (by simp)
    (each_concat.mpr ⟨h.handed, _, rfl, heq.symm⟩)
  · simp [Socket.readHandler, hfront]
  · simp only [Socket.readHandler, Socket.finishRead_reads, Socket.finishRead_receiving,
      Socket.finishRead_readBuffer, hreads, hreceiving, hbuffer, heq, List.eraseIdx_zero,
      List.tail_cons, List.append_nil]
    exact .handing

theorem Reading.stop {i : ℕ} {op : Operation} {what : String} (h : Reading s)
    (hop : s.reads[i]? = some op) (hout : op.outcome = some (.error what)) (line : String) :
    Reading ((s.finishRead i).emit [.printed line]) := by
  obtain ⟨rfl, hreads, hreceiving, heq⟩ := h.failed hop hout
  refine h.extend (x := []) (y := []) (z := [.printed line]) rfl rfl rfl ?_
    (List.mem_append_left _ (h.started hop)) (by simp)
    ((each_append (by simp [HandsOver])).mpr h.handed)
  simp only [Socket.emit_reads, Socket.emit_receiving, Socket.emit_readBuffer,
    Socket.finishRead_reads, Socket.finishRead_receiving, hreads, hreceiving, heq,
    List.eraseIdx_zero, List.tail_cons, List.append_nil]
  exact .idle

theorem Reading.resume (h : Reading s) (hr : 0 < s.receiving) : Reading s.received := by
  obtain ⟨hreads, hreceiving, ⟨b, hbuffer⟩, heq⟩ := h.handing hr
  have hstarted : .reading ∈ s.trace := by
    by_contra hnot
    exact hr.ne' (h.unstarted hnot).2.1
  refine h.extend (x := []) (y := [])
    (z := [.readPopped (some b.address), .emplaced s.allocated]) ?_ rfl rfl ?_ ?_ (by simp)
    ((each_append (by simp [HandsOver])).mpr h.handed)
  · simp [hbuffer]
  · simp only [Socket.received_reads, Socket.received_receiving, Socket.received_readBuffer,
      Socket.doRead_reads, Socket.doRead_readBuffer, Socket.popRead_reads,
      Socket.popRead_readBuffer, hreads, hreceiving, hbuffer, heq, List.tail_cons,
      List.nil_append, List.append_nil]
    exact .pending
  · simp [hstarted]

theorem Reading.step (h : Reading s) (hs : s.Stepped a t) (ho : Orderly ⟨s, a, t⟩) :
    Reading t := by
  cases hs with
  | startReading => exact h.start (ho.2 rfl)
  | arrived hop hout hd => exact h.arrive hop hout
  | lost hop hout => exact h.lose hop hout
  | onReceived hop hout => exact h.hand hop hout
  | stopped hop hout => exact h.stop hop hout _
  | received hr => exact h.resume hr
  | read size data source => exact ⟨h.progress, h.unstarted, h.readPopped, h.handed⟩
  | sent | short | unsent | unwritten =>
    exact h.same rfl rfl rfl (List.append_assoc _ _ _) (by simp [SocketEvent.isReading])
  | _ => exact h.same rfl rfl rfl rfl (by simp [SocketEvent.isReading])

end

/-! ### Whole runs -/

section
variable {s t : Socket kind} {a : Action kind}

theorem kept_of_invariants (hw : Writing s) (hr : Reading s) : Kept s := by
  refine ⟨?_, hw.popped, hr.readPopped, ?_, hr.handed⟩
  · intro op hop
    exact List.mem_map.mp (hw.held.mem _ (List.mem_map_of_mem hop))
  · obtain ⟨hreads, -⟩ | ⟨k, size, bytes, hreads, -⟩ | ⟨k, size, d, rest, hreads, -⟩ |
      ⟨k, size, what, hreads, -⟩ | ⟨b, hreads, -⟩ := (progress_iff _ _ _ _ _).mp hr.progress
    all_goals simp [hreads]

/-- Popping the packet of a write in flight loses it. -/
theorem returnsFreely_of_kept (hw : Writing s) (hs : s.Stepped a t) (hk : Kept t) :
    ReturnsFreely ⟨s, a, t⟩ := by
  intro x hx call hcall hlength b hb op hop heq
  cases hs with
  | sent hc =>
    cases hx
    have hleft : ∀ k ∈ s.held, k ∈ s.queue.tail := by
      intro k hheld
      obtain ⟨o, ho, rfl⟩ := List.mem_map.mp hheld
      obtain ⟨x, hx, hxo⟩ := hk.writes o ho
      rw [Socket.queue, ← List.map_tail]
      exact List.mem_map.mpr ⟨x, hx, hxo⟩
    refine hw.held.pop_iff.mp hleft b.address ?_ (heq ▸ List.mem_map_of_mem hop)
    rw [Socket.queue, List.head?_map, Option.mem_def.mp hb]
    rfl
  | short hc hne =>
    cases hx
    cases hc.symm.trans hcall
    exact hne hlength
  | _ => cases hx

end

variable {remoteEndpoint : Remote kind} {h : List (Transition (Socket kind) (Action kind))}
  {c : Socket kind}

/-- In every orderly run, the buffers are kept in all states exactly if no call of `sendBlocking`
pops a packet in flight. -/
theorem buffers_kept_iff (hr : (sockets remoteEndpoint).Run h c) (ho : ∀ t ∈ h, Orderly t) :
    (∀ t ∈ h, Kept t.target) ↔ ∀ t ∈ h, ReturnsFreely t := by
  refine (hr.restrict ho).forall_iff (I := fun s => Writing s ∧ Reading s) ?_ ?_ ?_
  · intro s hs
    cases hs
    exact ⟨writing_initial _, reading_initial _⟩
  · intro s a t _ hi ht hc
    have hs := Socket.stepped ht.1
    exact ⟨hi.1.step hs ht.2 hc, hi.2.step hs ht.2⟩
  · intro s a t _ hi ht
    have hs := Socket.stepped ht.1
    refine ⟨returnsFreely_of_kept hi.1 hs, fun hc => ?_⟩
    exact kept_of_invariants (hi.1.step hs ht.2 hc) (hi.2.step hs ht.2)

/-- A short `sendBlocking` throws and leaves its packet at the front; a packet that is sent after
it is kept all the same. -/
theorem buffers_kept_iff_stale : ∃ h c, (@sockets .tcp ()).Run h c ∧
    c.sendBuffer = [⟨2, [3]⟩] ∧ handedOver c.trace = [[9]] ∧ ∀ t ∈ h, Kept t.target := by
  obtain ⟨h, c, hr, hp⟩ := TransitionSystem.exists_run (.initial () : TcpSocket) Socket.step
    [.sendBlocking [1, 2], .sendBlockingReturns 0 (.ok 1), .startReading, .send [3],
      .readDone 0 (.ok ([9], ())), .readHandler 0, .received, .writeDone 0 (.ok 1), .writeHandler 0]
    (p := fun h c => decide (((∀ t ∈ h, Orderly t) ∧ ∀ t ∈ h, ReturnsFreely t) ∧
      c.sendBuffer = [⟨2, [3]⟩] ∧ handedOver c.trace = [[9]]))
    (by decide +kernel)
  obtain ⟨⟨ho, hc⟩, hbuffer, hhanded⟩ := of_decide_eq_true hp
  exact ⟨h, c, hr, hbuffer, hhanded, (buffers_kept_iff hr ho).mpr hc⟩

/-- A call of `sendBlocking` while a packet is in flight. -/
theorem packet_lost : ¬ ∀ h c, (@sockets .tcp ()).Run h c → (∀ t ∈ h, Orderly t) →
    ∀ t ∈ h, Kept t.target := by
  intro hclaim
  obtain ⟨h, c, hr, hp⟩ := TransitionSystem.exists_run (.initial () : TcpSocket) Socket.step
    [.send [1], .sendBlocking [2], .sendBlockingReturns 0 (.ok 1)]
    (p := fun h _ => decide ((∀ t ∈ h, Orderly t) ∧ ∃ t ∈ h, ∃ op ∈ t.target.writes,
      ∀ b ∈ t.target.sendBuffer, b.address ≠ op.address)) (by decide +kernel)
  obtain ⟨ho, t, ht, op, hop, hnone⟩ := of_decide_eq_true hp
  obtain ⟨b, hb, heq⟩ := (hclaim h c hr ho t ht).writes op hop
  exact hnone b hb heq

end FmClient.Traffic
