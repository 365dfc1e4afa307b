import FmClient.Facade.ProcessSpec

/-! How many tasks of `proceedGrpcQueue` there are. A task posts itself as long as it finds
`keepReader` set, and every connection posts another one: on one thread, the task of an old
connection is always ahead of the machine's task that opens the next. -/
namespace FmClient.Facade
open Lib Handler Backend FmClient.System
variable {σ : Type} {M : ClientMachine σ} {blank : ControlMessage}

def Task.isReader (t : Task) : Bool := !t.isMachine

@[simp] theorem isReader_machine (notice : Notice) : (Task.machine notice).isReader = false := rfl
@[simp] theorem isReader_proceedGrpcQueue : Task.proceedGrpcQueue.isReader = true := rfl

/-- A single thread takes the tasks in the order they were posted, each when the one before has
ended. -/
def Sequential (t : Transition (Process σ) Action) : Bool :=
  match t.label with
  | .run task _ => task = 0 && t.source.readers.isEmpty
  | .asyncNext task _ | .timeout task =>
    task = 0 && t.source.handling.isNone && t.source.readers.isEmpty
  | _ => true

theorem Link.keepReader_move {l k : Link} (hm : l.Move k)
    (h : l.backend.keepReader = l.stage.isOpen) : k.backend.keepReader = k.stage.isOpen := by
  cases hm with
  | greet hs | send hs =>
    rw [hs] at h
    cases hb : l.backend.sending <;>
      simp [Link.send, write, ClientBackend.send, hb, h, Stage.isOpen]
  | dial hs | refused hs | finished hs =>
    rw [hs] at h
    exact h
  | connected | finish => rfl
  | complete hk =>
    obtain ⟨op, -, rfl⟩ := complete_eq_some _ hk
    exact h
  | read => exact h
  | writeCompleted =>
    cases hq : l.backend.sendingQueue <;>
      simpa [Link.writeCompleted, write, ClientBackend.writeCompleted, hq] using h

theorem keepReader_iff {p : Process σ} (hp : (process M blank).Reachable p) :
    p.link.backend.keepReader = p.link.stage.isOpen := by
  obtain ⟨h, hr⟩ := hp
  exact link_invariant (I := fun l => l.backend.keepReader = l.stage.isOpen)
    (C := fun _ _ => True) hr rfl (fun _ _ h => h) (fun _ _ _ _ => trivial)
    (fun _ _ h hm _ => Link.keepReader_move hm h) fun _ _ => trivial

namespace Process
variable {p q : Process σ} {a : Action}

def readerTasks (p : Process σ) : ℕ := p.posted.countP Task.isReader + p.readers.length

theorem readerTasks_append (tasks : List Task) :
    (p.posted ++ tasks).countP Task.isReader + p.readers.length =
      p.readerTasks + tasks.countP Task.isReader := by
  rw [List.countP_append, readerTasks]
  omega

theorem readers_of_machine (machines : List Notice) :
    (machines.map Task.machine).countP Task.isReader = 0 := by
  simp

end Process

section
variable {p q : Process σ} {a : Action}
open Process

/-- Only the end of `openFacadeConnection` adds a task, and only an end without `keepReader`
takes one away. -/
theorem Stepped.readerTasks (hs : Stepped M blank p a q) (hi : p.Inv M) :
    q.readerTasks = p.readerTasks ∨
    (p.link.stage = .dialing ∧ q.link.stage = .greeting ∧
      q.readerTasks = p.readerTasks + 1) ∨
    (p.link.backend.keepReader = false ∧ q.link = p.link ∧
      q.readerTasks + 1 = p.readerTasks) := by
  cases hs with
  | notified | recalled | received | left =>
    refine .inl ?_
    simp only [Process.readerTasks, notify, after, List.countP_append, readers_of_machine,
      List.length_set, Nat.add_zero]
  | started hh ht =>
    have herase := Session.countP_eraseIdx Task.isReader ht
    refine .inl ?_
    simp only [Process.readerTasks, start]
    simp only [isReader_machine, Bool.toNat_false] at herase
    omega
  | connected hh =>
    refine .inr (.inl ⟨of_decide_eq_true (hi.next hh).1, rfl, ?_⟩)
    exact readerTasks_append _
  | taken ht | timedOut ht =>
    have herase := Session.countP_eraseIdx Task.isReader ht
    refine .inl ?_
    simp only [Process.readerTasks, List.length_append, List.length_singleton]
    simp only [isReader_proceedGrpcQueue, Bool.toNat_true] at herase
    omega
  | wrote | dropped | renewed =>
    refine .inl ?_
    simp only [Process.readerTasks, List.length_set]
  | ended hn =>
    have hlength := List.length_eraseIdx_of_lt (List.getElem?_eq_some_iff.mp hn).1
    have hpos := (List.getElem?_eq_some_iff.mp hn).1
    cases hk : p.link.backend.keepReader with
    | true =>
      refine .inl ?_
      simp only [Process.readerTasks, if_true, List.countP_append, List.countP_singleton,
        isReader_proceedGrpcQueue, hlength]
      omega
    | false =>
      refine .inr (.inr ⟨rfl, rfl, ?_⟩)
      simp only [Process.readerTasks, Bool.false_eq_true, if_false, List.append_nil, hlength]
      omega
  | _ => exact .inl rfl

end

section
variable {c : Call} {cs : List Call} {s t : Stage}

theorem dialsFirst_cons (h : dialsFirst (c :: cs) = true) :
    cs.any Call.isDial = false ∧ dialsFirst cs = true := by
  simp only [dialsFirst, List.tail_cons, Bool.not_eq_true', List.any_eq_false] at h ⊢
  exact ⟨h, fun c hc => h c (List.mem_of_mem_tail hc)⟩

theorem dials_closed (h : dialsFirst cs = true) (hf : s.follow cs = some t)
    (hd : cs.any Call.isDial = true) : s = .closed ∨ s = .dialing := by
  cases cs with
  | nil => cases hd
  | cons c cs =>
    simp only [List.any_cons, (dialsFirst_cons h).1, Bool.or_false] at hd
    obtain ⟨u, hn, -⟩ := Option.bind_eq_some_iff.mp hf
    cases c with
    | dial ok => exact (next_dial hn).1
    | send | finish | notifyEvent => cases hd

end

namespace Process
variable {p q : Process σ} {a : Action}

/-- `ahead`: a handler that opens a connection is alone. `first`: while the connection is closed,
the machine's task comes last. -/
structure OneReader (p : Process σ) : Prop where
  one : p.readerTasks ≤ 1
  opened : p.link.stage.isOpen = true → p.readerTasks = 1
  ahead : ∀ a, p.handling = some a → dialsFirst a.calls = true ∧
    (a.calls.any Call.isDial = true → p.readerTasks = 0)
  first : p.handling = none → p.link.stage.isOpen = false → ∀ t ∈ p.posted.tail, t.isMachine = true

theorem initial_oneReader : (initial M).OneReader :=
  ⟨Nat.zero_le _, fun h => (by cases h), by simp [initial], by simp [initial]⟩

theorem OneReader.after (h : p.OneReader) {pr : Progress} {c : Call} {cs : List Call}
    {throws : Bool} (hh : p.handling = some ⟨pr, c :: cs, throws⟩)
    (hq : q.handling = some ⟨.ready, cs, throws⟩) :
    ∀ a, q.handling = some a → dialsFirst a.calls = true ∧
      (a.calls.any Call.isDial = true → q.readerTasks = 0) := by
  intro activity ha
  cases hq.symm.trans ha
  obtain ⟨hnone, hfirst⟩ := dialsFirst_cons (h.ahead _ hh).1
  exact ⟨hfirst, fun hany => by simp [hnone] at hany⟩

theorem OneReader.wait (h : p.OneReader) {pr qr : Progress} {cs : List Call} {throws : Bool}
    (hh : p.handling = some ⟨pr, cs, throws⟩) (hq : q.handling = some ⟨qr, cs, throws⟩)
    (htasks : q.readerTasks = p.readerTasks) :
    ∀ a, q.handling = some a → dialsFirst a.calls = true ∧
      (a.calls.any Call.isDial = true → q.readerTasks = 0) := by
  intro activity ha
  cases hq.symm.trans ha
  have hahead := h.ahead _ hh
  rwa [← htasks] at hahead

theorem OneReader.connects (h : p.OneReader) (hs : Stepped M blank p a q) (hi : p.Inv M)
    (hp : p.link.stage.isOpen = false) (hq : q.link.stage.isOpen = true) :
    p.readerTasks = 0 ∧ q.readerTasks = 1 := by
  obtain ⟨i, arrival, cs, throws, hh, -, -, rfl⟩ := hs.connects hi hp hq
  have hzero : p.readerTasks = 0 := (h.ahead _ hh).2 rfl
  refine ⟨hzero, ?_⟩
  have happend := p.readerTasks_append [.proceedGrpcQueue]
  rw [hzero] at happend
  exact happend

theorem OneReader.count (h : p.OneReader) (hs : Stepped M blank p a q) (hi : p.Inv M)
    (hk : p.link.backend.keepReader = p.link.stage.isOpen) :
    q.readerTasks ≤ 1 ∧ (q.link.stage.isOpen = true → q.readerTasks = 1) := by
  have hone := h.one
  obtain heq | ⟨hd, hg, -⟩ | ⟨hkeep, hlink, heq⟩ := hs.readerTasks hi
  · refine ⟨heq ▸ hone, fun hq => ?_⟩
    cases hp : p.link.stage.isOpen with
    | true => exact heq ▸ h.opened hp
    | false => exact (h.connects hs hi hp hq).2
  · obtain ⟨-, hafter⟩ := h.connects hs hi (by rw [hd]; rfl) (by rw [hg]; rfl)
    exact ⟨Nat.le_of_eq hafter, fun _ => hafter⟩
  · refine ⟨by omega, fun hq => ?_⟩
    rw [hlink, ← hk, hkeep] at hq
    cases hq

theorem OneReader.same (h : p.OneReader) (hs : Stepped M blank p a q) (hi : p.Inv M)
    (hh : q.handling = p.handling) : ∀ a, q.handling = some a → dialsFirst a.calls = true ∧
      (a.calls.any Call.isDial = true → q.readerTasks = 0) := by
  intro activity ha
  obtain ⟨hfirst, hzero⟩ := h.ahead _ (hh.symm.trans ha)
  refine ⟨hfirst, fun hany => ?_⟩
  have hnone := hzero hany
  obtain heq | ⟨hd, hg, -⟩ | ⟨-, -, heq⟩ := hs.readerTasks hi
  · exact heq.trans hnone
  · obtain ⟨i, arrival, cs, throws, hp, -, -, rfl⟩ :=
      hs.connects hi (by rw [hd]; rfl) (by rw [hg]; rfl)
    rw [hp] at hh
    cases hh
  · omega

theorem OneReader.start (h : p.OneReader) (hi : p.Inv M) {env : Environment} {notice : Notice}
    (hh : p.handling = none) (ht : p.posted[0]? = some (.machine notice)) (hr : p.readers = []) :
    ∀ a, (p.start M blank env 0 notice).handling = some a → dialsFirst a.calls = true ∧
      (a.calls.any Call.isDial = true → (p.start M blank env 0 notice).readerTasks = 0) := by
  intro activity ha
  cases ha
  have hstage := hi.stage_run hh ht
  obtain ⟨t, ⟨es, htrace, hfollow, hdials⟩, -⟩ :=
    M.handles env (p.event blank notice) p.client.state p.client.context hi.rests
  rw [← hstage] at hfollow
  simp only [result, htrace, List.drop_left]
  refine ⟨hdials, fun hany => ?_⟩
  have hclosed : p.link.stage.isOpen = false := by
    obtain hs | hs := dials_closed hdials hfollow hany <;> rw [hs] <;> rfl
  have htail := h.first hh hclosed
  simp only [readerTasks, Process.start, hr, List.length_nil, Nat.add_zero,
    List.countP_eq_zero, Task.isReader, List.eraseIdx_zero]
  exact fun t hmem => by simp [htail t hmem]

theorem OneReader.ahead_step (h : p.OneReader) (hs : Stepped M blank p a q) (hi : p.Inv M)
    (hseq : Sequential ⟨p, a, q⟩ = true) : ∀ a, q.handling = some a →
      dialsFirst a.calls = true ∧ (a.calls.any Call.isDial = true → q.readerTasks = 0) := by
  have hsame := h.same hs hi
  cases hs with
  | @started task env notice hh ht =>
    simp only [Sequential, Bool.and_eq_true, decide_eq_true_eq, List.isEmpty_iff] at hseq
    obtain ⟨rfl, hr⟩ := hseq
    exact h.start hi hh ht hr
  | sent hh | recalled hh | refused hh | connected hh | openFailed hh | openTimedOut hh
  | closed hh | closeTimedOut hh => exact h.after hh rfl
  | dialed hh | finishing hh | drained hh | closeStuck hh => exact h.wait hh rfl rfl
  | threw | left =>
    intro activity ha
    cases ha
  | _ => exact hsame rfl

theorem machines_last {tasks machines : List Task} (ht : ∀ t ∈ tasks.tail, t.isMachine = true)
    (hm : ∀ t ∈ machines, t.isMachine = true) :
    ∀ t ∈ (tasks ++ machines).tail, t.isMachine = true := by
  cases tasks with
  | nil => exact fun t hmem => hm t (List.mem_of_mem_tail hmem)
  | cons t tasks => exact List.forall_mem_append.mpr ⟨ht, hm⟩

theorem isMachine_of_map {machines : List Notice} :
    ∀ t ∈ machines.map Task.machine, t.isMachine = true := by
  simp

theorem OneReader.leaves (h : p.OneReader) (hi : p.Inv M) {activity : Activity}
    (hh : p.handling = some activity) : ∀ t ∈ p.posted.tail, t.isMachine = true := by
  have hall : p.posted.countP Task.isReader = p.posted.length :=
    List.countP_eq_length.mpr fun t ht => by simp [Task.isReader, hi.alone hh t ht]
  have hone := h.one
  rw [readerTasks, hall] at hone
  have htail : p.posted.tail = [] := by
    rw [← List.length_eq_zero_iff, List.length_tail]
    omega
  simp [htail]

theorem OneReader.first_step (h : p.OneReader) (hs : Stepped M blank p a q) (hi : p.Inv M)
    (hk : p.link.backend.keepReader = p.link.stage.isOpen)
    (hseq : Sequential ⟨p, a, q⟩ = true) (hnone : q.handling = none)
    (hclosed : q.link.stage.isOpen = false) : ∀ t ∈ q.posted.tail, t.isMachine = true := by
  cases hs with
  | notified | received => exact machines_last (h.first hnone hclosed) isMachine_of_map
  | threw hh => exact h.leaves hi hh
  | left hh => exact machines_last (h.leaves hi hh) isMachine_of_map
  | completed hl => exact h.first hnone (by rw [← complete_stage hl, hclosed])
  | taken | timedOut =>
    simp only [Sequential, Bool.and_eq_true, decide_eq_true_eq] at hseq
    obtain ⟨⟨rfl, -⟩, -⟩ := hseq
    rw [List.eraseIdx_zero]
    exact fun t hmem => h.first hnone hclosed t (List.mem_of_mem_tail hmem)
  | ended =>
    rw [hk, hclosed]
    simpa using h.first hnone hclosed
  | wrote | dropped | renewed => exact h.first hnone hclosed
  | _ => cases hnone

theorem OneReader.step (h : p.OneReader) (hs : Stepped M blank p a q) (hi : p.Inv M)
    (hk : p.link.backend.keepReader = p.link.stage.isOpen)
    (hseq : Sequential ⟨p, a, q⟩ = true) : q.OneReader :=
  ⟨(h.count hs hi hk).1, (h.count hs hi hk).2, h.ahead_step hs hi hseq,
    h.first_step hs hi hk hseq⟩

end Process

/-- On one thread there is at most one task, there is one while `keepReader` is set, and the one
of an old connection has ended before the next one is posted. -/
theorem one_reader {h : List (Transition (Process σ) Action)} {p : Process σ}
    (hr : (process M blank).Run h p) (hseq : ∀ t ∈ h, Sequential t = true) :
    p.readerTasks ≤ 1 ∧ (p.link.backend.keepReader = true → p.readerTasks = 1) ∧
      ∀ t ∈ h, Connects t → t.source.readerTasks = 0 := by
  have hstep {p a q} (hp : (process M blank).Reachable p) (hi : p.OneReader)
      (hs : (process M blank).step p a q) (hc : Sequential ⟨p, a, q⟩ = true) : q.OneReader :=
    hi.step (Process.stepped hs) (reachable_inv hp) (keepReader_iff hp) hc
  have hlast : p.OneReader := hr.invariant_of_forall (P := Process.OneReader)
    (fun _ h => h ▸ Process.initial_oneReader) (fun _ _ _ hp hi hs hc => hstep hp hi hs hc) hseq
  refine ⟨hlast.one, fun hk => hlast.opened (keepReader_iff hr.reachable ▸ hk), ?_⟩
  refine hr.forall_of_forall (I := Process.OneReader) (G := fun t => Connects t →
    t.source.readerTasks = 0) (fun _ h => h ▸ Process.initial_oneReader) ?_ hseq
  intro p a q hp hi hs hc
  refine ⟨hstep hp hi hs hc, fun ⟨hdialing, hgreeting⟩ => ?_⟩
  exact (hi.connects (Process.stepped hs) (reachable_inv hp) (by rw [hdialing]; rfl)
    (by rw [hgreeting]; rfl)).1

/-- A connection is closed and another one opened, with the task of the first still posted when
the machine's task is. -/
theorem one_reader_reopened : ∃ h p, (process pilot unread).Run h p ∧
    (p.readerTasks ≤ 1 ∧ (p.link.backend.keepReader = true → p.readerTasks = 1) ∧
      ∀ t ∈ h, Connects t → t.source.readerTasks = 0) ∧ p.link.opened = [1, 2] := by
  obtain ⟨h, p, hr, hp⟩ := TransitionSystem.exists_run (.initial pilot)
    (Process.step pilot unread)
    (Action.operating (Action.writing 1) ++ Action.releasing 0 ++
      [.notifyEvent (.user (.operate 5 []))] ++ Action.idling ++
      [.handle, .call, .complete 0 unread true, .openNext 0, .call, .leave])
    (p := fun h p => decide ((∀ t ∈ h, Sequential t = true) ∧ p.link.opened = [1, 2]))
    (by decide +kernel)
  obtain ⟨hseq, hopened⟩ := of_decide_eq_true hp
  exact ⟨h, p, hr, one_reader hr hseq, hopened⟩

end FmClient.Facade
