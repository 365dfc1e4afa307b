import FmClient.Facade.Delivery
import FmClient.Run.Wire

/-! What a stream carries. A machine sends `SETUP` only to begin a connection, so that the streams
cut what it sends into the sessions of its protocol. -/
namespace FmClient.Facade
open Lib Handler Backend FmClient.System Computability
variable {σ : Type} {M : ClientMachine σ} {blank : ControlMessage}

/-! ### `SETUP` begins a connection -/

/-- `SETUP` is sent next after a dial, or on a connection that has just been opened. -/
def Greets (s : Stage) (cs : List Call) : Prop :=
  ∀ m, .send m ∈ cs → m.command = .setup →
    (∃ ok, cs = [.dial ok, .send m]) ∨ cs = [.send m] ∧ s = .greeting

def ClientMachine.Introduces (M : ClientMachine σ) : Prop :=
  ∀ env e s w t v, M.rests s = true → M.handleEvent env e s w = .ok t v → Wire.Introduces w v

section
variable {s t : Stage} {c : Call} {cs : List Call}

theorem Greets.tail (h : Greets s (c :: cs)) (hc : c.isDial = false) : Greets t cs := by
  intro m hm hsetup
  obtain ⟨ok, heq⟩ | ⟨heq, -⟩ := h m (List.mem_cons_of_mem _ hm) hsetup
  · cases heq
    cases hc
  · cases heq
    simp at hm

theorem Greets.after_dial {ok : Bool} (h : Greets s (.dial ok :: cs)) {m : ClientMessage}
    (hm : .send m ∈ cs) (hsetup : m.command = .setup) : cs = [.send m] := by
  obtain ⟨ok, heq⟩ | ⟨heq, -⟩ := h m (List.mem_cons_of_mem _ hm) hsetup
  · cases heq
    rfl
  · cases heq

theorem Greets.wait (h : Greets s (c :: cs)) (hc : c.message? = none) : Greets t (c :: cs) := by
  intro m hm hsetup
  obtain heq | ⟨heq, -⟩ := h m hm hsetup
  · exact .inl heq
  · cases heq
    cases hc

theorem send_mem_calls {env : Environment} {es : List Effect} {m : ClientMessage} :
    .send m ∈ calls env es ↔ m ∈ sent es := by
  rw [← message_calls env, List.mem_filterMap]
  constructor
  · exact fun hm => ⟨_, hm, rfl⟩
  · rintro ⟨c, hc, hm⟩
    cases c <;> cases hm
    exact hc

theorem greets_of_introduces {env : Environment} {es : List Effect}
    (h : ∀ m ∈ sent es, m.command = .setup → ∃ host port, es = [.dialed host port, .sent m]) :
    Greets s (calls env es) := by
  intro m hm hsetup
  obtain ⟨host, port, rfl⟩ := h m (send_mem_calls.mp hm) hsetup
  exact .inl ⟨_, rfl⟩

end

namespace Process
variable {p q : Process σ} {a : Action}

def Greeting (p : Process σ) : Prop :=
  ∀ activity, p.handling = some activity → Greets p.link.stage activity.calls

theorem initial_greeting : (initial M).Greeting := by simp [Greeting, initial]

theorem Greeting.same (h : p.Greeting) (hh : q.handling = p.handling)
    (hs : q.link.stage = p.link.stage) : q.Greeting := by
  intro activity ha
  rw [hs]
  exact h activity (hh ▸ ha)

theorem Greeting.go {pr qr : Progress} {c : Call} {cs ds : List Call} {throws : Bool}
    (h : p.Greeting) (hh : p.handling = some ⟨pr, c :: cs, throws⟩)
    (hq : q.handling = some ⟨qr, ds, throws⟩)
    (hd : Greets p.link.stage (c :: cs) → Greets q.link.stage ds) : q.Greeting := by
  intro activity ha
  cases hq.symm.trans ha
  exact hd (h _ hh)

theorem greets_closed (hq : q.Inv M) {activity : Activity} (hh : q.handling = some activity)
    (hs : q.link.stage = .closed) {m : ClientMessage} : activity.calls ≠ [.send m] := by
  intro heq
  obtain ⟨t, hfollow, -⟩ := hq.follows _ hh
  rw [heq, hs, follow_cons] at hfollow
  cases hfollow

theorem Greeting.start (hM : M.Introduces) (hi : p.Inv M) {task : ℕ} {env : Environment}
    {notice : Notice} (hthrows : ¬ Throws ⟨p, .run task env, p.start M blank env task notice⟩) :
    (p.start M blank env task notice).Greeting := by
  have hfailed : failed (p.result M blank env notice) = false := by
    simpa [Throws, Process.start] using hthrows
  obtain ⟨state, w, hr, -⟩ := settled_of_ok (s := p.client.state) hfailed
  obtain ⟨es, htrace, hes⟩ := hM _ _ _ _ _ _ hi.rests hr
  intro activity ha
  cases ha
  simp only [hr, contextOf_ok, htrace, List.drop_left]
  exact greets_of_introduces hes

theorem Greeting.step (h : p.Greeting) (hM : M.Introduces) (hs : Stepped M blank p a q)
    (hi : p.Inv M) (hthrows : ¬ Throws ⟨p, a, q⟩) : q.Greeting := by
  have hq := hi.step hs
  cases hs with
  | started hh ht => exact .start hM hi hthrows
  | sent hh | recalled hh => exact h.go hh rfl fun hg => hg.tail rfl
  | dialed hh | finishing hh | drained hh | closeStuck hh =>
    exact h.go hh rfl fun hg => hg.wait rfl
  | closed hh | closeTimedOut hh => exact h.go hh rfl fun hg => hg.tail rfl
  | connected hh =>
    exact h.go hh rfl fun hg m hm hsetup => .inr ⟨hg.after_dial hm hsetup, rfl⟩
  | refused hh =>
    obtain ⟨hf, t, hn⟩ := hi.next hh
    have hclosed : p.link.stage = .closed := (next_dial hn).1.resolve_right fun hd => by
      rw [hd] at hf
      cases hf
    exact h.go hh rfl fun hg m hm hsetup =>
      absurd (hg.after_dial hm hsetup) (greets_closed hq rfl hclosed)
  | openFailed hh | openTimedOut hh =>
    exact h.go hh rfl fun hg m hm hsetup =>
      absurd (hg.after_dial hm hsetup) (greets_closed hq rfl rfl)
  | threw | left => exact fun _ ha => by cases ha
  | completed hl => exact h.same rfl (complete_stage hl)
  | _ => exact h.same rfl rfl

end Process

/-! ### What a stream carries -/

/-- On a connection that is open and greeted no `SETUP` is sent. -/
def Link.Greets (l k : Link) : Prop :=
  ∀ m, k.accepted = l.accepted ++ [m] → l.stage = .opened → m.content.command ≠ .setup

theorem Process.Greeting.link {p q : Process σ} {a : Action} (h : p.Greeting)
    (hs : Stepped M blank p a q) : p.link.Greets q.link := by
  intro m hm hopened
  cases hs with
  | @sent message cs throws hh =>
    have haccepted : (p.link.send message).accepted =
        p.link.accepted ++ [⟨p.link.session, message⟩] := rfl
    cases List.append_cancel_left (haccepted.symm.trans hm)
    intro hsetup
    obtain ⟨ok, heq⟩ | ⟨-, hgreeting⟩ := h _ hh message List.mem_cons_self hsetup
    · cases heq
    · rw [hopened] at hgreeting
      cases hgreeting
  | completed hl =>
    obtain ⟨op, -, rfl⟩ := Link.complete_eq_some _ hl
    simp at hm
  | _ => exact absurd (show p.link.accepted = p.link.accepted ++ [m] from hm) (by simp)

namespace Link
variable {l k : Link}

/-- The streams follow one another, each with one `SETUP`. -/
structure Marked (l : Link) : Prop extends l.Ordered where
  waiting : ∀ m ∈ l.backend.sendingQueue, m.content.command ≠ .setup
  sorted : l.written.Pairwise (·.stream ≤ ·.stream)
  once : l.written.Pairwise fun x y => x.stream = y.stream → y.message.content.command ≠ .setup

theorem initial_marked : initial.Marked :=
  ⟨initial_ordered, by simp [initial], .nil, .nil⟩

theorem Marked.append (h : l.Marked) {m : Stamped ClientMessage}
    (hm : m.content.command = .setup → ∀ x ∈ l.written, x.stream ≠ l.call) :
    (l.written ++ [Written.mk l.call m]).Pairwise (·.stream ≤ ·.stream) ∧
      (l.written ++ [Written.mk l.call m]).Pairwise fun x y =>
        x.stream = y.stream → y.message.content.command ≠ .setup := by
  simp only [List.pairwise_append, List.pairwise_singleton, List.mem_singleton, forall_eq, true_and]
  refine ⟨⟨h.sorted, fun x hx => (h.written x hx).2.2⟩, h.once, fun x hx heq hsetup => ?_⟩
  exact hm hsetup x hx heq

theorem Marked.writeCompleted (h : l.Marked) : l.writeCompleted.Marked := by
  have ho := h.toOrdered.writeCompleted
  cases hq : l.backend.sendingQueue with
  | nil =>
    rw [writeCompleted_nil hq] at ho ⊢
    exact ⟨ho, h.waiting, h.sorted, h.once⟩
  | cons m rest =>
    have hwaiting := h.waiting
    rw [hq, List.forall_mem_cons] at hwaiting
    obtain ⟨hsorted, honce⟩ := h.append fun hsetup => absurd hsetup hwaiting.1
    rw [writeCompleted_cons hq] at ho ⊢
    exact ⟨ho, hwaiting.2, hsorted, honce⟩

theorem Marked.send (h : l.Marked) {message : ClientMessage} (ho : (l.send message).Ordered)
    (hm : message.command = .setup → l.backend.sending = false ∧
      ∀ x ∈ l.written, x.stream ≠ l.call) : (l.send message).Marked := by
  cases hb : l.backend.sending with
  | true =>
    rw [send_busy hb] at ho ⊢
    refine ⟨ho, ?_, h.sorted, h.once⟩
    rw [List.forall_mem_append, List.forall_mem_singleton]
    refine ⟨h.waiting, fun hsetup => ?_⟩
    rw [hb] at hm
    cases (hm hsetup).1
  | false =>
    obtain ⟨hsorted, honce⟩ := h.append (m := ⟨l.session, message⟩) fun hsetup => (hm hsetup).2
    rw [send_idle hb] at ho ⊢
    exact ⟨ho, h.waiting, hsorted, honce⟩

theorem Marked.move (h : l.Marked) (hm : l.Move k)
    (hc : k.call ≠ l.call → l.backend.sendingQueue = []) (hg : l.Greets k) : k.Marked := by
  have ho := h.toOrdered.move hm hc
  cases hm with
  | greet hs => exact h.send ho fun _ => ⟨h.idle hs, (h.fresh (.inr hs)).2⟩
  | send hs => exact h.send ho fun hsetup => absurd hsetup (hg ⟨l.session, _⟩ rfl hs)
  | writeCompleted => exact h.writeCompleted
  | complete hk =>
    obtain ⟨op, -, rfl⟩ := complete_eq_some _ hk
    exact ⟨ho, h.waiting, h.sorted, h.once⟩
  | _ => exact ⟨ho, h.waiting, h.sorted, h.once⟩

theorem Marked.take (h : l.Marked) (i : ℕ) : (l.take i).Marked :=
  ⟨h.toOrdered.take i, h.waiting, h.sorted, h.once⟩

def conversation (l : Link) (stream : ℕ) : List Wire.Signal :=
  (l.written.filter fun x => x.stream = stream).map fun x => Wire.signal x.message.content

end Link

theorem eq_filter_append {α : Type*} {f : α → Bool} {l : List α}
    (h : l.Pairwise fun x y => f y = true → f x = true) :
    l = l.filter f ++ l.filter (fun x => !f x) := by
  induction l with
  | nil => rfl
  | cons x l ih =>
    obtain ⟨hx, hl⟩ := List.pairwise_cons.mp h
    cases hfx : f x with
    | true =>
      simp only [List.filter_cons, hfx, Bool.not_true, Bool.false_eq_true, if_true, if_false,
        List.cons_append, ← ih hl]
    | false =>
      have hnone : ∀ y ∈ x :: l, f y = false := by
        rw [List.forall_mem_cons]
        refine ⟨hfx, fun y hy => Bool.eq_false_iff.mpr fun hfy => ?_⟩
        rw [hx y hy hfy] at hfx
        cases hfx
      rw [List.filter_eq_nil_iff.mpr fun y hy => by simp [hnone y hy],
        List.filter_eq_self.mpr fun y hy => by simp [hnone y hy], List.nil_append]

namespace Link
variable {l : Link}

theorem Marked.split (h : l.Marked) (stream : ℕ) : ∃ before after,
    l.written = before ++ (l.written.filter fun x => x.stream = stream) ++ after ∧
      (∀ x ∈ before, x.stream < stream) ∧ ∀ x ∈ after, stream < x.stream := by
  let rest := l.written.filter fun x => !decide (x.stream < stream)
  have hle : ∀ x ∈ rest, stream ≤ x.stream := by simp [rest]
  have hsame : (rest.filter fun x => x.stream = stream) =
      l.written.filter fun x => x.stream = stream := by
    rw [List.filter_filter]
    refine List.filter_congr fun x _ => ?_
    by_cases heq : x.stream = stream <;> simp [heq]
  have hbefore := eq_filter_append (f := fun x : Written => decide (x.stream < stream))
    (h.sorted.imp fun hle hlt => decide_eq_true (hle.trans_lt (of_decide_eq_true hlt)))
  have hrest := eq_filter_append (f := fun x : Written => decide (x.stream = stream)) (l := rest)
    ((h.sorted.filter _).imp_of_mem fun hx _ hxy heq =>
      decide_eq_true (le_antisymm (of_decide_eq_true heq ▸ hxy) (hle _ hx)))
  rw [hsame] at hrest
  refine ⟨l.written.filter fun x => x.stream < stream,
    rest.filter fun x => !decide (x.stream = stream), hbefore.trans ?_, fun x hx => ?_,
    fun x hx => ?_⟩
  · rw [List.append_assoc, ← hrest]
  · exact of_decide_eq_true (List.mem_filter.mp hx).2
  · obtain ⟨hmem, hne⟩ := List.mem_filter.mp hx
    exact lt_of_le_of_ne (hle x hmem) (Ne.symm (by simpa using hne))

theorem Marked.headed (h : l.Marked) {stream : ℕ} (hne : l.conversation stream ≠ []) :
    Headed Wire.Signal.IsSetup (l.conversation stream) := by
  have honce := h.once.filter fun x => decide (x.stream = stream)
  have hsetup := h.setup stream
  rw [← List.head?_filter] at hsetup
  have hall : ∀ x ∈ l.written.filter fun x => x.stream = stream, x.stream = stream := by simp
  rw [conversation] at hne ⊢
  cases hf : l.written.filter fun x => x.stream = stream with
  | nil => simp [hf] at hne
  | cons x rest =>
    rw [hf] at honce hsetup hall
    obtain ⟨hx, hrest⟩ := List.forall_mem_cons.mp hall
    refine ⟨_, _, List.map_cons, hsetup x rfl, ?_⟩
    rw [List.forall_mem_map]
    exact fun y hy => (List.pairwise_cons.mp honce).1 y hy (hx.trans (hrest y hy).symm)

/-- Cut at each `SETUP`, a series of sessions is what the streams carry. -/
theorem Marked.mem_sessions (h : l.Marked) {sessions : List (List Wire.Signal)}
    (hsessions : ∀ w ∈ sessions, Headed Wire.Signal.IsSetup w)
    (hl : (l.written.map fun x => Wire.signal x.message.content) <+: sessions.flatten)
    {x : Written} (hx : x ∈ l.written) : ∃ w ∈ sessions, l.conversation x.stream <+: w ∧
      ((∃ y ∈ l.written, x.stream < y.stream) → l.conversation x.stream = w) := by
  obtain ⟨before, after, hsplit, hbefore, hafter⟩ := h.split x.stream
  have hne : l.conversation x.stream ≠ [] := by
    have hmem : x ∈ l.written.filter fun y => y.stream = x.stream := by simpa using hx
    simpa [conversation] using ⟨x, hx, rfl⟩
  rw [hsplit, List.map_append, List.map_append] at hl
  obtain ⟨w, hw, hprefix, hwhole⟩ := Headed.mem_of_flatten hsessions (h.headed hne) hl
  refine ⟨w, hw, hprefix, fun ⟨y, hy, hlt⟩ => ?_⟩
  cases after with
  | nil =>
    rw [hsplit, List.append_nil, List.mem_append] at hy
    obtain hy | hy := hy
    · exact absurd (hbefore y hy) (by omega)
    · simp only [List.mem_filter, decide_eq_true_eq] at hy
      omega
  | cons z after =>
    -- the first message after the stream is the first on its own
    have hfirst : (l.written.find? fun x => x.stream = z.stream) = some z := by
      have hz := hafter z List.mem_cons_self
      rw [hsplit, List.find?_append, List.find?_eq_none.mpr fun y hy => ?_]
      · simp
      · simp only [decide_eq_true_eq]
        obtain hy | hy := List.mem_append.mp hy
        · have hlt := hbefore y hy
          omega
        · simp only [List.mem_filter, decide_eq_true_eq] at hy
          omega
    exact hwhole _ rfl (h.setup z.stream z hfirst)

end Link

/-! ### Runs -/

section
variable {h : List (Transition (Process σ) Action)} {p : Process σ}

theorem marked (hM : M.Introduces) (hr : (process M blank).Run h p)
    (hthrows : ∀ t ∈ h, ¬ Throws t)
    (hempty : ∀ t ∈ h, Dials t → t.source.link.backend.sendingQueue = []) : p.link.Marked := by
  have hgreets : ∀ t ∈ h, t.source.link.Greets t.target.link :=
    hr.forall_of_forall (I := Process.Greeting) (fun _ hp => hp ▸ Process.initial_greeting)
      (fun _ _ _ hp hi hs hc => ⟨hi.step hM (Process.stepped hs) (reachable_inv hp) hc,
        hi.link (Process.stepped hs)⟩) hthrows
  exact link_invariant (C := fun l k => (k.call ≠ l.call → l.backend.sendingQueue = []) ∧
      l.Greets k) hr Link.initial_marked (fun _ i h => h.take i) (fun _ _ _ h => h)
    (fun _ _ h hm hc => h.move hm hc.1 hc.2) fun t ht => ⟨hempty t ht, hgreets t ht⟩

theorem written_begins (hr : (process M blank).Run h p)
    (hempty : ∀ t ∈ h, Dials t → t.source.link.backend.sendingQueue = []) :
    (p.link.written.map fun x => Wire.signal x.message.content) <+:
      Wire.signals p.client.context := by
  have hsends := Process.sends hr
  rw [Process.Sends, ← (Process.ordered hr hempty).fifo] at hsends
  rw [Wire.signals_eq, hsends]
  simp only [List.map_append, List.map_map, List.append_assoc]
  exact List.prefix_append _ _

theorem conversation_mem {sessions : Language Wire.Signal} (hM : M.Introduces)
    (hheaded : ∀ w ∈ sessions, Headed Wire.Signal.IsSetup w)
    (hwire : Wire.signals p.client.context ∈ prefixes sessions∗)
    (hr : (process M blank).Run h p) (hthrows : ∀ t ∈ h, ¬ Throws t)
    (hempty : ∀ t ∈ h, Dials t → t.source.link.backend.sendingQueue = []) :
    ∀ x ∈ p.link.written, ∃ w ∈ sessions, p.link.conversation x.stream <+: w ∧
      ((∃ y ∈ p.link.written, x.stream < y.stream) → p.link.conversation x.stream = w) := by
  intro x hx
  obtain ⟨word, ⟨words, rfl, hwords⟩, hprefix⟩ := hwire
  obtain ⟨w, hw, hmem⟩ := (marked hM hr hthrows hempty).mem_sessions
    (fun w hw => hheaded w (hwords w hw)) ((written_begins hr hempty).trans hprefix) hx
  exact ⟨w, hwords w hw, hmem⟩

end

theorem pilot_introduces : pilot.Introduces := by
  intro env e s w t v hs ht
  have hh := Pilot.handled env e s hs w
  rw [show Pilot.handleEvent env e s w = .ok t v from ht] at hh
  exact Wire.Pilot.Handled.introduces hh

theorem device_introduces : device.Introduces := by
  intro env e s w t v hs ht
  have hh := Device.handled env e s hs w
  rw [show Device.handleEvent env e s w = .ok t v from ht] at hh
  exact Wire.Device.Handled.introduces hh

/-- Each stream of a pilot carries a session of its protocol, as far as it has been written, and
in whole once a later stream has begun. -/
theorem pilot_stream_protocol {h : List (Transition (Process Pilot.State) Action)}
    {p : Process Pilot.State} (hr : (process pilot blank).Run h p)
    (hthrows : ∀ t ∈ h, ¬ Throws t)
    (hempty : ∀ t ∈ h, Dials t → t.source.link.backend.sendingQueue = []) :
    ∀ x ∈ p.link.written, ∃ w ∈ Wire.Pilot.session, p.link.conversation x.stream <+: w ∧
      ((∃ y ∈ p.link.written, x.stream < y.stream) → p.link.conversation x.stream = w) := by
  obtain ⟨k, hk, -⟩ := simulation.run hr hthrows
  exact conversation_mem pilot_introduces (fun _ => Wire.Pilot.session_headed)
    (Wire.Pilot.mem_prefixes_of_phase _ _ (Wire.Pilot.wire ⟨k, hk⟩)) hr hthrows hempty

/-- A pilot that has been released connects again: its first stream is a whole session. -/
theorem pilot_stream_protocol_reopened : ∃ h p, (process pilot unread).Run h p ∧
    p.link.conversation 1 = [⟨.setup, none⟩, ⟨.channelsReady, none⟩, ⟨.release, some .accepted⟩] ∧
    p.link.conversation 2 = [⟨.setup, none⟩] ∧ p.link.conversation 1 ∈ Wire.Pilot.session := by
  obtain ⟨h, p, hr, hp⟩ := TransitionSystem.exists_run (.initial pilot) (Process.step pilot unread)
    (Action.operating (Action.writing 1) ++ Action.releasing 0 ++ Action.idling ++ Action.opening)
    (p := fun h p => decide ((∀ t ∈ h, ¬ Throws t) ∧
      (∀ t ∈ h, Dials t → t.source.link.backend.sendingQueue = []) ∧
      (∃ x ∈ p.link.written, x.stream = 1 ∧ ∃ y ∈ p.link.written, x.stream < y.stream) ∧
      p.link.conversation 1 = [⟨.setup, none⟩, ⟨.channelsReady, none⟩, ⟨.release, some .accepted⟩] ∧
      p.link.conversation 2 = [⟨.setup, none⟩])) (by decide +kernel)
  obtain ⟨hthrows, hempty, ⟨x, hx, hone, hlater⟩, hfirst, hsecond⟩ := of_decide_eq_true hp
  obtain ⟨w, hw, -, hwhole⟩ := pilot_stream_protocol hr hthrows hempty x hx
  rw [hone] at hwhole
  exact ⟨h, p, hr, hfirst, hsecond, hwhole (hone ▸ hlater) ▸ hw⟩

/-- Each stream of a device carries a session of its protocol, as far as it has been written, and
in whole once a later stream has begun. -/
theorem device_stream_protocol {h : List (Transition (Process Device.State) Action)}
    {p : Process Device.State} (hr : (process device blank).Run h p)
    (hthrows : ∀ t ∈ h, ¬ Throws t)
    (hempty : ∀ t ∈ h, Dials t → t.source.link.backend.sendingQueue = []) :
    ∀ x ∈ p.link.written, ∃ w ∈ Wire.Device.session, p.link.conversation x.stream <+: w ∧
      ((∃ y ∈ p.link.written, x.stream < y.stream) → p.link.conversation x.stream = w) := by
  obtain ⟨k, hk, -⟩ := simulation.run hr hthrows
  exact conversation_mem device_introduces (fun _ => Wire.Device.session_headed)
    (Wire.Device.mem_prefixes_of_phase _ _ (Wire.Device.wire ⟨k, hk⟩)) hr hthrows hempty

/-- A device that is attached answers a heartbeat and opens the channels of an operation. -/
theorem device_stream_protocol_attached : ∃ h p, (process device unread).Run h p ∧
    p.link.conversation 1 =
      [⟨.setup, none⟩, ⟨.heartbeat, some .accepted⟩, ⟨.attachChannels, some .accepted⟩] ∧
    ∃ w ∈ Wire.Device.session, p.link.conversation 1 <+: w := by
  obtain ⟨h, p, hr, hp⟩ := TransitionSystem.exists_run (.initial device)
    (Process.step device unread)
    ([.notifyEvent (.user .attach), .handle, .call, .complete 0 unread true, .openNext 0, .call,
        .leave] ++ Action.writing 1 ++
      Action.reading 0 { command := .setup, response := .accepted } ++ [.handle, .leave] ++
      Action.reading 0 { command := .heartbeat, response := .accepted
                         heartbeat := some { key := "k" } } ++ [.handle, .call, .leave] ++
      Action.writing 1 ++
      Action.reading 0 { command := .attachChannels, response := .accepted
                         channelsResponse := [{ id := 1 }] } ++ [.handle, .call, .leave])
    (p := fun h p => decide ((∀ t ∈ h, ¬ Throws t) ∧
      (∀ t ∈ h, Dials t → t.source.link.backend.sendingQueue = []) ∧
      (∃ x ∈ p.link.written, x.stream = 1) ∧
      p.link.conversation 1 = [⟨.setup, none⟩, ⟨.heartbeat, some .accepted⟩,
        ⟨.attachChannels, some .accepted⟩])) (by decide +kernel)
  obtain ⟨hthrows, hempty, ⟨x, hx, hone⟩, hwritten⟩ := of_decide_eq_true hp
  obtain ⟨w, hw, hprefix, -⟩ := device_stream_protocol hr hthrows hempty x hx
  exact ⟨h, p, hr, hwritten, w, hw, hone ▸ hprefix⟩

end FmClient.Facade
