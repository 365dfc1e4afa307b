import FmClient.Facade.ProcessSpec

/-! gRPC allows a stream one `Read` and one `Write` at a time. Each is followed by the next only
when a task has handled its completion, and a new connection starts with none of them. -/
namespace FmClient.Facade
open Lib Backend
variable {σ : Type} {M : ClientMachine σ} {blank : ControlMessage}

/-- A task that has still to handle a successful completion, or to call `Read` after one. -/
def Reader.holds (tag : GrpcTag) : Reader → Bool
  | .next (some a) => a.ok && a.tag = tag
  | .renew => tag = .read
  | _ => false

/-- The operations under way and those completed with success, which another will follow. -/
def Link.turns (tag : GrpcTag) (l : Link) : ℕ :=
  l.operations.countP (·.tag = tag) + l.completionQueue.countP fun a => a.ok && a.tag = tag

def Process.turns (tag : GrpcTag) (p : Process σ) : ℕ :=
  p.link.turns tag + p.readers.countP (Reader.holds tag)

/-- Nothing that was started on an earlier stream goes on. -/
def Process.Rested (p : Process σ) : Prop := p.turns .read = 0 ∧ p.turns .write = 0

instance (p : Process σ) : Decidable p.Rested := inferInstanceAs (Decidable (_ ∧ _))

theorem countP_concat {α : Type*} (f : α → Bool) (l : List α) (x : α) :
    (l ++ [x]).countP f = l.countP f + (f x).toNat := by
  cases hx : f x <;> simp [hx]

theorem countP_set_add {α : Type*} (f : α → Bool) {l : List α} {i : ℕ} {x : α}
    (hx : l[i]? = some x) (y : α) :
    (l.set i y).countP f + (f x).toNat = l.countP f + (f y).toNat := by
  obtain ⟨hlt, hget⟩ := List.getElem?_eq_some_iff.mp hx
  have hcount := Session.countP_eraseIdx f hx
  rw [List.countP_set hlt, hget, hcount]
  cases f x <;> cases f y <;> simp

/-! ### Links -/

namespace Link
variable {l k : Link} (tag : GrpcTag)

theorem turns_take {i : ℕ} {a : Arrival} (ha : l.completionQueue[i]? = some a) :
    l.turns tag = (l.take i).turns tag + (a.ok && a.tag = tag).toNat := by
  have hcount := Session.countP_eraseIdx (fun a : Arrival => a.ok && a.tag = tag) ha
  simp only [turns, take, hcount, Nat.add_assoc]

theorem turns_complete {operation : ℕ} {message : ControlMessage} {ok : Bool}
    (hk : l.complete operation message ok = some k) : k.turns tag ≤ l.turns tag := by
  obtain ⟨op, hop, rfl⟩ := complete_eq_some _ hk
  have hcount := Session.countP_eraseIdx (fun op : Operation => decide (op.tag = tag)) hop
  simp only [turns, List.countP_append, List.countP_singleton]
  cases ok <;> cases hd : decide (op.tag = tag) <;>
    simp only [hd, Bool.toNat_true, Bool.toNat_false, Bool.true_and, Bool.false_and, if_true,
      Bool.false_eq_true, if_false] at hcount ⊢ <;> omega

theorem turns_read : l.read.turns tag = l.turns tag + (decide (tag = .read)).toNat := by
  cases tag <;> simp [turns, read]
  omega

theorem turns_dial (ht : tag ≠ .open) : l.dial.turns tag = l.turns tag := by
  cases tag <;> simp_all [turns, dial]

theorem turns_finish (ht : tag ≠ .close) : l.finish.turns tag = l.turns tag := by
  cases tag <;> simp_all [turns, finish]

theorem turns_write (message : Option (Stamped ClientMessage)) :
    (l.write message).turns tag = l.turns tag +
      if tag = .write then message.toList.length else 0 := by
  cases message <;> cases tag <;> simp [turns, write]
  omega

theorem turns_send {message : ClientMessage} :
    (l.send message).turns tag = l.turns tag +
      if tag = .write then (!l.backend.sending).toNat else 0 := by
  unfold send
  rw [turns_write]
  cases hb : l.backend.sending <;> simp [turns, ClientBackend.send, hb]

theorem turns_writeCompleted : l.writeCompleted.turns tag = l.turns tag +
    if tag = .write then (!l.backend.sendingQueue.isEmpty).toNat else 0 := by
  unfold writeCompleted
  rw [turns_write]
  cases hq : l.backend.sendingQueue <;> simp [turns, ClientBackend.writeCompleted, hq]

theorem writeCompleted_sending : l.writeCompleted.backend.sending =
    (l.backend.sending && !l.backend.sendingQueue.isEmpty) := by
  cases hq : l.backend.sendingQueue <;>
    simp [writeCompleted, write, ClientBackend.writeCompleted, hq]

theorem send_sending (message : ClientMessage) : (l.send message).backend.sending = true := by
  cases hb : l.backend.sending <;> simp [send, write, ClientBackend.send, hb]

end Link

namespace Process
variable {p q : Process σ} {a : Action} (tag : GrpcTag)

/-- Reads and writes take turns; a stream that is being opened has none yet. -/
structure InTurn (p : Process σ) : Prop where
  read : p.turns .read ≤ 1
  write : p.turns .write ≤ p.link.backend.sending.toNat
  fresh : p.link.stage = .dialing → p.Rested

theorem initial_inTurn : (initial M).InTurn :=
  ⟨Nat.zero_le 1, Nat.le_refl 0, fun h => by cases h⟩

theorem InTurn.of_le (h : p.InTurn) (hread : q.turns .read ≤ p.turns .read)
    (hwrite : q.turns .write ≤ p.turns .write)
    (hb : q.link.backend.sending = p.link.backend.sending)
    (hs : q.link.stage = .dialing → p.link.stage = .dialing) : q.InTurn := by
  refine ⟨hread.trans h.read, ?_, fun hq => ?_⟩
  · rw [hb]
    exact hwrite.trans h.write
  · obtain ⟨hr, hw⟩ := h.fresh (hs hq)
    exact ⟨Nat.le_zero.mp (hr ▸ hread), Nat.le_zero.mp (hw ▸ hwrite)⟩

theorem InTurn.of_link (h : p.InTurn) (hread : q.link.turns .read ≤ p.link.turns .read)
    (hwrite : q.link.turns .write ≤ p.link.turns .write) (hr : q.readers = p.readers)
    (hb : q.link.backend.sending = p.link.backend.sending)
    (hs : q.link.stage = .dialing → p.link.stage = .dialing) : q.InTurn := by
  refine h.of_le ?_ ?_ hb hs <;> rw [turns, turns, hr]
  · exact Nat.add_le_add_right hread _
  · exact Nat.add_le_add_right hwrite _

theorem InTurn.send (h : p.InTurn) (message : ClientMessage) (cs : List Call) (throws : Bool) :
    (p.after (p.link.send message) cs throws).InTurn := by
  obtain ⟨hread, hwrite, -⟩ := h
  have hr := @Link.turns_send p.link .read message
  have hw := @Link.turns_send p.link .write message
  refine ⟨?_, ?_, fun hq => by cases hq⟩ <;> simp only [turns, after] at hread hwrite ⊢
  · rw [hr]
    exact hread
  · rw [hw, p.link.send_sending]
    cases hb : p.link.backend.sending <;>
      simp only [hb, Bool.toNat_true, Bool.toNat_false, Bool.not_true, Bool.not_false, if_true]
        at hwrite ⊢ <;> omega

theorem InTurn.dial (hp : p.Rested) {handling : Option Activity} :
    ({ p with link := p.link.dial, handling := handling } : Process σ).InTurn := by
  have hr : p.link.dial.turns .read = p.link.turns .read := p.link.turns_dial .read (by decide)
  have hw : p.link.dial.turns .write = p.link.turns .write := p.link.turns_dial .write (by decide)
  have hrested : ({ p with link := p.link.dial, handling := handling } : Process σ).Rested := by
    simpa only [Rested, turns, hr, hw] using hp
  exact ⟨hrested.1.trans_le (Nat.zero_le 1), hrested.2.trans_le (Nat.zero_le _), fun _ => hrested⟩

theorem InTurn.connect (h : p.InTurn) (hs : p.link.stage = .dialing) {completion : ℕ} {a : Arrival}
    (ha : p.link.completionQueue[completion]? = some a) (cs : List Call) (throws : Bool) :
    ((p.after (p.link.take completion).connected cs throws).post .proceedGrpcQueue).InTurn := by
  obtain ⟨hread, hwrite⟩ := h.fresh hs
  have hr := Link.turns_take .read ha
  have hw := Link.turns_take .write ha
  have hr' := (p.link.take completion).turns_read .read
  have hw' := (p.link.take completion).turns_read .write
  simp only [turns] at hread hwrite
  refine ⟨?_, ?_, fun hq => by cases hq⟩
  · change (p.link.take completion).read.turns .read + _ ≤ 1
    rw [hr']
    simp only [after, post, decide_true, Bool.toNat_true]
    omega
  · change (p.link.take completion).read.turns .write + _ ≤ 0
    rw [hw']
    simp only [after, post, reduceCtorEq, decide_false, Bool.toNat_false]
    omega

theorem InTurn.wrote (h : p.InTurn) {reader call : ℕ}
    (hn : p.readers[reader]? = some (.next (some ⟨.write, call, true⟩))) :
    ({ p with link := p.link.writeCompleted, readers := p.readers.set reader .last } :
      Process σ).InTurn := by
  have hr := countP_set_add (Reader.holds .read) hn .last
  have hw := countP_set_add (Reader.holds .write) hn .last
  have hr' := p.link.turns_writeCompleted .read
  have hw' := p.link.turns_writeCompleted .write
  obtain ⟨hread, hwrite, hfresh⟩ := h
  simp only [Reader.holds, Bool.true_and, reduceCtorEq, decide_true, decide_false, Bool.toNat_true,
    Bool.toNat_false, if_true, if_false, Nat.add_zero] at hr hw hr' hw'
  simp only [turns] at hread hwrite
  refine ⟨?_, ?_, fun hq => ?_⟩
  · simp only [turns, hr, hr']
    exact hread
  · simp only [turns, hw', p.link.writeCompleted_sending]
    cases hb : p.link.backend.sending <;> cases p.link.backend.sendingQueue.isEmpty <;>
      simp only [hb, Bool.not_true, Bool.not_false, Bool.and_true, Bool.and_false, Bool.toNat_true,
        Bool.toNat_false] at hwrite ⊢ <;> omega
  · -- a task that holds a completion of `Write` has its turn
    have hrested := (hfresh hq).2
    simp only [turns] at hrested
    omega

theorem InTurn.step (h : p.InTurn) (hs : Stepped M blank p a q) (hi : p.Inv M)
    (hc : q.link.call ≠ p.link.call → p.Rested) : q.InTurn := by
  cases hs with
  | notified | started | recalled | left | threw | closeStuck | refused =>
    exact h.of_link le_rfl le_rfl rfl rfl id
  | sent => exact h.send _ _ _
  | dialed => exact .dial (hc (by simp [Link.dial]))
  | finishing =>
    exact h.of_link (p.link.turns_finish .read (by decide)).le
      (p.link.turns_finish .write (by decide)).le rfl rfl fun hq => by cases hq
  | connected hh ha => exact h.connect (of_decide_eq_true (hi.next hh).1) ha _ _
  | openTimedOut | closeTimedOut =>
    exact h.of_link le_rfl le_rfl rfl rfl fun hq => by cases hq
  | openFailed hh ha | closed hh ha =>
    exact h.of_link (Link.turns_take .read ha ▸ Nat.le_add_right _ _)
      (Link.turns_take .write ha ▸ Nat.le_add_right _ _) rfl rfl fun hq => by cases hq
  | drained hh ha =>
    exact h.of_link (Link.turns_take .read ha ▸ Nat.le_add_right _ _)
      (Link.turns_take .write ha ▸ Nat.le_add_right _ _) rfl rfl id
  | completed hl =>
    have hle := fun tag => Link.turns_complete tag hl
    obtain ⟨op, -, rfl⟩ := Link.complete_eq_some _ hl
    exact h.of_link (hle .read) (hle .write) rfl rfl id
  | taken ht ha =>
    have hr := Link.turns_take .read ha
    have hw := Link.turns_take .write ha
    refine h.of_le ?_ ?_ rfl id <;>
      simp only [turns, hr, hw, countP_concat, Reader.holds] <;> omega
  | timedOut => exact h.of_le (by simp [turns, Reader.holds]) (by simp [turns, Reader.holds]) rfl id
  | received hn =>
    have hr := countP_set_add (Reader.holds .read) hn .renew
    have hw := countP_set_add (Reader.holds .write) hn .renew
    simp only [Reader.holds, Bool.true_and, reduceCtorEq, decide_true, decide_false] at hr hw
    exact h.of_le (Nat.add_le_add_left (Nat.add_right_cancel hr).le _)
      (Nat.add_le_add_left (Nat.add_right_cancel hw).le _) rfl id
  | wrote hn => exact h.wrote hn
  | dropped hn =>
    have hr := countP_set_add (Reader.holds .read) hn .last
    have hw := countP_set_add (Reader.holds .write) hn .last
    simp only [Reader.holds, Bool.toNat_false, Nat.add_zero] at hr hw
    exact h.of_le (Nat.add_le_add_left (hr ▸ Nat.le_add_right _ _) _)
      (Nat.add_le_add_left (hw ▸ Nat.le_add_right _ _) _) rfl id
  | renewed hn =>
    have hr := countP_set_add (Reader.holds .read) hn .last
    have hw := countP_set_add (Reader.holds .write) hn .last
    have hr' := p.link.turns_read .read
    have hw' := p.link.turns_read .write
    simp only [Reader.holds, reduceCtorEq, decide_true, decide_false, Bool.toNat_true,
      Bool.toNat_false] at hr hw hr' hw'
    exact h.of_le (by simp only [turns]; omega) (by simp only [turns]; omega) rfl id
  | ended hn =>
    have hr := Session.countP_eraseIdx (Reader.holds .read) hn
    have hw := Session.countP_eraseIdx (Reader.holds .write) hn
    exact h.of_le (Nat.add_le_add_left (hr ▸ Nat.le_add_right _ _) _)
      (Nat.add_le_add_left (hw ▸ Nat.le_add_right _ _) _) rfl id

theorem inTurn {h : List (Transition (Process σ) Action)} (hr : (process M blank).Run h p)
    (hrested : ∀ t ∈ h, Dials t → t.source.Rested) : p.InTurn :=
  hr.invariant_of_forall (fun _ hp => hp ▸ initial_inTurn)
    (fun _ _ _ hp hi hs hc => hi.step (stepped hs) (reachable_inv hp) hc) hrested

end Process

/-- Where no `Read` or `Write` is under way when a call of `Asynccontrol` is made, there is one of
each at most at any time, and a `Write` only while `sending` is set. -/
theorem one_operation_of_a_kind {h : List (Transition (Process σ) Action)} {p : Process σ}
    (hr : (process M blank).Run h p) (hrested : ∀ t ∈ h, Dials t → t.source.Rested) :
    p.link.turns .read ≤ 1 ∧ p.link.turns .write ≤ 1 ∧
      (p.link.backend.sending = false → p.link.turns .write = 0) := by
  have hi := Process.inTurn hr hrested
  have hread := Nat.le_trans (Nat.le_add_right _ _) hi.read
  have hwrite := Nat.le_trans (Nat.le_add_right _ _) hi.write
  refine ⟨hread, hwrite.trans (Bool.toNat_le _), fun hb => ?_⟩
  rw [hb] at hwrite
  exact Nat.le_zero.mp hwrite

/-- A pilot connects again, and has one `Read` and one `Write` under way. -/
theorem one_operation_of_a_kind_reopened : ∃ h p, (process pilot unread).Run h p ∧
    p.link.call = 2 ∧ (p.link.turns .read, p.link.turns .write) = (1, 1) ∧
    p.link.turns .read ≤ 1 := by
  obtain ⟨h, p, hr, hp⟩ := TransitionSystem.exists_run (.initial pilot) (Process.step pilot unread)
    (Action.operating (Action.writing 1) ++ Action.releasing 0 ++ Action.idling ++ Action.opening)
    (p := fun h p => decide ((∀ t ∈ h, Dials t → t.source.Rested) ∧ p.link.call = 2 ∧
      (p.link.turns .read, p.link.turns .write) = (1, 1))) (by decide +kernel)
  obtain ⟨hrested, hcall, hturns⟩ := of_decide_eq_true hp
  exact ⟨h, p, hr, hcall, hturns, (one_operation_of_a_kind hr hrested).1⟩

end FmClient.Facade
