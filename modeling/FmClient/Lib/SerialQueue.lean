import Mathlib.Data.List.Basic

/-! A busy flag with a backlog: an item submitted while nothing is in progress
starts at once, any other waits, and each completion starts the oldest waiting
item or clears the flag. -/
namespace FmClient.Lib
variable {α : Type*}

structure SerialQueue (α : Type*) where
  busy : Bool
  pending : List α

namespace SerialQueue

/-- The queue after a submission, and the item to start now, if any. -/
def submit (q : SerialQueue α) (x : α) : SerialQueue α × Option α :=
  if q.busy then ({ q with pending := q.pending ++ [x] }, none)
  else ({ q with busy := true }, some x)

/-- The queue after a completion, and the item to start next, if any. -/
def complete (q : SerialQueue α) : SerialQueue α × Option α :=
  match q.pending with
  | x :: xs => ({ q with pending := xs }, some x)
  | [] => ({ q with busy := false }, none)

theorem busy_submit (q : SerialQueue α) (x : α) :
    (q.submit x).1.busy.toNat = q.busy.toNat + (q.submit x).2.toList.length := by
  cases hb : q.busy <;> simp [submit, hb]

theorem busy_complete (q : SerialQueue α) (hb : q.busy = true) :
    q.complete.1.busy.toNat = q.complete.2.toList.length := by
  cases hp : q.pending <;> simp [complete, hb, hp]

/-- `active` items are in progress, `started` were started and `submitted` were
submitted, both in order. A set flag alone does not promise an item in progress:
a completion may get lost. -/
structure Inv (q : SerialQueue α) (active : ℕ) (started submitted : List α) : Prop where
  active_le : active ≤ q.busy.toNat
  idle : q.busy = false → q.pending = []
  fifo : started ++ q.pending = submitted

variable {q : SerialQueue α} {active : ℕ} {started submitted : List α}

theorem Inv.active_le_one (h : q.Inv active started submitted) : active ≤ 1 :=
  Nat.le_trans h.active_le (Bool.toNat_le q.busy)

theorem Inv.quiet (h : q.Inv active started submitted) (hq : q.busy = false) :
    active = 0 ∧ q.pending = [] := by
  have ha := h.active_le
  rw [hq] at ha
  exact ⟨Nat.le_zero.mp ha, h.idle hq⟩

theorem Inv.submit (h : q.Inv active started submitted) (x : α) :
    (q.submit x).1.Inv (active + (q.submit x).2.toList.length)
      (started ++ (q.submit x).2.toList) (submitted ++ [x]) := by
  obtain ⟨hactive, hidle, hfifo⟩ := h
  cases hb : q.busy with
  | true =>
    rw [hb] at hactive
    refine ⟨by simpa [SerialQueue.submit, hb] using hactive, by simp [SerialQueue.submit, hb], ?_⟩
    simp [SerialQueue.submit, hb, ← hfifo]
  | false =>
    rw [hb] at hactive
    have hp := hidle hb
    rw [hp, List.append_nil] at hfifo
    refine ⟨by simpa [SerialQueue.submit, hb] using hactive, by simp [SerialQueue.submit, hb], ?_⟩
    simp [SerialQueue.submit, hb, hp, hfifo]

theorem Inv.complete (h : q.Inv (active + 1) started submitted) :
    q.complete.1.Inv (active + q.complete.2.toList.length)
      (started ++ q.complete.2.toList) submitted := by
  obtain ⟨hactive, hidle, hfifo⟩ := h
  have hb : q.busy = true := by
    cases hb : q.busy with
    | true => rfl
    | false => rw [hb] at hactive; simp at hactive
  rw [hb] at hactive
  have ha : active = 0 := by simpa using hactive
  subst ha
  cases hp : q.pending with
  | nil =>
    rw [hp] at hfifo
    refine ⟨by simp [SerialQueue.complete, hp], by simp [SerialQueue.complete, hp], ?_⟩
    simpa [SerialQueue.complete, hp] using hfifo
  | cons x xs =>
    rw [hp] at hfifo
    refine ⟨by simp [SerialQueue.complete, hp, hb], by simp [SerialQueue.complete, hp, hb], ?_⟩
    simpa [SerialQueue.complete, hp] using hfifo

theorem Inv.lose (h : q.Inv (active + 1) started submitted) : q.Inv active started submitted :=
  ⟨Nat.le_trans (Nat.le_succ active) h.active_le, h.idle, h.fifo⟩

/-- Without lost completions a set flag means that exactly one item is in progress. -/
def Live (q : SerialQueue α) (active : ℕ) : Prop := active = q.busy.toNat

theorem Live.submit (h : q.Live active) (x : α) :
    (q.submit x).1.Live (active + (q.submit x).2.toList.length) := by
  unfold Live at h ⊢
  rw [busy_submit, h]

theorem Live.complete (h : q.Live (active + 1)) :
    q.complete.1.Live (active + q.complete.2.toList.length) := by
  have hb : q.busy = true := by cases hb : q.busy <;> simp_all [Live]
  have ha : active = 0 := by simpa [Live, hb] using h
  rw [Live, busy_complete q hb, ha, Nat.zero_add]

end SerialQueue
end FmClient.Lib
