import FmClient.Facade.Process
import FmClient.Lib.Loop
import Mathlib.Data.Nat.Find

/-! The loop of `closeFacadeConnection`, call by call of `AsyncNext`. It looks at `releaseTag`
and `ok` only, which a call that times out leaves as they are, and never at what the call
returned. -/
namespace FmClient.Facade
open Lib Backend

deriving instance DecidableEq for Completion

/-- The locals that `AsyncNext` writes, and how often it has been called. `releaseTag` starts
out uninitialised; `none` is a pointer that is no tag. -/
structure Cleanup where
  releaseTag : Option GrpcTag
  ok : Bool
  calls : ℕ

namespace Cleanup

/-- `none` is a call that times out. -/
def asyncNext (c : Cleanup) : Option Completion → Cleanup
  | some ⟨tag, ok⟩ => ⟨some tag, ok, c.calls + 1⟩
  | none => { c with calls := c.calls + 1 }

def draining (c : Cleanup) : Bool := c.releaseTag.any drains

def closed (c : Cleanup) : Bool := c.ok && c.releaseTag = some .close

variable (outcomes : ℕ → Option Completion) (releaseTag : Option GrpcTag)

def next (c : Cleanup) : Cleanup := c.asyncNext (outcomes c.calls)

def after (n : ℕ) : Cleanup := (next outcomes)^[n] ⟨releaseTag, false, 0⟩

/-- From `Finish` on; `none` when the fuel does not suffice for the loop. -/
def closeFacadeConnection (fuel : ℕ) : Option (Except String Unit) :=
  (whileLoop draining (next outcomes) fuel (after outcomes releaseTag 1)).map fun c =>
    if c.closed then .ok () else .error "Could not close facade connection"

/-- The first completion other than of a `READ` or `WRITE` is `c`, taken by call `n`. -/
def FirstOther (n : ℕ) (c : Completion) : Prop :=
  outcomes n = some c ∧ drains c.tag = false ∧
    ∀ m < n, ∀ d, outcomes m = some d → drains d.tag = true

/-- It is that of `CLOSE`, with `ok`, and no call has timed out before it. -/
def ClosedInTime : Prop :=
  ∃ n, FirstOther outcomes n ⟨.close, true⟩ ∧ ∀ m < n, outcomes m ≠ none

/-- The function ends, normally exactly if the connection was closed in time. -/
def Terminates : Prop :=
  ∃ fuel r, closeFacadeConnection outcomes releaseTag fuel = some r ∧
    (r = .ok () ↔ ClosedInTime outcomes)

section
variable {outcomes releaseTag} {n : ℕ} {c : Completion}

theorem after_succ (n : ℕ) :
    after outcomes releaseTag (n + 1) = next outcomes (after outcomes releaseTag n) :=
  Function.iterate_succ_apply' _ n _

@[simp] theorem after_calls (n : ℕ) : (after outcomes releaseTag n).calls = n := by
  induction n with
  | zero => rfl
  | succ n ih =>
    rw [after_succ, next, ih]
    cases outcomes n with
    | none => simp [asyncNext, ih]
    | some c => simp [asyncNext, ih]

theorem after_completion (releaseTag : Option GrpcTag) (h : outcomes n = some c) :
    after outcomes releaseTag (n + 1) = ⟨some c.tag, c.ok, n + 1⟩ := by
  rw [after_succ, next, after_calls, h]
  simp [asyncNext]

theorem after_timeout (releaseTag : Option GrpcTag) (h : outcomes n = none) :
    after outcomes releaseTag (n + 1) = { after outcomes releaseTag n with calls := n + 1 } := by
  rw [after_succ, next, after_calls, h]
  simp [asyncNext]

theorem draining_after (hfirst : outcomes 0 ≠ none ∨ releaseTag.any drains = true)
    (h : ∀ m ≤ n, ∀ d, outcomes m = some d → drains d.tag = true) :
    (after outcomes releaseTag (n + 1)).draining = true := by
  induction n with
  | zero =>
    cases hd : outcomes 0 with
    | none =>
      have hr := hfirst.resolve_left (not_not.mpr hd)
      rw [after_timeout _ hd]
      exact hr
    | some d =>
      rw [after_completion _ hd]
      exact h 0 le_rfl d hd
  | succ n ih =>
    cases hd : outcomes (n + 1) with
    | none =>
      rw [after_timeout _ hd]
      exact ih fun m hm => h m (Nat.le_succ_of_le hm)
    | some d =>
      rw [after_completion _ hd]
      exact h (n + 1) le_rfl d hd

theorem FirstOther.unique {m : ℕ} {d : Completion} (h : FirstOther outcomes n c)
    (h' : FirstOther outcomes m d) : n = m ∧ c = d := by
  have hnm : n = m := by
    by_contra hne
    cases Nat.lt_or_gt_of_ne hne with
    | inl hlt => exact absurd (h'.2.2 n hlt c h.1) (by simp [h.2.1])
    | inr hgt => exact absurd (h.2.2 m hgt d h'.1) (by simp [h'.2.1])
  subst hnm
  exact ⟨rfl, Option.some.inj (h.1.symm.trans h'.1)⟩

theorem exists_firstOther (h : outcomes n = some c) (hc : drains c.tag = false) :
    ∃ m ≤ n, ∃ d, FirstOther outcomes m d := by
  classical
  have hex : ∃ m d, outcomes m = some d ∧ drains d.tag = false := ⟨n, c, h, hc⟩
  obtain ⟨d, hd, hother⟩ := Nat.find_spec hex
  refine ⟨Nat.find hex, Nat.find_min' hex ⟨c, h, hc⟩, d, hd, hother, ?_⟩
  intro m hm e he
  by_contra hne
  exact Nat.find_min hex hm ⟨e, he, by simpa using hne⟩

theorem FirstOther.closedInTime_iff (h : FirstOther outcomes n c) :
    ClosedInTime outcomes ↔ c = ⟨.close, true⟩ ∧ ∀ m < n, outcomes m ≠ none := by
  constructor
  · intro hclosed
    obtain ⟨m, hm, htime⟩ := hclosed
    obtain ⟨hnm, hc⟩ := h.unique hm
    exact ⟨hc, hnm ▸ htime⟩
  · intro hc
    exact ⟨n, hc.1 ▸ h, hc.2⟩

theorem ends_at_once (h : outcomes 0 = none) (htag : releaseTag.any drains = false) :
    closeFacadeConnection outcomes releaseTag 1 =
        some (.error "Could not close facade connection") ∧ ¬ ClosedInTime outcomes := by
  constructor
  · have hafter := after_timeout releaseTag h
    have hdraining : (after outcomes releaseTag 1).draining = false := hafter ▸ htag
    have hclosed : (after outcomes releaseTag 1).closed = false := by
      rw [hafter]
      rfl
    simp [closeFacadeConnection, whileLoop, hdraining, hclosed]
  · intro hclosed
    obtain ⟨n, hn, htime⟩ := hclosed
    cases n with
    | zero => exact absurd (h.symm.trans hn.1) (by simp)
    | succ n => exact htime 0 n.succ_pos h

theorem FirstOther.ends (h : FirstOther outcomes n c)
    (hfirst : outcomes 0 ≠ none ∨ releaseTag.any drains = true) :
    closeFacadeConnection outcomes releaseTag (n + 1) = some (
      if c = ⟨.close, true⟩ then .ok () else .error "Could not close facade connection") := by
  have hafter := after_completion releaseTag h.1
  have hgo : ∀ m < n, ((next outcomes)^[m] (after outcomes releaseTag 1)).draining = true :=
    fun m hm => draining_after hfirst fun k hk => h.2.2 k (Nat.lt_of_le_of_lt hk hm)
  have hstop : ((next outcomes)^[n] (after outcomes releaseTag 1)).draining = false := by
    change (after outcomes releaseTag (n + 1)).draining = false
    rw [hafter]
    exact h.2.1
  have hend : (next outcomes)^[n] (after outcomes releaseTag 1) = ⟨some c.tag, c.ok, n + 1⟩ :=
    hafter
  rw [closeFacadeConnection, whileLoop_of_first hgo hstop, hend]
  obtain ⟨tag, ok⟩ := c
  cases tag <;> cases ok <;> rfl

theorem firstOther_of_ends {fuel : ℕ} {r : Except String Unit}
    (hfirst : outcomes 0 ≠ none ∨ releaseTag.any drains = true)
    (h : closeFacadeConnection outcomes releaseTag fuel = some r) :
    ∃ n c, FirstOther outcomes n c := by
  obtain ⟨t, ht, -⟩ := Option.map_eq_some_iff.mp h
  obtain ⟨n, -, hstop, -⟩ := first_of_whileLoop ht
  by_contra hnone
  have hdraining : (after outcomes releaseTag (n + 1)).draining = true := by
    refine draining_after hfirst fun m _ d hd => ?_
    by_contra hother
    obtain ⟨k, -, e, he⟩ := exists_firstOther hd (by simpa using hother)
    exact hnone ⟨k, e, he⟩
  exact absurd hdraining (Bool.eq_false_iff.mp hstop)

theorem result_unique {fuel fuel' : ℕ} {r r' : Except String Unit}
    (h : closeFacadeConnection outcomes releaseTag fuel = some r)
    (h' : closeFacadeConnection outcomes releaseTag fuel' = some r') : r = r' := by
  obtain ⟨t, ht, hr⟩ := Option.map_eq_some_iff.mp h
  obtain ⟨t', ht', hr'⟩ := Option.map_eq_some_iff.mp h'
  rw [← hr, ← hr', whileLoop_unique ht ht']

/-- Where the first completion of another kind is `CLOSE` with `ok`, it must come in time, and
where none comes the loop spins, unless the very first call times out on a tag that is not
drained. -/
theorem terminates_iff (outcomes : ℕ → Option Completion) (releaseTag : Option GrpcTag) :
    Terminates outcomes releaseTag ↔
      (outcomes 0 = none ∧ releaseTag.any drains = false) ∨
      ∃ n c, FirstOther outcomes n c ∧
        (c = ⟨.close, true⟩ → ∀ m < n, outcomes m ≠ none) := by
  by_cases hcase : outcomes 0 = none ∧ releaseTag.any drains = false
  · obtain ⟨hend, hclosed⟩ := ends_at_once hcase.1 hcase.2
    exact iff_of_true ⟨1, _, hend, by simp [hclosed]⟩ (.inl hcase)
  · have hfirst : outcomes 0 ≠ none ∨ releaseTag.any drains = true := by
      simpa only [not_and_or, Bool.not_eq_false, ne_eq] using hcase
    rw [or_iff_right hcase]
    constructor
    · intro h
      obtain ⟨fuel, r, hr, hok⟩ := h
      obtain ⟨n, c, hc⟩ := firstOther_of_ends hfirst hr
      refine ⟨n, c, hc, ?_⟩
      intro hclose
      have hrok : r = .ok () := by
        rw [result_unique hr (hc.ends hfirst), if_pos hclose]
      exact (hc.closedInTime_iff.mp (hok.mp hrok)).2
    · intro h
      obtain ⟨n, c, hc, htime⟩ := h
      refine ⟨n + 1, _, hc.ends hfirst, ?_⟩
      rw [hc.closedInTime_iff]
      by_cases hclose : c = ⟨.close, true⟩
      · simpa [hclose] using htime hclose
      · simp [hclose]

/-- One `READ`, and then nothing: `CLOSE` never arrives. -/
theorem spins : ¬ Terminates (fun n => if n = 0 then some ⟨.read, false⟩ else none) none := by
  intro h
  obtain ⟨fuel, r, hr, -⟩ := h
  obtain ⟨n, c, hc, hother, -⟩ := firstOther_of_ends (.inl (by simp)) hr
  cases n with
  | zero =>
    cases hc
    exact absurd hother (by simp [drains])
  | succ n => simp at hc

end

/-- What the process does while a handler waits is a round of this loop: with a completion, -/
theorem asyncNext_closeNext {σ : Type} {p : Process σ} {completion : ℕ} {a : Arrival}
    (ha : p.link.completionQueue[completion]? = some a) (c : Cleanup) (cleaning ok : Bool)
    (cs : List Call) (throws : Bool) :
    p.closeNext completion ⟨.closing cleaning, .finish ok :: cs, throws⟩ =
      if (c.asyncNext (some a.completion)).draining then some { p with
        link := p.link.take completion
        handling := some ⟨.closing true, .finish ok :: cs, throws⟩ }
      else if (c.asyncNext (some a.completion)).closed = ok then
        some (p.after (p.link.take completion).finished cs throws)
      else none := by
  cases hd : drains a.tag <;> cases ok <;>
    simp [Process.closeNext, ha, hd, asyncNext, draining, closed, Arrival.completion,
      Arrival.closes]

/-- and in the first call without one. -/
theorem asyncNext_closeTimeout {σ : Type} {p : Process σ} (hq : p.link.completionQueue = [])
    (tag : GrpcTag) (ok : Bool) (cs : List Call) (throws : Bool) :
    p.closeTimeout tag ⟨.closing false, .finish ok :: cs, throws⟩ =
      if ((⟨some tag, false, 0⟩ : Cleanup).asyncNext none).draining then some { p with
        handling := some ⟨.closing true, .finish ok :: cs, throws⟩ }
      else if ((⟨some tag, false, 0⟩ : Cleanup).asyncNext none).closed = ok then
        some (p.after p.link.finished cs throws)
      else none := by
  cases ok <;> simp [Process.closeTimeout, hq, asyncNext, draining, closed]

end Cleanup
end FmClient.Facade
