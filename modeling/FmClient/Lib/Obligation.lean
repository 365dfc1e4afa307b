import FmClient.Lib.History

/-! Obligations in a history: one thing begins an obligation, what follows works it off. Where
none begins while one is outstanding, each end belongs to exactly one beginning. -/
namespace FmClient.Lib
variable {α κ : Type*} (begins : α → Option κ) (next : κ → α → Option κ)

def remaining (k : κ) (x : List α) : Option κ := x.foldlM next k

/-- What is left of the obligation that was begun last. -/
def outstanding (x : List α) : Option κ :=
  x.foldl (fun o a => (begins a).or (o.bind fun k => next k a)) none

/-- The obligation begun at `i` is outstanding until `a`, which ends it. -/
def EndedBy (x : List α) (a : α) (i : ℕ) : Prop :=
  ∃ b k r, x[i]? = some b ∧ begins b = some k ∧ remaining next k (x.drop (i + 1)) = some r ∧
    next r a = none

section
variable {begins next} {x u v : List α} {a b : α} {k r : κ} {blocked : α → Prop}

@[simp] theorem remaining_nil : remaining next k [] = some k := rfl

theorem remaining_concat :
    remaining next k (x ++ [a]) = (remaining next k x).bind fun r => next r a := by
  simp [remaining, List.foldlM_append]

@[simp] theorem outstanding_nil : outstanding begins next [] = none := rfl

theorem outstanding_concat : outstanding begins next (x ++ [a]) =
    (begins a).or ((outstanding begins next x).bind fun k => next k a) := by
  simp [outstanding]

/-- Nothing that is blocked by an obligation happens while one is outstanding. -/
def Exclusive (begins : α → Option κ) (next : κ → α → Option κ) (blocked : α → Prop) :
    List α → Prop :=
  Each fun x a => blocked a → outstanding begins next x = none

theorem Exclusive.left (h : Exclusive begins next blocked (u ++ v)) :
    Exclusive begins next blocked u :=
  fun y a hy => h y a (hy.trans (List.prefix_append u v))

/-- As long as something is left of an obligation, it is the one outstanding and no other has
begun. -/
theorem Exclusive.outstanding (h : Exclusive begins next blocked (u ++ a :: v))
    (hblocked : ∀ b, (begins b).isSome = true → blocked b) (ha : begins a = some k)
    (hr : remaining next k v = some r) :
    outstanding begins next (u ++ a :: v) = some r ∧ ∀ b ∈ v, begins b = none := by
  induction v using List.reverseRecOn generalizing r with
  | nil =>
    cases hr
    simp [outstanding_concat, ha]
  | append_singleton v b ih =>
    rw [remaining_concat, Option.bind_eq_some_iff] at hr
    obtain ⟨q, hq, hb⟩ := hr
    have hsplit : u ++ a :: (v ++ [b]) = (u ++ a :: v) ++ [b] := by simp
    rw [hsplit] at h ⊢
    obtain ⟨hout, hnone⟩ := ih h.left hq
    have hnot : begins b = none := by
      by_contra hne
      have hzero := (each_concat.mp h).2 (hblocked b (Option.isSome_iff_ne_none.mpr hne))
      simp [hout] at hzero
    refine ⟨?_, ?_⟩
    · rw [outstanding_concat, hnot, hout]
      exact hb
    · simpa [or_imp, forall_and] using ⟨hnone, hnot⟩

theorem Exclusive.ended {w : List α} (h : Exclusive begins next blocked (u ++ a :: v ++ b :: w))
    (hblocked : ∀ b, (begins b).isSome = true → blocked b) (ha : begins a = some k)
    (hb : blocked b) : remaining next k v = none := by
  have hsmaller : Exclusive begins next blocked (u ++ a :: v ++ [b]) := by
    have hsplit : u ++ a :: v ++ b :: w = u ++ a :: v ++ [b] ++ w := by simp
    rw [hsplit] at h
    exact h.left
  have hzero := (each_concat.mp hsmaller).2 hb
  cases hr : remaining next k v with
  | none => rfl
  | some r => simp [(hsmaller.left.outstanding hblocked ha hr).1] at hzero

theorem exists_begin (h : outstanding begins next x = some r) :
    ∃ i b k, x[i]? = some b ∧ begins b = some k ∧
      remaining next k (x.drop (i + 1)) = some r := by
  induction x using List.reverseRecOn generalizing r with
  | nil => cases h
  | append_singleton x a ih =>
    rw [outstanding_concat, Option.or_eq_some_iff] at h
    obtain ha | ⟨-, h⟩ := h
    · exact ⟨x.length, a, r, by simp, ha, by simp⟩
    · obtain ⟨q, hq, hqa⟩ := Option.bind_eq_some_iff.mp h
      obtain ⟨i, b, k, hb, hk, hleft⟩ := ih hq
      have hi : i < x.length := (List.getElem?_eq_some_iff.mp hb).1
      refine ⟨i, b, k, ?_, hk, ?_⟩
      · rw [List.getElem?_append_left hi, hb]
      · rw [List.drop_append_of_le_length hi, remaining_concat, hleft]
        exact hqa

theorem take_cons_drop {i : ℕ} (hb : x[i]? = some b) : x.take i ++ b :: x.drop (i + 1) = x := by
  obtain ⟨hi, rfl⟩ := List.getElem?_eq_some_iff.mp hb
  rw [← List.drop_eq_getElem_cons hi, List.take_append_drop]

theorem Exclusive.not_lt (h : Exclusive begins next blocked x)
    (hblocked : ∀ b, (begins b).isSome = true → blocked b) {i j : ℕ}
    (hi : EndedBy begins next x a i) (hj : EndedBy begins next x a j) : ¬ i < j := by
  intro hlt
  obtain ⟨b, k, r, hb, hk, hr, -⟩ := hi
  obtain ⟨b', k', -, hb', hk', -⟩ := hj
  have hmem : b' ∈ x.drop (i + 1) := by
    refine List.mem_of_getElem? (i := j - (i + 1)) ?_
    rw [List.getElem?_drop, ← hb']
    congr 1
    omega
  have hx := take_cons_drop hb
  rw [← hx] at h
  have hnone := (h.outstanding hblocked hk hr).2 b' hmem
  simp [hnone] at hk'

/-- Exactly the ends of what is outstanding are ends, each of exactly one beginning. -/
theorem Exclusive.exists_unique (h : Exclusive begins next blocked x)
    (hblocked : ∀ b, (begins b).isSome = true → blocked b) :
    (∃ r, Lib.outstanding begins next x = some r ∧ next r a = none) ↔
      ∃! i, EndedBy begins next x a i := by
  constructor
  · intro ⟨r, hr, ha⟩
    obtain ⟨i, b, k, hb, hk, hleft⟩ := exists_begin hr
    have hi : EndedBy begins next x a i := ⟨b, k, r, hb, hk, hleft, ha⟩
    refine ⟨i, hi, fun j hj => ?_⟩
    have hij := h.not_lt hblocked hi hj
    have hji := h.not_lt hblocked hj hi
    omega
  · intro ⟨i, ⟨b, k, r, hb, hk, hleft, ha⟩, _⟩
    have hx := take_cons_drop hb
    rw [← hx] at h
    have hout := (h.outstanding hblocked hk hleft).1
    rw [hx] at hout
    exact ⟨r, hout, ha⟩

end

end FmClient.Lib
