import FmClient.Backend.ChannelsSpec

/-! What a batch leaves behind when one of its channels throws. Entries are made before they are
opened, and only a rejection takes one out again. -/
namespace FmClient.ChannelsHandler
open Lib Handler

def gained (w v : Context) : List Effect := v.trace.drop w.trace.length

/-- A call comes back to its caller: with a result, or with an exception. -/
def exit : EStateM.Result Fault Context (List IChannel) → Option Context
  | .ok _ v => some v
  | .error (.thrown _) v => some v
  | .error _ _ => none

/-- An exception leaves the keys as they were, and an entry made in the call and still there
has been opened since. -/
structure Atomic (batch : List (ChannelResponse × Except String Bool)) (w : Context) : Prop where
  keys : ∀ what v, validateChannels batch w = .error (.thrown what) v →
    ∀ id, id ∈ v.channels.keys ↔ id ∈ w.channels.keys
  opened : ∀ v, exit (validateChannels batch w) = some v → ∀ p ∈ pointers v.channels,
    .inserted p ∈ gained w v → [.inserted p, .opened p true].Sublist (gained w v)

/-- `buildSocket` throws. -/
def refused (r : ChannelResponse) : Bool :=
  match r.protocol, r.security with
  | .udp, .tls | .other _, _ => true
  | _, _ => false

def throws (x : ChannelResponse × Except String Bool) : Bool :=
  refused x.1 || supported x.1 && !x.2.isOk

def answered (x : ChannelResponse × Except String Bool) : Bool := supported x.1 && x.2.isOk

/-- What the last channel of a batch with this id was answered. -/
def lastAnswer (id : ℤ) : List (ChannelResponse × Except String Bool) → Option Bool
  | [] => none
  | (r, result) :: rest => (lastAnswer id rest).or (if r.id = id then result.toOption else none)

section
variable {w v u : Context} {r : ChannelResponse} {result : Except String Bool}
  {batch : List (ChannelResponse × Except String Bool)} {ps : List IChannel}
  {es fs : List Effect} {id : ℤ} {c : ChannelImpl} {what : String}

theorem buildSocket_thrown_iff :
    (∃ what, buildSocket r w = .error (.thrown what) w) ↔ refused r = true := by
  unfold refused buildSocket
  cases r.protocol <;> cases r.security <;> simp

/-! ### What has come of the entries -/

/-- The entries of `v` were in `w` or have been made since, and these were opened. -/
structure Gains (w v : Context) (es : List Effect) : Prop where
  trace : v.trace = w.trace ++ es
  fresh : w.constructed ≤ v.constructed ∧ ∀ p, .inserted p ∈ es → p.address < v.constructed
  entries : ∀ p ∈ pointers v.channels, p ∈ pointers w.channels ∨ .inserted p ∈ es
  opened : ∀ p ∈ pointers v.channels, .inserted p ∈ es →
    [.inserted p, .opened p true].Sublist es

namespace Gains

theorem unchanged (hm : v.channels = w.channels) (hn : v.constructed = w.constructed)
    (ht : v.trace = w.trace ++ es) (hes : ∀ p, .inserted p ∉ es) : Gains w v es where
  trace := ht
  fresh := ⟨hn.ge, fun p hp => absurd hp (hes p)⟩
  entries := fun _ hp => .inl (hm ▸ hp)
  opened := fun p _ hp => absurd hp (hes p)

theorem trans (h : Gains w v es) (h' : Gains v u fs) : Gains w u (es ++ fs) where
  trace := by rw [h'.trace, h.trace, List.append_assoc]
  fresh := by
    refine ⟨h.fresh.1.trans h'.fresh.1, ?_⟩
    intro p hp
    cases List.mem_append.mp hp with
    | inl hes => exact (h.fresh.2 p hes).trans_le h'.fresh.1
    | inr hfs => exact h'.fresh.2 p hfs
  entries := by
    intro p hp
    cases h'.entries p hp with
    | inl hv => exact (h.entries p hv).imp_right (List.mem_append_left fs)
    | inr hfs => exact .inr (List.mem_append_right es hfs)
  opened := by
    intro p hp hins
    by_cases hfs : .inserted p ∈ fs
    · exact (h'.opened p hp hfs).trans (List.sublist_append_right es fs)
    · have hes := (List.mem_append.mp hins).resolve_right hfs
      have hv := (h'.entries p hp).resolve_right hfs
      exact (h.opened p hv hes).trans (List.sublist_append_left es fs)

theorem gained_eq (h : Gains w v es) : gained w v = es := by
  simp [gained, h.trace]

theorem logged (h : Gains w u es) (entry : LogEntry) :
    Gains w (u.emit [.logged entry]) (es ++ [.logged entry]) :=
  h.trans (.unchanged rfl rfl rfl (by simp))

theorem half_open (h : Gains w u es) {p : IChannel} (hp : p.address = u.constructed) :
    ¬ [.inserted p, .opened p true].Sublist (es ++ [.inserted p]) := by
  intro hsub
  obtain ⟨l, r, hlr, hl, hr⟩ := List.sublist_append_iff.mp hsub
  cases l with
  | nil =>
    rw [List.nil_append] at hlr
    rw [← hlr] at hr
    have hlength := hr.length_le
    simp at hlength
  | cons e l =>
    obtain ⟨he, -⟩ := List.cons.inj hlr
    rw [← he] at hl
    have hold := h.fresh.2 p (hl.subset List.mem_cons_self)
    omega

theorem not_opened (h : Gains w u es) (socket : SocketKind) (hid : id ∉ u.channels.keys)
    (hv : v = (u.insertNew ⟨id, u.constructed, socket, false⟩ hid).emit
      [.inserted ⟨id, u.constructed⟩]) :
    ¬ ∀ p ∈ pointers v.channels, .inserted p ∈ gained w v →
      [.inserted p, .opened p true].Sublist (gained w v) := by
  intro hall
  have hgained : gained w v = es ++ [.inserted ⟨id, u.constructed⟩] := by
    simp [gained, hv, h.trace]
  rw [hgained] at hall
  refine h.half_open rfl (hall ⟨id, u.constructed⟩ ?_ (by simp))
  rw [hv, Context.emit_channels, Context.insertNew_channels, mem_pointers_insertNew]
  exact .inr rfl

end Gains

theorem Emplacement.made (h : Emplacement w id c v) :
    ∃ es, (es = [] ∨ es = [.inserted c.pointer] ∧ c.address < v.constructed) ∧
      v.trace = w.trace ++ es ∧
      ∀ p ∈ pointers v.channels, p ∈ pointers w.channels ∨ .inserted p ∈ es := by
  cases h with
  | existing hc hid => exact ⟨[], .inl rfl, by simp, fun p hp => .inl hp⟩
  | new socket hid =>
    refine ⟨_, .inr ⟨rfl, Nat.lt_succ_self _⟩, rfl, ?_⟩
    intro p hp
    simpa using hp

theorem Validation.gains (h : Validation w r result (.ok ps v)) : ∃ es, Gains w v es := by
  cases h with
  | @accepted c v hr he =>
    obtain ⟨es, hes, htrace, hentries⟩ := he.made
    have hmade : ∀ p, .inserted p ∈ es →
        es = [.inserted c.pointer] ∧ p = c.pointer ∧ c.address < v.constructed := by
      intro p hp
      obtain hnone | hone := hes
      · simp [hnone] at hp
      · exact ⟨hone.1, by simpa [hone.1] using hp, hone.2⟩
    refine ⟨.logged (openingLine r.id) :: es ++
      [.opened c.pointer true, .logged (validatedLine r.id)], by simp [htrace], ?_, ?_, ?_⟩
    · refine ⟨he.extends.1, fun p hp => ?_⟩
      obtain ⟨-, hp, hlt⟩ := hmade p (by simpa using hp)
      rw [hp]
      exact hlt
    · intro p hp
      exact (hentries p hp).imp_right fun hins => by simp [hins]
    · intro p _ hins
      obtain ⟨hes, hp, -⟩ := hmade p (by simpa using hins)
      simp [hes, hp]
  | @rejected c v hr he =>
    obtain ⟨hc, hid⟩ := he.mem
    obtain ⟨es, hes, htrace, hentries⟩ := he.made
    have hgone : ∀ p ∈ pointers (v.channels.erase r.id), p ∈ pointers v.channels ∧
        p ≠ c.pointer := by
      intro p hp
      exact (mem_pointers_erase hc).mp (hid ▸ hp)
    have hmade : ∀ p, .inserted p ∈ es → p = c.pointer ∧ c.address < v.constructed := by
      intro p hp
      obtain hnone | hone := hes
      · simp [hnone] at hp
      · exact ⟨by simpa [hone.1] using hp, hone.2⟩
    refine ⟨.logged (openingLine r.id) :: es ++ [.opened c.pointer false,
      .logged (rejectedLine r.id), .erased c.pointer], by simp [htrace], ?_, ?_, ?_⟩
    · refine ⟨he.extends.1, fun p hp => ?_⟩
      obtain ⟨hp, hlt⟩ := hmade p (by simpa using hp)
      rw [hp]
      exact hlt
    · intro p hp
      exact (hentries p (hgone p hp).1).imp_right fun hins => by simp [hins]
    · intro p hp hins
      exact absurd (hmade p (by simpa using hins)).1 (hgone p hp).2

theorem Validations.gains (h : Validations w batch (.ok ps v)) : ∃ es, Gains w v es := by
  induction batch generalizing w ps with
  | nil =>
    cases h
    exact ⟨[], .unchanged rfl rfl (by simp) (by simp)⟩
  | cons x rest ih =>
    cases h with
    | cons hr hs =>
      obtain ⟨es, hes⟩ := hr.gains
      obtain ⟨fs, hfs⟩ := ih hs
      exact ⟨es ++ fs, hes.trans hfs⟩

/-! ### Which keys there are -/

theorem Validation.answered (h : Validation w r result (.ok ps v)) :
    answered (r, result) = true := by
  cases h <;> simp [ChannelsHandler.answered, Except.isOk, Except.toBool, *]

theorem Validations.answered (h : Validations w batch (.ok ps v)) :
    ∀ x ∈ batch, answered x = true := by
  induction batch generalizing w ps with
  | nil => simp
  | cons x rest ih =>
    cases h with
    | cons hr hs => exact List.forall_mem_cons.mpr ⟨hr.answered, ih hs⟩

theorem Validations.mem_keys_lastAnswer (h : Validations w batch (.ok ps v)) (id : ℤ) :
    id ∈ v.channels.keys ↔
      (lastAnswer id batch).elim (id ∈ w.channels.keys) fun accepted => accepted = true := by
  induction batch generalizing w ps with
  | nil =>
    cases h
    simp [lastAnswer]
  | cons x rest ih =>
    cases h with
    | @cons _ v' _ r result _ _ _ hr hs =>
      rw [ih hs, lastAnswer]
      cases lastAnswer id rest with
      | some accepted => simp
      | none =>
        cases result with
        | error what => cases hr
        | ok accepted =>
          rw [Option.elim_none, hr.mem_keys]
          by_cases hid : r.id = id
          · cases accepted <;> simp [hid, Except.toOption]
          · cases accepted <;> simp [hid, Ne.symm hid]

theorem Validations.keys_iff (h : Validations w batch (.ok ps v)) :
    (∀ id, id ∈ v.channels.keys ↔ id ∈ w.channels.keys) ↔
      ∀ id accepted, lastAnswer id batch = some accepted →
        (accepted = true ↔ id ∈ w.channels.keys) := by
  refine forall_congr' fun id => ?_
  rw [h.mem_keys_lastAnswer]
  cases lastAnswer id batch <;> simp

/-- Where a channel throws, nothing is left over exactly if the keys were the same before it
and it did not need an entry of its own. -/
theorem Validation.thrown_iff (h : Gains w u es)
    (hv : Validation u r result (.error (.thrown what) v)) :
    ((∀ id, id ∈ v.channels.keys ↔ id ∈ w.channels.keys) ∧ ∀ p ∈ pointers v.channels,
        .inserted p ∈ gained w v → [.inserted p, .opened p true].Sublist (gained w v)) ↔
      (∀ id, id ∈ u.channels.keys ↔ id ∈ w.channels.keys) ∧
        (supported r = true → r.id ∈ w.channels.keys) := by
  have hlogged := h.logged (openingLine r.id)
  cases hv with
  | unsupported hr hf =>
    have hopened := hlogged.gained_eq ▸ hlogged.opened
    refine ⟨fun hleft => ⟨hleft.1, fun hsup => ?_⟩, fun hright => ⟨hright.1, hopened⟩⟩
    simp [hr] at hsup
  | failed hr he =>
    cases he with
    | existing hc hid =>
      have hopened := hlogged.gained_eq ▸ hlogged.opened
      have hkey : r.id ∈ u.channels.keys := hid ▸ KeyedList.key_mem_keys hc
      simp only [Context.emit_channels, hr, true_implies]
      refine ⟨fun hleft => ⟨hleft.1, (hleft.1 _).mp hkey⟩, fun hright => ⟨hright.1, ?_⟩⟩
      exact hopened
    | new socket hid =>
      refine iff_of_false ?_ ?_
      · intro hleft
        exact hlogged.not_opened socket hid rfl hleft.2
      · intro hright
        exact hid ((hright.1 r.id).mpr (hright.2 hr))

/-! ### A batch up to the channel that throws -/

theorem validateChannels_of_eq {out : EStateM.Result Fault Context (List IChannel)}
    (h : validateChannels batch w = out) : Validations w batch out :=
  h ▸ validateChannels_apply batch w

theorem validateChannel_answered (h : answered (r, result) = true) (w : Context) :
    ∃ ps v, validateChannel r result w = .ok ps v := by
  have hv := validateChannel_apply r result w
  cases hout : validateChannel r result w with
  | ok ps v => exact ⟨ps, v, rfl⟩
  | error f v =>
    rw [hout] at hv
    cases hv with
    | unsupported hr hf => simp [answered, hr] at h
    | failed hr he => simp [answered, Except.isOk, Except.toBool] at h

theorem validateChannels_cons (rest : List (ChannelResponse × Except String Bool))
    (hx : validateChannel r result w = .ok ps v) :
    validateChannels ((r, result) :: rest) w = match validateChannels rest v with
      | .ok qs u => .ok (ps ++ qs) u
      | .error f u => .error f u := by
  simp only [validateChannels, bind_apply, hx]
  cases validateChannels rest v <;> rfl

theorem validateChannels_answered (h : ∀ x ∈ batch, answered x = true) (w : Context) :
    ∃ ps v, validateChannels batch w = .ok ps v := by
  induction batch generalizing w with
  | nil => exact ⟨[], w, rfl⟩
  | cons x rest ih =>
    obtain ⟨hx, hrest⟩ := List.forall_mem_cons.mp h
    obtain ⟨ps, v, hv⟩ := validateChannel_answered hx w
    obtain ⟨qs, u, hu⟩ := ih hrest v
    exact ⟨ps ++ qs, u, by rw [validateChannels_cons rest hv, hu]⟩

theorem validateChannel_throws (h : throws (r, result) = true) (w : Context) :
    ∃ what v, validateChannel r result w = .error (.thrown what) v := by
  by_cases hr : refused r = true
  · obtain ⟨what, hwhat⟩ := buildSocket_thrown_iff (w := w.emit [.logged (openingLine r.id)]).mpr hr
    refine ⟨what, w.emit [.logged (openingLine r.id)], ?_⟩
    simp [validateChannel, bind_apply, hwhat]
  · have hcase : supported r = true ∧ result.isOk = false := by simpa [throws, hr] using h
    have hv := validateChannel_apply r result w
    cases hout : validateChannel r result w with
    | ok ps v =>
      rw [hout] at hv
      have hanswered := hv.answered
      simp [answered, hcase] at hanswered
    | error f v =>
      rw [hout] at hv
      cases hv with
      | unsupported hr hf => simp [hcase] at hr
      | failed hr he => exact ⟨_, v, rfl⟩

theorem throws_of_thrown (h : validateChannel r result w = .error (.thrown what) v) :
    throws (r, result) = true := by
  have hv := validateChannel_apply r result w
  rw [h] at hv
  cases hv with
  | failed hr he => simp [throws, hr, Except.isOk, Except.toBool]
  | unsupported hr hf =>
    obtain ⟨hsup, -⟩ | ⟨-, f, hf, hs⟩ := buildSocket_apply r (w.emit [.logged (openingLine r.id)])
    · simp [hr] at hsup
    · simp only [validateChannel, bind_apply, log_apply, hs] at h
      cases h
      exact Bool.or_eq_true_iff.mpr (.inl (buildSocket_thrown_iff.mp ⟨what, hs⟩))

theorem validateChannels_stop {pre : List (ChannelResponse × Except String Bool)} {f : Fault}
    (hpre : validateChannels pre w = .ok ps u) (hx : validateChannel r result u = .error f v)
    (post : List (ChannelResponse × Except String Bool)) :
    validateChannels (pre ++ (r, result) :: post) w = .error f v := by
  induction pre generalizing w ps with
  | nil =>
    cases hpre
    simp [validateChannels, bind_apply, hx]
  | cons y pre ih =>
    simp only [validateChannels, bind_eq_ok] at hpre
    obtain ⟨qs, t, hy, ms, s, hs, hdone⟩ := hpre
    cases hdone
    rw [List.cons_append, validateChannels_cons _ hy, ih hs]

theorem exists_stop {f : Fault} (h : validateChannels batch w = .error f v) :
    ∃ pre r result post ps u, batch = pre ++ (r, result) :: post ∧
      validateChannels pre w = .ok ps u ∧ validateChannel r result u = .error f v := by
  induction batch generalizing w with
  | nil => cases h
  | cons x rest ih =>
    obtain ⟨r, result⟩ := x
    cases hx : validateChannel r result w with
    | error g t =>
      have hstop : validateChannels ((r, result) :: rest) w = .error g t := by
        simp only [validateChannels, bind_apply, hx]
      cases hstop.symm.trans h
      exact ⟨[], r, result, rest, [], w, rfl, rfl, hx⟩
    | ok ps t =>
      rw [validateChannels_cons rest hx] at h
      cases hrest : validateChannels rest t with
      | ok qs s => simp [hrest] at h
      | error g s =>
        simp only [hrest] at h
        cases h
        obtain ⟨pre, r', result', post, qs, u, hsplit, hpre, hstop⟩ := ih hrest
        refine ⟨(r, result) :: pre, r', result', post, ps ++ qs, u, by simp [hsplit], ?_, hstop⟩
        rw [validateChannels_cons pre hx, hpre]

/-- A batch is all or nothing exactly if, where one of its channels is the first to throw, the
answers before it have left the keys as they were, and `open` threw for a channel that was
there. -/
theorem atomic_iff (batch : List (ChannelResponse × Except String Bool)) (w : Context) :
    Atomic batch w ↔ ∀ pre x post, batch = pre ++ x :: post →
      (∀ y ∈ pre, answered y = true) → throws x = true →
      (∀ id accepted, lastAnswer id pre = some accepted →
        (accepted = true ↔ id ∈ w.channels.keys)) ∧
      (supported x.1 = true → x.1.id ∈ w.channels.keys) := by
  constructor
  · intro h pre x post hbatch hpre hx
    obtain ⟨r, result⟩ := x
    obtain ⟨ps, u, hu⟩ := validateChannels_answered hpre w
    obtain ⟨what, v, hv⟩ := validateChannel_throws hx u
    have hall := validateChannels_stop hu hv post
    rw [← hbatch] at hall
    have hvalid := validateChannels_of_eq hu
    obtain ⟨es, hes⟩ := hvalid.gains
    have hstop := hv ▸ validateChannel_apply r result u
    rw [← hvalid.keys_iff]
    exact (hstop.thrown_iff hes).mp ⟨h.keys what v hall, h.opened v (by rw [hall]; rfl)⟩
  · intro h
    have hthrown : ∀ what v, validateChannels batch w = .error (.thrown what) v →
        (∀ id, id ∈ v.channels.keys ↔ id ∈ w.channels.keys) ∧ ∀ p ∈ pointers v.channels,
          .inserted p ∈ gained w v → [.inserted p, .opened p true].Sublist (gained w v) := by
      intro what v hv
      obtain ⟨pre, r, result, post, ps, u, hbatch, hu, hstop⟩ := exists_stop hv
      have hvalid := validateChannels_of_eq hu
      obtain ⟨es, hes⟩ := hvalid.gains
      have hlast := h pre (r, result) post hbatch hvalid.answered (throws_of_thrown hstop)
      rw [← hvalid.keys_iff] at hlast
      exact ((hstop ▸ validateChannel_apply r result u).thrown_iff hes).mpr hlast
    refine ⟨fun what v hv => (hthrown what v hv).1, ?_⟩
    intro v hexit
    cases hout : validateChannels batch w with
    | ok ps u =>
      rw [hout] at hexit
      cases hexit
      obtain ⟨es, hes⟩ := (validateChannels_of_eq hout).gains
      exact hes.gained_eq ▸ hes.opened
    | error f u =>
      rw [hout] at hexit
      cases f with
      | thrown what =>
        cases hexit
        exact (hthrown what v hout).2
      | _ => cases hexit

/-- `connect` fails: the channel stays, under an id that the next batch finds taken. -/
theorem half_opened :
    ¬ Atomic [(⟨1, "", 0, "", .tcp, .plainText⟩, .error "Connection refused")] .initial := by
  intro h
  have hkeys := h.keys "Connection refused" _ rfl 1
  exact absurd (hkeys.mp (by decide)) (by decide)

end
end FmClient.ChannelsHandler
