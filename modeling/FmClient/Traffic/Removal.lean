import FmClient.Backend.Acts
import FmClient.Lib.Debt
import FmClient.Traffic.Socket

/-! A channel from its entry in `ChannelsHandler::channels` to its removal and after: the calls
that insert, close and erase it, against the operations of its socket and their handlers. -/
namespace FmClient.Traffic
open Lib

/-- Whether a channel is in `channels`, is not yet, or is not any more. -/
inductive Presence where
  | absent
  | present
  | removed
  deriving DecidableEq

def Presence.next (p : IChannel) (x : Presence) (e : Effect) : Presence :=
  if x = .absent ∧ e = .inserted p then .present
  else if x = .present ∧ e = .erased p then .removed
  else x

/-- What has not been performed when a socket is destroyed is aborted. -/
def Operation.abort (op : Operation) : Operation :=
  { op with outcome := some (op.outcome.getD (.error "Operation canceled")) }

def Operation.succeeded (op : Operation) : Bool := op.outcome.any Except.isOk

/-- The calls that change `channels`. -/
inductive Request where
  | validateChannels (batch : List (ChannelResponse × Except String Bool))
  | closeChannels (toClose : List ℤ)
  | closeAllChannels
  deriving DecidableEq

def Request.run : Request → Context → Context
  | .validateChannels batch, w => Handler.contextOf (ChannelsHandler.validateChannels batch w)
  | .closeChannels toClose, w => Handler.contextOf (ChannelsHandler.closeChannels toClose w)
  | .closeAllChannels, w => Handler.contextOf (ChannelsHandler.closeAllChannels w)

section
variable {kind : SocketKind}

/-- The handlers of a destroyed socket still run. -/
def Socket.destroy (s : Socket kind) : Socket kind :=
  { s with writes := s.writes.map Operation.abort, reads := s.reads.map Operation.abort }

/-- What an effect on the channels does to the socket of one that is there: `close` disconnects it,
and it goes with its entry. -/
def Socket.undergo (s : Socket kind) (p : IChannel) (e : Effect) : Socket kind :=
  if e = .closed p then s.disconnect else if e = .erased p then s.destroy else s

def SocketEvent.touches : SocketEvent kind → Bool
  | .started _ _ | .popped _ | .emplaced _ | .onReceived _ | .readPopped _ => true
  | _ => false

def Action.isHandler : Action kind → Bool
  | .writeHandler _ | .readHandler _ | .received => true
  | _ => false

/-- No handler will touch the socket: no write has one, no read has been successful, and none is
in `onReceived`. -/
def Socket.Quiet (s : Socket kind) : Prop :=
  s.writes = [] ∧ (∀ op ∈ s.reads, op.succeeded = false) ∧ s.receiving = 0

instance (s : Socket kind) : Decidable s.Quiet := inferInstanceAs (Decidable (_ ∧ _))

end

/-- The channels, what a call on them has still to do, and one channel with its socket. -/
structure Watched (kind : SocketKind) where
  context : Context
  playing : List Effect
  presence : Presence
  socket : Socket kind

inductive Move (kind : SocketKind) where
  | request (r : Request)
  | play
  | socket (a : Action kind)
  deriving DecidableEq

namespace Watched
variable {kind : SocketKind}

def initial (remoteEndpoint : Remote kind) : Watched kind :=
  ⟨.initial, [], .absent, .initial remoteEndpoint⟩

/-- One effect of a call takes place, on another thread than the handlers. -/
def play (s : Watched kind) (p : IChannel) (e : Effect) : Watched kind :=
  { s with
    playing := s.playing.tail
    presence := s.presence.next p e
    socket := if s.presence = .present then s.socket.undergo p e else s.socket }

def accept (s : Watched kind) (r : Request) : Watched kind :=
  { s with
    context := r.run s.context
    playing := (r.run s.context).trace.drop s.context.trace.length }

/-- A destroyed socket is left with its handlers. -/
def admits (s : Watched kind) (a : Action kind) : Bool :=
  s.presence = .present || s.presence = .removed && a.isHandler

def step (p : IChannel) (s : Watched kind) : Move kind → Option (Watched kind)
  | .request r => if s.playing = [] then some (s.accept r) else none
  | .play => s.playing.head?.map (s.play p)
  | .socket a =>
    if s.admits a then (s.socket.step a).map fun socket => { s with socket := socket } else none

/-- What a step is, with what it needs. -/
inductive Stepped (p : IChannel) (s : Watched kind) : Move kind → Watched kind → Prop where
  | request (r : Request) (hs : s.playing = []) : Stepped p s (.request r) (s.accept r)
  | play {e : Effect} (he : s.playing.head? = some e) : Stepped p s .play (s.play p e)
  | socket {a : Action kind} {t : Socket kind} (ha : s.admits a = true)
      (ht : s.socket.Stepped a t) : Stepped p s (.socket a) { s with socket := t }

theorem stepped {p : IChannel} {s t : Watched kind} {a : Move kind} (h : s.step p a = some t) :
    s.Stepped p a t := by
  cases a with
  | request r =>
    simp only [step, Option.ite_none_right_eq_some] at h
    obtain ⟨hs, ht⟩ := h
    cases ht
    exact .request r hs
  | play =>
    simp only [step, Option.map_eq_some_iff] at h
    obtain ⟨e, he, rfl⟩ := h
    exact .play he
  | socket a =>
    simp only [step, Option.ite_none_right_eq_some, Option.map_eq_some_iff] at h
    obtain ⟨ha, u, hu, rfl⟩ := h
    exact .socket ha (Socket.stepped hu)

end Watched

def channels {kind : SocketKind} (p : IChannel) (remoteEndpoint : Remote kind) :
    TransitionSystem (Watched kind) (Move kind) :=
  .ofStep (.initial remoteEndpoint) (Watched.step p)

section
variable {kind : SocketKind} {p : IChannel}

def Move.isHandler : Move kind → Bool
  | .socket a => a.isHandler
  | _ => false

def Removes (p : IChannel) (t : Transition (Watched kind) (Move kind)) : Prop :=
  t.label = .play ∧ t.source.presence = .present ∧ t.source.playing.head? = some (.erased p)

def Touching (s t : Socket kind) : Prop := ∃ e ∈ t.trace.drop s.trace.length, e.touches = true

/-- A step touches the socket of a channel that has been removed. -/
def Touches (t : Transition (Watched kind) (Move kind)) : Prop :=
  t.source.presence = .removed ∧ Touching t.source.socket t.target.socket

instance (t : Transition (Watched kind) (Move kind)) : Decidable (Removes p t) :=
  inferInstanceAs (Decidable (_ ∧ _))

instance (s t : Socket kind) : Decidable (Touching s t) :=
  inferInstanceAs (Decidable (∃ e ∈ t.trace.drop s.trace.length, e.touches = true))

instance (t : Transition (Watched kind) (Move kind)) : Decidable (Touches t) :=
  inferInstanceAs (Decidable (_ ∧ _))

end

/-! ### Presence in `channels` -/

section
open ChannelsHandler
variable {p : IChannel} {w v : Context} {es : List Effect}

theorem Request.acts (r : Request) (w : Context) : Acts w (r.run w) := by
  cases r with
  | validateChannels batch =>
    exact Acts.validations Relation.ReflTransGen.refl (validateChannels_apply batch w)
  | closeChannels toClose =>
    obtain ⟨m, es, hcloses, happly⟩ := closeChannels_apply toClose w
    rw [Request.run, happly]
    exact Acts.closes Relation.ReflTransGen.refl hcloses
  | closeAllChannels =>
    rw [Request.run, closeAllChannels_apply]
    exact Acts.closeAll Relation.ReflTransGen.refl

def Presence.after (p : IChannel) (x : Presence) (es : List Effect) : Presence :=
  es.foldl (Presence.next p) x

theorem after_append (x : Presence) (es fs : List Effect) :
    x.after p (es ++ fs) = (x.after p es).after p fs := List.foldl_append

theorem after_eq_of_not_inserted (hes : .inserted p ∉ es) (x : Presence) :
    (x.after p es = .present ↔ x = .present ∧ .erased p ∉ es) ∧
      (x.after p es = .absent ↔ x = .absent) := by
  induction es generalizing x with
  | nil => simp [Presence.after]
  | cons e es ih =>
    rw [List.mem_cons, not_or] at hes
    obtain ⟨hpresent, habsent⟩ := ih hes.2 (x.next p e)
    have he : e ≠ .inserted p := fun heq => hes.1 heq.symm
    rw [show x.after p (e :: es) = (x.next p e).after p es from rfl, hpresent, habsent]
    cases x <;> by_cases herased : e = .erased p <;> simp [Presence.next, he, herased, eq_comm]

/-- The trace says whether a channel is in `channels`. -/
structure Accounts (p : IChannel) (w : Context) : Prop where
  present : Presence.absent.after p w.trace = .present ↔ p ∈ pointers w.channels
  fresh : Presence.absent.after p w.trace ≠ .absent → p.address < w.constructed

theorem Accounts.keep (h : Accounts p w) (ht : v.trace = w.trace ++ es)
    (hes : .inserted p ∉ es) (hn : w.constructed ≤ v.constructed)
    (hm : p ∈ pointers v.channels ↔ p ∈ pointers w.channels ∧ .erased p ∉ es) :
    Accounts p v := by
  obtain ⟨hpresent, habsent⟩ := after_eq_of_not_inserted hes (Presence.absent.after p w.trace)
  constructor
  · rw [ht, after_append, hpresent, h.present, hm]
  · rw [ht, after_append, ne_eq, habsent]
    exact fun hne => (h.fresh hne).trans_le hn

theorem accounts_initial (p : IChannel) : Accounts p .initial :=
  ⟨by simp [Presence.after, Context.initial], fun hne => absurd rfl hne⟩

theorem Accounts.act (h : Accounts p w) (ha : Act w v) : Accounts p v := by
  cases ha with
  | @other _ es hm hn ht hes =>
    have hplain (e : Effect) (he : e.isPlain = false) : e ∉ es := fun hmem =>
      absurd (List.all_eq_true.mp hes e hmem) (by simp [he])
    refine h.keep ht (hplain _ rfl) hn.ge ?_
    rw [hm]
    exact (and_iff_left (hplain _ rfl)).symm
  | @insert id socket hid =>
    by_cases hp : p = ⟨id, w.constructed⟩
    · have habsent : Presence.absent.after p w.trace = .absent := by
        by_contra hne
        exact absurd (h.fresh hne) (by simp [hp])
      have hafter : Presence.absent.after p (w.trace ++ [.inserted p]) = .present := by
        rw [after_append, habsent]
        simp [Presence.after, Presence.next]
      subst hp
      refine ⟨iff_of_true hafter ?_, fun _ => Nat.lt_succ_self _⟩
      simp [ChannelImpl.pointer]
    · refine h.keep rfl (by simpa using hp) (Nat.le_succ _) ?_
      simp [ChannelImpl.pointer, hp]
  | reject hc | close hc =>
    refine h.keep rfl (by simp) le_rfl ?_
    simp [mem_pointers_erase hc]
  | closeAll =>
    refine h.keep rfl (by simp [closeAllEffects]) le_rfl ?_
    have hmem : .erased p ∈ closeAllEffects w.channels ↔ p ∈ pointers w.channels := by
      simp [closeAllEffects, pointers, eq_comm]
    rw [hmem, and_not_self_iff]
    simp
  | setOwned id owned => exact h.keep (List.append_nil _).symm (by simp) le_rfl (by simp)

end

/-! ### Handlers -/

section
variable {kind : SocketKind} {s t : Socket kind} {a : Action kind}

theorem Operation.succeeded_abort (op : Operation) : op.abort.succeeded = op.succeeded := by
  cases ho : op.outcome with
  | none => simp [succeeded, abort, ho, Except.isOk, Except.toBool]
  | some result => simp [succeeded, abort, ho]

theorem Socket.quiet_destroy : s.destroy.Quiet ↔ s.Quiet := by
  simp [Socket.Quiet, Socket.destroy, Operation.succeeded_abort]

theorem forall_mem_eraseIdx {α : Type*} {l : List α} {P : α → Prop} {i : ℕ} {x : α}
    (hi : l[i]? = some x) (hx : P x) : (∀ y ∈ l.eraseIdx i, P y) ↔ ∀ y ∈ l, P y := by
  refine ⟨fun h y hy => ?_, fun h y hy => h y (List.mem_of_mem_eraseIdx hy)⟩
  obtain ⟨j, hj⟩ := List.mem_iff_getElem?.mp hy
  by_cases hij : j = i
  · subst hij
    cases hi.symm.trans hj
    exact hx
  · exact h y (List.mem_eraseIdx_iff_getElem?.mpr ⟨j, hij, hj⟩)

theorem touching_of_trace {z : List (SocketEvent kind)} (ht : t.trace = s.trace ++ z) :
    Touching s t ↔ ∃ e ∈ z, e.touches = true := by
  rw [Touching, ht, List.drop_left]

/-- A handler touches the socket, which was not quiet then, or changes nothing about that. -/
theorem touching_or_quiet_iff (hs : s.Stepped a t) (ha : a.isHandler = true) :
    (Touching s t ∧ ¬ s.Quiet) ∨ (¬ Touching s t ∧ (t.Quiet ↔ s.Quiet)) := by
  cases hs with
  | written hop =>
    refine .inl ⟨(touching_of_trace rfl).mpr ⟨_, List.mem_singleton_self _, rfl⟩, fun hq => ?_⟩
    simp [hq.1] at hop
  | unwritten hop =>
    refine .inl ⟨(touching_of_trace (List.append_assoc _ _ _)).mpr ⟨_, List.mem_cons_self, rfl⟩,
      fun hq => ?_⟩
    simp [hq.1] at hop
  | onReceived hop hout =>
    refine .inl ⟨(touching_of_trace rfl).mpr ⟨_, List.mem_singleton_self _, rfl⟩, fun hq => ?_⟩
    simpa [Operation.succeeded, hout, Except.isOk, Except.toBool] using
      hq.2.1 _ (List.mem_of_getElem? hop)
  | @stopped i op what hop hout =>
    refine .inr ⟨fun hn => ?_, ?_⟩
    · obtain ⟨e, he, htouches⟩ := (touching_of_trace rfl).mp hn
      rw [List.mem_singleton.mp he] at htouches
      cases htouches
    · have hread : op.succeeded = false := by
        simp [Operation.succeeded, hout, Except.isOk, Except.toBool]
      exact and_congr Iff.rfl (and_congr (forall_mem_eraseIdx hop hread) Iff.rfl)
  | received hr =>
    refine .inl ⟨(touching_of_trace (List.append_assoc _ _ _)).mpr ⟨_, List.mem_cons_self, rfl⟩,
      fun hq => ?_⟩
    exact hr.ne' hq.2.2
  | _ => cases ha

theorem exists_touching (hw : ∀ op ∈ s.writes, op.outcome ≠ none) (hq : ¬ s.Quiet) :
    ∃ a t, a.isHandler = true ∧ s.step a = some t ∧ Touching s t := by
  by_cases hwrites : s.writes = []
  · by_cases hr : s.receiving = 0
    · obtain ⟨op, hmem, n, hout⟩ : ∃ op ∈ s.reads, ∃ n, op.outcome = some (.ok n) := by
        by_contra hnone
        refine hq ⟨hwrites, fun op hmem => ?_, hr⟩
        cases ho : op.outcome with
        | none => simp [Operation.succeeded, ho]
        | some result =>
          cases result with
          | ok n => exact absurd ⟨op, hmem, n, ho⟩ hnone
          | error what => simp [Operation.succeeded, ho, Except.isOk, Except.toBool]
      obtain ⟨i, hi⟩ := List.mem_iff_getElem?.mp hmem
      refine ⟨.readHandler i, s.readHandler i (.ok n), rfl, by simp [Socket.step, hi, hout], ?_⟩
      exact (touching_of_trace rfl).mpr ⟨_, List.mem_singleton_self _, rfl⟩
    · refine ⟨.received, s.received, rfl, if_pos (Nat.pos_of_ne_zero hr), ?_⟩
      exact (touching_of_trace (List.append_assoc _ _ _)).mpr ⟨_, List.mem_cons_self, rfl⟩
  · obtain ⟨op, rest, hwrites⟩ := List.exists_cons_of_ne_nil hwrites
    obtain ⟨result, hout⟩ := Option.ne_none_iff_exists'.mp (hw op (by simp [hwrites]))
    refine ⟨.writeHandler 0, s.writeHandler 0 result, rfl, by simp [Socket.step, hwrites, hout], ?_⟩
    cases result with
    | ok n => exact (touching_of_trace rfl).mpr ⟨_, List.mem_singleton_self _, rfl⟩
    | error what =>
      exact (touching_of_trace (List.append_assoc _ _ _)).mpr ⟨_, List.mem_cons_self, rfl⟩

end

/-! ### Removal -/

section
variable {kind : SocketKind} {p : IChannel} {remoteEndpoint : Remote kind}
  {s t : Watched kind} {a : Move kind} {e : Effect}

theorem next_eq_removed {x : Presence} :
    x.next p e = .removed ↔ x = .removed ∨ x = .present ∧ e = .erased p := by
  cases x <;> by_cases he : e = .erased p <;> by_cases hi : e = .inserted p <;>
    simp [Presence.next, he, hi]

theorem next_removed : Presence.removed.next p e = .removed := next_eq_removed.mpr (.inl rfl)

theorem play_erased (hp : s.presence = .present) :
    (s.play p (.erased p)).presence = .removed ∧
      (s.play p (.erased p)).socket = s.socket.destroy := by
  simp [Watched.play, Presence.next, Socket.undergo, hp]

theorem play_removed (hp : s.presence = .removed) :
    (s.play p e).presence = .removed ∧ (s.play p e).socket = s.socket := by
  simp [Watched.play, hp, next_removed]

theorem handler_of_admits {a : Action kind} (ha : s.admits a = true)
    (hp : s.presence = .removed) : a.isHandler = true := by
  simpa [Watched.admits, hp] using ha

theorem outcome_ne_none (hs : (channels p remoteEndpoint).Reachable s)
    (hp : s.presence = .removed) : ∀ op ∈ s.socket.writes, op.outcome ≠ none := by
  suffices hi : s.presence = .removed → ∀ op ∈ s.socket.writes, op.outcome ≠ none from hi hp
  clear hp
  refine hs.invariant (P := fun s => s.presence = .removed → ∀ op ∈ s.socket.writes,
    op.outcome ≠ none) ?_ ?_
  · intro s hs
    cases hs
    simp [Watched.initial]
  · intro s a t _ hi ht hp
    cases Watched.stepped ht with
    | request r => exact hi hp
    | @play e he =>
      obtain hremoved | ⟨hpresent, rfl⟩ := next_eq_removed.mp hp
      · rw [(play_removed hremoved).2]
        exact hi hremoved
      · rw [(play_erased hpresent).2]
        simp [Socket.destroy, Operation.abort]
    | socket ha hsocket =>
      have hhandler := handler_of_admits ha hp
      cases hsocket with
      | written | unwritten =>
        exact fun op hmem => hi hp op (List.mem_of_mem_eraseIdx hmem)
      | onReceived | stopped | received => exact hi hp
      | _ => simp [Action.isHandler] at hhandler

/-- Between the calls, the channel is there exactly if `channels` has its entry. -/
theorem present_iff_mem (hs : (channels p remoteEndpoint).Reachable s) (hplaying : s.playing = []) :
    s.presence = .present ↔ p ∈ ChannelsHandler.pointers s.context.channels := by
  suffices hi : Accounts p s.context ∧
      s.presence.after p s.playing = Presence.absent.after p s.context.trace by
    rw [← hi.1.present, ← hi.2, hplaying]
    rfl
  clear hplaying
  refine hs.invariant (P := fun s => Accounts p s.context ∧
    s.presence.after p s.playing = Presence.absent.after p s.context.trace) ?_ ?_
  · intro s hs
    cases hs
    exact ⟨accounts_initial p, rfl⟩
  · intro s a t _ ⟨haccounts, hafter⟩ ht
    cases Watched.stepped ht with
    | request r hplaying =>
      have hacts := r.acts s.context
      obtain ⟨es, htrace, -⟩ := hacts.grow
      refine ⟨hacts.invariant (fun _ _ hact h => h.act hact) haccounts, ?_⟩
      rw [hplaying] at hafter
      simp only [Watched.accept, htrace, List.drop_left, after_append, ← hafter]
      rfl
    | @play e he =>
      obtain ⟨rest, hplaying⟩ := List.head?_eq_some_iff.mp he
      refine ⟨haccounts, ?_⟩
      change (s.presence.next p e).after p s.playing.tail = Presence.absent.after p s.context.trace
      rw [← hafter, hplaying]
      rfl
    | socket => exact ⟨haccounts, hafter⟩

theorem not_touching_self (s : Socket kind) : ¬ Touching s s := by
  simp [Touching]

/-- A channel that is removed before its socket is quiet owes a handler that touches it. -/
theorem debt_channels (p : IChannel) (remoteEndpoint : Remote kind) :
    Debt (channels p remoteEndpoint) (fun t => Removes p t ∧ ¬ t.source.socket.Quiet) Touches
      (fun s => s.presence = .removed ∧ ¬ s.socket.Quiet) (fun a => a.isHandler = true) := by
  constructor
  · intro s hs
    cases hs
    simp [Watched.initial]
  · intro s t a _ ht ⟨hp, hq⟩
    cases Watched.stepped ht with
    | request r => exact .inl ⟨hp, hq⟩
    | play he =>
      obtain hremoved | ⟨hpresent, rfl⟩ := next_eq_removed.mp hp
      · rw [(play_removed hremoved).2] at hq
        exact .inl ⟨hremoved, hq⟩
      · rw [(play_erased hpresent).2, Socket.quiet_destroy] at hq
        exact .inr ⟨⟨rfl, hpresent, he⟩, hq⟩
    | socket ha hs =>
      obtain ⟨-, hsource⟩ | ⟨-, hiff⟩ := touching_or_quiet_iff hs (handler_of_admits ha hp)
      · exact .inl ⟨hp, hsource⟩
      · exact .inl ⟨hp, fun hsource => hq (hiff.mpr hsource)⟩
  · intro s t a _ ht ⟨⟨hplay, hpresent, herased⟩, hq⟩
    cases Watched.stepped ht with
    | play he =>
      cases he.symm.trans herased
      refine ⟨(play_erased hpresent).1, ?_⟩
      rwa [(play_erased hpresent).2, Socket.quiet_destroy]
    | _ => cases hplay
  · intro s t a _ ht ⟨hp, hq⟩
    cases Watched.stepped ht with
    | request r => exact .inl ⟨hp, hq⟩
    | play he =>
      refine .inl ⟨(play_removed hp).1, ?_⟩
      rwa [(play_removed hp).2]
    | socket ha hs =>
      obtain ⟨htouching, -⟩ | ⟨-, hiff⟩ := touching_or_quiet_iff hs (handler_of_admits ha hp)
      · exact .inr ⟨hp, htouching⟩
      · exact .inl ⟨hp, fun htarget => hq (hiff.mp htarget)⟩
  · intro s t a _ ht ⟨hp, htouching⟩
    refine ⟨hp, ?_⟩
    cases Watched.stepped ht with
    | request r => exact absurd htouching (not_touching_self _)
    | play he =>
      simp only [(play_removed hp).2] at htouching
      exact absurd htouching (not_touching_self _)
    | socket ha hs =>
      obtain ⟨-, hsource⟩ | ⟨hnone, -⟩ := touching_or_quiet_iff hs (handler_of_admits ha hp)
      · exact hsource
      · exact absurd htouching hnone
  · intro s hs ⟨hp, hq⟩
    obtain ⟨a, t, ha, ht, htouching⟩ := exists_touching (outcome_ne_none hs hp) hq
    refine ⟨.socket a, { s with socket := t }, ha, ?_, hp, htouching⟩
    change s.step p (.socket a) = _
    simp [Watched.step, Watched.admits, hp, ha, ht]
  · intro s t a ha ht hincurs
    have hplay : a = .play := hincurs.1.1
    subst hplay
    cases ha

variable {h : List (Transition (Watched kind) (Move kind))} {c : Watched kind}

/-- In every run, no handler touches the socket of a removed channel however the handlers that are
left run, exactly if the socket is quiet where the channel is erased. -/
theorem removed_untouched_iff (hr : (channels p remoteEndpoint).Run h c) :
    (∀ k u, (channels p remoteEndpoint).Run (h ++ k) u → (∀ t ∈ k, t.label.isHandler = true) →
      ∀ t ∈ h ++ k, ¬ Touches t) ↔
    ∀ t ∈ h, Removes p t → t.source.socket.Quiet := by
  rw [← (debt_channels p remoteEndpoint).forall_iff hr]
  simp only [not_and, not_not]

end

def validated (key : String) : List (Move .tcp) :=
  [.request (.validateChannels [(⟨5, "10.0.0.1", 5000, key, .tcp, .plainText⟩, .ok true)]),
    .play, .play, .play, .play, .socket .startReading]

/-- The write completes and its handler runs before the channel is closed; the read is aborted. -/
theorem removed_untouched_iff_quiet : ∃ h c, (@channels .tcp ⟨5, 0⟩ ()).Run h c ∧
    c.presence = .removed ∧ c.socket.reads = [] ∧
    ∀ k u, (@channels .tcp ⟨5, 0⟩ ()).Run (h ++ k) u → (∀ t ∈ k, t.label.isHandler = true) →
      ∀ t ∈ h ++ k, ¬ Touches t := by
  obtain ⟨h, c, hr, hp⟩ := TransitionSystem.exists_run (.initial () : Watched .tcp)
    (Watched.step ⟨5, 0⟩)
    (validated "key" ++ [.socket (.send [1]), .socket (.writeDone 0 (.ok 1)),
      .socket (.writeHandler 0), .request (.closeChannels [5]), .play, .play, .play,
      .socket (.readHandler 0)])
    (p := fun h c => decide ((∀ t ∈ h, Removes ⟨5, 0⟩ t → t.source.socket.Quiet) ∧
      c.presence = .removed ∧ c.socket.reads = [])) (by decide +kernel)
  obtain ⟨hquiet, hremoved, hreads⟩ := of_decide_eq_true hp
  exact ⟨h, c, hr, hremoved, hreads, (removed_untouched_iff hr).mpr hquiet⟩

/-- The channel is closed while a write is in flight. -/
theorem popped_after_removal : ¬ ∀ h c, (@channels .tcp ⟨5, 0⟩ ()).Run h c →
    ∀ t ∈ h, ¬ Touches t := by
  intro hclaim
  obtain ⟨h, c, hr, hp⟩ := TransitionSystem.exists_run (.initial () : Watched .tcp)
    (Watched.step ⟨5, 0⟩)
    (validated "key" ++ [.socket (.send [1]), .request (.closeChannels [5]), .play, .play, .play,
      .socket (.writeHandler 0)])
    (p := fun h _ => decide (∃ t ∈ h, Touches t)) (by decide +kernel)
  obtain ⟨t, ht, htouches⟩ := of_decide_eq_true hp
  exact hclaim h c hr t ht htouches

end FmClient.Traffic
