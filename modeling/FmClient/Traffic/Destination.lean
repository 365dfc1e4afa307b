import FmClient.Lib.History
import FmClient.Lib.Pieces
import FmClient.Traffic.Socket

/-! To whom a `UdpSocket` sends: `remoteEndpoint` is the destination of every write, and every
read puts the source of its datagram there. -/
namespace FmClient.Traffic
open Lib

def SocketEvent.destination? {kind : SocketKind} : SocketEvent kind → Option (Remote kind)
  | .started _ destination => some destination
  | _ => none

def destinations {kind : SocketKind} (trace : List (SocketEvent kind)) : List (Remote kind) :=
  trace.filterMap SocketEvent.destination?

def Action.source? : Action .udp → Option (Remote .udp)
  | .readBlocking _ (.ok (_, source)) | .readDone _ (.ok (_, source)) => some source
  | _ => none

/-- Who was heard last; before that, the peer that was connected to. -/
def lastHeard (peer : Remote .udp) (h : List (Transition UdpSocket (Action .udp))) :
    Remote .udp :=
  (h.filterMap fun t => t.label.source?).getLastD peer

/-- Two actions that differ at most in the datagram that is received. -/
inductive Action.Alike : Action .udp → Action .udp → Prop where
  | same (a : Action .udp) : Alike a a
  | readBlocking (size : ℕ) (d d' : List UInt8 × Remote .udp) :
      Alike (.readBlocking size (.ok d)) (.readBlocking size (.ok d'))
  | readDone (i : ℕ) (d d' : List UInt8 × Remote .udp) :
      Alike (.readDone i (.ok d)) (.readDone i (.ok d'))

section
variable {peer : Remote .udp} {h h' : List (Transition UdpSocket (Action .udp))}
  {s c c' : UdpSocket} {a : Action .udp}

@[simp] theorem destinations_append {kind : SocketKind} (x y : List (SocketEvent kind)) :
    destinations (x ++ y) = destinations x ++ destinations y := List.filterMap_append

theorem Socket.Stepped.remoteEndpoint (h : s.Stepped a c) :
    c.remoteEndpoint = a.source?.getD s.remoteEndpoint := by
  cases h <;> rfl

theorem Socket.Stepped.destinations (h : s.Stepped a c) :
    destinations c.trace =
      destinations s.trace ++ if a.sends then [s.remoteEndpoint] else [] := by
  cases h <;> simp [Socket.startReading, Socket.disconnect, Socket.readDone, Socket.readHandler,
    Traffic.destinations, Action.sends, SocketEvent.destination?]

theorem lastHeard_concat (t : Transition UdpSocket (Action .udp)) :
    lastHeard peer (h ++ [t]) = t.label.source?.getD (lastHeard peer h) := by
  unfold lastHeard
  rw [List.filterMap_append]
  cases hs : t.label.source? <;> simp [hs]

theorem remoteEndpoint_eq (hr : (sockets peer).Run h c) :
    c.remoteEndpoint = lastHeard peer h := by
  induction hr with
  | start hs =>
    cases hs
    rfl
  | next hr ht ih => rw [(Socket.stepped ht).remoteEndpoint, lastHeard_concat, ih]

theorem sent_to_peer_iff (hr : (sockets peer).Run h c) :
    (∀ d ∈ destinations c.trace, d = peer) ↔
      Each (fun u t => t.label.sends = true → lastHeard peer u = peer) h := by
  induction hr with
  | start hs =>
    cases hs
    exact iff_of_true (by simp [Socket.initial, destinations]) each_nil
  | @next h s t a hr ht ih =>
    rw [each_concat, ← ih, (Socket.stepped ht).destinations, List.forall_mem_append,
      remoteEndpoint_eq hr]
    cases a.sends with
    | false => simp
    | true =>
      rw [if_pos rfl, List.forall_mem_singleton]
      simp

theorem Action.Alike.sends {a b : Action .udp} (h : Alike a b) : a.sends = b.sends := by
  cases h <;> rfl

theorem sent_alike_iff (hr : (sockets peer).Run h c)
    (hr' : (sockets peer).Run h' c')
    (ha : List.Forall₂ (fun t t' => t.label.Alike t'.label) h h') :
    (destinations c.trace).length = (destinations c'.trace).length ∧
      (destinations c.trace = destinations c'.trace ↔
        Each (fun u x => x.1.label.sends = true →
          lastHeard peer (u.map Prod.fst) = lastHeard peer (u.map Prod.snd)) (h.zip h')) := by
  induction hr generalizing h' c' with
  | start hs =>
    cases List.forall₂_nil_left_iff.mp ha
    cases hs
    cases hr'.nil
    exact ⟨rfl, iff_of_true rfl each_nil⟩
  | @next h s t a hr ht ih =>
    obtain rfl | ⟨h', ⟨s', a', t'⟩, rfl⟩ := List.eq_nil_or_concat h'
    · simpa using ha.length_eq
    · rw [List.concat_eq_append] at hr' ha ⊢
      obtain ⟨hbefore, hlast⟩ := forall₂_concat.mp ha
      obtain ⟨hrun, ht', rfl⟩ := hr'.concat
      obtain ⟨hlength, hiff⟩ := ih hrun hbefore
      rw [List.zip_append hbefore.length_eq, List.zip_cons_cons, List.zip_nil_left, each_concat,
        ← hiff, List.map_fst_zip hbefore.length_eq.le, List.map_snd_zip hbefore.length_eq.ge,
        (Socket.stepped ht).destinations, (Socket.stepped ht').destinations,
        remoteEndpoint_eq hr, remoteEndpoint_eq hrun, ← hlast.sends]
      cases a.sends with
      | false => simpa using hlength
      | true =>
        refine ⟨by simp [hlength], ?_⟩
        constructor
        · intro heq
          obtain ⟨hd, hl⟩ := List.append_inj heq hlength
          exact ⟨hd, fun _ => List.singleton_inj.mp hl⟩
        · intro ⟨hd, hl⟩
          rw [hd, hl rfl]

end

/-- In every run, a connected `UdpSocket` sends to its peer only, exactly if before no write
somebody else was heard last; and two runs that differ in the received datagrams send to the
same destinations exactly if before every write the same one was heard last. -/
theorem peer_only_iff {resolve : String → String → Except String Endpoint} {host : String}
    {port : ℕ} {unspecified peer : Endpoint} {s : UdpSocket}
    (hp : resolve host (toString port) = .ok peer)
    (hs : UdpSocket.connect resolve host port (.initial unspecified) = .ok s)
    {h : List (Transition UdpSocket (Action .udp))} {c : UdpSocket}
    (hr : (TransitionSystem.ofStep s Socket.step).Run h c) :
    ((∀ d ∈ destinations c.trace, d = peer) ↔
      Each (fun u t => t.label.sends = true → lastHeard peer u = peer) h) ∧
    ∀ h' c', (TransitionSystem.ofStep s Socket.step).Run h' c' →
      List.Forall₂ (fun t t' => t.label.Alike t'.label) h h' →
      (destinations c.trace = destinations c'.trace ↔
        Each (fun u x => x.1.label.sends = true →
          lastHeard peer (u.map Prod.fst) = lastHeard peer (u.map Prod.snd)) (h.zip h')) := by
  have hinitial : s = .initial peer := by
    simp only [UdpSocket.connect, hp, Except.map, Except.ok.injEq] at hs
    exact hs.symm
  subst hinitial
  exact ⟨sent_to_peer_iff hr, fun h' c' hr' ha => (sent_alike_iff hr hr' ha).2⟩

def literal (host port : String) : Except String Endpoint :=
  if host = "10.0.0.1" ∧ port = "5000" then .ok ⟨"10.0.0.1", 5000⟩ else .error "Host not found"

/-- The peer answers between two writes. -/
theorem peer_only_iff_answered : ∃ s h c,
    UdpSocket.connect literal "10.0.0.1" 5000 (.initial ⟨"", 0⟩) = .ok s ∧
    (TransitionSystem.ofStep s Socket.step).Run h c ∧
    destinations c.trace = [⟨"10.0.0.1", 5000⟩, ⟨"10.0.0.1", 5000⟩] ∧
    Each (fun u t => t.label.sends = true → lastHeard ⟨"10.0.0.1", 5000⟩ u = ⟨"10.0.0.1", 5000⟩)
      h := by
  obtain ⟨h, c, hr, hp⟩ := TransitionSystem.exists_run
    (.initial ⟨"10.0.0.1", 5000⟩ : UdpSocket) Socket.step
    [.startReading, .send [1], .readDone 0 (.ok ([2], ⟨"10.0.0.1", 5000⟩)), .send [3]]
    (p := fun _ c => decide (destinations c.trace = [⟨"10.0.0.1", 5000⟩, ⟨"10.0.0.1", 5000⟩]))
    (by decide +kernel)
  have hsent := of_decide_eq_true hp
  have hiff := (@peer_only_iff literal "10.0.0.1" 5000 ⟨"", 0⟩ _ _ rfl rfl h c hr).1
  refine ⟨_, h, c, rfl, hr, hsent, hiff.mp ?_⟩
  rw [hsent]
  exact List.forall_mem_cons.mpr ⟨rfl, List.forall_mem_singleton.mpr rfl⟩

/-- A stranger's datagram arrives before a write. -/
theorem diverted : ¬ ∀ s h c,
    UdpSocket.connect literal "10.0.0.1" 5000 (.initial ⟨"", 0⟩) = .ok s →
    (TransitionSystem.ofStep s Socket.step).Run h c →
    ∀ d ∈ destinations c.trace, d = (⟨"10.0.0.1", 5000⟩ : Endpoint) := by
  intro hclaim
  obtain ⟨h, c, hr, hp⟩ := TransitionSystem.exists_run
    (.initial ⟨"10.0.0.1", 5000⟩ : UdpSocket) Socket.step
    [.startReading, .readDone 0 (.ok ([2], ⟨"10.0.0.9", 6000⟩)), .send [3]]
    (p := fun _ c => decide (destinations c.trace = [⟨"10.0.0.9", 6000⟩])) (by decide +kernel)
  have hsent := hclaim _ h c rfl hr
  rw [of_decide_eq_true hp] at hsent
  exact absurd (congrArg Endpoint.port (hsent _ List.mem_cons_self)) (by decide)

end FmClient.Traffic
