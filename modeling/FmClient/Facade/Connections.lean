import FmClient.Facade.ProcessSpec
import FmClient.Lib.PrefixLanguage

/-! What a client does to its connections, whatever else goes on: one after the other, each is
opened, greeted with `SETUP`, used and finished. -/
namespace FmClient.Facade
open Lib Backend Computability
variable {σ : Type} {M : ClientMachine σ} {blank : ControlMessage}

/-- A call on the connection, or the end of one that has to wait. -/
inductive Usage where
  | asynccontrol
  | opened
  | failed
  | send (command : Command)
  | finish
  | closed
  deriving DecidableEq

def usage? (t : Transition (Process σ) Action) : Option Usage :=
  match t.source.handling, t.label with
  | some ⟨.ready, .dial _ :: _, _⟩, .call => some .asynccontrol
  | some ⟨.ready, .send message :: _, _⟩, .call => some (.send message.command)
  | some ⟨.ready, .finish _ :: _, _⟩, .call => some .finish
  | some ⟨.opening, .dial ok :: _, _⟩, .openNext _ => some (if ok then .opened else .failed)
  | some ⟨.opening, _, _⟩, .openTimeout => some .failed
  | some ⟨.closing _, _, _⟩, .closeNext _ | some ⟨.closing _, _, _⟩, .closeTimeout _ =>
    if t.target.progress = .ready then some .closed else none
  | _, _ => none

def Usage.command? : Usage → Option Command
  | .send command => some command
  | _ => none

def usages (h : List (Transition (Process σ) Action)) : List Usage := h.filterMap usage?

namespace Usage

def sends : Language Usage := {x | ∃ command, x = [.send command]}

def used : Language Usage :=
  symbol .asynccontrol * symbol .opened * symbol (.send .setup) * sends∗

def connection : Language Usage :=
  symbol .asynccontrol * symbol .failed + used * symbol .finish * symbol .closed

def phase : Stage → Language Usage
  | .closed => connection∗
  | .dialing => connection∗ * symbol .asynccontrol
  | .greeting => connection∗ * (symbol .asynccontrol * symbol .opened)
  | .opened => connection∗ * used
  | .closing => connection∗ * (used * symbol .finish)

variable {x : List Usage} {s : Stage}

theorem append_closed (hx : x ∈ phase .closing) : x ++ [.closed] ∈ phase .closed := by
  obtain ⟨a, ha, b, hb, rfl⟩ := hx
  rw [List.append_assoc]
  exact append_kstar ha (.inr (Language.append_mem_mul hb rfl))

theorem append_finish (hx : x ∈ phase .opened) : x ++ [.finish] ∈ phase .closing := by
  obtain ⟨a, ha, b, hb, rfl⟩ := hx
  rw [List.append_assoc]
  exact Language.append_mem_mul ha (Language.append_mem_mul hb rfl)

theorem append_send (hx : x ∈ phase .opened) (command : Command) :
    x ++ [.send command] ∈ phase .opened := by
  obtain ⟨a, ha, b, hb, rfl⟩ := hx
  rw [List.append_assoc]
  exact Language.append_mem_mul ha (append_star hb ⟨command, rfl⟩)

theorem append_setup (hx : x ∈ phase .greeting) : x ++ [.send .setup] ∈ phase .opened := by
  obtain ⟨a, ha, b, hb, rfl⟩ := hx
  rw [List.append_assoc]
  exact Language.append_mem_mul ha (mem_mul_star (Language.append_mem_mul hb rfl))

theorem append_opened (hx : x ∈ phase .dialing) : x ++ [.opened] ∈ phase .greeting := by
  obtain ⟨a, ha, b, hb, rfl⟩ := hx
  rw [List.append_assoc]
  exact Language.append_mem_mul ha (Language.append_mem_mul hb rfl)

theorem append_failed (hx : x ∈ phase .dialing) : x ++ [.failed] ∈ phase .closed := by
  obtain ⟨a, ha, b, hb, rfl⟩ := hx
  rw [List.append_assoc]
  exact append_kstar ha (.inl (Language.append_mem_mul hb rfl))

theorem append_asynccontrol (hx : x ∈ phase .closed) : x ++ [.asynccontrol] ∈ phase .dialing :=
  Language.append_mem_mul hx rfl

theorem mem_prefixes_of_phase (hx : x ∈ phase s) : x ∈ prefixes connection∗ := by
  have hclosing {y : List Usage} (hy : y ∈ phase .closing) : y ∈ prefixes connection∗ :=
    mem_prefixes_of_append (append_closed hy)
  have hopened {y : List Usage} (hy : y ∈ phase .opened) : y ++ [.finish, .closed] ∈
      connection∗ := by
    have hend := append_closed (append_finish hy)
    rwa [List.append_assoc] at hend
  cases s with
  | closed => exact ⟨x, hx, List.prefix_rfl⟩
  | dialing => exact mem_prefixes_of_append (append_failed hx)
  | greeting =>
    have hend := hopened (append_setup hx)
    rw [List.append_assoc] at hend
    exact mem_prefixes_of_append hend
  | opened => exact mem_prefixes_of_append (hopened hx)
  | closing => exact hclosing hx

end Usage
open Usage

section
variable {p q : Process σ} {a : Action} {x : List Usage}

theorem usage_keeps (hs : q.link.stage = p.link.stage) (hu : usage? ⟨p, a, q⟩ = none)
    (hx : x ∈ phase p.link.stage) : x ++ (usage? ⟨p, a, q⟩).toList ∈ phase q.link.stage := by
  rw [hu, hs]
  simpa using hx

theorem Stepped.usage (hs : Stepped M blank p a q) (h : p.Inv M) (hx : x ∈ phase p.link.stage) :
    x ++ (usage? ⟨p, a, q⟩).toList ∈ phase q.link.stage := by
  cases hs with
  | @sent message cs throws hh =>
    obtain ⟨-, t, hn⟩ := h.next hh
    have hu : usage? ⟨p, .call, p.after (p.link.send message) cs throws⟩ =
        some (.send message.command) := by simp [usage?, hh]
    rw [hu]
    obtain ⟨hopened | ⟨hgreeting, hsetup⟩, -⟩ := next_send hn
    · exact append_send (hopened ▸ hx) _
    · rw [hsetup]
      exact append_setup (hgreeting ▸ hx)
  | dialed hh =>
    obtain ⟨hf, t, hn⟩ := h.next hh
    simp only [usage?, hh]
    obtain ⟨hs | hs, -⟩ := next_dial hn
    · exact append_asynccontrol (hs ▸ hx)
    · rw [hs] at hf
      cases hf
  | finishing hh =>
    obtain ⟨hf, t, hn⟩ := h.next hh
    simp only [usage?, hh]
    obtain ⟨hs | hs, -⟩ := next_finish hn
    · exact append_finish (hs ▸ hx)
    · rw [hs] at hf
      cases hf
  | connected hh =>
    have hdialing : p.link.stage = .dialing := of_decide_eq_true (h.next hh).1
    simp only [usage?, hh]
    exact append_opened (hdialing ▸ hx)
  | openFailed hh | openTimedOut hh =>
    have hdialing : p.link.stage = .dialing := of_decide_eq_true (h.next hh).1
    simp only [usage?, hh]
    exact append_failed (hdialing ▸ hx)
  | closed hh | closeTimedOut hh =>
    have hclosing : p.link.stage = .closing := of_decide_eq_true (h.next hh).1
    simp only [usage?, hh, Process.progress, Process.after, Option.elim_some, if_true]
    exact append_closed (hclosing ▸ hx)
  | completed hl => exact usage_keeps (Process.complete_stage hl) (by simp [usage?]) hx
  | recalled hh | refused hh => exact usage_keeps rfl (by simp [usage?, hh]) hx
  | drained hh | closeStuck hh =>
    exact usage_keeps rfl (by simp [usage?, hh, Process.progress]) hx
  | threw hh | left hh => exact usage_keeps rfl (by simp [usage?]) hx
  | _ => exact usage_keeps rfl (by simp [usage?]) hx

/-- The calls of `Asynccontrol` and the messages accepted are those of the usage. -/
def Counted (p q : Process σ) (usages : List Usage) : Prop :=
  q.link.call = p.link.call + usages.count .asynccontrol ∧
    q.link.accepted.map (·.content.command) =
      p.link.accepted.map (·.content.command) ++ usages.filterMap Usage.command?

theorem counted_apart {u : Option Usage} (hu : usage? ⟨p, a, q⟩ = u)
    (hn : u.toList.count .asynccontrol = 0) (hc : u.toList.filterMap Usage.command? = [])
    (hcall : q.link.call = p.link.call) (haccepted : q.link.accepted = p.link.accepted) :
    Counted p q (usage? ⟨p, a, q⟩).toList := by
  subst hu
  exact ⟨by rw [hn, hcall, Nat.add_zero], by rw [hc, haccepted, List.append_nil]⟩

theorem Stepped.counted (hs : Stepped M blank p a q) :
    Counted p q (usage? ⟨p, a, q⟩).toList := by
  cases hs with
  | @sent message cs throws hh =>
    have hu : usage? ⟨p, .call, p.after (p.link.send message) cs throws⟩ =
        some (.send message.command) := by simp [usage?, hh]
    rw [hu]
    exact ⟨rfl, by simp [Process.after, Link.send, Link.write, Usage.command?]⟩
  | dialed hh =>
    simp only [usage?, hh]
    exact ⟨rfl, by simp [Link.dial, Usage.command?]⟩
  | finishing hh => exact counted_apart (u := some .finish) (by simp [usage?, hh]) rfl rfl rfl rfl
  | connected hh => exact counted_apart (u := some .opened) (by simp [usage?, hh]) rfl rfl rfl rfl
  | openFailed hh | openTimedOut hh =>
    exact counted_apart (u := some .failed) (by simp [usage?, hh]) rfl rfl rfl rfl
  | closed hh | closeTimedOut hh =>
    exact counted_apart (u := some .closed)
      (by simp [usage?, hh, Process.progress, Process.after]) rfl rfl rfl rfl
  | completed hl =>
    obtain ⟨op, -, rfl⟩ := Link.complete_eq_some _ hl
    exact counted_apart (u := none) (by simp [usage?]) rfl rfl rfl rfl
  | recalled hh | refused hh =>
    exact counted_apart (u := none) (by simp [usage?, hh]) rfl rfl rfl rfl
  | drained hh | closeStuck hh =>
    exact counted_apart (u := none) (by simp [usage?, hh, Process.progress]) rfl rfl rfl rfl
  | _ => exact counted_apart (u := none) (by simp [usage?]) rfl rfl rfl rfl

end

variable {h : List (Transition (Process σ) Action)} {p : Process σ}

theorem usages_concat (t : Transition (Process σ) Action) :
    usages (h ++ [t]) = usages h ++ (usage? t).toList := by
  rw [usages, List.filterMap_append, usages]
  cases hu : usage? t <;> simp [hu]

theorem usages_mem_phase (hr : (process M blank).Run h p) : usages h ∈ phase p.link.stage := by
  induction hr with
  | start hs =>
    cases hs
    exact Language.nil_mem_kstar _
  | next hr ht ih =>
    rw [usages_concat]
    exact (Process.stepped ht).usage (reachable_inv hr.reachable) ih

theorem usages_counted (hr : (process M blank).Run h p) :
    Counted (.initial M) p (usages h) := by
  induction hr with
  | start hs =>
    cases hs
    exact ⟨rfl, rfl⟩
  | next hr ht ih =>
    obtain ⟨hcall, haccepted⟩ := ih
    obtain ⟨hcall', haccepted'⟩ := (Process.stepped ht).counted
    rw [usages_concat]
    constructor
    · rw [hcall', hcall, List.count_append, Nat.add_assoc]
    · rw [haccepted', haccepted, List.filterMap_append, List.append_assoc]

/-- In any run, handlers that throw included, the connections come one after the other: each is
opened once, greeted with `SETUP` before anything else is sent, and finished once before the next
is opened. That is all there is of `Asynccontrol` and of `send`. -/
theorem connections_in_turn (hr : (process M blank).Run h p) :
    usages h ∈ prefixes connection∗ ∧ p.link.call = (usages h).count .asynccontrol ∧
      p.link.accepted.map (·.content.command) = (usages h).filterMap Usage.command? := by
  obtain ⟨hcall, haccepted⟩ := usages_counted hr
  exact ⟨mem_prefixes_of_phase (usages_mem_phase hr), hcall.trans (Nat.zero_add _), haccepted⟩

/-- A pilot is released and connects again. -/
theorem connections_in_turn_reopened : ∃ h p, (process pilot unread).Run h p ∧ p.link.call = 2 ∧
    usages h = [.asynccontrol, .opened, .send .setup, .send .channelsReady, .send .release,
      .finish, .closed, .asynccontrol, .opened, .send .setup] ∧
    usages h ∈ prefixes connection∗ := by
  obtain ⟨h, p, hr, hp⟩ := TransitionSystem.exists_run (.initial pilot) (Process.step pilot unread)
    (Action.operating (Action.writing 1) ++ Action.releasing 0 ++ Action.idling ++ Action.opening)
    (p := fun h p => decide (p.link.call = 2 ∧ usages h = [.asynccontrol, .opened, .send .setup,
      .send .channelsReady, .send .release, .finish, .closed, .asynccontrol, .opened,
      .send .setup])) (by decide +kernel)
  obtain ⟨hcall, husages⟩ := of_decide_eq_true hp
  exact ⟨h, p, hr, hcall, husages, (connections_in_turn hr).1⟩

end FmClient.Facade
