import FmClient.Backend.ChannelsSpec
import Mathlib.Logic.Relation

/-! What the operations on the channels come down to: sequences of a few actions,
of which an invariant of the context has to be checked one by one. -/
namespace FmClient
open Lib ChannelsHandler

/-- The effects that leave the channels as they are. -/
def Effect.isPlain : Effect → Bool
  | .inserted _ | .opened _ false | .closed _ | .erased _ => false
  | _ => true

inductive Act : Context → Context → Prop where
  | other {w v : Context} {es : List Effect} (hm : v.channels = w.channels)
      (hn : v.constructed = w.constructed) (ht : v.trace = w.trace ++ es)
      (hes : es.all Effect.isPlain = true) : Act w v
  | insert {w : Context} {id : ℤ} (socket : SocketKind) (hid : id ∉ w.channels.keys) :
      Act w ((w.insertNew ⟨id, w.constructed, socket, false⟩ hid).emit
        [.inserted ⟨id, w.constructed⟩])
  | reject {w : Context} {c : ChannelImpl} (hc : c ∈ w.channels) :
      Act w ((w.withChannels (w.channels.erase c.id)).emit
        [.opened c.pointer false, .logged (rejectedLine c.id), .erased c.pointer])
  | close {w : Context} {c : ChannelImpl} (hc : c ∈ w.channels) :
      Act w ((w.withChannels (w.channels.erase c.id)).emit
        [.logged (closingLine c.id), .closed c.pointer, .erased c.pointer])
  | closeAll {w : Context} :
      Act w ((w.withChannels .empty).emit (closeAllEffects w.channels))
  | setOwned {w : Context} (id : ℤ) (owned : Bool) :
      Act w (w.withChannels (ownedMap w.channels id owned))

abbrev Acts : Context → Context → Prop := Relation.ReflTransGen Act

namespace Acts
variable {w v : Context} {es : List Effect}

theorem invariant {P : Context → Prop} (h : Acts w v) (hstep : ∀ w v, Act w v → P w → P v)
    (hw : P w) : P v := by
  induction h with
  | refl => exact hw
  | tail _ hact ih => exact hstep _ _ hact ih

theorem emit (h : Acts w v) (hes : es.all Effect.isPlain = true) : Acts w (v.emit es) :=
  h.tail (.other rfl rfl rfl hes)

theorem withReader (h : Acts w v) (keepReader : Bool) : Acts w (v.withReader keepReader) :=
  h.tail (.other rfl rfl (List.append_nil _).symm rfl)

theorem closeAll (h : Acts w v) :
    Acts w ((v.withChannels .empty).emit (closeAllEffects v.channels)) :=
  h.tail .closeAll

theorem setOwned (h : Acts w v) (id : ℤ) (owned : Bool) :
    Acts w (v.withChannels (ownedMap v.channels id owned)) :=
  h.tail (.setOwned id owned)

theorem setOwnedAll (h : Acts w v) (ids : List ℤ) :
    Acts w (v.withChannels (ownedMapAll v.channels ids)) := by
  induction ids generalizing v with
  | nil => simpa [ownedMapAll] using h
  | cons id ids ih => simpa [ownedMapAll] using ih (h.setOwned id true)

theorem closes {ids : List ℤ} {left : Channels} (h : Acts w v)
    (hcl : Closes v.channels ids left es) : Acts w ((v.withChannels left).emit es) := by
  induction ids generalizing v es with
  | nil =>
    cases hcl
    simpa using h
  | cons id ids ih =>
    cases hcl with
    | found hc hcl => simpa using ih (h.tail (.close hc)) hcl
    | missing hid hcl =>
      have hlog : Acts w (v.emit [.logged (notExistingLine id)]) := h.emit rfl
      simpa using ih hlog hcl

theorem announceCloses {ids : List ℤ} {left : Channels} (h : Acts w v) (ps : List IChannel)
    (hcl : Closes v.channels ids left es) :
    Acts w ((v.withChannels left).emit (.event (.channelsClosing ps) :: es)) := by
  have hevent : Acts w (v.emit [.event (.channelsClosing ps)]) := h.emit rfl
  simpa using hevent.closes hcl

theorem announceCloseAll (h : Acts w v) (ps : List IChannel) :
    Acts w ((v.withChannels .empty).emit
      (.event (.channelsClosing ps) :: closeAllEffects v.channels)) := by
  have hevent : Acts w (v.emit [.event (.channelsClosing ps)]) := h.emit rfl
  simpa using hevent.closeAll

theorem emplacement {id : ℤ} {c : ChannelImpl} {u : Context} (h : Acts w v)
    (he : Emplacement v id c u) : Acts w u := by
  cases he with
  | existing hc hid => exact h
  | new socket hid => exact h.tail (.insert socket hid)

theorem validation {r : ChannelResponse} {result : Except String Bool}
    {out : EStateM.Result Fault Context (List IChannel)} (h : Acts w v)
    (hv : Validation v r result out) : Acts w (Handler.contextOf out) := by
  have hlog : Acts w (v.emit [.logged (openingLine r.id)]) := h.emit rfl
  cases hv with
  | unsupported hr hf => exact hlog
  | failed hr he => exact hlog.emplacement he
  | accepted hr he => exact (hlog.emplacement he).emit rfl
  | rejected hr he =>
    obtain ⟨hc, hid⟩ := he.mem
    rw [← hid]
    exact (hlog.emplacement he).tail (.reject hc)

theorem validations {batch : List (ChannelResponse × Except String Bool)}
    {out : EStateM.Result Fault Context (List IChannel)} (h : Acts w v)
    (hv : Validations v batch out) : Acts w (Handler.contextOf out) := by
  induction hv with
  | nil => exact h
  | cons hr hs ih => exact ih (h.validation hr)
  | stop hr => exact h.validation hr
  | later hr hs ih => exact ih (h.validation hr)

theorem grow (h : Acts w v) : ∃ es, v.trace = w.trace ++ es ∧ w.constructed ≤ v.constructed ∧
    ∀ p, .inserted p ∈ es → w.constructed ≤ p.address := by
  induction h with
  | refl => exact ⟨[], (List.append_nil _).symm, le_rfl, by simp⟩
  | @tail v u _ hact ih =>
    obtain ⟨es, ht, hle, hnew⟩ := ih
    have hone : ∃ fs, u.trace = v.trace ++ fs ∧ v.constructed ≤ u.constructed ∧
        ∀ p, .inserted p ∈ fs → v.constructed ≤ p.address := by
      cases hact with
      | other hm hn hu hes =>
        refine ⟨_, hu, hn.ge, fun p hp => ?_⟩
        simpa [Effect.isPlain] using List.all_eq_true.mp hes _ hp
      | insert socket hid => exact ⟨_, rfl, Nat.le_succ _, by simp⟩
      | reject hc => exact ⟨_, rfl, le_rfl, by simp⟩
      | close hc => exact ⟨_, rfl, le_rfl, by simp⟩
      | closeAll => exact ⟨_, rfl, le_rfl, by simp [closeAllEffects]⟩
      | setOwned id owned => exact ⟨[], (List.append_nil _).symm, le_rfl, by simp⟩
    obtain ⟨fs, hu, hle', hnew'⟩ := hone
    refine ⟨es ++ fs, by rw [hu, ht, List.append_assoc], hle.trans hle', fun p hp => ?_⟩
    obtain hp | hp := List.mem_append.mp hp
    · exact hnew p hp
    · exact hle.trans (hnew' p hp)

end Acts

end FmClient
