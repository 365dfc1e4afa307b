import FmClient.Backend.ChannelsHandler

/-! A handler acts on the channels and not on what it has done before: with another past it
does the same. -/
namespace FmClient
open Lib Handler

def Context.after (w : Context) (past : List Effect) : Context :=
  { w with trace := past ++ w.trace }

namespace Context
variable (w : Context) (past es : List Effect) (m : Channels) (keepReader : Bool)

@[simp] theorem after_channels : (w.after past).channels = w.channels := rfl
@[simp] theorem after_constructed : (w.after past).constructed = w.constructed := rfl
@[simp] theorem after_keepReader : (w.after past).keepReader = w.keepReader := rfl
@[simp] theorem after_deferred : (w.after past).deferred = w.deferred := rfl
@[simp] theorem after_trace : (w.after past).trace = past ++ w.trace := rfl

@[simp] theorem after_emit : (w.after past).emit es = (w.emit es).after past := by
  simp [after, emit]

@[simp] theorem after_withChannels :
    (w.after past).withChannels m = (w.withChannels m).after past := rfl

@[simp] theorem after_withReader :
    (w.after past).withReader keepReader = (w.withReader keepReader).after past := rfl

@[simp] theorem after_insertNew {c : ChannelImpl} (hc : c.id ∉ (w.after past).channels.keys) :
    (w.after past).insertNew c hc = (w.insertNew c hc).after past := rfl

end Context

namespace Handler
variable {α β : Type} {x y : Handler α} {f : α → Handler β}

def resume (past : List Effect) : EStateM.Result Fault Context α → EStateM.Result Fault Context α
  | .ok a w => .ok a (w.after past)
  | .error e w => .error e (w.after past)

@[simp] theorem resume_ok (past : List Effect) (a : α) (w : Context) :
    resume past (.ok a w) = .ok a (w.after past) := rfl

@[simp] theorem resume_error (past : List Effect) (e : Fault) (w : Context) :
    resume past (.error e w : EStateM.Result Fault Context α) = .error e (w.after past) := rfl

def Oblivious (x : Handler α) : Prop := ∀ w past, x (w.after past) = resume past (x w)

namespace Oblivious

theorem pure (a : α) : Oblivious (pure a : Handler α) := fun _ _ => rfl

theorem throw (e : Fault) : Oblivious (throw e : Handler α) := fun _ _ => rfl

theorem bind (hx : Oblivious x) (hf : ∀ a, Oblivious (f a)) : Oblivious (x >>= f) := by
  intro w past
  rw [bind_apply, bind_apply, hx]
  cases x w with
  | ok a v => exact hf a v past
  | error e v => rfl

theorem map (g : α → β) (hx : Oblivious x) : Oblivious (g <$> x) := by
  rw [← bind_pure_comp]
  exact hx.bind fun a => .pure (g a)

theorem tryCatch {h : Fault → Handler α} (hx : Oblivious x) (hh : ∀ e, Oblivious (h e)) :
    Oblivious (tryCatch x h) := by
  intro w past
  rw [tryCatch_apply, tryCatch_apply, hx]
  cases x w with
  | ok a v => rfl
  | error e v => exact hh e v past

theorem ite {p : Prop} [Decidable p] (hx : Oblivious x) (hy : Oblivious y) :
    Oblivious (if p then x else y) := by
  split
  · exact hx
  · exact hy

theorem get_bind {g : Context → Handler β}
    (hg : ∀ w past, g (w.after past) (w.after past) = resume past (g w w)) :
    Oblivious (get >>= g) := by
  intro w past
  rw [bind_apply, bind_apply, get_apply, get_apply]
  exact hg w past

theorem modify {g : Context → Context} (hg : ∀ w past, g (w.after past) = (g w).after past) :
    Oblivious (modify g) := by
  intro w past
  rw [modify_apply, modify_apply, hg, resume_ok]

theorem emit (e : Effect) : Oblivious (emit e) := .modify fun w past => by simp

theorem outcome (r : Except String α) : Oblivious (outcome r) := by
  cases r with
  | ok a => exact .pure a
  | error what => exact .throw (.thrown what)

theorem log (entry : LogEntry) : Oblivious (log entry) := .emit _
theorem send (message : ClientMessage) : Oblivious (send message) := .emit _
theorem onEvent (event : FacadeEvent) : Oblivious (onEvent event) := .emit _

end Oblivious
end Handler

namespace ChannelsHandler

theorem getChannels_oblivious : Oblivious getChannels := fun _ _ => rfl

theorem getChannelsIds_oblivious : Oblivious getChannelsIds := fun _ _ => rfl

theorem lookup_oblivious (id : ℤ) : Oblivious (lookup id) := by
  refine .get_bind fun w past => ?_
  rw [Context.after_channels]
  cases w.channels.find id <;> rfl

theorem getChannelsOf_oblivious (ids : List ℤ) : Oblivious (getChannelsOf ids) := by
  induction ids with
  | nil => exact .pure []
  | cons id ids ih => exact .bind (lookup_oblivious id) fun c => .bind ih fun rest => .pure _

theorem buildSocket_oblivious (r : ChannelResponse) : Oblivious (buildSocket r) := by
  unfold buildSocket
  cases r.protocol <;> cases r.security <;> first | exact .pure _ | exact .throw _

theorem emplace_oblivious (id : ℤ) (socket : SocketKind) : Oblivious (emplace id socket) := by
  refine .get_bind fun w past => ?_
  by_cases hid : id ∈ w.channels.keys
  · simpa [hid] using (lookup_oblivious id).map ChannelImpl.pointer w past
  · simp [hid, bind_apply, map_apply]

theorem open_oblivious (channel : IChannel) (result : Except String Bool) :
    Oblivious («open» channel result) :=
  .bind (.outcome result) fun accepted => .bind (.emit _) fun _ => .pure accepted

theorem erase_oblivious (id : ℤ) : Oblivious (erase id) := by
  refine .get_bind fun w past => ?_
  rw [Context.after_channels]
  cases w.channels.find id <;> simp [bind_apply]

theorem validateChannel_oblivious (r : ChannelResponse) (result : Except String Bool) :
    Oblivious (validateChannel r result) := by
  refine .bind (.log _) fun _ => .bind (buildSocket_oblivious r) fun socket =>
    .bind (emplace_oblivious r.id socket) fun channel =>
      .bind (open_oblivious channel result) fun accepted => .ite ?_ ?_
  · exact .bind (.log _) fun _ => .pure [channel]
  · exact .bind (.log _) fun _ => .bind (erase_oblivious r.id) fun _ => .pure []

theorem validateChannels_oblivious (batch : List (ChannelResponse × Except String Bool)) :
    Oblivious (validateChannels batch) := by
  induction batch with
  | nil => exact .pure []
  | cons x rest ih =>
    exact .bind (validateChannel_oblivious x.1 x.2) fun channel => .bind ih fun channels => .pure _

theorem getIds_oblivious (ps : List IChannel) : Oblivious (getIds ps) := by
  induction ps with
  | nil => exact .pure []
  | cons p ps ih =>
    exact .bind getChannels_oblivious fun channels =>
      .ite (.bind ih fun ids => .pure (p.id :: ids)) (.throw (.danglingChannel p))

theorem close_oblivious (channel : IChannel) : Oblivious (close channel) := .emit _

theorem closeChannels_oblivious (ids : List ℤ) : Oblivious (closeChannels ids) := by
  induction ids with
  | nil => exact .pure ()
  | cons id ids ih =>
    refine .get_bind fun w past => ?_
    rw [Context.after_channels]
    cases w.channels.find id with
    | none => exact (Oblivious.log (notExistingLine id)).bind (fun _ => ih) w past
    | some c =>
      have hclose : Oblivious (close c.pointer >>= fun _ => erase id >>= fun _ =>
          closeChannels ids) :=
        .bind (close_oblivious c.pointer) fun _ => .bind (erase_oblivious id) fun _ => ih
      exact (Oblivious.log (closingLine id)).bind (fun _ => hclose) w past

theorem closeEach_oblivious (cs : List ChannelImpl) : Oblivious (closeEach cs) := by
  induction cs with
  | nil => exact .pure ()
  | cons c rest ih => exact .bind (.log _) fun _ => .bind (close_oblivious c.pointer) fun _ => ih

theorem clear_oblivious : Oblivious clear := .modify fun w past => by simp

theorem closeAllChannels_oblivious : Oblivious closeAllChannels := by
  refine .get_bind fun w past => ?_
  rw [Context.after_channels]
  exact (closeEach_oblivious w.channels.entries).bind (fun _ => clear_oblivious) w past

theorem setOwned_oblivious (id : ℤ) (owned : Bool) : Oblivious (setOwned id owned) :=
  .bind (lookup_oblivious id) fun _ => .modify fun w past => by simp

theorem setOwnedAll_oblivious (ids : List ℤ) : Oblivious (setOwnedAll ids) := by
  induction ids with
  | nil => exact .pure ()
  | cons id ids ih => exact .bind (.log _) fun _ => .bind (setOwned_oblivious id true) fun _ => ih

end ChannelsHandler
end FmClient
