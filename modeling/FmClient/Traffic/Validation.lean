import FmClient.Traffic.ChannelImpl

/-! `validateChannels` with `ChannelImpl::open` in it: what a batch does to the sockets, and that
the rest of it sees no more than what each `open` returned or threw. -/
namespace FmClient.Traffic
open ChannelsHandler Opening

/-! ### The calls of one `open` -/

section
variable {α β : Type} {x : Opening α} {f : α → Opening β}

/-- The calls made before stay, and nothing depends on them. -/
def Opening.Appends (x : Opening α) : Prop :=
  ∀ calls, x calls = match x [] with
    | .ok a more => .ok a (calls ++ more)
    | .error what more => .error what (calls ++ more)

theorem Opening.Appends.bind (hx : Appends x) (hf : ∀ a, Appends (f a)) :
    Appends (x >>= f) := by
  intro calls
  rw [bind_apply, bind_apply, hx calls]
  cases x [] with
  | error what more => rfl
  | ok a more =>
    simp only [hf a (calls ++ more), hf a more]
    cases f a [] <;> simp

theorem Opening.Appends.map (hx : Appends x) (g : α → β) : Appends (g <$> x) := by
  rw [← bind_pure_comp]
  exact hx.bind fun a calls => by simp

theorem Opening.Appends.tryCatch {h : String → Opening α} (hx : Appends x)
    (hh : ∀ what, Appends (h what)) : Appends (tryCatch x h) := by
  intro calls
  rw [tryCatch_apply, tryCatch_apply, hx calls]
  cases x [] with
  | ok a more => rfl
  | error what more =>
    simp only [hh what (calls ++ more), hh what more]
    cases h what [] <;> simp

theorem Opening.appends_pure (a : α) : Appends (pure a) := fun calls => by simp

theorem Opening.appends_call (c : SocketCall) : Appends (call c) := fun calls => by simp

theorem Opening.appends_outcome (r : Except String α) : Appends (outcome r) := by
  intro calls
  cases r <;> simp

end

theorem ISocket.appends_sendBlocking (network : Network) (packet : List UInt8) :
    Appends (sendBlocking network packet) := by
  refine (appends_call _).bind fun _ => (appends_outcome _).bind fun sent => ?_
  by_cases hne : packet.length ≠ sent
  · rw [if_pos hne]
    exact fun calls => by simp
  · rw [if_neg hne]
    exact appends_pure ()

theorem ChannelImpl.appends_open (protobuf : Protobuf) (network : Network) (ip : String)
    (port : ℕ) (key : String) : Appends (ChannelImpl.open protobuf network ip port key) := by
  unfold ChannelImpl.open
  refine (appends_call _).bind fun _ => ?_
  refine ((appends_call _).bind fun _ => appends_outcome _).bind fun _ => ?_
  cases protobuf.serializeToArray ⟨key⟩ with
  | none => exact (appends_call _).bind fun _ => appends_pure false
  | some packet =>
    refine (ISocket.appends_sendBlocking network packet).bind fun _ => Appends.bind ?_ ?_
    · refine Appends.tryCatch (Appends.map ?_ some) fun what => ?_
      · exact (appends_call _).bind fun _ => appends_outcome _
      · exact (appends_call _).bind fun _ => appends_pure none
    · intro received
      cases received with
      | none => exact appends_pure false
      | some response =>
        have hend : Appends (do
            call .startReading
            pure (decide ((protobuf.parseFromArray response).2.result = .validationAccepted))) :=
          (appends_call _).bind fun _ => appends_pure _
        cases hp : (protobuf.parseFromArray response).1 with
        | true => simpa [hp] using hend
        | false => simpa [hp] using (appends_call _).bind fun _ => hend

namespace Attempt
variable (protobuf : Protobuf) (a : Attempt)

/-- `open` in the course of a batch. -/
theorem open_apply (calls : List SocketCall) :
    ChannelImpl.open protobuf a.network a.channel.host a.channel.port a.channel.key calls =
      match a.result protobuf with
      | .ok accepted => .ok accepted (calls ++ a.calls protobuf)
      | .error what => .error what (calls ++ a.calls protobuf) := by
  rw [ChannelImpl.appends_open, result, Attempt.calls, run]
  cases ChannelImpl.open protobuf a.network a.channel.host a.channel.port a.channel.key [] <;> rfl

/-- The response came, and its result field reads as an acceptance. -/
def confirmed : Bool := (a.received protobuf).any (reads protobuf)

/-- What one `open` does to the socket, and what it returns or throws. -/
inductive Conversation (protobuf : Protobuf) (a : Attempt) :
    List SocketCall → Except String Bool → Prop where
  | unconnected {what : String} (hc : a.network.connect = .error what) :
      Conversation protobuf a [.setListener, .connect a.channel.host a.channel.port] (.error what)
  | unserialized (hc : a.network.connect = .ok ())
      (hs : protobuf.serializeToArray ⟨a.channel.key⟩ = none) :
      Conversation protobuf a [.setListener, .connect a.channel.host a.channel.port,
        .printed "Could not serialize validation request"] (.ok false)
  | unsent {packet : List UInt8} {what : String} (hc : a.network.connect = .ok ())
      (hs : protobuf.serializeToArray ⟨a.channel.key⟩ = some packet)
      (hw : a.network.writeSome ≠ .ok packet.length) :
      Conversation protobuf a [.setListener, .connect a.channel.host a.channel.port,
        .sendBlocking packet] (.error what)
  | unanswered {packet : List UInt8} {what : String} (hc : a.network.connect = .ok ())
      (hs : protobuf.serializeToArray ⟨a.channel.key⟩ = some packet)
      (hw : a.network.writeSome = .ok packet.length) (hr : a.network.readSome = .error what) :
      Conversation protobuf a [.setListener, .connect a.channel.host a.channel.port,
        .sendBlocking packet, .readBlocking 256,
        .printed ("Error during receiving reposnes from remote: " ++ what)] (.ok false)
  | answered {packet response : List UInt8} (hc : a.network.connect = .ok ())
      (hs : protobuf.serializeToArray ⟨a.channel.key⟩ = some packet)
      (hw : a.network.writeSome = .ok packet.length) (hr : a.network.readSome = .ok response) :
      Conversation protobuf a ([.setListener, .connect a.channel.host a.channel.port,
        .sendBlocking packet, .readBlocking 256] ++
        (if (protobuf.parseFromArray response).1 then []
          else [.printed "Could not parse response"]) ++ [.startReading])
        (.ok (reads protobuf response))

variable {protobuf} in
theorem run_answered {packet response : List UInt8} (hc : a.network.connect = .ok ())
    (hs : protobuf.serializeToArray ⟨a.channel.key⟩ = some packet)
    (hw : a.network.writeSome = .ok packet.length) (hr : a.network.readSome = .ok response) :
    a.run protobuf = .ok (reads protobuf response)
      ([.setListener, .connect a.channel.host a.channel.port, .sendBlocking packet,
        .readBlocking 256] ++ (if (protobuf.parseFromArray response).1 then []
          else [.printed "Could not parse response"]) ++ [.startReading]) := by
  simp only [run, ChannelImpl.open, bind_apply, call_apply, ISocket.connect_ok hc, hs,
    ISocket.sendBlocking_ok hw, tryCatch_apply, map_apply, ISocket.readBlocking_apply, hr, reads]
  cases (protobuf.parseFromArray response).1 with
  | true => rfl
  | false => rfl

theorem conversation : Conversation protobuf a (a.calls protobuf) (a.result protobuf) := by
  cases hc : a.network.connect with
  | error what =>
    rw [Attempt.calls, result, run_unconnected hc]
    exact .unconnected hc
  | ok =>
    cases hs : protobuf.serializeToArray ⟨a.channel.key⟩ with
    | none =>
      rw [Attempt.calls, result, run_unserialized hc hs]
      exact .unserialized hc hs
    | some packet =>
      by_cases hw : a.network.writeSome = .ok packet.length
      · cases hr : a.network.readSome with
        | error what =>
          rw [Attempt.calls, result, run_unread hc hs hw hr]
          exact .unanswered hc hs hw hr
        | ok response =>
          rw [Attempt.calls, result, a.run_answered hc hs hw hr]
          exact .answered hc hs hw hr
      · obtain ⟨what, hrun⟩ := run_unsent hc hs hw
        rw [Attempt.calls, result, hrun]
        exact .unsent hc hs hw

theorem result_eq_true_iff : a.result protobuf = .ok true ↔ a.confirmed protobuf = true := by
  cases a.run_cases protobuf with
  | inl hnone =>
    obtain ⟨hreceived, -, hresult⟩ := hnone
    obtain hfalse | ⟨what, herror⟩ := hresult <;> simp_all [confirmed]
  | inr hsome =>
    obtain ⟨response, hreceived, -, hresult⟩ := hsome
    simp [confirmed, hreceived, hresult]

theorem result_of_isOk (h : (a.result protobuf).isOk = true) :
    a.result protobuf = .ok (a.confirmed protobuf) := by
  have hiff := a.result_eq_true_iff protobuf
  cases hr : a.result protobuf with
  | error what => simp [hr, Except.isOk, Except.toBool] at h
  | ok accepted =>
    rw [hr] at hiff
    cases accepted <;> simp_all

end Attempt

/-! ### A batch -/

/-- A handler that makes calls to sockets as well. -/
abbrev Validating := EStateM Fault (Context × List SocketCall)

namespace Validating
variable {α β : Type}

def beside (calls : List SocketCall) : EStateM.Result Fault Context α →
    EStateM.Result Fault (Context × List SocketCall) α
  | .ok a v => .ok a (v, calls)
  | .error f v => .error f (v, calls)

def callsOf : EStateM.Result Fault (Context × List SocketCall) α → List SocketCall
  | .ok _ s => s.2
  | .error _ s => s.2

def onContext (x : Handler α) : Validating α := fun s => beside s.2 (x s.1)

def onSocket (x : Opening α) : Validating α := fun s =>
  match x s.2 with
  | .ok a calls => .ok a (s.1, calls)
  | .error what calls => .error (.thrown what) (s.1, calls)

section
variable (calls : List SocketCall) (s : Context × List SocketCall)

@[simp] theorem beside_ok (a : α) (v : Context) :
    beside calls (.ok a v : EStateM.Result Fault Context α) = .ok a (v, calls) := rfl

@[simp] theorem beside_error (f : Fault) (v : Context) :
    beside calls (.error f v : EStateM.Result Fault Context α) = .error f (v, calls) := rfl

@[simp] theorem callsOf_beside (r : EStateM.Result Fault Context α) :
    callsOf (beside calls r) = calls := by
  cases r <;> rfl

@[simp] theorem onContext_apply (x : Handler α) : onContext x s = beside s.2 (x s.1) := rfl

@[simp] theorem pure_apply (a : α) : (pure a : Validating α) s = .ok a s := rfl

theorem bind_apply (x : Validating α) (f : α → Validating β) : (x >>= f) s = match x s with
    | .ok a t => f a t
    | .error e t => .error e t := by
  change EStateM.bind x f s = _
  unfold EStateM.bind
  cases x s <;> rfl

end

def validateChannel (protobuf : Protobuf) (a : Attempt) : Validating (List IChannel) := do
  onContext (Handler.log (openingLine a.channel.id))
  let socket ← onContext (buildSocket a.channel)
  let channel ← onContext (emplace a.channel.id socket)
  let accepted ← onSocket
    (ChannelImpl.open protobuf a.network a.channel.host a.channel.port a.channel.key)
  onContext (Handler.emit (.opened channel accepted))
  if accepted then
    onContext (Handler.log (validatedLine a.channel.id))
    return [channel]
  else
    onContext (Handler.log (rejectedLine a.channel.id))
    onContext (erase a.channel.id)
    return []

def validateChannels (protobuf : Protobuf) : List Attempt → Validating (List IChannel)
  | [] => return []
  | a :: rest => do
    let channel ← validateChannel protobuf a
    let channels ← validateChannels protobuf rest
    return channel ++ channels

/-- The attempts that are made of a batch, up to the first that throws. Without a socket there
is none to make. -/
def made (protobuf : Protobuf) : List Attempt → List Attempt
  | [] => []
  | a :: rest =>
    if supported a.channel then
      a :: if (a.result protobuf).isOk then made protobuf rest else []
    else []

variable (protobuf : Protobuf) (a : Attempt) (w : Context) (calls : List SocketCall)

theorem onSocket_open : onSocket
    (ChannelImpl.open protobuf a.network a.channel.host a.channel.port a.channel.key) (w, calls) =
      beside (calls ++ a.calls protobuf) (Handler.outcome (a.result protobuf) w) := by
  rw [onSocket, a.open_apply]
  cases a.result protobuf <;> rfl

theorem validateChannel_apply : validateChannel protobuf a (w, calls) =
    beside (calls ++ if supported a.channel then a.calls protobuf else [])
      (ChannelsHandler.validateChannel a.channel (a.result protobuf) w) := by
  simp only [validateChannel, ChannelsHandler.validateChannel, bind_apply, Handler.bind_apply,
    onContext_apply, Handler.log_apply, beside_ok]
  obtain ⟨hr, socket, hs⟩ | ⟨hr, f, -, hs⟩ :=
    buildSocket_apply a.channel (w.emit [.logged (openingLine a.channel.id)])
  · obtain ⟨c, v, -, happly⟩ := emplace_apply a.channel.id socket
      (w.emit [.logged (openingLine a.channel.id)])
    simp only [hs, happly, beside_ok, onSocket_open, hr, if_true, ChannelsHandler.open,
      Handler.bind_apply]
    cases a.result protobuf with
    | error what => rfl
    | ok accepted =>
      cases accepted with
      | true => rfl
      | false =>
        simp only [Handler.outcome, Handler.pure_apply, beside_ok, Handler.emit_apply,
          Bool.false_eq_true, if_false, bind_apply, Handler.bind_apply, onContext_apply,
          Handler.log_apply]
        cases ChannelsHandler.erase a.channel.id
          ((v.emit [.opened c.pointer false]).emit [.logged (rejectedLine a.channel.id)]) <;> rfl
  · simp [hs, hr]

/-- A batch as the states validate it, and what it does to the sockets. -/
theorem validateChannels_apply (batch : List Attempt) :
    validateChannels protobuf batch (w, calls) =
      beside (calls ++ (made protobuf batch).flatMap (Attempt.calls protobuf))
        (ChannelsHandler.validateChannels (batch.map (Attempt.validation protobuf)) w) := by
  induction batch generalizing w calls with
  | nil => simp [validateChannels, made, ChannelsHandler.validateChannels]
  | cons a rest ih =>
    simp only [validateChannels, List.map_cons, Attempt.validation,
      ChannelsHandler.validateChannels, bind_apply, Handler.bind_apply, validateChannel_apply]
    cases hout : ChannelsHandler.validateChannel a.channel (a.result protobuf) w with
    | error f v =>
      -- the batch stops here, for want of a socket or of an answer
      have hlast : made protobuf (a :: rest) = if supported a.channel then [a] else [] := by
        have hnot : ¬ answered (a.channel, a.result protobuf) = true := by
          intro h
          obtain ⟨ps, u, hok⟩ := validateChannel_answered h w
          rw [hout] at hok
          cases hok
        simp_all [made, answered]
      rw [hlast]
      cases supported a.channel <;> simp
    | ok ps v =>
      have hanswered := (hout ▸ ChannelsHandler.validateChannel_apply a.channel
        (a.result protobuf) w).answered
      have hmade : made protobuf (a :: rest) = a :: made protobuf rest := by
        simp_all [made, answered]
      have hsupported : supported a.channel = true := by simp_all [answered]
      simp only [beside_ok, hsupported, if_true, ih, hmade, List.flatMap_cons, List.append_assoc]
      cases ChannelsHandler.validateChannels (rest.map (Attempt.validation protobuf)) v <;> rfl

theorem made_eq {batch : List Attempt}
    (h : ∀ x ∈ batch.map (Attempt.validation protobuf), answered x = true) :
    made protobuf batch = batch := by
  induction batch with
  | nil => rfl
  | cons a rest ih =>
    obtain ⟨ha, hrest⟩ := List.forall_mem_cons.mp h
    obtain ⟨hsupported, hok⟩ : supported a.channel = true ∧ (a.result protobuf).isOk = true := by
      simpa [answered, Attempt.validation] using ha
    simp [made, hsupported, hok, ih hrest]

end Validating
end FmClient.Traffic
