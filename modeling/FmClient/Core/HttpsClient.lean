import FmClient.Backend.ChannelsHandler

/-! One request over HTTPS: every call of `HttpsClient::execute` on the network, each of which
may fail. -/
namespace FmClient.Core

inductive Method where
  | post | put | get | delete
  deriving DecidableEq

/-- The values of `http::verb` and of `http::field` that a request is made of. -/
inductive Verb where
  | put | post | delete | get
  deriving DecidableEq

inductive Field where
  | host | userAgent | authorization | accept | contentType | contentLength
  deriving DecidableEq

structure Request where
  verb : Verb
  target : String
  version : ℕ
  fields : List (Field × String)
  body : String
  deriving DecidableEq

/-- `result` is what `result()` gives, 0 for a status that it does not know, and `reason` how
that is printed. -/
structure Response where
  result : ℕ
  reason : String
  body : String

/-- What `shutdown` leaves in `ec`, with the `what()` of a `system_error` of it. -/
structure ErrorCode where
  value : ℤ
  isEof : Bool := false
  message : String := ""
  what : String := ""

/-- What the network, the server behind it and the shutdown make of one request. -/
structure Exchange where
  setHostName : Except String Unit
  resolve : Except String Unit
  connect : Except String Unit
  handshake : Except String Unit
  write : Except String Unit
  reply : Request → Except String Response
  shutdown : ErrorCode

inductive Call where
  | logged (entry : LogEntry)
  | setHostName (host : String)
  | resolve (host port : String)
  | connect
  | handshake
  | write (request : Request)
  | read
  | shutdown
  deriving DecidableEq

/-- An exception of the standard library, by its `what()`. -/
abbrev Exchanging := EStateM String (List Call)

namespace Exchanging
variable {α β : Type} (calls : List Call)

def call (c : Call) : Exchanging Unit := modify (· ++ [c])

def attempt (c : Call) (result : Except String α) : Exchanging α := do
  call c
  match result with
  | .ok value => return value
  | .error what => throw what

theorem pure_apply (a : α) : (pure a : Exchanging α) calls = .ok a calls := rfl

theorem throw_apply (what : String) : (throw what : Exchanging α) calls = .error what calls := rfl

theorem bind_apply (x : Exchanging α) (f : α → Exchanging β) : (x >>= f) calls =
    match x calls with
    | .ok a calls => f a calls
    | .error what calls => .error what calls := by
  change EStateM.bind x f calls = _
  unfold EStateM.bind
  cases x calls <;> rfl

@[simp] theorem call_apply (c : Call) : call c calls = .ok () (calls ++ [c]) := rfl

@[simp] theorem attempt_apply (c : Call) (result : Except String α) : attempt c result calls =
    match result with
    | .ok value => .ok value (calls ++ [c])
    | .error what => .error what (calls ++ [c]) := by
  cases result <;> rfl

end Exchanging

/-- `agent` is the version of the library, as it names itself. -/
structure HttpsClient where
  host : String
  port : ℤ
  apiKey : String
  agent : String

namespace HttpsClient
open Exchanging
variable (client : HttpsClient) (exchange : Exchange) (path : String) (method : Method)
  (body : String)

def methodBeast : Method → Verb
  | .put => .put
  | .post => .post
  | .delete => .delete
  | .get => .get

def request : Request where
  verb := methodBeast method
  target := path
  version := 11
  fields := [(.host, client.host), (.userAgent, client.agent), (.authorization, client.apiKey),
      (.accept, "application/json")] ++
    if body.isEmpty then [] else
      [(.contentType, "application/json"), (.contentLength, toString body.utf8ByteSize)]
  body := body

def execute : Exchanging String := do
  call (.logged (.info ("Executing HTTPS request, path:" ++ path ++ " body: " ++
    if body.isEmpty then "-" else body)))
  attempt (.setHostName client.host) exchange.setHostName
  attempt (.resolve client.host (toString client.port)) exchange.resolve
  attempt .connect exchange.connect
  attempt .handshake exchange.handshake
  let req := client.request path method body
  attempt (.write req) exchange.write
  let res ← attempt .read (exchange.reply req)
  call .shutdown
  let ec := exchange.shutdown
  -- the end of the stream is no error here
  let value := if ec.isEof then 0 else ec.value
  if value ≠ 0 ∧ value ≠ 1 then
    call (.logged (.error ("Executing HTTPS request, path:" ++ path ++ " body: " ++ ec.message)))
    throw ec.what
  if 200 ≤ res.result ∧ res.result < 300 then
    return res.body
  else
    throw ("Unexpected server response: " ++ toString res.result ++ " - " ++ res.reason ++
      ", cause: " ++ res.body)

def conversation (req : Request) : List Call :=
  [.setHostName client.host, .resolve client.host (toString client.port), .connect, .handshake,
    .write req, .read, .shutdown]

end HttpsClient

/-- The request is answered with a success, and nothing goes wrong before or after. -/
structure Exchange.Serves (x : Exchange) (req : Request) (text : String) : Prop where
  setHostName : x.setHostName = .ok ()
  resolve : x.resolve = .ok ()
  connect : x.connect = .ok ()
  handshake : x.handshake = .ok ()
  write : x.write = .ok ()
  reply : ∃ res, x.reply req = .ok res ∧ 200 ≤ res.result ∧ res.result < 300 ∧ res.body = text
  shutdown : x.shutdown.isEof = true ∨ x.shutdown.value = 0 ∨ x.shutdown.value = 1

theorem Exchange.Serves.unique {x : Exchange} {req : Request} {text other : String}
    (h : x.Serves req text) (h' : x.Serves req other) : text = other := by
  obtain ⟨res, hres, -, -, rfl⟩ := h.reply
  obtain ⟨res', hres', -, -, rfl⟩ := h'.reply
  rw [hres] at hres'
  cases hres'
  rfl

def Call.isLogged : Call → Bool
  | .logged _ => true
  | _ => false

def network (calls : List Call) : List Call := calls.filter fun c => !c.isLogged

section
variable (calls es : List Call)

@[simp] theorem network_append : network (calls ++ es) = network calls ++ network es :=
  List.filter_append ..

theorem network_logged (h : es.all Call.isLogged = true) : network es = [] := by
  refine List.filter_eq_nil_iff.mpr fun c hc => ?_
  simp [List.all_eq_true.mp h c hc]

end

inductive Executed (x : Exchange) (before : List Call) (req : Request) (steps : List Call) :
    EStateM.Result String (List Call) String → Prop where
  | served {text : String} (h : x.Serves req text) :
      Executed x before req steps (.ok text (before ++ steps))
  | failed {what : String} {k : ℕ} {es : List Call} (h : ∀ text, ¬ x.Serves req text)
      (hes : es.all Call.isLogged = true) :
      Executed x before req steps (.error what (before ++ (steps.take k ++ es)))

namespace HttpsClient
open Exchanging
variable (client : HttpsClient) (x : Exchange) (path : String) (method : Method) (body : String)
  (calls : List Call)

theorem network_take (req : Request) (k : ℕ) :
    network ((client.conversation req).take k) = (client.conversation req).take k := by
  refine List.filter_eq_self.mpr fun c hc => ?_
  have hmem := List.mem_of_mem_take hc
  simp only [conversation, List.mem_cons, List.not_mem_nil, or_false] at hmem
  obtain rfl | rfl | rfl | rfl | rfl | rfl | rfl := hmem <;> rfl

def beginLine : Call := .logged (.info ("Executing HTTPS request, path:" ++ path ++ " body: " ++
  if body.isEmpty then "-" else body))

theorem executed : Executed x (calls ++ [beginLine path body]) (client.request path method body)
    (client.conversation (client.request path method body))
    (client.execute x path method body calls) := by
  have hfail (what : String) (k : ℕ) (es : List Call) (hes : es.all Call.isLogged = true)
      (hno : ∀ text, ¬ x.Serves (client.request path method body) text) :
      Executed x (calls ++ [beginLine path body]) (client.request path method body)
        (client.conversation (client.request path method body))
        (.error what (calls ++ [beginLine path body] ++
          ((client.conversation (client.request path method body)).take k ++ es))) :=
    .failed hno hes
  unfold execute
  simp only [bind_apply, call_apply, attempt_apply]
  cases hname : x.setHostName with
  | error what => exact hfail what 1 [] rfl fun _ h => by simp [h.setHostName] at hname
  | ok =>
  cases hresolve : x.resolve with
  | error what =>
    have hno := hfail what 2 [] rfl fun _ h => by simp [h.resolve] at hresolve
    simpa [conversation, beginLine] using hno
  | ok =>
  cases hconnect : x.connect with
  | error what =>
    have hno := hfail what 3 [] rfl fun _ h => by simp [h.connect] at hconnect
    simpa [conversation, beginLine] using hno
  | ok =>
  cases hhandshake : x.handshake with
  | error what =>
    have hno := hfail what 4 [] rfl fun _ h => by simp [h.handshake] at hhandshake
    simpa [conversation, beginLine] using hno
  | ok =>
  cases hwrite : x.write with
  | error what =>
    have hno := hfail what 5 [] rfl fun _ h => by simp [h.write] at hwrite
    simpa [conversation, beginLine] using hno
  | ok =>
  cases hreply : x.reply (client.request path method body) with
  | error what =>
    have hno := hfail what 6 [] rfl fun _ h => by
      obtain ⟨res, hres, -⟩ := h.reply
      simp [hres] at hreply
    simpa [conversation, beginLine] using hno
  | ok res =>
  simp only []
  by_cases hclosed : x.shutdown.isEof = true ∨ x.shutdown.value = 0 ∨ x.shutdown.value = 1
  · rw [if_neg (by cases he : x.shutdown.isEof <;> simp_all; omega)]
    by_cases hresult : 200 ≤ res.result ∧ res.result < 300
    · rw [if_pos hresult]
      have hserves : x.Serves (client.request path method body) res.body :=
        ⟨hname, hresolve, hconnect, hhandshake, hwrite, ⟨res, hreply, hresult.1, hresult.2, rfl⟩,
          hclosed⟩
      have hserved : Executed x (calls ++ [beginLine path body]) (client.request path method body)
          (client.conversation (client.request path method body))
          (.ok res.body (calls ++ [beginLine path body] ++
            client.conversation (client.request path method body))) := .served hserves
      simpa [conversation, beginLine, pure_apply] using hserved
    · rw [if_neg hresult]
      have hno (what : String) := hfail what 7 [] rfl fun _ h => by
        obtain ⟨res', hres', hlow, hhigh, -⟩ := h.reply
        rw [hreply] at hres'
        cases hres'
        exact hresult ⟨hlow, hhigh⟩
      simpa [conversation, beginLine, throw_apply] using hno _
  · rw [if_pos (by cases he : x.shutdown.isEof <;> simp_all)]
    have hno := hfail x.shutdown.what 7 [.logged (.error
      ("Executing HTTPS request, path:" ++ path ++ " body: " ++ x.shutdown.message))] rfl
      fun _ h => hclosed h.shutdown
    simpa [conversation, beginLine, bind_apply, throw_apply] using hno

end HttpsClient
end FmClient.Core
