import FmClient.Core.HttpsClient

/-! What `CoreClient` asks Core for, and what it makes of the answers. -/
namespace FmClient.Core
open Exchanging

inductive ConnectionState where
  | connected
  | other (value : ℕ)
  deriving DecidableEq

structure Device where
  id : ℤ
  connectionState : ConnectionState
  deriving DecidableEq

abbrev ListDevicesResponse := List Device

/-- `JsonStringToMessage`, for each message that is read, and `MessageToJsonString`. -/
structure Json where
  attachResponse : String → Option AttachResponse
  operateResponse : String → Option OperateResponse
  listDevicesResponse : String → Option ListDevicesResponse
  operateRequest : ℤ → String

structure CoreClient where
  client : HttpsClient
  json : Json

namespace CoreClient
variable (core : CoreClient) (x : Exchange)

def parsed {α : Type} (text : String) (response : Option α) : Exchanging α :=
  match response with
  | some response => return response
  | none => throw ("Could not parse response: " ++ text)

def attach : Exchanging AttachResponse := do
  let responseString ← core.client.execute x "/gateway/devices/attach" .post ""
  call (.logged (.info ("Attach response: " ++ responseString)))
  parsed responseString (core.json.attachResponse responseString)

def operate (requestedDeviceId : ℤ) : Exchanging OperateResponse := do
  let body := core.json.operateRequest requestedDeviceId
  let responseString ← core.client.execute x "/gateway/pilots/operate" .post body
  call (.logged (.info ("Operate response (" ++ body ++ "): " ++ responseString)))
  parsed responseString (core.json.operateResponse responseString)

def listDevices : Exchanging ListDevicesResponse := do
  let responseString ← core.client.execute x "/devices/" .get ""
  call (.logged (.info ("List devices response: " ++ responseString)))
  let responseJson := "\x7b \"devices\" : " ++ responseString ++ " \x7d"
  parsed responseJson (core.json.listDevicesResponse responseJson)

def listConnectedDevices : Exchanging ListDevicesResponse := do
  let response ← core.listDevices x
  return response.filter fun d => d.connectionState = .connected

end CoreClient

namespace CoreClient
variable {core : CoreClient} {x : Exchange} {calls done : List Call}

/-- Core lists its devices: its answer is a success, and one that is understood. -/
def Lists (core : CoreClient) (x : Exchange) (devices : ListDevicesResponse) : Prop :=
  ∃ text, x.Serves (core.client.request "/devices/" .get "") text ∧
    core.json.listDevicesResponse ("\x7b \"devices\" : " ++ text ++ " \x7d") = some devices

theorem lists_of_listDevices {devices : ListDevicesResponse}
    (h : core.listDevices x calls = .ok devices done) : core.Lists x devices := by
  have hexecuted := core.client.executed x "/devices/" .get "" calls
  rw [listDevices, bind_apply] at h
  cases hr : core.client.execute x "/devices/" .get "" calls with
  | error what v => simp [hr] at h
  | ok text v =>
    rw [hr] at h hexecuted
    cases hexecuted with
    | served hserves =>
      simp only [bind_apply, call_apply] at h
      cases hparse : core.json.listDevicesResponse ("\x7b \"devices\" : " ++ text ++ " \x7d") with
      | none =>
        rw [hparse] at h
        cases h
      | some response =>
        rw [hparse] at h
        cases h
        exact ⟨text, hserves, hparse⟩

end CoreClient

/-! ### Asking for a session -/

inductive Query where
  | attach
  | operate (deviceId : ℤ)
  deriving DecidableEq

namespace CoreClient
variable (core : CoreClient) (x : Exchange) (q : Query)

def ask : Query → Exchanging AttachResponse
  | .attach => core.attach x
  | .operate deviceId => core.operate x deviceId

def path : Query → String
  | .attach => "/gateway/devices/attach"
  | .operate _ => "/gateway/pilots/operate"

def body : Query → String
  | .attach => ""
  | .operate deviceId => core.json.operateRequest deviceId

def parse (text : String) : Query → Option AttachResponse
  | .attach => core.json.attachResponse text
  | .operate _ => core.json.operateResponse text

def request : Request := core.client.request (path q) .post (core.body q)

/-- Core grants a session: its answer is a success, and one that is understood. -/
def Grants (response : AttachResponse) : Prop :=
  ∃ text, x.Serves (core.request q) text ∧ core.parse text q = some response

variable {core x q}

inductive Asked (core : CoreClient) (x : Exchange) (q : Query) (calls : List Call) :
    EStateM.Result String (List Call) AttachResponse → Prop where
  | granted {response : AttachResponse} {es : List Call} (h : core.Grants x q response)
      (hes : network es = core.client.conversation (core.request q)) :
      Asked core x q calls (.ok response (calls ++ es))
  | refused {what : String} {es : List Call} {k : ℕ} (h : ∀ response, ¬ core.Grants x q response)
      (hes : network es = (core.client.conversation (core.request q)).take k) :
      Asked core x q calls (.error what (calls ++ es))

theorem asked_of (line : String → LogEntry) (calls : List Call) : Asked core x q calls ((do
      let responseString ← core.client.execute x (path q) .post (core.body q)
      call (.logged (line responseString))
      parsed responseString (core.parse responseString q) : Exchanging AttachResponse) calls) := by
  have hexecuted := core.client.executed x (path q) .post (core.body q) calls
  rw [bind_apply]
  cases hr : core.client.execute x (path q) .post (core.body q) calls with
  | error what v =>
    rw [hr] at hexecuted
    cases hexecuted with
    | @failed _ k es h hes =>
      rw [List.append_assoc]
      refine .refused (k := k) (fun response hgrants => ?_) ?_
      · obtain ⟨text, hserves, -⟩ := hgrants
        exact h text hserves
      · rw [network_append, network_append, network_logged es hes,
          core.client.network_take, List.append_nil]
        rfl
  | ok text v =>
    rw [hr] at hexecuted
    cases hexecuted with
    | served h =>
      simp only [bind_apply, call_apply, List.append_assoc]
      cases hparse : core.parse text q with
      | none =>
        refine .refused (k := 7) (fun response hgrants => ?_) rfl
        obtain ⟨other, hserves, hother⟩ := hgrants
        rw [h.unique hserves, hother] at hparse
        cases hparse
      | some response => exact .granted ⟨text, h, hparse⟩ rfl

variable (core x q) in
theorem asked (calls : List Call) : Asked core x q calls (core.ask x q calls) := by
  cases q with
  | attach => exact asked_of (fun text => .info ("Attach response: " ++ text)) calls
  | operate deviceId =>
    exact asked_of (fun text => .info ("Operate response (" ++ core.json.operateRequest deviceId ++
      "): " ++ text)) calls

end CoreClient
end FmClient.Core
