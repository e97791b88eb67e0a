import MuonDetector.Library.Machine

/-!
# Publishing to the broker

`MqttSink` keeps one status. The callbacks of the client library write it, so does
`setInhibited`, and `publish` hands a message to the broker when it is `Connected`.
What it stands for are two things, whether the connection is up and whether publishing
is inhibited, which are told apart here beside it. The status forgets an inhibition
when the connection comes up, and the connection when an inhibition ends.
-/

namespace MuonDetector.Sinks.Mqtt

open MuonDetector.Library

/-! ## The sink -/

inductive Status where
  | invalid
  | connected
  | disconnected
  | connecting
  | disconnecting
  | error
  | inhibited
  deriving DecidableEq, Repr

structure MqttStatusEvent where
  status : Status := .invalid
  text : String := ""
  deriving DecidableEq, Repr

/-- What is handed to the client library to be published. -/
structure Message where
  topic : String
  content : String
  deriving DecidableEq, Repr

/-- The sink, with the events it has published on the bus and the messages it has handed to
the broker. `mqtt` tells whether there is a client object. -/
structure MqttSink where
  mqtt : Bool := false
  status : Status := .invalid
  tries : Nat := 0
  stationId : String := "0"
  username : String := ""
  password : String := ""
  clientId : String := ""
  publishErrorCount : Nat := 0
  events : List MqttStatusEvent := []
  handed : List Message := []
  deriving DecidableEq, Repr

/-- `MOSQ_ERR_SUCCESS`. -/
def success : Int := 0

def maxTries : Nat := 14

def setStatus (s : MqttSink) (status : Status) : MqttSink := { s with status := status }

def publishEvent (s : MqttSink) (event : MqttStatusEvent) : MqttSink :=
  { s with events := s.events ++ [event] }

/-- `setStatus` and the event that tells of it. -/
def report (s : MqttSink) (status : Status) (text : String) : MqttSink :=
  publishEvent (setStatus s status) ⟨status, text⟩

def connected (s : MqttSink) : Bool := s.mqtt && s.status = .connected

/-- The part of `callback_connected` that counts the tries. -/
def retry (s : MqttSink) : MqttSink :=
  let s := if s.tries < maxTries then { s with tries := s.tries + 1 }
    else report s .error "Too many retries."
  report s .connecting "Connecting to MQTT..."

def callbackConnected (s : MqttSink) (result : Int) : MqttSink :=
  if result = 1 then retry (report s .error "MQTT connection failed: Wrong protocol version")
  else if result = 2 then retry (report s .error "MQTT connection failed: Credentials rejected")
  else if result = 3 then retry (report s .error "MQTT connection failed: Broker unavailable")
  else if result > 3 then retry (report s .error "MQTT connection failed: Other reason")
  else if result = 0 then { report s .connected "Connected to MQTT." with tries := 0 }
  else retry s

def callbackDisconnected (s : MqttSink) (result : Int) : MqttSink :=
  if result ≠ 0 then
    if connected s then report s .error ("MQTT disconnected unexpectedly: " ++ toString result)
    else s
  else report s .disconnected "MQTT disconnected."

def setInhibited (s : MqttSink) (inhibited : Bool) : MqttSink :=
  if inhibited then
    if s.status = .connected then report s .inhibited "" else s
  else report s .invalid ""

/-- `initialise` of a sink without a client; `created` tells whether the library made one. -/
def initialise (s : MqttSink) (created : Bool) : MqttSink := { s with mqtt := created }

/-- What the client library answers to the calls of `start`. -/
structure StartResults where
  created : Bool
  createdAgain : Bool
  credentials : Int
  connect : Int

def mqttConnect (s : MqttSink) (r : StartResults) : MqttSink :=
  if connected s then s
  else
    let s := if s.mqtt then s else initialise s r.createdAgain
    let s := report s .connecting ""
    if r.credentials ≠ success then setStatus s .error
    else if r.connect ≠ success then setStatus s .error
    else s

def start (s : MqttSink) (username password : String) (r : StartResults) : MqttSink :=
  let s := { s with
    username := username
    password := password
    clientId := username ++ "_" ++ s.stationId }
  mqttConnect (initialise s r.created) r

def usertopic (s : MqttSink) (topic : String) : String :=
  topic ++ (s.username ++ "/" ++ s.stationId)

/-- The call of `mosquitto_publish`. -/
def hand (s : MqttSink) (topic content : String) : MqttSink :=
  { s with handed := s.handed ++ [⟨usertopic s topic, content⟩] }

/-- `publish`, with what `mosquitto_publish` answers. -/
def publish (s : MqttSink) (topic content : String) (result : Int) : MqttSink × Bool :=
  if !connected s then (s, false)
  else if result = success then ({ hand s topic content with publishErrorCount := 0 }, true)
  else
    ({ hand s topic content with publishErrorCount := s.publishErrorCount + 1 }, false)

/-! ## The connection and the inhibition -/

/-- The sink, whether its last connection callback was a successful connect, and whether the
last call of `setInhibited` was with `true`. -/
structure System where
  sink : MqttSink
  up : Bool := false
  inhibited : Bool := false
  deriving DecidableEq, Repr

inductive Event where
  | connected (result : Int)
  | disconnected (result : Int)
  | setInhibited (inhibited : Bool)
  | publish (topic content : String) (result : Int)
  deriving DecidableEq, Repr

/-- The library calls back only for a client that it has made. -/
def step (s : System) : Event → Option System
  | .connected result =>
    if s.sink.mqtt then
      some { s with sink := callbackConnected s.sink result, up := decide (result = 0) }
    else none
  | .disconnected result =>
    if s.sink.mqtt then some { s with sink := callbackDisconnected s.sink result, up := false }
    else none
  | .setInhibited inhibited =>
    some { s with sink := setInhibited s.sink inhibited, inhibited := inhibited }
  | .publish topic content result =>
    some { s with sink := (publish s.sink topic content result).1 }

/-- After `start`, for what the library answered to it. -/
def started (stationId username password : String) (r : StartResults) : System where
  sink := start { stationId := stationId } username password r

/-- A message is handed to the broker exactly when the connection is up and publishing is
not inhibited. -/
def Lawful (s : System) : Prop :=
  ∀ topic content result, (publish s.sink topic content result).1.handed =
    s.sink.handed ++
      if s.up ∧ ¬s.inhibited then [Message.mk (usertopic s.sink topic) content] else []

/-- The connection does not come up while publishing is inhibited, and an inhibition does
not end while the connection is up. -/
def Clean (s : System) : Event → Prop
  | .connected result => result = 0 → s.inhibited = false
  | .disconnected _ => True
  | .setInhibited inhibited => inhibited = false → s.up = false
  | .publish _ _ _ => True

instance Clean.decidable (s : System) (e : Event) : Decidable (Clean s e) :=
  match e with
  | .connected result => inferInstanceAs (Decidable (result = 0 → s.inhibited = false))
  | .disconnected _ => .isTrue trivial
  | .setInhibited inhibited => inferInstanceAs (Decidable (inhibited = false → s.up = false))
  | .publish _ _ _ => .isTrue trivial

/-! ## The status -/

@[simp] theorem report_status (s : MqttSink) (status : Status) (text : String) :
    (report s status text).status = status := rfl

@[simp] theorem report_mqtt (s : MqttSink) (status : Status) (text : String) :
    (report s status text).mqtt = s.mqtt := rfl

@[simp] theorem retry_status (s : MqttSink) : (retry s).status = .connecting := rfl

theorem publish_handed (s : MqttSink) (topic content : String) (result : Int) :
    (publish s topic content result).1.handed =
      s.handed ++ if connected s then [Message.mk (usertopic s topic) content] else [] := by
  unfold publish
  by_cases h : connected s
  · by_cases hresult : result = success
    · simp [h, hresult, hand]
    · simp [h, hresult, hand]
  · simp [h]

theorem publish_connected (s : MqttSink) (topic content : String) (result : Int) :
    connected (publish s topic content result).1 = connected s := by
  unfold publish
  split_ifs <;> rfl

theorem lawful_iff (s : System) : Lawful s ↔ (connected s.sink ↔ s.up ∧ ¬s.inhibited) := by
  simp only [Lawful, publish_handed, List.append_cancel_left_eq]
  constructor
  · intro h
    have hone := h "" "" 0
    by_cases hconn : connected s.sink
    · by_cases hclean : s.up ∧ ¬s.inhibited
      · exact iff_of_true hconn hclean
      · rw [if_pos hconn, if_neg hclean] at hone
        cases hone
    · by_cases hclean : s.up ∧ ¬s.inhibited
      · rw [if_neg hconn, if_pos hclean] at hone
        cases hone
      · exact iff_of_false hconn hclean
  · intro h topic content _
    simp only [h]

theorem connected_callbackConnected {s : MqttSink} (h : s.mqtt) (result : Int) :
    connected (callbackConnected s result) ↔ result = 0 := by
  by_cases hzero : result = 0
  · simp [callbackConnected, hzero, connected, h]
  · have hretry : (callbackConnected s result).status = .connecting := by
      unfold callbackConnected
      simp only [if_neg hzero]
      split_ifs <;> rfl
    simp [connected, hretry, hzero]

theorem connected_callbackDisconnected (s : MqttSink) (result : Int) :
    ¬connected (callbackDisconnected s result) := by
  unfold callbackDisconnected
  by_cases hzero : result = 0
  · simp [hzero, connected]
  · rw [if_pos hzero]
    by_cases hconn : connected s
    · rw [if_pos hconn]
      simp [connected]
    · rw [if_neg hconn]
      exact hconn

theorem connected_setInhibited (s : MqttSink) (inhibited : Bool) :
    ¬connected (setInhibited s inhibited) := by
  unfold setInhibited
  cases inhibited with
  | false => simp [connected]
  | true =>
    by_cases hconn : s.status = .connected
    · simp [hconn, connected]
    · simp [hconn, connected]

/-! ## Runs -/

theorem lawful_step_iff {s s' : System} {e : Event} (hs : Lawful s) (h : step s e = some s') :
    Lawful s' ↔ Clean s e := by
  rw [lawful_iff] at hs ⊢
  cases e with
  | connected result =>
    by_cases hmqtt : s.sink.mqtt
    · obtain rfl := Option.some.inj ((if_pos hmqtt).symm.trans h)
      rw [connected_callbackConnected hmqtt]
      by_cases hzero : result = 0
      · simp [Clean, hzero]
      · simp [Clean, hzero]
    · cases (if_neg hmqtt).symm.trans h
  | disconnected result =>
    by_cases hmqtt : s.sink.mqtt
    · obtain rfl := Option.some.inj ((if_pos hmqtt).symm.trans h)
      have hdown := connected_callbackDisconnected s.sink result
      simp [Clean, hdown]
    · cases (if_neg hmqtt).symm.trans h
  | setInhibited inhibited =>
    obtain rfl := Option.some.inj h
    have hquiet := connected_setInhibited s.sink inhibited
    cases inhibited with
    | false => simp [Clean, hquiet]
    | true => simp [Clean, hquiet]
  | publish topic content result =>
    obtain rfl := Option.some.inj h
    rw [publish_connected]
    exact iff_of_true hs trivial

theorem connected_mqttConnect {s : MqttSink} (h : ¬connected s) (r : StartResults) :
    ¬connected (mqttConnect s r) := by
  unfold mqttConnect
  rw [if_neg h]
  split_ifs <;> simp [connected, setStatus]

theorem lawful_started (stationId username password : String) (r : StartResults) :
    Lawful (started stationId username password r) := by
  have hdown : ¬connected (started stationId username password r).sink :=
    connected_mqttConnect (by simp [connected, initialise]) r
  rw [lawful_iff]
  exact iff_of_false hdown fun h => absurd h.1 Bool.false_ne_true

/-- **Publishing.** After `start`, in whatever order the library calls back and publishing is
inhibited, messages go to the broker exactly while the connection is up and publishing is not
inhibited, as long as no connection comes up under an inhibition and no inhibition ends under
a connection, and no longer. -/
theorem publishing_lawful_iff (stationId username password : String) (r : StartResults)
    (es : List Event) (t : System)
    (h : Machine.run step (started stationId username password r) es = some t) :
    (∀ pre s, pre <+: es → Machine.run step (started stationId username password r) pre = some s →
      Lawful s) ↔
    Machine.Meets step Clean (started stationId username password r) es :=
  Machine.always_iff_meets (fun _ _ _ hs hstep => lawful_step_iff hs hstep)
    (lawful_started stationId username password r) h

/-- A client that the library has made and connects. -/
def goodStart : StartResults where
  created := true
  createdAgain := false
  credentials := success
  connect := success

/-- A connection that is lost and comes up again, and an inhibition. -/
theorem publishing_lawful_reconnect :
    ∃ s, Machine.run step (started "0" "user" "word" goodStart)
        [.connected 0, .disconnected 7, .connected 0, .setInhibited true] = some s ∧ Lawful s :=
  ⟨_, rfl, (publishing_lawful_iff "0" "user" "word" goodStart
    [.connected 0, .disconnected 7, .connected 0, .setInhibited true] _ rfl).mpr (by decide) _ _
    (List.prefix_refl _) rfl⟩

/-- An inhibition is forgotten when the library reconnects, and the end of an inhibition stops
publishing until it does. -/
theorem inhibition_forgotten :
    (∃ s, Machine.run step (started "0" "user" "word" goodStart)
        [.connected 0, .setInhibited true, .disconnected 7, .connected 0] = some s ∧ ¬Lawful s) ∧
      ∃ s, Machine.run step (started "0" "user" "word" goodStart)
        [.connected 0, .setInhibited true, .setInhibited false] = some s ∧ ¬Lawful s := by
  constructor
  · refine ⟨_, rfl, ?_⟩
    rw [lawful_iff]
    decide
  · refine ⟨_, rfl, ?_⟩
    rw [lawful_iff]
    decide

end MuonDetector.Sinks.Mqtt
