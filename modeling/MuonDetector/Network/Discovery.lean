import MuonDetector.Library.Bytes
import MuonDetector.Library.Datagrams
import Mathlib.Data.List.FinRange
import Mathlib.Logic.Function.Basic

/-!
# Network discovery

A window broadcasts a request, every daemon answers its sender, and the window lists the
addresses the answers come from. Datagrams are lost, doubled and reordered, and other
programs may send anything to the port. A host runs one of the two or is only an address.
-/

namespace MuonDetector.Network.Discovery

open MuonDetector.Library
open MuonDetector.Library.Bytes MuonDetector.Library.Datagrams

/-! ## Packets -/

def MAGIC : UInt32 := 0x2A2A2A2A
def VERSION : UInt8 := 1

inductive DeviceType where
  | gui
  | daemon
  deriving DecidableEq, Repr

def DeviceType.value : DeviceType → UInt16
  | .gui => 1
  | .daemon => 2

structure Packet where
  magic : UInt32
  version : UInt8
  type : UInt16
  requestId : UInt32
  deriving DecidableEq, Repr

/-- `sizeof(Packet)`: a byte of padding is in front of `type`. -/
def sizeofPacket : Nat := 12

/-- The bytes of the structure, with what is in its padding. -/
def Packet.bytes (p : Packet) (padding : UInt8) : List UInt8 :=
  littleBytes 4 p.magic.toNat ++ [p.version, padding] ++ littleBytes 2 p.type.toNat ++
    littleBytes 4 p.requestId.toNat

def Packet.load (bytes : List UInt8) : Packet where
  magic := .ofNat (littleValue (bytes.take 4))
  version := bytes.getD 4 0
  type := .ofNat (littleValue ((bytes.drop 6).take 2))
  requestId := .ofNat (littleValue ((bytes.drop 8).take 4))

theorem littleValue_word (n v : Nat) (hv : v < 256 ^ n) :
    littleValue (littleBytes n (v : Int)) = v := by
  have h := littleValue_littleBytes n (v : Int)
  rw [Int.emod_eq_of_lt (Int.natCast_nonneg v) (by exact_mod_cast hv)] at h
  exact_mod_cast h

@[simp] theorem Packet.bytes_length (p : Packet) (padding : UInt8) :
    (p.bytes padding).length = sizeofPacket := by
  simp [Packet.bytes, sizeofPacket]

@[simp] theorem Packet.load_bytes (p : Packet) (padding : UInt8) :
    Packet.load (p.bytes padding) = p := by
  have hmagic : (p.bytes padding).take 4 = littleBytes 4 p.magic.toNat := by
    simp [Packet.bytes]
  have hversion : (p.bytes padding).getD 4 0 = p.version := by
    simp [Packet.bytes, List.getD]
  have htype : ((p.bytes padding).drop 6).take 2 = littleBytes 2 p.type.toNat := by
    simp [Packet.bytes, List.drop_append, List.take_append]
  have hid : ((p.bytes padding).drop 8).take 4 = littleBytes 4 p.requestId.toNat := by
    have hfront : (littleBytes 4 (p.magic.toNat : Int)).drop 8 = [] :=
      List.drop_eq_nil_of_le (by simp)
    have hback : (littleBytes 4 (p.requestId.toNat : Int)).take 4 =
        littleBytes 4 p.requestId.toNat := List.take_of_length_le (by simp)
    simp [Packet.bytes, List.drop_append, hfront, hback]
  rw [Packet.load, hmagic, hversion, htype, hid, littleValue_word _ _ p.magic.toNat_lt,
    littleValue_word _ _ p.type.toNat_lt, littleValue_word _ _ p.requestId.toNat_lt]
  simp

def request : Packet := ⟨MAGIC, VERSION, DeviceType.gui.value, 12345⟩

def response (requestId : UInt32) : Packet := ⟨MAGIC, VERSION, DeviceType.daemon.value, requestId⟩

/-! ## The receiver -/

inductive Received where
  | ignored
  | respond (response : Packet)
  | callback (type : UInt16)
  deriving DecidableEq, Repr

/-- What the receiver does with a datagram: `recvfrom` cuts it to the size of a packet. -/
def receive (type : DeviceType) (payload : List UInt8) : Received :=
  let buffer := payload.take sizeofPacket
  let p := Packet.load buffer
  if buffer.length ≠ sizeofPacket then .ignored
  else if p.magic ≠ MAGIC ∨ p.version ≠ VERSION then .ignored
  else if type = .daemon ∧ p.type = DeviceType.gui.value then .respond (response p.requestId)
  else if type = .gui ∧ p.type = DeviceType.daemon.value then .callback p.type
  else .ignored

/-- Only a daemon responds, to any device. -/
theorem respond_daemon {type : DeviceType} {payload : List UInt8} {p : Packet}
    (h : receive type payload = .respond p) :
    receive .daemon payload = .respond p ∧ type = .daemon ∧ ∃ id, p = response id := by
  have hdaemon : type = .daemon ∧ ∃ id, p = response id := by
    dsimp only [receive] at h
    split_ifs at h with hlen hmagic htype
    · exact ⟨htype.1, _, (Received.respond.inj h).symm⟩
  exact ⟨by rw [← hdaemon.1]; exact h, hdaemon⟩

theorem callback_gui {type : DeviceType} {payload : List UInt8} {t : UInt16}
    (h : receive type payload = .callback t) : type = .gui ∧ t = DeviceType.daemon.value := by
  dsimp only [receive] at h
  split_ifs at h with hlen hmagic hrespond hcallback
  obtain rfl := Received.callback.inj h
  exact hcallback

theorem receive_bytes (type : DeviceType) (p : Packet) (padding : UInt8) :
    receive type (p.bytes padding) =
      if p.magic ≠ MAGIC ∨ p.version ≠ VERSION then .ignored
      else if type = .daemon ∧ p.type = DeviceType.gui.value then .respond (response p.requestId)
      else if type = .gui ∧ p.type = DeviceType.daemon.value then .callback p.type
      else .ignored := by
  have htake : (p.bytes padding).take sizeofPacket = p.bytes padding :=
    List.take_of_length_le (Nat.le_of_eq (p.bytes_length padding))
  simp only [receive, htake, Packet.bytes_length, Packet.load_bytes, ne_eq, not_true_eq_false,
    if_false]

theorem receive_request (type : DeviceType) (padding : UInt8) :
    receive type (request.bytes padding) =
      match type with
      | .daemon => .respond (response request.requestId)
      | .gui => .ignored := by
  rw [receive_bytes]
  cases type <;> rfl

theorem receive_response (type : DeviceType) (id : UInt32) (padding : UInt8) :
    receive type ((response id).bytes padding) =
      match type with
      | .daemon => .ignored
      | .gui => .callback DeviceType.daemon.value := by
  rw [receive_bytes]
  cases type <;> rfl

/-! ## The hosts -/

structure Ip where
  a : UInt8
  b : UInt8
  c : UInt8
  d : UInt8
  deriving DecidableEq, Repr

def inet_ntop (ip : Ip) : String :=
  toString ip.a ++ "." ++ toString ip.b ++ "." ++ toString ip.c ++ "." ++ toString ip.d

/-- A host with its `NetworkDiscovery`. The list of addresses and the counter are those of
the window. -/
structure Host where
  ip : Ip
  type : DeviceType
  running : Bool
  addresses : List String := []
  device_counter : Nat := 0

/-- The callback of the window and what it does on `deviceDiscovered`. -/
def Host.onDevice (h : Host) (ip : String) (type : UInt16) : Host :=
  if type = DeviceType.gui.value then h
  else
    let h := { h with device_counter := h.device_counter + 1 }
    if h.addresses.contains ip then h else { h with addresses := h.addresses ++ [ip] }

structure Datagram (n : Nat) where
  src : Fin n
  dst : Fin n
  payload : List UInt8

inductive Input (n : Nat) where
  | discover (k : Fin n) (padding : UInt8)
  | stop (k : Fin n)
  | stray (src dst : Fin n) (payload : List UInt8)

variable {n : Nat}

/-- The hosts of a network. -/
abbrev Hosts (n : Nat) := Fin n → Host

def onInput (hosts : Hosts n) : Input n → Option (Hosts n × List (Datagram n))
  | .discover k padding =>
    if (hosts k).type = .gui ∧ (hosts k).running then
      some (Function.update hosts k { hosts k with device_counter := 0 },
        (List.finRange n).map fun dst => ⟨k, dst, request.bytes padding⟩)
    else none
  | .stop k => some (Function.update hosts k { hosts k with running := false }, [])
  | .stray src dst payload => some (hosts, [⟨src, dst, payload⟩])

def onDatagram (padding : Hosts n → Datagram n → UInt8) (hosts : Hosts n) (d : Datagram n) :
    Hosts n × List (Datagram n) :=
  if (hosts d.dst).running then
    match receive (hosts d.dst).type d.payload with
    | .ignored => (hosts, [])
    | .respond p => (hosts, [⟨d.dst, d.src, p.bytes (padding hosts d)⟩])
    | .callback type =>
      (Function.update hosts d.dst
        ((hosts d.dst).onDevice (inet_ntop (hosts d.src).ip) type), [])
  else (hosts, [])

/-- The padding of a response is whatever the stack holds. -/
def protocol (padding : Hosts n → Datagram n → UInt8) :
    Protocol (Hosts n) (Input n) (Datagram n) where
  onInput := onInput
  onDatagram := onDatagram padding

abbrev Net (n : Nat) := Network (Hosts n) (Datagram n)

/-! ## One step -/

variable {padding : Hosts n → Datagram n → UInt8} {hosts hosts' : Hosts n}

/-- What a step does to one host: rows are only appended, each of them once. -/
structure Host.Grows (h h' : Host) : Prop where
  ip : h'.ip = h.ip
  type : h'.type = h.type
  addresses : h.addresses <+: h'.addresses
  nodup : h.addresses.Nodup → h'.addresses.Nodup

theorem Host.Grows.refl (h : Host) : h.Grows h := ⟨rfl, rfl, List.prefix_rfl, id⟩

theorem Host.Grows.trans {h h' h'' : Host} (h₁ : h.Grows h') (h₂ : h'.Grows h'') : h.Grows h'' :=
  ⟨h₂.ip.trans h₁.ip, h₂.type.trans h₁.type, h₁.addresses.trans h₂.addresses,
    h₂.nodup ∘ h₁.nodup⟩

/-- A device is counted and its address is in the list afterwards. -/
structure Host.Found (h : Host) (ip : String) (h' : Host) : Prop where
  grows : h.Grows h'
  running : h'.running = h.running
  counted : h'.device_counter = h.device_counter + 1
  rows : ∀ row, row ∈ h'.addresses ↔ row ∈ h.addresses ∨ row = ip

theorem onDevice_found (h : Host) (ip : String) :
    h.Found ip (h.onDevice ip DeviceType.daemon.value) := by
  have hother : DeviceType.daemon.value ≠ DeviceType.gui.value := by decide
  rw [Host.onDevice, if_neg hother]
  by_cases hin : ip ∈ h.addresses
  · have hlisted : h.addresses.contains ip = true := List.contains_iff_mem.mpr hin
    simp only [hlisted, if_true]
    refine ⟨⟨rfl, rfl, List.prefix_rfl, id⟩, rfl, rfl, fun row => ⟨.inl, ?_⟩⟩
    rintro (hrow | rfl)
    · exact hrow
    · exact hin
  · have hlisted : h.addresses.contains ip = false := by
      rw [← Bool.not_eq_true, List.contains_iff_mem]
      exact hin
    simp only [hlisted, Bool.false_eq_true, if_false]
    refine ⟨⟨rfl, rfl, List.prefix_append _ _, fun hnodup => ?_⟩, rfl, rfl, fun row => by simp⟩
    refine List.nodup_append.mpr ⟨hnodup, List.nodup_singleton _, ?_⟩
    rintro row hrow row' hrow' rfl
    exact hin (List.mem_singleton.mp hrow' ▸ hrow)

/-- What delivering a datagram does. -/
inductive Delivered (hosts : Hosts n) (d : Datagram n) : Hosts n × List (Datagram n) → Prop where
  | ignored : Delivered hosts d (hosts, [])
  | responded (id : UInt32) (pad : UInt8)
    (received : receive .daemon d.payload = .respond (response id))
    (daemon : (hosts d.dst).type = .daemon) :
    Delivered hosts d (hosts, [⟨d.dst, d.src, (response id).bytes pad⟩])
  | found (host : Host) (gui : (hosts d.dst).type = .gui)
    (device : (hosts d.dst).Found (inet_ntop (hosts d.src).ip) host)
    (received : receive .gui d.payload = .callback DeviceType.daemon.value) :
    Delivered hosts d (Function.update hosts d.dst host, [])

theorem delivered (padding : Hosts n → Datagram n → UInt8) (hosts : Hosts n) (d : Datagram n) :
    Delivered hosts d (onDatagram padding hosts d) := by
  unfold onDatagram
  split_ifs with hrunning
  · split
    · exact .ignored
    · next p hp =>
      obtain ⟨hreceived, hdaemon, id, rfl⟩ := respond_daemon hp
      exact .responded id _ hreceived hdaemon
    · next type ht =>
      obtain ⟨hgui, rfl⟩ := callback_gui ht
      rw [hgui] at ht
      exact .found _ hgui (onDevice_found _ _) ht
  · exact .ignored

theorem update_grows {k : Fin n} {host : Host} (h : (hosts k).Grows host) (j : Fin n) :
    (hosts j).Grows (Function.update hosts k host j) := by
  by_cases hj : j = k
  · subst hj
    rwa [Function.update_self]
  · rw [Function.update_of_ne hj]
    exact .refl _

theorem Delivered.grows {d : Datagram n} {r : Hosts n × List (Datagram n)}
    (h : Delivered hosts d r) (j : Fin n) : (hosts j).Grows (r.1 j) := by
  cases h with
  | ignored => exact .refl _
  | responded => exact .refl _
  | found host _ device => exact update_grows device.grows j

theorem onInput_grows {i : Input n} {sent : List (Datagram n)}
    (h : onInput hosts i = some (hosts', sent)) (j : Fin n) : (hosts j).Grows (hosts' j) := by
  cases i with
  | discover k padding =>
    simp only [onInput, Option.ite_none_right_eq_some, Option.some.injEq, Prod.mk.injEq] at h
    obtain ⟨-, rfl, -⟩ := h
    have hk : (hosts k).Grows { hosts k with device_counter := 0 } :=
      ⟨rfl, rfl, List.prefix_rfl, id⟩
    exact update_grows hk j
  | stop k =>
    obtain ⟨rfl, -⟩ := Prod.mk.inj (Option.some.inj h)
    have hk : (hosts k).Grows { hosts k with running := false } :=
      ⟨rfl, rfl, List.prefix_rfl, id⟩
    exact update_grows hk j
  | stray src dst payload =>
    obtain ⟨rfl, -⟩ := Prod.mk.inj (Option.some.inj h)
    exact .refl _

/-! ## Which addresses are found -/

/-- The host has searched for devices. -/
def Asks (as : List (Action (Input n))) (k : Fin n) : Prop :=
  ∃ pad, .input (.discover k pad) ∈ as

/-- Another program on the host has sent something. -/
def Strays (as : List (Action (Input n))) (k : Fin n) : Prop :=
  ∃ dst payload, .input (.stray k dst payload) ∈ as

/-- Where the rows of a window come from. -/
def Source (hosts : Hosts n) (as : List (Action (Input n))) (k : Fin n) (row : String) : Prop :=
  row ∈ (hosts k).addresses ∨ ∃ j, row = inet_ntop (hosts j).ip ∧
    (Strays as j ∨ (hosts j).type = .daemon ∧ (Asks as k ∨ Strays as k))

/-- What a datagram is: something of another program, a request or a response. -/
def Known (hosts : Hosts n) (as : List (Action (Input n))) (d : Datagram n) : Prop :=
  Strays as d.src ∨ (∃ pad, d.payload = request.bytes pad) ∧ Asks as d.src ∨
    (∃ id pad, d.payload = (response id).bytes pad) ∧ (hosts d.src).type = .daemon ∧
      (Asks as d.dst ∨ Strays as d.dst)

structure Sound (hosts : Hosts n) (as : List (Action (Input n))) (now : Hosts n) : Prop where
  grows : ∀ k, (hosts k).Grows (now k)
  rows : ∀ k, ∀ row ∈ (now k).addresses, Source hosts as k row

theorem Source.of_update {as : List (Action (Input n))} {now : Hosts n} {k : Fin n} {host : Host}
    (hold : ∀ k, ∀ row ∈ (now k).addresses, Source hosts as k row)
    (hnew : ∀ row ∈ host.addresses, row ∈ (now k).addresses ∨ Source hosts as k row) (j : Fin n)
    (row : String) (hrow : row ∈ (Function.update now k host j).addresses) :
    Source hosts as j row := by
  by_cases hj : j = k
  · subst hj
    rw [Function.update_self] at hrow
    exact (hnew row hrow).elim (hold j row) id
  · rw [Function.update_of_ne hj] at hrow
    exact hold j row hrow

/-- The actions of a run are among `as`. -/
def Among (as : List (Action (Input n))) (_ : Hosts n) (i : Input n) : Prop := .input i ∈ as

theorem onInput_sound {as : List (Action (Input n))} {now now' : Hosts n} {i : Input n}
    {sent : List (Datagram n)} (hs : Sound hosts as now) (hi : Action.input i ∈ as)
    (h : onInput now i = some (now', sent)) :
    Sound hosts as now' ∧ ∀ d ∈ sent, Known hosts as d := by
  have hgrows : ∀ k, (hosts k).Grows (now' k) := fun k => (hs.grows k).trans (onInput_grows h k)
  cases i with
  | discover k pad =>
    simp only [onInput, Option.ite_none_right_eq_some, Option.some.injEq, Prod.mk.injEq] at h
    obtain ⟨-, rfl, rfl⟩ := h
    refine ⟨⟨hgrows, Source.of_update hs.rows fun row hrow => .inl hrow⟩, fun d hd => ?_⟩
    obtain ⟨dst, -, rfl⟩ := List.mem_map.mp hd
    exact .inr (.inl ⟨⟨pad, rfl⟩, pad, hi⟩)
  | stop k =>
    obtain ⟨rfl, rfl⟩ := Prod.mk.inj (Option.some.inj h)
    exact ⟨⟨hgrows, Source.of_update hs.rows fun row hrow => .inl hrow⟩, by simp⟩
  | stray src dst payload =>
    obtain ⟨rfl, rfl⟩ := Prod.mk.inj (Option.some.inj h)
    refine ⟨hs, fun d hd => ?_⟩
    rw [List.mem_singleton.mp hd]
    exact .inl ⟨dst, payload, hi⟩

/-- A response of a daemon comes from a request or from a stray. -/
theorem Known.asked {as : List (Action (Input n))} {d : Datagram n} {id : UInt32}
    (hd : Known hosts as d) (h : receive .daemon d.payload = .respond (response id)) :
    Asks as d.src ∨ Strays as d.src := by
  rcases hd with hstray | ⟨-, hasks⟩ | ⟨⟨id', pad, hpayload⟩, -⟩
  · exact .inr hstray
  · exact .inl hasks
  · rw [hpayload, receive_response] at h
    cases h

theorem Known.source {as : List (Action (Input n))} {d : Datagram n} {t : UInt16}
    (hd : Known hosts as d) (h : receive .gui d.payload = .callback t) :
    Strays as d.src ∨ (hosts d.src).type = .daemon ∧ (Asks as d.dst ∨ Strays as d.dst) := by
  rcases hd with hstray | ⟨⟨pad, hpayload⟩, -⟩ | ⟨-, hdaemon⟩
  · exact .inl hstray
  · rw [hpayload, receive_request] at h
    cases h
  · exact .inr hdaemon

theorem delivered_sound {as : List (Action (Input n))} {now : Hosts n} {d : Datagram n}
    {r : Hosts n × List (Datagram n)} (hs : Sound hosts as now) (hd : Known hosts as d)
    (h : Delivered now d r) : Sound hosts as r.1 ∧ ∀ e ∈ r.2, Known hosts as e := by
  cases h with
  | ignored => exact ⟨hs, by simp⟩
  | responded id pad received daemon =>
    refine ⟨hs, fun e he => ?_⟩
    rw [List.mem_singleton.mp he]
    exact .inr (.inr ⟨⟨id, pad, rfl⟩, (hs.grows d.dst).type.symm.trans daemon, hd.asked received⟩)
  | found host gui device received =>
    refine ⟨⟨fun k => (hs.grows k).trans (update_grows device.grows k),
      Source.of_update hs.rows fun row hrow => ?_⟩, by simp⟩
    rcases (device.rows row).mp hrow with hold | rfl
    · exact .inl hold
    · exact .inr (.inr ⟨d.src, by rw [(hs.grows d.src).ip], hd.source received⟩)

theorem keeps_sound (padding : Hosts n → Datagram n → UInt8) (hosts : Hosts n)
    (as : List (Action (Input n))) :
    Keeps (protocol padding) (Among as) (Sound hosts as) fun _ => Known hosts as where
  input _ _ _ _ hs hi h :=
    have hnext := onInput_sound hs hi h
    ⟨hnext.1, hnext.2, fun _ => id⟩
  datagram s d hs hd :=
    have hnext := delivered_sound hs hd (delivered padding s d)
    ⟨hnext.1, hnext.2, fun _ => id⟩

theorem onInput_of_forall {p : Protocol (Hosts n) (Input n) (Datagram n)} {P : Input n → Prop}
    {net : Net n} {as : List (Action (Input n))} (h : ∀ i, .input i ∈ as → P i) :
    Machine.Meets (Datagrams.step p) (OnInput fun _ => P) net as := by
  refine Machine.meets_of_forall fun a ha net => ?_
  cases a with
  | input i => exact h i ha
  | _ => trivial

theorem sound_run {as : List (Action (Input n))} {net : Net n}
    (h : run (protocol padding) ⟨hosts, []⟩ as = some net) :
    Holds (Sound hosts as) (fun _ => Known hosts as) net :=
  (keeps_sound padding hosts as).run
    ⟨⟨fun _ => .refl _, fun _ _ hrow => .inl hrow⟩, by simp⟩
    (onInput_of_forall (P := fun i => .input i ∈ as) fun _ hi => hi) h

/-! ## The network comes to rest -/

/-- A datagram that a daemon would answer counts twice. -/
def weight (d : Datagram n) : Nat :=
  match receive .daemon d.payload with
  | .respond _ => 2
  | _ => 1

theorem weight_pos (d : Datagram n) : 0 < weight d := by
  unfold weight
  split <;> omega

theorem weight_answer (hosts : Hosts n) (d : Datagram n) :
    total weight ((protocol padding).onDatagram hosts d).2 < weight d := by
  have hpos := weight_pos d
  change total weight (onDatagram padding hosts d).2 < weight d
  generalize hr : onDatagram padding hosts d = r
  have hd : Delivered hosts d r := hr ▸ delivered padding hosts d
  cases hd with
  | ignored => exact hpos
  | responded id pad received =>
    have htwo : weight d = 2 := by rw [weight, received]
    have hone : weight (⟨d.dst, d.src, (response id).bytes pad⟩ : Datagram n) = 1 := by
      rw [weight, receive_response]
    rw [total, total, htwo, hone]
    omega
  | found => exact hpos

/-! ## Every daemon is found -/

def IsStop : Action (Input n) → Prop
  | .input (.stop _) => True
  | _ => False

/-- The hosts are what they were, and those that ran still run. -/
structure Up (hosts now : Hosts n) : Prop where
  grows : ∀ k, (hosts k).Grows (now k)
  running : ∀ k, (hosts k).running = true → (now k).running = true

/-- The daemon's address is in the list of the window. -/
def Listed (hosts : Hosts n) (k j : Fin n) (now : Hosts n) : Prop :=
  inet_ntop (hosts j).ip ∈ (now k).addresses

/-- A request of the window to the daemon, or a response to it. -/
def Underway (k j : Fin n) (d : Datagram n) : Prop :=
  d.src = k ∧ d.dst = j ∧ (∃ pad, d.payload = request.bytes pad) ∨
    d.src = j ∧ d.dst = k ∧ ∃ id pad, d.payload = (response id).bytes pad

theorem update_running {now : Hosts n} {k : Fin n} {host : Host}
    (h : host.running = (now k).running) (j : Fin n) :
    (Function.update now k host j).running = (now j).running := by
  by_cases hj : j = k
  · subst hj
    rw [Function.update_self, h]
  · rw [Function.update_of_ne hj]

def Stays (_ : Hosts n) (i : Input n) : Prop := ¬ IsStop (.input i)

theorem onInput_up {now now' : Hosts n} {i : Input n} {sent : List (Datagram n)}
    (hs : Up hosts now) (hi : ¬ IsStop (.input i)) (h : onInput now i = some (now', sent)) :
    Up hosts now' := by
  refine ⟨fun k => (hs.grows k).trans (onInput_grows h k), fun j hj => ?_⟩
  cases i with
  | discover k pad =>
    simp only [onInput, Option.ite_none_right_eq_some, Option.some.injEq, Prod.mk.injEq] at h
    obtain ⟨-, rfl, -⟩ := h
    have hk : ({ now k with device_counter := 0 } : Host).running = (now k).running := rfl
    exact (update_running hk j).trans (hs.running j hj)
  | stop k => exact absurd trivial hi
  | stray src dst payload =>
    obtain ⟨rfl, -⟩ := Prod.mk.inj (Option.some.inj h)
    exact hs.running j hj

theorem delivered_up {now : Hosts n} {d : Datagram n} {r : Hosts n × List (Datagram n)}
    (hs : Up hosts now) (h : Delivered now d r) : Up hosts r.1 := by
  refine ⟨fun k => (hs.grows k).trans (h.grows k), fun j hj => ?_⟩
  cases h with
  | ignored => exact hs.running j hj
  | responded => exact hs.running j hj
  | found host _ device => exact (update_running device.running j).trans (hs.running j hj)

theorem keeps_up (padding : Hosts n → Datagram n → UInt8) (hosts : Hosts n) :
    Keeps (protocol padding) Stays (Up hosts) fun _ _ => True where
  input _ _ _ _ hs hi h := ⟨onInput_up hs hi h, by simp, fun _ => id⟩
  datagram s d hs _ := ⟨delivered_up hs (delivered padding s d), by simp, fun _ => id⟩

/-- A running host answers. -/
theorem onDatagram_running {now : Hosts n} {d : Datagram n}
    (hrunning : (now d.dst).running = true) :
    onDatagram padding now d = match receive (now d.dst).type d.payload with
      | .ignored => (now, [])
      | .respond p => (now, [⟨d.dst, d.src, p.bytes (padding now d)⟩])
      | .callback type =>
        (Function.update now d.dst ((now d.dst).onDevice (inet_ntop (now d.src).ip) type), []) := by
  rw [onDatagram, if_pos hrunning]

theorem underway_delivered {now : Hosts n} {k j : Fin n} {d : Datagram n}
    (hk : (hosts k).type = .gui) (hj : (hosts j).type = .daemon)
    (hup : (hosts k).running = true ∧ (hosts j).running = true) (hs : Up hosts now)
    (hd : Underway k j d) :
    Listed hosts k j (onDatagram padding now d).1 ∨
      ∃ e ∈ (onDatagram padding now d).2, Underway k j e := by
  rcases hd with ⟨rfl, rfl, pad, hpayload⟩ | ⟨rfl, rfl, id, pad, hpayload⟩
  · rw [onDatagram_running (hs.running d.dst hup.2), (hs.grows d.dst).type, hj, hpayload,
      receive_request]
    exact .inr ⟨_, List.mem_singleton_self _, .inr ⟨rfl, rfl, _, _, rfl⟩⟩
  · rw [onDatagram_running (hs.running d.dst hup.1), (hs.grows d.dst).type, hk, hpayload,
      receive_response]
    have hfound := onDevice_found (now d.dst) (inet_ntop (now d.src).ip)
    refine .inl ?_
    change inet_ntop (hosts d.src).ip ∈ (Function.update now d.dst _ d.dst).addresses
    rw [Function.update_self, hfound.rows, (hs.grows d.src).ip]
    exact .inr rfl

theorem promises_listed (padding : Hosts n → Datagram n → UInt8) {k j : Fin n}
    (hk : (hosts k).type = .gui) (hj : (hosts j).type = .daemon)
    (hup : (hosts k).running = true ∧ (hosts j).running = true) :
    Promises (protocol padding) Stays (Up hosts) (fun _ _ => True) (Listed hosts k j)
      fun _ => Underway k j where
  kept := keeps_up padding hosts
  input _ _ _ _ _ _ h := ⟨fun hrow => (onInput_grows h k).addresses.subset hrow, fun _ => id⟩
  other s d _ _ :=
    ⟨fun hrow => ((delivered padding s d).grows k).addresses.subset hrow, fun _ => id⟩
  delivered _ _ hs _ hd := underway_delivered hk hj hup hs hd

/-- What holds of the windows after the actions `as`. -/
structure Discovered (hosts : Hosts n) (p : Protocol (Hosts n) (Input n) (Datagram n))
    (as : List (Action (Input n))) (net : Net n) : Prop where
  /-- A row was there before or is the address of a daemon that was asked, where nobody else
  sends anything. -/
  sound : ∀ k, ∀ row ∈ (net.nodes k).addresses, Source hosts as k row
  /-- Rows are appended, and none twice. -/
  rows : ∀ k, (hosts k).addresses <+: (net.nodes k).addresses ∧
    ((hosts k).addresses.Nodup → (net.nodes k).addresses.Nodup)
  /-- Responses are not answered: what is in flight is soon gone. -/
  bounded : ∀ bs net', (∀ b ∈ bs, IsPassing b) → run p net bs = some net' →
    bs.length ≤ 2 * net.inFlight.length
  /-- Where nothing was lost and nobody stopped, a window that has searched lists all daemons
  that run when nothing is in flight. -/
  complete : (∀ a ∈ as, ¬ IsLoss a ∧ ¬ IsStop a) → net.inFlight = [] → ∀ k j, Asks as k →
    (hosts k).running = true → (hosts j).type = .daemon → (hosts j).running = true →
      inet_ntop (hosts j).ip ∈ (net.nodes k).addresses

theorem total_weight_le (ds : List (Datagram n)) : total weight ds ≤ 2 * ds.length := by
  induction ds with
  | nil => exact Nat.le_refl 0
  | cons d ds ih =>
    have hd : weight d ≤ 2 := by
      unfold weight
      split <;> omega
    rw [total, List.length_cons]
    omega

/-- What is due after a window has asked. -/
theorem due_of_discover (hosts : Hosts n) (j : Fin n) {net net' : Net n} {k : Fin n} {pad : UInt8}
    (h : Datagrams.step (protocol padding) net (.input (.discover k pad)) = some net') :
    (net.nodes k).type = .gui ∧ Due (Listed hosts k j) (fun _ => Underway k j) net' := by
  obtain ⟨r, hr, rfl⟩ := Option.map_eq_some_iff.mp h
  change onInput net.nodes (.discover k pad) = some r at hr
  simp only [onInput, Option.ite_none_right_eq_some, Option.some.injEq] at hr
  obtain ⟨⟨hgui, -⟩, rfl⟩ := hr
  have hsent : ⟨k, j, request.bytes pad⟩ ∈
      (List.finRange n).map fun dst => (⟨k, dst, request.bytes pad⟩ : Datagram n) :=
    List.mem_map.mpr ⟨j, List.mem_finRange j, rfl⟩
  exact ⟨hgui, .inr ⟨_, List.mem_append_right _ hsent, .inl ⟨rfl, rfl, pad, rfl⟩⟩⟩

theorem listed_run {as : List (Action (Input n))} {net : Net n}
    (has : ∀ a ∈ as, ¬ IsLoss a ∧ ¬ IsStop a) (hrest : net.inFlight = []) {k j : Fin n}
    (hup : (hosts k).running = true ∧ (hosts j).running = true) (hasks : Asks as k)
    (hj : (hosts j).type = .daemon) (h : run (protocol padding) ⟨hosts, []⟩ as = some net) :
    Listed hosts k j net.nodes := by
  obtain ⟨pad, hmem⟩ := hasks
  obtain ⟨before, after, rfl⟩ := List.append_of_mem hmem
  obtain ⟨u, u', hbefore, hstep, hafter⟩ := Machine.run_append_cons.mp h
  have hstays : ∀ bs : List (Action (Input n)),
      (∀ b ∈ bs, b ∈ before ++ .input (.discover k pad) :: after) → ∀ net : Net n,
      Machine.Meets (Datagrams.step (protocol padding)) (OnInput Stays) net bs :=
    fun bs hbs net => onInput_of_forall (P := fun i => ¬ IsStop (.input i))
      fun i hi => (has _ (hbs _ hi)).2
  have hkeeps := keeps_up padding hosts
  have hu : Holds (Up hosts) (fun _ _ => True) u :=
    hkeeps.run ⟨⟨fun _ => .refl _, fun _ => id⟩, by simp⟩ (hstays before (fun b hb => by simp [hb]) _)
      hbefore
  obtain ⟨hgui, hdue⟩ := due_of_discover hosts j hstep
  have hk : (hosts k).type = .gui := (hu.nodes.grows k).type.symm.trans hgui
  have hasked : OnInput Stays u (.input (.discover k pad)) := fun h => h
  have hend := (promises_listed padding hk hj hup).run (hkeeps.step hu hasked hstep) hdue
    (hstays after (fun b hb => by simp [hb]) _) (fun a ha => (has a (by simp [ha])).1) hafter
  exact hend.done hrest

/-- **Over every interleaving of searches, losses, doubles and strays, a window lists
addresses of daemons that were asked, each once; the network comes to rest; and without a
loss every daemon that runs is listed.** -/
theorem discovered_run (padding : Hosts n → Datagram n → UInt8) (hosts : Hosts n)
    (as : List (Action (Input n))) (net : Net n)
    (h : run (protocol padding) ⟨hosts, []⟩ as = some net) :
    Discovered hosts (protocol padding) as net where
  sound := (sound_run h).nodes.rows
  rows k := ⟨((sound_run h).nodes.grows k).addresses, ((sound_run h).nodes.grows k).nodup⟩
  bounded bs net' hbs hr := by
    have hrest := passing_run weight_answer hbs hr
    have hle := total_weight_le net.inFlight
    omega
  complete has hrest _ _ hasks hk hj hrun := listed_run has hrest ⟨hk, hrun⟩ hasks hj h

/-- A window and a daemon: the daemon answers a doubled request twice, and is listed once. -/
theorem discovered_run_doubled :
    let hosts : Hosts 3 := fun k => if k = 0 then ⟨⟨10, 0, 0, 1⟩, .gui, true, [], 0⟩
      else if k = 1 then ⟨⟨10, 0, 0, 2⟩, .daemon, true, [], 0⟩
      else ⟨⟨10, 0, 0, 3⟩, .daemon, false, [], 0⟩
    let as : List (Action (Input 3)) := [.input (.discover 0 7), .deliver 0, .duplicate 0,
      .deliver 0, .deliver 0, .deliver 0, .deliver 0, .deliver 0]
    ∃ net, run (protocol fun _ _ => 3) ⟨hosts, []⟩ as = some net ∧
      Discovered hosts (protocol fun _ _ => 3) as net ∧
      inet_ntop ⟨10, 0, 0, 2⟩ ∈ (net.nodes 0).addresses := by
  intro hosts as
  have hend : (run (protocol fun _ _ => 3) ⟨hosts, []⟩ as).map (·.inFlight.length) = some 0 := by
    decide +kernel
  obtain ⟨net, hr, hlen⟩ := Option.map_eq_some_iff.mp hend
  have h := discovered_run (fun _ _ => 3) hosts as net hr
  have hquiet : ∀ a ∈ as, ¬ IsLoss a ∧ ¬ IsStop a := by
    intro a ha
    simp only [as, List.mem_cons, List.not_mem_nil, or_false] at ha
    rcases ha with rfl | rfl | rfl | rfl | rfl | rfl | rfl | rfl <;> exact ⟨id, id⟩
  exact ⟨net, hr, h, h.complete hquiet (List.eq_nil_of_length_eq_zero hlen) 0 1
    ⟨7, List.mem_cons_self ..⟩ rfl rfl rfl⟩

/-! ## The number of devices -/

/-- The actions of a search of `k`, beside those of other windows. -/
def OfSearch (k : Fin n) : Action (Input n) → Prop
  | .input (.discover k' _) => k' ≠ k
  | .deliver _ => True
  | _ => False

/-- A datagram that `k` will count: a request of its own to a daemon, or a response to it. -/
def awaited (hosts : Hosts n) (k : Fin n) (d : Datagram n) : Nat :=
  match receive .daemon d.payload with
  | .respond _ => if d.src = k ∧ (hosts d.dst).type = .daemon then 1 else 0
  | _ => if d.dst = k ∧ receive .gui d.payload = .callback DeviceType.daemon.value then 1 else 0

def daemons (hosts : Hosts n) (ks : List (Fin n)) : Nat :=
  ks.countP fun j => (hosts j).type = .daemon

theorem awaited_request (hosts : Hosts n) (k src dst : Fin n) (pad : UInt8) :
    awaited hosts k ⟨src, dst, request.bytes pad⟩ =
      if src = k ∧ (hosts dst).type = .daemon then 1 else 0 := by
  rw [awaited, receive_request]

theorem awaited_response (hosts : Hosts n) (k src dst : Fin n) (id : UInt32) (pad : UInt8) :
    awaited hosts k ⟨src, dst, (response id).bytes pad⟩ = if dst = k then 1 else 0 := by
  rw [awaited, receive_response, receive_response]
  simp

/-- The requests that go to daemons. -/
theorem total_requests (hosts : Hosts n) (k src : Fin n) (pad : UInt8) (ks : List (Fin n)) :
    total (awaited hosts k) (ks.map fun dst => ⟨src, dst, request.bytes pad⟩) =
      if src = k then daemons hosts ks else 0 := by
  induction ks with
  | nil => simp [total, daemons]
  | cons dst ks ih =>
    rw [List.map_cons, total, awaited_request, ih, daemons, daemons, List.countP_cons]
    by_cases hsrc : src = k
    · by_cases hdst : (hosts dst).type = .daemon
      · simp [hsrc, hdst, Nat.add_comm]
      · simp [hsrc, hdst]
    · simp [hsrc]

/-- No datagram is answered by daemons and counted by windows. -/
theorem respond_of_callback {payload : List UInt8} {t : UInt16}
    (h : receive .gui payload = .callback t) (p : Packet) :
    receive .daemon payload ≠ .respond p := by
  intro hrespond
  dsimp only [receive] at h hrespond
  split_ifs at h hrespond with hlen hmagic hgui hdaemon hcallback
  exact absurd (hcallback.2.symm.trans hdaemon.2) (by decide)

/-- A delivered datagram is counted, or its answer will be. -/
theorem awaited_delivered {now : Hosts n} {k : Fin n} (hk : (hosts k).type = .gui)
    (hup : ∀ j, (hosts j).running = true) (hs : Up hosts now) (d : Datagram n) :
    ((onDatagram padding now d).1 k).device_counter +
      total (awaited hosts k) (onDatagram padding now d).2 =
      (now k).device_counter + awaited hosts k d := by
  rw [onDatagram_running (hs.running d.dst (hup d.dst)), (hs.grows d.dst).type]
  cases hreceive : receive (hosts d.dst).type d.payload with
  | ignored =>
    have hnone : awaited hosts k d = 0 := by
      unfold awaited
      split
      · next p hp =>
        rw [if_neg]
        rintro ⟨-, hdaemon⟩
        rw [hdaemon, hp] at hreceive
        cases hreceive
      · rw [if_neg]
        rintro ⟨hdst, hcallback⟩
        rw [hdst, hk, hcallback] at hreceive
        cases hreceive
    rw [hnone]
    rfl
  | respond p =>
    obtain ⟨hrespond, hdaemon, id, rfl⟩ := respond_daemon hreceive
    have hone : awaited hosts k d = if d.src = k then 1 else 0 := by
      rw [awaited, hrespond]
      simp [hdaemon]
    simp only [total, awaited_response, hone, Nat.add_zero]
  | callback t =>
    obtain ⟨hgui, rfl⟩ := callback_gui hreceive
    rw [hgui] at hreceive
    have hone : awaited hosts k d = if d.dst = k then 1 else 0 := by
      unfold awaited
      split
      · next p hp => exact absurd hp (respond_of_callback hreceive p)
      · simp [hreceive]
    have hfound := onDevice_found (now d.dst) (inet_ntop (now d.src).ip)
    by_cases hdst : d.dst = k
    · subst hdst
      simp only [Function.update_self, hfound.counted, hone, total, if_true, Nat.add_zero]
    · simp only [Function.update_of_ne (Ne.symm hdst), hone, total, if_neg hdst]

/-- What has been counted and what will be. -/
def Counting (hosts : Hosts n) (k : Fin n) (net : Net n) : Prop :=
  (net.nodes k).device_counter + total (awaited hosts k) net.inFlight =
    daemons hosts (List.finRange n)

theorem counting_step {net net' : Net n} {k : Fin n} {a : Action (Input n)}
    (hk : (hosts k).type = .gui) (hup : ∀ j, (hosts j).running = true)
    (hs : Up hosts net.nodes) (hc : Counting hosts k net)
    (ha : OfSearch k a) (h : Datagrams.step (protocol padding) net a = some net') :
    Counting hosts k net' := by
  unfold Counting at hc ⊢
  cases stepped h with
  | input i sent does inFlight =>
    cases i with
    | discover k' pad =>
      have hne : k' ≠ k := ha
      change onInput net.nodes (.discover k' pad) = some (net'.nodes, sent) at does
      simp only [onInput, Option.ite_none_right_eq_some, Option.some.injEq, Prod.mk.injEq] at does
      obtain ⟨-, hnodes, rfl⟩ := does
      rw [inFlight, total_append, total_requests, if_neg hne, ← hnodes,
        Function.update_of_ne hne.symm]
      exact hc
    | stop => cases ha
    | stray => cases ha
  | deliver i d others before nodes inFlight =>
    have hd : ((onDatagram padding net.nodes d).1 k).device_counter +
        total (awaited hosts k) (onDatagram padding net.nodes d).2 =
        (net.nodes k).device_counter + awaited hosts k d := awaited_delivered hk hup hs d
    rw [total_perm before, total] at hc
    rw [nodes, inFlight, total_append]
    change (((onDatagram padding net.nodes d).1 k).device_counter + _ = _)
    change _ + (_ + total (awaited hosts k) (onDatagram padding net.nodes d).2) = _
    omega
  | lose => cases ha
  | duplicate => cases ha

theorem OfSearch.stays {k : Fin n} {a : Action (Input n)} (ha : OfSearch k a) (net : Net n) :
    OnInput Stays net a := by
  cases a with
  | input i =>
    cases i with
    | stop => cases ha
    | _ => exact fun h => h
  | _ => trivial

theorem counting_run {net net' : Net n} {k : Fin n} {as : List (Action (Input n))}
    (hk : (hosts k).type = .gui) (hup : ∀ j, (hosts j).running = true)
    (hs : Holds (Up hosts) (fun _ _ => True) net)
    (hc : Counting hosts k net) (has : ∀ a ∈ as, OfSearch k a)
    (h : run (protocol padding) net as = some net') : Counting hosts k net' := by
  induction as generalizing net with
  | nil =>
    cases h
    exact hc
  | cons a as ih =>
    obtain ⟨next, hstep, hrest⟩ := Machine.run_cons_some.mp h
    have ha := has a (by simp)
    exact ih ((keeps_up padding hosts).step hs (ha.stays net) hstep)
      (counting_step hk hup hs.nodes hc ha hstep) (fun b hb => has b (by simp [hb])) hrest

/-- **The number of devices that a search reports.** Where all hosts run, nothing is in flight
before it, nothing is lost, doubled or sent by other programs, nobody stops and the window does
not search again, the counter never exceeds the number of daemons, and it is that number when
nothing is in flight again. -/
theorem search_counts (padding : Hosts n → Datagram n → UInt8) (hosts : Hosts n) (k : Fin n)
    (pad : UInt8) (as : List (Action (Input n))) (net : Net n)
    (hup : ∀ j, (hosts j).running = true) (has : ∀ a ∈ as, OfSearch k a)
    (h : run (protocol padding) ⟨hosts, []⟩ (.input (.discover k pad) :: as) = some net) :
    (net.nodes k).device_counter ≤ daemons hosts (List.finRange n) ∧
      (net.inFlight = [] → (net.nodes k).device_counter = daemons hosts (List.finRange n)) := by
  obtain ⟨first, hfirst, hrest⟩ := Machine.run_cons_some.mp h
  have hkeeps := keeps_up padding hosts
  have hbegin : Holds (Up hosts) (fun _ _ => True) (⟨hosts, []⟩ : Net n) :=
    ⟨⟨fun _ => .refl _, fun _ => id⟩, by simp⟩
  have hup₁ : Holds (Up hosts) (fun _ _ => True) first :=
    hkeeps.step (a := .input (.discover k pad)) hbegin (fun h => h) hfirst
  have hk : (hosts k).type = .gui := (due_of_discover hosts k hfirst).1
  have hcount : Counting hosts k first := by
    obtain ⟨r, hr, rfl⟩ := Option.map_eq_some_iff.mp hfirst
    change onInput hosts (.discover k pad) = some r at hr
    simp only [onInput, Option.ite_none_right_eq_some, Option.some.injEq] at hr
    obtain ⟨-, rfl⟩ := hr
    simp only [Counting, List.nil_append, total_requests, if_true, Function.update_self]
    exact Nat.zero_add _
  have hc := counting_run hk hup hup₁ hcount has hrest
  unfold Counting at hc
  refine ⟨by omega, fun hempty => ?_⟩
  rw [hempty, total] at hc
  omega

/-- Two daemons answer in the other order. -/
theorem search_counts_two :
    let hosts : Hosts 3 := fun k => if k = 0 then ⟨⟨10, 0, 0, 1⟩, .gui, true, [], 5⟩
      else ⟨⟨10, 0, 0, 2⟩, .daemon, true, [], 0⟩
    ∃ net, run (protocol fun _ _ => 0) ⟨hosts, []⟩ [.input (.discover 0 0), .deliver 2, .deliver 2,
        .deliver 0, .deliver 0, .deliver 0] = some net ∧
      (net.nodes 0).device_counter = daemons hosts (List.finRange 3) := by
  intro hosts
  have hend : (run (protocol fun _ _ => 0) ⟨hosts, []⟩ [.input (.discover 0 0), .deliver 2,
      .deliver 2, .deliver 0, .deliver 0, .deliver 0]).map (·.inFlight.length) = some 0 := by
    decide +kernel
  obtain ⟨net, hr, hlen⟩ := Option.map_eq_some_iff.mp hend
  have hempty : net.inFlight = [] := List.eq_nil_of_length_eq_zero hlen
  have hup : ∀ j, (hosts j).running = true := by decide
  refine ⟨net, hr, (search_counts _ hosts 0 0 _ net hup (fun a ha => ?_) hr).2 hempty⟩
  simp only [List.mem_cons, List.not_mem_nil, or_false] at ha
  rcases ha with rfl | rfl | rfl | rfl | rfl <;> trivial

end MuonDetector.Network.Discovery
