import MuonDetector.Ublox.ConfigAgreement
import MuonDetector.Ublox.Driver

/-!
# The queue of version-dependent commands

Commands that depend on the protocol version wait until a version is known, and are
then run in the order they came. The first version that is received is kept even when
it cannot be parsed. From then on a later version is not looked at, and a GNSS
configuration reads a version that is not there. The queue is run whatever the state of the
handshake is, and before the handshake is over what it sends is refused. Otherwise the queue
is served.
-/

namespace MuonDetector.Ublox.VersionQueue

open MuonDetector.Library MuonDetector.Library.Machine
open MuonDetector.Ublox.Message MuonDetector.Ublox.Events MuonDetector.Ublox.ProtVersion
open MuonDetector.Ublox.MessageProcessor MuonDetector.Ublox.Serial
open MuonDetector.Ublox.Commands MuonDetector.Ublox.Driver
open MuonDetector.Ublox.ConfigAgreement

/-! ## The promise -/

/-- The order of versions: by the major number and then by the minor one. -/
def NotAfter (v w : UbxProtVersion) : Prop := v.major < w.major ∨ v.major = w.major ∧ v.minor ≤ w.minor

instance (v w : UbxProtVersion) : Decidable (NotAfter v w) :=
  inferInstanceAs (Decidable (v.major < w.major ∨ v.major = w.major ∧ v.minor ≤ w.minor))

/-- The entries of the commands, in their order, whose range holds the version. -/
def inRange (version : UbxProtVersion) (commands : List UbxVersionDependentCmd) :
    List UbxVersionDependentCmd.Entry :=
  commands.flatMap fun command =>
    command.config.filter fun e => NotAfter e.min version ∧ NotAfter version e.max

/-- The version that a label brings, if it can be parsed. -/
def broughtVersion : Label → Option UbxProtVersion
  | .command (.gpsVersion gps) => getProtVersion gps.prot
  | _ => none

/-- The message that carries out a command of the queue. -/
def messageOf (version : UbxProtVersion) : VersionedCmd → Option UbxMessage
  | .msgRate cmd => (msgRatePayload cmd).toOption.map fun data => ⟨MsgId.cfgMsg, data⟩
  | .gnssConfig cmd =>
    (gnssPayload (some version) cmd.gnssConfigs).toOption.map fun data => ⟨MsgId.cfgGNSS, data⟩

/-- The handler of the entry has sent its message, and nothing else. -/
def CarriedOut (version : UbxProtVersion) (r : Ran) : Prop :=
  ∃ msg, messageOf version r.entry.cmd = some msg ∧ r.sent = [(.ready, msg)]

structure QueueServed (as : List Label) (d : SerialDriver) : Prop where
  noThrow : ∀ fault, d.crashed ≠ some (.fault fault)
  waiting : as.findSome? broughtVersion = none → d.ran = [] ∧ d.queuedCmds = d.accepted
  served : ∀ version, as.findSome? broughtVersion = some version →
    d.ran.map Ran.entry = inRange version d.accepted ∧ d.queuedCmds = []
  carriedOut : ∀ version, as.findSome? broughtVersion = some version →
    ∀ r ∈ d.ran, CarriedOut version r
  inOrder : (d.ran.flatMap Ran.sent).Sublist d.sent

theorem less_eq_false (v w : UbxProtVersion) : v.less w = false ↔ NotAfter w v := by
  obtain ⟨major, minor⟩ := v
  obtain ⟨major', minor'⟩ := w
  simp only [UbxProtVersion.less, NotAfter]
  by_cases h : major = major'
  · subst h
    simp
  · have hne : major' ≠ major := fun h' => h h'.symm
    simp only [ne_eq, h, not_false_eq_true, if_true, decide_eq_false_iff_not, hne, false_and,
      or_false, UInt32.not_lt]
    constructor
    · intro hle
      exact UInt32.lt_of_le_of_ne hle hne
    · exact UInt32.le_of_lt

theorem applies_iff (e : UbxVersionDependentCmd.Entry) (version : UbxProtVersion) :
    applies e version = true ↔ NotAfter e.min version ∧ NotAfter version e.max := by
  rw [applies, Bool.and_eq_true, Bool.not_eq_true', Bool.not_eq_true', less_eq_false,
    less_eq_false]

theorem entriesFor_eq_inRange (version : UbxProtVersion) (queue : List UbxVersionDependentCmd) :
    entriesFor version queue = inRange version queue := by
  rw [entriesFor, inRange]
  congr 1
  funext command
  apply List.filter_congr
  intro e _
  exact Bool.eq_iff_iff.mpr ((applies_iff e version).trans decide_eq_true_iff.symm)

/-! ## The condition -/

/-- The port of a rate is in the array it is written to. -/
def portFits : VersionedCmd → Bool
  | .msgRate cmd => cmd.port ≤ 6
  | .gnssConfig _ => true

def portsFit (version : UbxProtVersion) (commands : List UbxVersionDependentCmd) : Bool :=
  (entriesFor version commands).all (portFits ·.cmd)

/-- The version that is known, if one was stored and can be parsed. -/
def knownVersion (b : Book) : Option UbxProtVersion :=
  b.protocolVersion.bind fun gps => getProtVersion gps.prot

/-- A version is stored, and whether it can be parsed. -/
def storedVersion (d : SerialDriver) : Option (Option UbxProtVersion) :=
  d.protocolVersion.map fun gps => getProtVersion gps.prot

/-- The entries that are run have their ports in the array, and are run when the handshake
is over. -/
def runsWell (d : SerialDriver) (version : UbxProtVersion)
    (commands : List UbxVersionDependentCmd) : Bool :=
  portsFit version commands && (d.initState = .ready || (entriesFor version commands).isEmpty)

/-- While the version that is stored cannot be parsed, neither a GNSS configuration with
a block nor a version that can be parsed is handled, and no entry is run with a port above 6
or before the handshake is over. -/
def stepServes (d : SerialDriver) : Label → Bool
  | .command (.gnssConfig cmd) =>
    match storedVersion d with
    | some none => cmd.gnssConfigs.isEmpty
    | _ => true
  | .command (.gpsVersion gps) =>
    match storedVersion d, getProtVersion gps.prot with
    | some none, some _ => false
    | none, some version => runsWell d version d.queuedCmds
    | _, _ => true
  | .command (.versionDependent cmd) =>
    match storedVersion d with
    | some (some version) => runsWell d version [cmd]
    | _ => true
  | _ => true

/-! ## What runs without a fault -/

theorem msgRateEffects_ok {cmd : UbxMsgRateCmd} (h : cmd.port ≤ 6) :
    ∃ es, msgRateEffects cmd = .ok es := by
  have hpayload : ∃ data, msgRatePayload cmd = .ok data := by
    by_cases hsix : cmd.port = 6
    · exact ⟨_, if_neg (not_not.mpr hsix)⟩
    · have hport : 2 + cmd.port.toNat < 8 := by
        have hle : cmd.port.toNat ≤ 6 := UInt8.le_iff_toNat_le.mp h
        have hne : cmd.port.toNat ≠ 6 := fun heq => hsix (UInt8.toNat_inj.mp heq)
        omega
      simp [msgRatePayload, hsix, hport]
  obtain ⟨data, hdata⟩ := hpayload
  rw [msgRateEffects, hdata]
  exact ⟨_, rfl⟩

theorem versionedEffects_ok {gps : GpsVersion} {version : UbxProtVersion}
    (hgps : getProtVersion gps.prot = some version) {cmd : VersionedCmd} (h : portFits cmd = true) :
    ∃ es, versionedEffects gps cmd = .ok es := by
  cases cmd with
  | msgRate cmd => exact msgRateEffects_ok (by simpa [portFits] using h)
  | gnssConfig cmd =>
    rw [versionedEffects, gnssConfigEffects, hgps, gnssPayload_eq]
    exact ⟨_, rfl⟩

theorem entriesEffects_ok {gps : GpsVersion} {version : UbxProtVersion}
    (hgps : getProtVersion gps.prot = some version) {entries : List UbxVersionDependentCmd.Entry}
    (h : (entries.filter (applies · version)).all (portFits ·.cmd) = true) :
    ∃ es, entriesEffects gps version entries = .ok es := by
  induction entries with
  | nil => exact ⟨[], rfl⟩
  | cons entry rest ih =>
    rw [entriesEffects]
    rw [List.filter_cons] at h
    split
    · rename_i happlies
      rw [if_pos happlies, List.all_cons, Bool.and_eq_true] at h
      obtain ⟨es, hes⟩ := versionedEffects_ok hgps h.1
      obtain ⟨fs, hfs⟩ := ih h.2
      rw [hes, hfs]
      exact ⟨es ++ fs, rfl⟩
    · rename_i hnot
      rw [if_neg hnot] at h
      exact ih h

theorem queueEffects_ok {gps : GpsVersion} {version : UbxProtVersion}
    (hgps : getProtVersion gps.prot = some version) {queue : List UbxVersionDependentCmd}
    (h : portsFit version queue = true) : ∃ es, queueEffects gps version queue = .ok es := by
  induction queue with
  | nil => exact ⟨[], rfl⟩
  | cons command rest ih =>
    rw [portsFit, entriesFor, List.flatMap_cons, List.all_append, Bool.and_eq_true] at h
    obtain ⟨es, hes⟩ := entriesEffects_ok hgps h.1
    obtain ⟨fs, hfs⟩ := ih h.2
    rw [queueEffects, hes, hfs]
    exact ⟨es ++ fs, rfl⟩

theorem ratesEffects_ok {cmds : List UbxMsgRateCmd} (h : ∀ cmd ∈ cmds, cmd.port ≤ 6) :
    ∃ es, ratesEffects cmds = .ok es := by
  induction cmds with
  | nil => exact ⟨[], rfl⟩
  | cons cmd rest ih =>
    obtain ⟨es, hes⟩ := msgRateEffects_ok (h cmd (List.mem_cons_self ..))
    obtain ⟨fs, hfs⟩ := ih fun c hc => h c (List.mem_cons_of_mem _ hc)
    rw [ratesEffects, hes, hfs]
    exact ⟨es ++ fs, rfl⟩

/-! ## What is sent out of the queue -/

/-- After the handshake an entry that can be run is carried out. -/
theorem recordOf_carriedOut {gps : GpsVersion} {version : UbxProtVersion}
    (hgps : getProtVersion gps.prot = some version) {entry : UbxVersionDependentCmd.Entry}
    (h : portFits entry.cmd = true) : CarriedOut version (recordOf .ready gps entry) := by
  obtain ⟨es, hes⟩ := versionedEffects_ok hgps h
  obtain ⟨min, max, cmd⟩ := entry
  simp only at hes
  rw [recordOf, hes]
  cases cmd with
  | msgRate cmd =>
    obtain ⟨data, hdata, hes⟩ := bind_eq_ok hes
    cases hes
    exact ⟨⟨MsgId.cfgMsg, data⟩, by simp [messageOf, hdata, Except.toOption], rfl⟩
  | gnssConfig cmd =>
    rw [versionedEffects, hgps] at hes
    obtain ⟨data, hdata, hes⟩ := bind_eq_ok hes
    cases hes
    exact ⟨⟨MsgId.cfgGNSS, data⟩, by simp [messageOf, hdata, Except.toOption], rfl⟩

theorem flatMap_sent_entries {gps : GpsVersion} {version : UbxProtVersion} (state : InitState)
    {entries : List UbxVersionDependentCmd.Entry} {es : List Effect}
    (h : entriesEffects gps version entries = .ok es) :
    ((entries.filter (applies · version)).map (recordOf state gps)).flatMap Ran.sent =
      sentIn state es := by
  induction entries generalizing es with
  | nil =>
    cases h
    rfl
  | cons entry rest ih =>
    rw [entriesEffects] at h
    split at h
    · rename_i happlies
      obtain ⟨fs, hfs, h⟩ := bind_eq_ok h
      obtain ⟨gs, hgs, h⟩ := bind_eq_ok h
      cases h
      have hsent : (recordOf state gps entry).sent = sentIn state fs := by
        rw [recordOf, hfs]
        rfl
      rw [List.filter_cons, if_pos happlies, List.map_cons, List.flatMap_cons, hsent, ih hgs,
        sentIn_append]
    · rename_i hnot
      rw [List.filter_cons, if_neg hnot]
      exact ih h

/-- The records of a queue are what its effects send. -/
theorem flatMap_sent_queue {gps : GpsVersion} {version : UbxProtVersion} (state : InitState)
    {queue : List UbxVersionDependentCmd} {es : List Effect}
    (h : queueEffects gps version queue = .ok es) :
    ((entriesFor version queue).map (recordOf state gps)).flatMap Ran.sent = sentIn state es := by
  induction queue generalizing es with
  | nil =>
    cases h
    rfl
  | cons command rest ih =>
    obtain ⟨fs, hfs, h⟩ := bind_eq_ok h
    obtain ⟨gs, hgs, h⟩ := bind_eq_ok h
    cases h
    rw [entriesFor, List.flatMap_cons, List.map_append, List.flatMap_append,
      flatMap_sent_entries state hfs, ← entriesFor, ih hgs, sentIn_append]

/-- What a handler adds to the records is among what it sends. -/
def Recorded (d : SerialDriver) (p : Plan) : Prop :=
  ∃ records, p.1.ran = d.ran ++ records ∧
    (records.flatMap Ran.sent).Sublist (sentIn p.1.initState p.2)

theorem recorded_nothing {d : SerialDriver} {p : Plan} (h : p.1.ran = d.ran) : Recorded d p :=
  ⟨[], by rw [h, List.append_nil], List.nil_sublist _⟩

/-- The queue waits, or it is run to its end. -/
theorem planQueue_cases {d : SerialDriver} {p : Plan} (h : planQueue d = .ok p) :
    (knownVersion (book d) = none ∧ p.1 = d) ∨
      ∃ gps version es, d.protocolVersion = some gps ∧ getProtVersion gps.prot = some version ∧
        queueEffects gps version d.queuedCmds = .ok es ∧ p = (drained gps version d, es) := by
  rw [planQueue] at h
  cases hversion : d.protocolVersion with
  | none =>
    rw [hversion] at h
    cases h
    exact .inl ⟨by simp [knownVersion, book, hversion], rfl⟩
  | some gps =>
    simp only [hversion] at h
    cases hv : getProtVersion gps.prot with
    | none =>
      rw [hv] at h
      cases h
      exact .inl ⟨by simp [knownVersion, book, hversion, hv], rfl⟩
    | some version =>
      rw [hv] at h
      obtain ⟨es, hes, h⟩ := bind_eq_ok h
      cases h
      exact .inr ⟨gps, version, es, rfl, hv, hes, rfl⟩

theorem planQueue_recorded {d : SerialDriver} {p : Plan} (h : planQueue d = .ok p) :
    Recorded d p ∧ p.1.initState = d.initState := by
  obtain ⟨-, hp⟩ | ⟨gps, version, es, -, -, hes, rfl⟩ := planQueue_cases h
  · rw [hp]
    exact ⟨recorded_nothing (by rw [hp]), rfl⟩
  · refine ⟨⟨(entriesFor version d.queuedCmds).map (recordOf d.initState gps), rfl, ?_⟩, rfl⟩
    rw [flatMap_sent_queue d.initState hes]
    exact List.Sublist.refl _

theorem planDefaults_recorded {settings : Settings} {d : SerialDriver} {p : Plan}
    (h : planDefaults settings d = .ok p) : Recorded d p := by
  obtain ⟨rates, -, h⟩ := bind_eq_ok h
  obtain ⟨q, hq, h⟩ := bind_eq_ok h
  obtain ⟨r, hr, h⟩ := bind_eq_ok h
  cases h
  obtain ⟨⟨records, hran, hsub⟩, hstate⟩ := planQueue_recorded hq
  obtain ⟨⟨records', hran', hsub'⟩, hstate'⟩ := planQueue_recorded hr
  have hsame : q.1.initState = r.1.initState := hstate'.symm
  refine ⟨records ++ records', ?_, ?_⟩
  · rw [hran', emplace, hran, emplace, List.append_assoc]
  · simp only [List.flatMap_append, sentIn_append]
    rw [hsame] at hsub
    exact (hsub.trans (List.sublist_append_right ..)).append hsub'

theorem plan_recorded {settings : Settings} {d : SerialDriver} {cmd : Command} {p : Plan}
    (h : plan settings d cmd = .ok p) : Recorded d p := by
  cases cmd with
  | gnssConfig cmd =>
    obtain ⟨-, rfl⟩ | ⟨gps, es, -, -, rfl⟩ := planGnssConfig_cases (mapError_eq_ok h)
    · exact recorded_nothing rfl
    · exact recorded_nothing rfl
  | versionDependent cmd => exact (planQueue_recorded (mapError_eq_ok h)).1
  | gpsVersion version =>
    obtain rfl | ⟨-, hplan⟩ := planGpsVersion_cases (mapError_eq_ok h)
    · exact recorded_nothing rfl
    · exact (planQueue_recorded hplan).1
  | configDefault =>
    rw [plan, planConfigDefault] at h
    cases hstate : d.initState with
    | receivedRateAck =>
      rw [hstate] at h
      exact planDefaults_recorded (d := { d with initState := .ready }) (mapError_eq_ok h)
    | _ =>
      rw [hstate] at h
      cases h
      exact recorded_nothing rfl
  | _ =>
    cases h
    exact recorded_nothing rfl

/-! ## The books of the queue -/

/-- The queue between two handlers. -/
structure Served (b : Book) : Prop where
  waiting : knownVersion b = none → b.ran = [] ∧ b.queuedCmds = b.accepted
  served : ∀ version, knownVersion b = some version →
    b.ran.map Ran.entry = entriesFor version b.accepted ∧ b.queuedCmds = []

/-- The queue before it is run. -/
structure Due (b : Book) : Prop where
  waiting : knownVersion b = none → b.ran = [] ∧ b.queuedCmds = b.accepted
  due : ∀ version, knownVersion b = some version →
    b.ran.map Ran.entry ++ entriesFor version b.queuedCmds = entriesFor version b.accepted

/-- What was run was carried out. -/
def AllCarriedOut (b : Book) : Prop :=
  ∀ version, knownVersion b = some version → ∀ r ∈ b.ran, CarriedOut version r

/-- The queue between two handlers, with what was run carried out. -/
structure Delivered (b : Book) : Prop extends Served b where
  carriedOut : AllCarriedOut b

theorem Served.emplace {d : SerialDriver} (h : Served (book d)) (cmd : UbxVersionDependentCmd) :
    Due (book (emplace d cmd)) := by
  constructor
  · intro hunknown
    obtain ⟨hran, hqueue⟩ := h.waiting hunknown
    exact ⟨hran, congrArg (· ++ [cmd]) hqueue⟩
  · intro version hknown
    obtain ⟨hran, hqueue⟩ := h.served version hknown
    simp only [book] at hran hqueue
    simp only [book, Driver.emplace]
    rw [hran, hqueue]
    simp [entriesFor]

/-- A version arrives, and there was none. -/
theorem Served.arrive {d : SerialDriver} (h : Served (book d)) (hnone : d.protocolVersion = none)
    (gps : GpsVersion) : Due (book { d with protocolVersion := some gps }) := by
  have hunknown : knownVersion (book d) = none := by
    simp [knownVersion, book, hnone]
  obtain ⟨hran, hqueue⟩ := h.waiting hunknown
  simp only [book] at hran hqueue
  refine ⟨fun _ => ⟨hran, hqueue⟩, ?_⟩
  intro version _
  simp [book, hran, hqueue]

theorem Served.arrive_carriedOut {d : SerialDriver} (h : Served (book d))
    (hnone : d.protocolVersion = none) (gps : GpsVersion) :
    AllCarriedOut (book { d with protocolVersion := some gps }) := by
  have hunknown : knownVersion (book d) = none := by
    simp [knownVersion, book, hnone]
  have hran := (h.waiting hunknown).1
  simp only [book] at hran
  intro version _ r hr
  simp [book, hran] at hr

theorem runsWell_iff {d : SerialDriver} {version : UbxProtVersion}
    {commands : List UbxVersionDependentCmd} :
    runsWell d version commands = true ↔ portsFit version commands = true ∧
      (d.initState = .ready ∨ entriesFor version commands = []) := by
  simp [runsWell]

theorem Due.planQueue {d : SerialDriver} {p : Plan} (h : Due (book d))
    (hp : planQueue d = .ok p) :
    Served (book p.1) ∧ p.1.protocolVersion = d.protocolVersion := by
  obtain ⟨hunknown, hp⟩ | ⟨gps, version, es, hversion, hv, -, rfl⟩ := planQueue_cases hp
  · rw [hp]
    refine ⟨⟨h.waiting, ?_⟩, rfl⟩
    intro version hknown
    rw [hunknown] at hknown
    cases hknown
  · have hknown : knownVersion (book d) = some version := by
      simp [knownVersion, book, hversion, hv]
    have hsame : knownVersion (book (drained gps version d)) = knownVersion (book d) := rfl
    refine ⟨⟨?_, ?_⟩, rfl⟩
    · intro hnone
      rw [hsame, hknown] at hnone
      cases hnone
    · intro version' hsome
      rw [hsame, hknown] at hsome
      cases hsome
      have hentries : ((entriesFor version d.queuedCmds).map (recordOf d.initState gps)).map
          Ran.entry = entriesFor version d.queuedCmds := by
        rw [List.map_map]
        exact List.map_id _
      have hdue := h.due version hknown
      simp only [book] at hdue
      simp only [book, drained, List.map_append, hentries]
      exact ⟨hdue, trivial⟩

/-- What is run well is carried out. -/
theorem planQueue_carriedOut {d : SerialDriver} {p : Plan} (h : AllCarriedOut (book d))
    (hruns : ∀ version, knownVersion (book d) = some version →
      runsWell d version d.queuedCmds = true)
    (hp : planQueue d = .ok p) : AllCarriedOut (book p.1) := by
  obtain ⟨-, hp⟩ | ⟨gps, version, es, hversion, hv, -, rfl⟩ := planQueue_cases hp
  · rw [hp]
    exact h
  · have hknown : knownVersion (book d) = some version := by
      simp [knownVersion, book, hversion, hv]
    have hsame : knownVersion (book (drained gps version d)) = knownVersion (book d) := rfl
    intro version' hsome r hr
    rw [hsame, hknown] at hsome
    cases hsome
    rw [book, drained, List.mem_append] at hr
    rcases hr with hr | hr
    · exact h version hknown r hr
    · obtain ⟨entry, hentry, rfl⟩ := List.mem_map.mp hr
      obtain ⟨hports, hready | hempty⟩ := runsWell_iff.mp (hruns version hknown)
      · rw [hready]
        exact recordOf_carriedOut hv (List.all_eq_true.mp hports entry hentry)
      · simp [hempty] at hentry

theorem planQueue_ok {d : SerialDriver}
    (h : ∀ version, knownVersion (book d) = some version → portsFit version d.queuedCmds = true) :
    ∃ p, planQueue d = .ok p := by
  rw [planQueue]
  cases hversion : d.protocolVersion with
  | none => exact ⟨_, rfl⟩
  | some gps =>
    cases hv : getProtVersion gps.prot with
    | none =>
      simp only [hv]
      exact ⟨_, rfl⟩
    | some version =>
      have hknown : knownVersion (book d) = some version := by
        simp [knownVersion, book, hversion, hv]
      obtain ⟨es, hes⟩ := queueEffects_ok hv (h version hknown)
      simp only [hv, hes]
      exact ⟨_, rfl⟩

/-- A command is queued and the queue is run. -/
theorem Delivered.versionDependent {d : SerialDriver} (h : Delivered (book d))
    (cmd : UbxVersionDependentCmd)
    (hruns : ∀ version, knownVersion (book d) = some version → runsWell d version [cmd] = true) :
    ∃ p, planQueue (emplace d cmd) = .ok p ∧ Delivered (book p.1) ∧
      p.1.protocolVersion = d.protocolVersion := by
  have hqueue : ∀ version, knownVersion (book (emplace d cmd)) = some version →
      runsWell (emplace d cmd) version (emplace d cmd).queuedCmds = true := by
    intro version hknown
    have hempty := (h.served version hknown).2
    simp only [book] at hempty
    rw [emplace, hempty]
    exact hruns version hknown
  obtain ⟨p, hp⟩ := planQueue_ok fun version hknown => (runsWell_iff.mp (hqueue version hknown)).1
  obtain ⟨hserved, hversion⟩ := (h.toServed.emplace cmd).planQueue hp
  have hcarried := planQueue_carriedOut (d := emplace d cmd) h.carriedOut hqueue hp
  exact ⟨p, hp, ⟨hserved, hcarried⟩, hversion⟩

theorem Delivered.defaults {d : SerialDriver} (settings : Settings) (h : Delivered (book d))
    (hready : d.initState = .ready) :
    ∃ p, planDefaults settings d = .ok p ∧ Delivered (book p.1) ∧
      p.1.protocolVersion = d.protocolVersion := by
  have hports : ∀ version, portsFit version [navSvInfoRates] = true ∧
      portsFit version [navSatRates] = true := by
    intro version
    simp only [portsFit, entriesFor, List.flatMap_cons, List.flatMap_nil, List.append_nil,
      List.all_eq_true]
    constructor
    · intro e he
      have hmem := List.mem_of_mem_filter he
      simp only [navSvInfoRates, List.mem_cons, List.not_mem_nil, or_false] at hmem
      rcases hmem with rfl | rfl <;> decide
    · intro e he
      have hmem := List.mem_of_mem_filter he
      simp only [navSatRates, List.mem_cons, List.not_mem_nil, or_false] at hmem
      rw [hmem]
      decide
  have hrange : ∀ cmd ∈ defaultRates, cmd.port ≤ 6 := by decide
  obtain ⟨rates, hrates⟩ := ratesEffects_ok hrange
  obtain ⟨p, hp, hserved, hversion⟩ := h.versionDependent navSvInfoRates
    fun version _ => runsWell_iff.mpr ⟨(hports version).1, .inl hready⟩
  have hstate : p.1.initState = .ready := (planQueue_recorded hp).2.trans hready
  obtain ⟨q, hq, hserved', hversion'⟩ := hserved.versionDependent navSatRates
    fun version _ => runsWell_iff.mpr ⟨(hports version).2, .inl hstate⟩
  have hplan : planDefaults settings d = .ok (q.1, dynamicModelEffects ⟨settings.dynModel⟩ ++
      setAopEffects ⟨true, 0⟩ ++ rates ++ pollAllUbxMsg ++ pollAllUbxMsgRate ++ p.2 ++ q.2) := by
    simp only [planDefaults, hrates, bind, Except.bind, hp, hq]
    rfl
  exact ⟨_, hplan, hserved', hversion'.trans hversion⟩

/-! ## The run -/

theorem plan_gnssConfig_delivered {d : SerialDriver} {cmd : UbxGnssConfigCmd} (h : Delivered (book d))
    (hserves : stepServes d (.command (.gnssConfig cmd)) = true) :
    ∃ p, planGnssConfig d cmd = .ok p ∧ Delivered (book p.1) ∧
      p.1.protocolVersion = d.protocolVersion := by
  rw [planGnssConfig]
  cases hversion : d.protocolVersion with
  | none =>
    have hunknown : ∀ entry, knownVersion (book (Driver.emplace d entry)) = none := by
      intro entry
      simp [knownVersion, book, Driver.emplace, hversion]
    refine ⟨_, rfl, ⟨⟨(h.toServed.emplace _).waiting, ?_⟩, ?_⟩, hversion⟩
    · intro version hknown
      rw [hunknown] at hknown
      cases hknown
    · intro version hknown
      rw [hunknown] at hknown
      cases hknown
  | some gps =>
    have hok : ∃ es, gnssConfigEffects (getProtVersion gps.prot) cmd = .ok es := by
      rw [gnssConfigEffects]
      cases hv : getProtVersion gps.prot with
      | none =>
        have hempty : cmd.gnssConfigs = [] := by
          simpa [stepServes, storedVersion, hversion, hv] using hserves
        rw [hempty]
        exact ⟨_, rfl⟩
      | some version =>
        rw [gnssPayload_eq]
        exact ⟨_, rfl⟩
    obtain ⟨es, hes⟩ := hok
    simp only [hes]
    exact ⟨_, rfl, h, hversion⟩

theorem plan_gpsVersion_delivered {d : SerialDriver} {gps : GpsVersion} (h : Delivered (book d))
    (hserves : stepServes d (.command (.gpsVersion gps)) = true) :
    ∃ p, planGpsVersion d gps = .ok p ∧ Delivered (book p.1) ∧
      knownVersion (book p.1) = (knownVersion (book d)).or (getProtVersion gps.prot) := by
  rw [planGpsVersion]
  cases hversion : d.protocolVersion with
  | none =>
    have hruns : ∀ version, getProtVersion gps.prot = some version →
        runsWell d version d.queuedCmds = true := by
      intro version hv
      simpa [stepServes, storedVersion, hversion, hv] using hserves
    obtain ⟨p, hp⟩ := planQueue_ok (d := { d with protocolVersion := some gps })
      fun version hv => (runsWell_iff.mp (hruns version hv)).1
    obtain ⟨hserved, hstored⟩ := (h.toServed.arrive hversion gps).planQueue hp
    have hcarried := planQueue_carriedOut (h.toServed.arrive_carriedOut hversion gps) hruns hp
    refine ⟨p, hp, ⟨hserved, hcarried⟩, ?_⟩
    simp [knownVersion, book, hversion, hstored]
  | some stored =>
    refine ⟨_, rfl, h, ?_⟩
    have hknown : knownVersion (book d) = getProtVersion stored.prot := by
      simp [knownVersion, book, hversion]
    rw [hknown]
    cases hv : getProtVersion stored.prot with
    | none =>
      cases hnew : getProtVersion gps.prot with
      | none => rfl
      | some version => simp [stepServes, storedVersion, hversion, hv, hnew] at hserves
    | some version => rfl

/-- A command that the condition allows keeps the books, and does not throw. -/
theorem plan_delivered {d : SerialDriver} {cmd : Command} (settings : Settings)
    (h : Delivered (book d)) (hserves : stepServes d (.command cmd) = true) :
    ∃ p, plan settings d cmd = .ok p ∧ Delivered (book p.1) ∧
      knownVersion (book p.1) = (knownVersion (book d)).or (broughtVersion (.command cmd)) := by
  cases cmd with
  | gnssConfig cmd =>
    obtain ⟨p, hp, hserved, hversion⟩ := plan_gnssConfig_delivered h hserves
    refine ⟨p, ?_, hserved, ?_⟩
    · rw [plan, hp]
      rfl
    · simp [knownVersion, book, hversion, broughtVersion]
  | versionDependent cmd =>
    have hruns : ∀ version, knownVersion (book d) = some version →
        runsWell d version [cmd] = true := by
      intro version hknown
      obtain ⟨gps, hgps, hv⟩ := Option.bind_eq_some_iff.mp hknown
      have hstored : d.protocolVersion = some gps := hgps
      simpa [stepServes, storedVersion, hstored, hv] using hserves
    obtain ⟨p, hp, hserved, hversion⟩ := h.versionDependent cmd hruns
    refine ⟨p, ?_, hserved, ?_⟩
    · rw [plan, hp]
      rfl
    · simp [knownVersion, book, hversion, broughtVersion]
  | gpsVersion gps =>
    obtain ⟨p, hp, hserved, hversion⟩ := plan_gpsVersion_delivered h hserves
    refine ⟨p, ?_, hserved, hversion⟩
    rw [plan, hp]
    rfl
  | configDefault =>
    have hsame : knownVersion (book d) =
        (knownVersion (book d)).or (broughtVersion (.command .configDefault)) := by
      simp [broughtVersion]
    rw [plan, planConfigDefault]
    cases hstate : d.initState with
    | connecting => exact ⟨_, rfl, h, hsame⟩
    | receivedProtoAck => exact ⟨_, rfl, h, hsame⟩
    | receivedRateAck =>
      have hready : Delivered (book { d with initState := .ready }) := h
      obtain ⟨p, hp, hserved, hversion⟩ := hready.defaults settings rfl
      simp only [hp]
      refine ⟨p, rfl, hserved, ?_⟩
      simp [knownVersion, book, hversion, broughtVersion]
    | ready => exact ⟨_, rfl, h, hsame⟩
  | _ => exact ⟨_, rfl, h, by simp [broughtVersion]⟩

section

variable (signedChar : Bool) (settings : Settings)

/-- The books of the queue say what the labels brought. -/
structure QueueInvariant (as : List Label) (d : SerialDriver) : Prop where
  version : as.findSome? broughtVersion = knownVersion (book d)
  delivered : Delivered (book d)
  noThrow : ∀ fault, d.crashed ≠ some (.fault fault)
  inOrder : (d.ran.flatMap Ran.sent).Sublist d.sent

/-- A step keeps what was sent. -/
theorem step_sent {d d' : SerialDriver} {l : Label}
    (hs : step signedChar settings d l = some d') : d.sent.Sublist d'.sent := by
  obtain ⟨msgs, hsends⟩ | ⟨msgs, hwrites⟩ := step_sends signedChar settings hs
  · rw [hsends.sent]
    exact List.sublist_append_left ..
  · rw [hwrites.sent]

theorem QueueInvariant.of_book {as : List Label} {d d' : SerialDriver} {l : Label}
    (h : QueueInvariant as d) (hbook : book d' = book d) (hlabel : broughtVersion l = none)
    (hsent : d.sent.Sublist d'.sent)
    (hcrashed : ∀ fault, d'.crashed ≠ some (.fault fault)) : QueueInvariant (as ++ [l]) d' := by
  have hran : d'.ran = d.ran := congrArg Book.ran hbook
  refine ⟨?_, ?_, hcrashed, ?_⟩
  · simp [List.findSome?_append, hlabel, h.version, hbook]
  · rw [hbook]
    exact h.delivered
  · rw [hran]
    exact h.inOrder.trans hsent

theorem makeConnection_book (d : SerialDriver) (h : ∀ fault, d.crashed ≠ some (.fault fault)) :
    book (makeConnection signedChar settings d) = book d ∧
      ∀ fault, (makeConnection signedChar settings d).crashed ≠ some (.fault fault) := by
  rw [makeConnection]
  split
  · constructor
    · rfl
    · intro fault hfault
      cases hfault
  · set opened : SerialDriver := startAsyncRead { d with isOpen := true }
    have hbook := book_performAll signedChar opened [.enqueue (protSelCmd settings.baud) true]
    have hconnection :=
      (perform_performed signedChar opened (.enqueue (protSelCmd settings.baud) true)).connection
    simp only [Prod.mk.injEq] at hconnection
    refine ⟨hbook, ?_⟩
    rw [hconnection.2.2.2]
    exact h

theorem QueueInvariant.start : QueueInvariant [] (Driver.start signedChar settings) := by
  obtain ⟨hbook, hcrashed⟩ := makeConnection_book signedChar settings {} fun fault h => nomatch h
  have hstart : book (Driver.start signedChar settings) = book {} := hbook
  have hran : (Driver.start signedChar settings).ran = [] := congrArg Book.ran hstart
  refine ⟨?_, ?_, hcrashed, ?_⟩
  · rw [hstart]
    rfl
  · rw [hstart]
    exact ⟨⟨fun _ => ⟨rfl, rfl⟩, fun version hknown => (nomatch hknown)⟩,
      fun version hknown => (nomatch hknown)⟩
  · rw [hran]
    exact List.nil_sublist _

theorem QueueInvariant.command {as : List Label} {d d' : SerialDriver} {cmd : Command}
    (h : QueueInvariant as d) (hserves : stepServes d (.command cmd) = true)
    (hs : step signedChar settings d (.command cmd) = some d') :
    QueueInvariant (as ++ [.command cmd]) d' := by
  obtain ⟨p, hp, hserved, hversion⟩ := plan_delivered settings h.delivered hserves
  obtain ⟨q, hq, rfl⟩ | ⟨crash, hcrash, -⟩ := step_command signedChar settings hs
  · rw [hp] at hq
    cases hq
    have hbook : book (p.run signedChar) = book p.1 := book_performAll signedChar p.1 p.2
    have hdone : Performed p.1 p.2 (p.run signedChar) := performAll_performed signedChar p.1 p.2
    refine ⟨?_, ?_, ?_, ?_⟩
    · rw [List.findSome?_append, h.version, hbook, hversion]
      simp
    · rw [hbook]
      exact hserved
    · have hconnection := hdone.connection
      simp only [Prod.mk.injEq] at hconnection
      have hcrashed : (p.run signedChar).crashed = p.1.crashed := hconnection.2.2.2
      rw [hcrashed, (plan_untouched settings hp).crashed]
      exact h.noThrow
    · have hran : (p.run signedChar).ran = p.1.ran := congrArg Book.ran hbook
      obtain ⟨records, hrecords, hsub⟩ := plan_recorded hp
      rw [hran, hrecords, List.flatMap_append, hdone.sent, (plan_untouched settings hp).sent]
      exact h.inOrder.append hsub
  · rw [hp] at hcrash
    cases hcrash

theorem QueueInvariant.step {as : List Label} {d d' : SerialDriver} {l : Label}
    (h : QueueInvariant as d) (hserves : stepServes d l = true)
    (hs : step signedChar settings d l = some d') : QueueInvariant (as ++ [l]) d' := by
  have hsent := step_sent signedChar settings hs
  cases l with
  | command cmd => exact h.command signedChar settings hserves hs
  | ackAck event read =>
    rw [step_ackAck signedChar settings hs] at hsent ⊢
    refine h.of_book ?_ rfl hsent ?_
    · rw [handleAckAck]
      split_ifs <;> rfl
    · rw [handleAckAck]
      split_ifs <;> exact h.noThrow
  | ackNak event read =>
    rw [step_ackNak signedChar settings hs] at hsent ⊢
    exact h.of_book rfl rfl hsent h.noThrow
  | txTask =>
    obtain ⟨data, rest, -, rfl⟩ := step_txTask signedChar settings hs
    obtain ⟨hbook, hcrashed⟩ := onTxTask_book d data
    exact h.of_book hbook rfl hsent (hcrashed ▸ h.noThrow)
  | writeDone =>
    rw [(step_writeDone signedChar settings hs).2] at hsent ⊢
    obtain ⟨hbook, hcrashed⟩ := onWriteDone_book d
    exact h.of_book hbook rfl hsent (hcrashed ▸ h.noThrow)
  | writeError =>
    rw [(step_writeError signedChar settings hs).2] at hsent ⊢
    exact h.of_book rfl rfl hsent h.noThrow
  | readDone =>
    rw [(step_readDone signedChar settings hs).2] at hsent ⊢
    exact h.of_book rfl rfl hsent h.noThrow
  | readError =>
    rw [(step_readError signedChar settings hs).2] at hsent ⊢
    exact h.of_book rfl rfl hsent h.noThrow
  | retry =>
    rw [(step_retry signedChar settings hs).2, onRetry] at hsent ⊢
    obtain ⟨hbook, hcrashed⟩ := makeConnection_book signedChar settings
      { d with fired := d.fired + 1 } h.noThrow
    exact h.of_book hbook rfl hsent hcrashed

/-- **The queue is served while the stored version can be parsed, from the end of the handshake
on.** -/
theorem queue_served {as : List Label} {d : SerialDriver}
    (hmeets : Meets (Driver.step signedChar settings) (fun d l => stepServes d l = true)
      (Driver.start signedChar settings) as)
    (hrun : run (Driver.step signedChar settings) (Driver.start signedChar settings) as = some d) :
    QueueServed as d := by
  have h : QueueInvariant as d :=
    run_history_of_meets (fun _ _ _ _ hI hserves hs => hI.step signedChar settings hserves hs)
      (QueueInvariant.start signedChar settings) hmeets hrun
  refine ⟨h.noThrow, ?_, ?_, ?_, h.inOrder⟩
  · intro hnone
    exact h.delivered.waiting (h.version.symm.trans hnone)
  · intro version hsome
    rw [← entriesFor_eq_inRange]
    exact h.delivered.served version (h.version.symm.trans hsome)
  · intro version hsome
    exact h.delivered.carriedOut version (h.version.symm.trans hsome)

end

def exampleSettings : Settings := ⟨9600, 2⟩

/-- A command with one entry for the versions from 15 on. -/
def enableSat : UbxVersionDependentCmd :=
  ⟨[⟨⟨15, 0⟩, ⟨99, 0⟩, .msgRate ⟨MsgId.navSat, 1, 69⟩⟩]⟩

/-- A GNSS configuration with one block. -/
def enableGps : UbxGnssConfigCmd := ⟨[⟨0, 8, 16, 1⟩]⟩

/-- `"18.00"`. -/
def version18 : GpsVersion := { prot := [0x31, 0x38, 0x2e, 0x30, 0x30] }

/-- The handshake. -/
def handshake : List Label :=
  [.txTask, .writeDone, .ackAck ⟨MsgId.cfgPrt⟩ ⟨MsgId.cfgPrt⟩, .command .configDefault,
    .txTask, .writeDone, .ackAck ⟨MsgId.cfgRate⟩ ⟨MsgId.cfgRate⟩, .command .configDefault]

/-- After the handshake two more commands wait for a version, and one comes after it. -/
def versionLate : List Label :=
  handshake ++ [.command (.versionDependent enableSat), .command (.gnssConfig enableGps),
    .command (.gpsVersion version18), .command (.gnssConfig enableGps)]

theorem queue_served_versionLate :
    ∃ d, run (Driver.step true exampleSettings) (Driver.start true exampleSettings) versionLate =
      some d ∧ d.ran.length = 4 ∧ QueueServed versionLate d := by
  have hsome : (run (Driver.step true exampleSettings) (Driver.start true exampleSettings)
      versionLate).map (·.ran.length) = some 4 := by decide +kernel
  obtain ⟨d, hd, hran⟩ := Option.map_eq_some_iff.mp hsome
  exact ⟨d, hd, hran, queue_served true exampleSettings (by decide +kernel) hd⟩

/-- The receiver reports no version, and is then to be configured. -/
def noVersionConfigured : List Label :=
  [.command (.gpsVersion {}), .command (.gnssConfig enableGps)]

/-- The receiver reports no version at first. -/
def noVersionAtFirst : List Label :=
  [.command (.versionDependent enableSat), .command (.gpsVersion {}),
    .command (.gpsVersion version18)]

/-- The version comes before the handshake is over. -/
def versionEarly : List Label :=
  [.command (.versionDependent enableSat), .command (.gpsVersion version18)]

theorem queue_not_served_noVersion :
    (∃ d, run (Driver.step true exampleSettings) (Driver.start true exampleSettings)
      noVersionConfigured = some d ∧ d.crashed = some (.fault .badOptionalAccess) ∧
      ¬QueueServed noVersionConfigured d) ∧
    (∃ d, run (Driver.step true exampleSettings) (Driver.start true exampleSettings)
      noVersionAtFirst = some d ∧ d.ran = [] ∧ ¬QueueServed noVersionAtFirst d) ∧
    (∃ d, run (Driver.step true exampleSettings) (Driver.start true exampleSettings)
      versionEarly = some d ∧ d.queuedCmds = [] ∧ ¬QueueServed versionEarly d) := by
  have hthrows : (run (Driver.step true exampleSettings) (Driver.start true exampleSettings)
      noVersionConfigured).map (·.crashed) = some (some (.fault .badOptionalAccess)) := by
    decide +kernel
  have hwaits : (run (Driver.step true exampleSettings) (Driver.start true exampleSettings)
      noVersionAtFirst).map (fun d => (d.ran, d.queuedCmds)) = some ([], [enableSat]) := by
    decide +kernel
  have hrefused : (run (Driver.step true exampleSettings) (Driver.start true exampleSettings)
      versionEarly).map (fun d => (d.ran.map Ran.sent, d.queuedCmds)) = some ([[]], []) := by
    decide +kernel
  refine ⟨?_, ?_, ?_⟩
  · obtain ⟨d, hd, hcrashed⟩ := Option.map_eq_some_iff.mp hthrows
    exact ⟨d, hd, hcrashed, fun h => h.noThrow _ hcrashed⟩
  · obtain ⟨d, hd, hwait⟩ := Option.map_eq_some_iff.mp hwaits
    simp only [Prod.mk.injEq] at hwait
    obtain ⟨hran, hqueue⟩ := hwait
    refine ⟨d, hd, hran, fun h => ?_⟩
    have hempty := (h.served ⟨18, 0⟩ (by decide)).2
    rw [hqueue] at hempty
    cases hempty
  · obtain ⟨d, hd, hran⟩ := Option.map_eq_some_iff.mp hrefused
    simp only [Prod.mk.injEq] at hran
    obtain ⟨hsent, hqueue⟩ := hran
    refine ⟨d, hd, hqueue, fun h => ?_⟩
    obtain ⟨r, hr, hnothing⟩ := List.mem_map.mp (hsent ▸ List.mem_singleton_self [])
    obtain ⟨msg, -, hmsg⟩ := h.carriedOut ⟨18, 0⟩ (by decide) r hr
    rw [hnothing] at hmsg
    cases hmsg

end MuonDetector.Ublox.VersionQueue
