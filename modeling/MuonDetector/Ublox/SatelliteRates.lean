import MuonDetector.Ublox.VersionQueue

/-!
# One list of satellites

The end of the handshake queues two commands for the rates of the two messages that list
the satellites. Whenever the version comes, they are run one behind the other, and what
they send last leaves one of the two messages on. What is sent is written in its order.
-/

namespace MuonDetector.Ublox.SatelliteRates

open MuonDetector.Library MuonDetector.Library.Machine
open MuonDetector.Utility.HelperFunctions MuonDetector.Ublox.Message MuonDetector.Ublox.Events
open MuonDetector.Ublox.MessageProcessor MuonDetector.Ublox.ProtVersion MuonDetector.Ublox.Serial
open MuonDetector.Ublox.Commands MuonDetector.Ublox.Driver MuonDetector.Ublox.VersionQueue

/-- The two commands at the end of the handshake. -/
def satelliteRates : List UbxVersionDependentCmd := [navSvInfoRates, navSatRates]

/-- The rate that a message sets for the messages `id` on the port in use, which has the
second byte behind the id. -/
def writtenRate (id : UInt16) (msg : UbxMessage) : Option UInt8 :=
  if msg.fullId = MsgId.cfgMsg ∧ msg.payload.take 2 = put .big id then msg.payload[3]? else none

/-- The last rate that is written for the messages `id`. -/
def lastRate (id : UInt16) (msgs : List UbxMessage) : UInt8 :=
  (msgs.filterMap (writtenRate id)).getLast?.getD 0

/-! ## What the two commands write -/

abbrev version15 : UbxProtVersion := ⟨15, 0⟩

theorem notAfter_total (v w : UbxProtVersion) : NotAfter v w ∨ NotAfter w v := by
  simp only [NotAfter, UInt32.lt_iff_toNat_lt, UInt32.le_iff_toNat_le, ← UInt32.toNat_inj]
  omega

/-- The messages of a rate command. -/
def rateMessage (id : UInt16) (rate : UInt8) : UbxMessage :=
  ⟨MsgId.cfgMsg, put .big id ++ [0, rate, 0, 0, 0, 0]⟩

/-- What the two commands come to. At version 15 the first one writes both of its rates. -/
theorem queueEffects_satelliteRates (gps : GpsVersion) {version : UbxProtVersion}
    (hlow : NotAfter ⟨0, 1⟩ version) (hhigh : NotAfter version ⟨maxUnsigned, 0⟩) :
    ∃ es, queueEffects gps version satelliteRates = .ok es ∧
      messages es =
        (if NotAfter version version15 then [rateMessage MsgId.navSVinfo 69] else []) ++
        if NotAfter version15 version then
          [rateMessage MsgId.navSVinfo 0, rateMessage MsgId.navSat 69] else [] := by
  have hfirst : applies ⟨⟨0, 1⟩, version15, .msgRate ⟨MsgId.navSVinfo, 1, 69⟩⟩ version =
      decide (NotAfter version version15) := by
    rw [Bool.eq_iff_iff, applies_iff, decide_eq_true_iff]
    exact and_iff_right hlow
  have hlater : ∀ cmd, applies ⟨version15, ⟨maxUnsigned, 0⟩, cmd⟩ version =
      decide (NotAfter version15 version) := by
    intro cmd
    rw [Bool.eq_iff_iff, applies_iff, decide_eq_true_iff]
    exact and_iff_left hhigh
  simp only [queueEffects, satelliteRates, navSvInfoRates, navSatRates, entriesEffects]
  rw [version15] at hfirst hlater
  simp only [hfirst, hlater, version15, decide_eq_true_eq]
  by_cases hbefore : NotAfter version ⟨15, 0⟩
  · by_cases hafter : NotAfter ⟨15, 0⟩ version
    · simp only [if_pos hbefore, if_pos hafter]
      exact ⟨_, rfl, rfl⟩
    · simp only [if_pos hbefore, if_neg hafter]
      exact ⟨_, rfl, rfl⟩
  · by_cases hafter : NotAfter ⟨15, 0⟩ version
    · simp only [if_neg hbefore, if_pos hafter]
      exact ⟨_, rfl, rfl⟩
    · simp only [if_neg hbefore, if_neg hafter]
      exact ⟨_, rfl, rfl⟩

/-- Of the two messages the last rate is not zero for one, and which one follows from the
version. -/
theorem lastRate_satelliteRates {gps : GpsVersion} {version : UbxProtVersion} {es : List Effect}
    (hlow : NotAfter ⟨0, 1⟩ version) (hhigh : NotAfter version ⟨maxUnsigned, 0⟩)
    (hes : queueEffects gps version satelliteRates = .ok es) :
    (lastRate MsgId.navSVinfo (messages es) ≠ 0 ↔ ¬NotAfter version15 version) ∧
      (lastRate MsgId.navSat (messages es) ≠ 0 ↔ NotAfter version15 version) := by
  obtain ⟨fs, hfs, hmessages⟩ := queueEffects_satelliteRates gps hlow hhigh
  obtain rfl : fs = es := by
    rw [hfs] at hes
    exact Except.ok.inj hes
  rw [hmessages]
  by_cases hafter : NotAfter version15 version
  · by_cases hbefore : NotAfter version version15
    · simp only [if_pos hbefore, hafter, not_true_eq_false]
      decide
    · simp only [if_neg hbefore, hafter, not_true_eq_false]
      decide
  · have hbefore := (notAfter_total version version15).resolve_right hafter
    simp only [if_pos hbefore, hafter, not_false_eq_true]
    decide

/-! ## Where they are sent -/

theorem queueEffects_append (gps : GpsVersion) (version : UbxProtVersion)
    (queue later : List UbxVersionDependentCmd) :
    queueEffects gps version (queue ++ later) = (do
      let es ← queueEffects gps version queue
      let fs ← queueEffects gps version later
      pure (es ++ fs)) := by
  induction queue with
  | nil =>
    rw [List.nil_append, queueEffects]
    cases queueEffects gps version later <;> rfl
  | cons command rest ih =>
    rw [List.cons_append, queueEffects, queueEffects, ih]
    cases entriesEffects gps version command.config with
    | error e => rfl
    | ok es =>
      cases queueEffects gps version rest with
      | error e => rfl
      | ok fs =>
        cases queueEffects gps version later with
        | error e => rfl
        | ok gs => exact congrArg Except.ok (List.append_assoc es fs gs).symm

theorem planQueue_frame {d : SerialDriver} {p : Plan} (h : planQueue d = .ok p) :
    p.1.protocolVersion = d.protocolVersion ∧ p.1.accepted = d.accepted ∧
      p.1.sent = d.sent ∧ p.1.initState = d.initState := by
  obtain ⟨-, hp⟩ | ⟨gps, version, es, -, -, -, rfl⟩ := planQueue_cases h
  · rw [hp]
    exact ⟨rfl, rfl, rfl, rfl⟩
  · exact ⟨rfl, rfl, rfl, rfl⟩

/-- The two commands follow each other in what was accepted, and with a version that can be
parsed what they come to was sent in one piece. -/
def DefaultsSent (d : SerialDriver) : Prop :=
  ∃ pre post, d.accepted = pre ++ satelliteRates ++ post ∧
    ∀ gps version, d.protocolVersion = some gps → getProtVersion gps.prot = some version →
      ∃ es, queueEffects gps version satelliteRates = .ok es ∧
        ((messages es).map fun msg => (InitState.ready, msg)) <:+: d.sent

theorem DefaultsSent.extend {d d' : SerialDriver} (h : DefaultsSent d)
    (hversion : d'.protocolVersion = d.protocolVersion) (haccepted : d.accepted <+: d'.accepted)
    (hsent : d.sent <+: d'.sent) : DefaultsSent d' := by
  obtain ⟨pre, post, hsplit, hpiece⟩ := h
  obtain ⟨more, hmore⟩ := haccepted
  refine ⟨pre, post ++ more, ?_, ?_⟩
  · rw [← hmore, hsplit, List.append_assoc]
  · intro gps version hgps hv
    obtain ⟨es, hes, hwithin⟩ := hpiece gps version (hversion.symm.trans hgps) hv
    exact ⟨es, hes, hwithin.trans hsent.isInfix⟩

section

variable (signedChar : Bool) (settings : Settings)

theorem sentIn_ready (es : List Effect) :
    sentIn .ready es = (messages es).map fun msg => (InitState.ready, msg) := by
  have hall : (messages es).filter (isAllowed { initState := .ready }) = messages es := by
    apply List.filter_eq_self.mpr
    intro msg _
    rfl
  rw [sentIn, hall]

theorem sent_run {p : Plan} (hready : p.1.initState = .ready) :
    (p.run signedChar).sent =
      p.1.sent ++ (messages p.2).map fun msg => (InitState.ready, msg) := by
  have hsent := (performAll_performed signedChar p.1 p.2).sent
  rwa [hready, sentIn_ready] at hsent

theorem sent_prefix (p : Plan) : p.1.sent <+: (p.run signedChar).sent := by
  have hsent := (performAll_performed signedChar p.1 p.2).sent
  exact ⟨_, hsent.symm⟩

theorem protocolVersion_run (p : Plan) : (p.run signedChar).protocolVersion = p.1.protocolVersion :=
  protocolVersion_performAll signedChar p.1 p.2

theorem accepted_run (p : Plan) : (p.run signedChar).accepted = p.1.accepted :=
  congrArg Book.accepted (book_performAll signedChar p.1 p.2)

/-- A handler that leaves the version and only accepts more. -/
theorem DefaultsSent.run {d : SerialDriver} (h : DefaultsSent d) {p : Plan}
    (hversion : p.1.protocolVersion = d.protocolVersion) (haccepted : d.accepted <+: p.1.accepted)
    (hsent : p.1.sent = d.sent) : DefaultsSent (p.run signedChar) := by
  refine h.extend ?_ ?_ ?_
  · rw [protocolVersion_run, hversion]
  · rwa [accepted_run]
  · rw [← hsent]
    exact sent_prefix signedChar p

/-- A version arrives after the handshake, and the two commands are run out of the queue. -/
theorem DefaultsSent.arrive {d : SerialDriver} (h : DefaultsSent d) (hserved : Served (book d))
    (hready : d.initState = .ready) (hnone : d.protocolVersion = none) {gps : GpsVersion}
    {p : Plan} (hp : planQueue { d with protocolVersion := some gps } = .ok p) :
    DefaultsSent (p.run signedChar) := by
  obtain ⟨pre, post, hsplit, -⟩ := h
  obtain ⟨hversion, haccepted, -, hstate⟩ := planQueue_frame hp
  refine ⟨pre, post, ?_, ?_⟩
  · rw [accepted_run, haccepted]
    exact hsplit
  · intro gps' version hgps hv
    rw [protocolVersion_run, hversion] at hgps
    obtain rfl := Option.some.inj hgps
    obtain ⟨hunknown, -⟩ | ⟨gps', version', es, hgps', hv', hes, rfl⟩ := planQueue_cases hp
    · simp [knownVersion, book, hv] at hunknown
    · obtain rfl := Option.some.inj hgps'
      obtain rfl : version = version' := Option.some.inj (hv.symm.trans hv')
      have hqueue : d.queuedCmds = d.accepted :=
        (hserved.waiting (by simp [knownVersion, book, hnone])).2
      have hes' : queueEffects gps version (pre ++ satelliteRates ++ post) = .ok es := by
        rw [← hsplit, ← hqueue]
        exact hes
      rw [queueEffects_append] at hes'
      obtain ⟨fs, hfs, hes'⟩ := bind_eq_ok hes'
      obtain ⟨after, -, hes'⟩ := bind_eq_ok hes'
      cases hes'
      rw [queueEffects_append] at hfs
      obtain ⟨before, -, hfs⟩ := bind_eq_ok hfs
      obtain ⟨sent, hsent, hfs⟩ := bind_eq_ok hfs
      cases hfs
      refine ⟨sent, hsent, ?_⟩
      rw [sent_run signedChar (hstate.trans hready)]
      refine ⟨d.sent ++ (messages before).map fun msg => (InitState.ready, msg),
        (messages after).map fun msg => (InitState.ready, msg), ?_⟩
      simp [drained]

/-- The handshake ends: the two commands are queued, and run at once if there is a version. -/
theorem defaultsSent_planDefaults {d : SerialDriver} (hserved : Served (book d))
    (hready : d.initState = .ready) {p : Plan} (hp : planDefaults settings d = .ok p) :
    Served (book p.1) ∧ DefaultsSent (p.run signedChar) := by
  obtain ⟨rates, -, hp⟩ := bind_eq_ok hp
  obtain ⟨q, hq, hp⟩ := bind_eq_ok hp
  obtain ⟨r, hr, hp⟩ := bind_eq_ok hp
  cases hp
  obtain ⟨hserved₁, -⟩ := (hserved.emplace navSvInfoRates).planQueue hq
  obtain ⟨hserved₂, -⟩ := (hserved₁.emplace navSatRates).planQueue hr
  obtain ⟨hversion₁, haccepted₁, -, hstate₁⟩ := planQueue_frame hq
  obtain ⟨hversion₂, haccepted₂, -, hstate₂⟩ := planQueue_frame hr
  refine ⟨hserved₂, d.accepted, [], ?_, ?_⟩
  · rw [accepted_run, haccepted₂, emplace, haccepted₁]
    simp [emplace, satelliteRates]
  · intro gps version hgps hv
    rw [protocolVersion_run, hversion₂, emplace, hversion₁] at hgps
    have hgps₀ : d.protocolVersion = some gps := hgps
    have hknown : knownVersion (book d) = some version := by
      simp [knownVersion, book, hgps₀, hv]
    have hqueue : d.queuedCmds = [] := (hserved.served version hknown).2
    obtain ⟨hunknown, -⟩ | ⟨gps₁, version₁, es, hgps₁, hv₁, hes, hq⟩ := planQueue_cases hq
    · exact absurd (hknown.symm.trans hunknown) (by simp)
    subst hq
    obtain ⟨hunknown, -⟩ | ⟨gps₂, version₂, fs, hgps₂, hv₂, hfs, hr⟩ := planQueue_cases hr
    · exact absurd (hknown.symm.trans hunknown) (by simp)
    subst hr
    obtain rfl : gps = gps₁ := Option.some.inj (hgps₀.symm.trans hgps₁)
    obtain rfl : gps = gps₂ := Option.some.inj (hgps₀.symm.trans hgps₂)
    obtain rfl : version = version₁ := Option.some.inj (hv.symm.trans hv₁)
    obtain rfl : version = version₂ := Option.some.inj (hv.symm.trans hv₂)
    have hes' : queueEffects gps version [navSvInfoRates] = .ok es := by
      simpa [emplace, hqueue] using hes
    have hfs' : queueEffects gps version [navSatRates] = .ok fs := hfs
    refine ⟨es ++ fs, ?_, ?_⟩
    · have happend := queueEffects_append gps version [navSvInfoRates] [navSatRates]
      rw [hes', hfs'] at happend
      exact happend
    · rw [sent_run signedChar hready, List.append_assoc _ es fs, messages_append _ (es ++ fs),
        List.map_append]
      exact (List.suffix_append_of_suffix (List.suffix_append _ _)).isInfix

/-- Every handler keeps the books of the queue. -/
theorem served_plan {d : SerialDriver} {cmd : Command} {p : Plan} (h : Served (book d))
    (hp : plan settings d cmd = .ok p) : Served (book p.1) := by
  cases cmd with
  | gnssConfig cmd =>
    obtain ⟨hversion, rfl⟩ | ⟨gps, es, -, -, rfl⟩ :=
      planGnssConfig_cases (mapError_eq_ok hp)
    · refine ⟨(h.emplace _).waiting, ?_⟩
      intro version hknown
      simp [knownVersion, book, emplace, hversion] at hknown
    · exact h
  | versionDependent cmd => exact ((h.emplace cmd).planQueue (mapError_eq_ok hp)).1
  | gpsVersion version =>
    obtain rfl | ⟨hunknown, hplan⟩ := planGpsVersion_cases (mapError_eq_ok hp)
    · exact h
    · exact ((h.arrive hunknown version).planQueue hplan).1
  | configDefault =>
    rw [plan, planConfigDefault] at hp
    cases hstate : d.initState with
    | receivedRateAck =>
      rw [hstate] at hp
      have hready : Served (book { d with initState := .ready }) := h
      exact (defaultsSent_planDefaults false settings hready rfl (mapError_eq_ok hp)).1
    | _ =>
      rw [hstate] at hp
      cases hp
      exact h
  | _ =>
    cases hp
    exact h

/-- After the handshake every handler keeps the two commands together. -/
theorem DefaultsSent.plan {d : SerialDriver} {cmd : Command} {p : Plan} (h : DefaultsSent d)
    (hserved : Served (book d)) (hready : d.initState = .ready)
    (hp : plan settings d cmd = .ok p) : DefaultsSent (p.run signedChar) := by
  cases cmd with
  | gnssConfig cmd =>
    obtain ⟨-, rfl⟩ | ⟨gps, es, -, -, rfl⟩ := planGnssConfig_cases (mapError_eq_ok hp)
    · exact h.run signedChar rfl (List.prefix_append _ _) rfl
    · exact h.run signedChar rfl List.prefix_rfl rfl
  | versionDependent cmd =>
    obtain ⟨hversion, haccepted, hsent, -⟩ := planQueue_frame (mapError_eq_ok hp)
    refine h.run signedChar hversion ?_ hsent
    rw [haccepted]
    exact List.prefix_append _ _
  | gpsVersion version =>
    obtain rfl | ⟨hunknown, hplan⟩ := planGpsVersion_cases (mapError_eq_ok hp)
    · exact h.run signedChar rfl List.prefix_rfl rfl
    · exact h.arrive signedChar hserved hready hunknown hplan
  | configDefault =>
    rw [Driver.plan, planConfigDefault, hready] at hp
    cases hp
    exact h.run signedChar rfl List.prefix_rfl rfl
  | _ =>
    cases hp
    exact h.run signedChar rfl List.prefix_rfl rfl

/-! ## The run -/

structure RatesInvariant (d : SerialDriver) : Prop where
  served : Served (book d)
  sent : d.initState = .ready → DefaultsSent d

/-- A step that leaves the queue and the state of the handshake alone. -/
theorem RatesInvariant.of_book {d d' : SerialDriver} (h : RatesInvariant d)
    (hbook : book d' = book d) (hstate : d'.initState = .ready → d.initState = .ready)
    (hsent : d.sent <+: d'.sent) : RatesInvariant d' := by
  refine ⟨?_, ?_⟩
  · rw [hbook]
    exact h.served
  · intro hready
    refine (h.sent (hstate hready)).extend (congrArg Book.protocolVersion hbook) ?_ hsent
    have haccepted : d'.accepted = d.accepted := congrArg Book.accepted hbook
    exact haccepted ▸ List.prefix_rfl

theorem RatesInvariant.start : RatesInvariant (Driver.start signedChar settings) := by
  have h := QueueInvariant.start signedChar settings
  refine ⟨h.delivered.toServed, ?_⟩
  intro hready
  rw [Driver.start, makeConnection_initState] at hready
  cases hready

theorem RatesInvariant.step {d d' : SerialDriver} {l : Label} (h : RatesInvariant d)
    (hs : step signedChar settings d l = some d') : RatesInvariant d' := by
  have halive := step_alive signedChar settings hs
  cases l with
  | command cmd =>
    obtain ⟨p, hp, rfl⟩ | ⟨crash, -, rfl⟩ := step_command signedChar settings hs
    · have hbook : book (p.run signedChar) = book p.1 := book_performAll signedChar p.1 p.2
      have hstate : (p.run signedChar).initState = p.1.initState :=
        (performAll_performed signedChar p.1 p.2).initState
      refine ⟨?_, ?_⟩
      · rw [hbook]
        exact served_plan settings h.served hp
      · intro hready
        obtain ⟨b, hb⟩ | ⟨rfl, hrate, -⟩ := plan_state settings hp
        · have hbefore : d.initState = .ready := by
            rw [hstate, hb] at hready
            exact hready
          exact (h.sent hbefore).plan signedChar settings h.served hbefore hp
        · rw [plan, planConfigDefault, hrate] at hp
          exact (defaultsSent_planDefaults signedChar settings
            (d := { d with initState := .ready }) h.served rfl (mapError_eq_ok hp)).2
    · exact h.of_book rfl id List.prefix_rfl
  | ackAck event read =>
    rw [step_ackAck signedChar settings hs, handleAckAck]
    split
    · exact h.of_book rfl id List.prefix_rfl
    · split
      · exact h.of_book rfl (fun hready => by cases hready) List.prefix_rfl
      · split
        · exact h.of_book rfl (fun hready => by cases hready) List.prefix_rfl
        · exact h.of_book rfl id List.prefix_rfl
  | ackNak event read =>
    rw [step_ackNak signedChar settings hs]
    exact h.of_book rfl id List.prefix_rfl
  | txTask =>
    obtain ⟨data, rest, htasks, rfl⟩ := step_txTask signedChar settings hs
    obtain ⟨msgs, hwrites⟩ := onTxTask_writes htasks
    exact h.of_book (onTxTask_book d data).1 (fun hready => hwrites.initState.symm.trans hready)
      (hwrites.sent ▸ List.prefix_rfl)
  | writeDone =>
    rw [(step_writeDone signedChar settings hs).2]
    obtain ⟨msgs, hwrites⟩ := onWriteDone_writes d
    exact h.of_book (onWriteDone_book d).1 (fun hready => hwrites.initState.symm.trans hready)
      (hwrites.sent ▸ List.prefix_rfl)
  | writeError =>
    rw [(step_writeError signedChar settings hs).2]
    exact h.of_book rfl id List.prefix_rfl
  | readDone =>
    rw [(step_readDone signedChar settings hs).2]
    exact h.of_book rfl id List.prefix_rfl
  | readError =>
    rw [(step_readError signedChar settings hs).2]
    exact h.of_book rfl id List.prefix_rfl
  | retry =>
    rw [(step_retry signedChar settings hs).2, onRetry]
    have hcrashed : ∀ fault, d.crashed ≠ some (.fault fault) := by
      intro fault
      rw [halive]
      intro hcrash
      cases hcrash
    obtain ⟨hbook, -⟩ := makeConnection_book signedChar settings
      { d with fired := d.fired + 1 } hcrashed
    have hstate := makeConnection_initState signedChar settings { d with fired := d.fired + 1 }
    obtain ⟨msgs, hsends⟩ := makeConnection_sends signedChar settings (d := d)
      (p := { d with fired := d.fired + 1 }) rfl rfl rfl
    exact h.of_book hbook (fun hready => hstate.symm.trans hready) ⟨_, hsends.sent.symm⟩

/-- **The default configuration leaves one list of satellites on.** After the handshake,
whenever a version came, the two commands for the lists were run in their order, what they
come to was sent in one piece and is written in its order, and the last rates in it are not
zero for one of the two messages, which depends on the version. -/
theorem one_satellite_list {as : List Label} {d : SerialDriver} {version : UbxProtVersion}
    (hrun : run (Driver.step signedChar settings) (Driver.start signedChar settings) as = some d)
    (hready : d.initState = .ready) (hversion : knownVersion (book d) = some version)
    (hlow : NotAfter ⟨0, 1⟩ version) (hhigh : NotAfter version ⟨maxUnsigned, 0⟩) :
    d.queuedCmds = [] ∧
      (∃ pre post, d.accepted = pre ++ [navSvInfoRates, navSatRates] ++ post ∧
        d.ran.map Ran.entry = inRange version pre ++
          inRange version [navSvInfoRates, navSatRates] ++ inRange version post) ∧
      WritesInOrder d ∧
      ∃ gps es, d.protocolVersion = some gps ∧
        queueEffects gps version [navSvInfoRates, navSatRates] = .ok es ∧
        ((messages es).map fun msg => (InitState.ready, msg)) <:+: d.sent ∧
        (lastRate MsgId.navSVinfo (messages es) ≠ 0 ↔ ¬NotAfter ⟨15, 0⟩ version) ∧
        (lastRate MsgId.navSat (messages es) ≠ 0 ↔ NotAfter ⟨15, 0⟩ version) := by
  have h : RatesInvariant d :=
    run_history (I := fun _ d => RatesInvariant d)
      (fun _ _ _ _ hI hs => hI.step signedChar settings hs)
      (RatesInvariant.start signedChar settings) hrun
  obtain ⟨hran, hqueue⟩ := h.served.served version hversion
  obtain ⟨pre, post, hsplit, hsent⟩ := h.sent hready
  obtain ⟨gps, hgps, hv⟩ := Option.bind_eq_some_iff.mp hversion
  obtain ⟨es, hes, hpiece⟩ := hsent gps version hgps hv
  refine ⟨hqueue, ⟨pre, post, hsplit, ?_⟩, written_in_sent_order signedChar settings hrun, gps, es,
    hgps, hes, hpiece, ?_⟩
  · have haccepted : (book d).accepted = pre ++ satelliteRates ++ post := hsplit
    rw [haccepted, entriesFor_eq_inRange] at hran
    show (book d).ran.map Ran.entry = _
    rw [hran]
    simp [inRange, satelliteRates]
  · exact lastRate_satelliteRates hlow hhigh hes

end

/-- The handshake, with the version after it. -/
def versionAfterReady : List Label := handshake ++ [.command (.gpsVersion version18)]

theorem one_satellite_list_18 :
    ∃ d, run (Driver.step true exampleSettings) (Driver.start true exampleSettings)
        versionAfterReady = some d ∧
      ∃ es, ((messages es).map fun msg => (InitState.ready, msg)) <:+: d.sent ∧
        lastRate MsgId.navSat (messages es) ≠ 0 := by
  have hend : (run (Driver.step true exampleSettings) (Driver.start true exampleSettings)
      versionAfterReady).map (fun d => (d.initState, knownVersion (book d))) =
      some (.ready, some ⟨18, 0⟩) := by
    decide +kernel
  obtain ⟨d, hd, hstate⟩ := Option.map_eq_some_iff.mp hend
  obtain ⟨hready, hversion⟩ := Prod.mk.inj hstate
  obtain ⟨-, -, -, gps, es, -, -, hpiece, -, hsat⟩ := one_satellite_list true exampleSettings hd
    hready hversion (by decide) (by decide)
  exact ⟨d, hd, es, hpiece, hsat.mpr (by decide)⟩

end MuonDetector.Ublox.SatelliteRates
