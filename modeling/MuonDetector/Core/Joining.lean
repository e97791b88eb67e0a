import MuonDetector.Core.StoredEvents

/-!
# What a new client is sent

A client is added to the sink first, and then its connection is announced, upon which the data
store is polled. Where handlers do not overlap, the client has in the end what is stored, of
every type that is polled, however much is stored, requested and connected meanwhile. Of the
histograms it has copies.
-/

namespace MuonDetector.Core.StoredEvents

open MuonDetector.Core.DataStore (setChannel firstEntry secondEntry)
open MuonDetector.Core.Handlers MuonDetector.Library MuonDetector.Library.Latest
open MuonDetector.Data.Events (PreampSwitchEvent)

variable {P : Payloads}

/-! ## Values on their way -/

def valueAt (t : Topic) (e : Event P) : Option (P.Value t) :=
  if h : e.topic = t then some (h ▸ e.value) else none

@[simp] theorem valueAt_self (t : Topic) (v : P.Value t) : valueAt t ⟨t, v⟩ = some v := by
  simp [valueAt]

theorem valueAt_of_ne {t : Topic} {e : Event P} (h : e.topic ≠ t) : valueAt t e = none :=
  dif_neg h

theorem exists_valueAt {t : Topic} {e : Event P} (h : e.topic = t) : ∃ v, e = ⟨t, v⟩ := by
  obtain ⟨topic, value⟩ := e
  cases h
  exact ⟨value, rfl⟩

/-- What a task will send. -/
def sending (t : Topic) : Task P → Option (P.Value t)
  | .event e => valueAt t e
  | _ => none

/-- The event of a topic that was sent last, of all that were sent after the first `n`. -/
def lastSince (n : Nat) (t : Topic) (s : Daemon P) : Option (P.Value t) :=
  latest (valueAt t) (s.sent.drop n) none

abbrev lastSent (t : Topic) (s : Daemon P) : Option (P.Value t) := lastSince 0 t s

/-- What is stored for a setting. -/
def current (s : Daemon P) (e : Setting) : Option P.Voltage :=
  (s.data .mcp4728).bind fun data => P.voltages data e.channel

/-- The type goes to the sink, and nobody publishes it but the data store. -/
def Kind.Follows (k : Kind) : Prop :=
  k.sunk = true ∧ k.direct = false ∧ k ≠ .mqttStatus

instance (k : Kind) : Decidable k.Follows := inferInstanceAs (Decidable (_ ∧ _ ∧ _))

def Topic.Tracked : Topic → Prop
  | .stored k => k.Follows
  | _ => True

/-- The DAC event has the voltages that are asked of it. -/
def Whole : (k : Kind) → P.Data k → Prop
  | .mcp4728, data => ∀ e : Setting, P.voltages data e.channel ≠ none
  | _, _ => True

/-- What other threads and the handlers of the drivers publish. Nobody wraps the status of
MQTT. -/
def IsSource : Task P → Prop
  | .datastoreStoreEvent k data => k ≠ .mqttStatus ∧ Whole k data
  | .event e => ∃ k, e.topic = .stored k ∧ (k.direct = true ∨ k = .mqttStatus)
  | _ => True

/-- The DAC driver reads all channels. -/
def Reads (c : Choice P) : Prop := ∀ data ∈ c.read, Whole .mcp4728 data

theorem sending_of_ne {t : Topic} {e : Event P} (h : e.topic ≠ t) :
    sending t (.event e) = none :=
  valueAt_of_ne h

theorem sending_source {t : Topic} (ht : t.Tracked) {task : Task P} (h : IsSource task) :
    sending t task = none := by
  cases task with
  | event e =>
    obtain ⟨k, htopic, hk⟩ := h
    refine valueAt_of_ne fun heq => ?_
    rw [htopic] at heq
    subst heq
    rcases hk with hk | hk
    · exact absurd hk (by simp [ht.2.1])
    · exact ht.2.2 hk
  | _ => rfl

/-- An event of the topic waits. -/
def Pending (t : Topic) (tasks : List (Task P)) : Prop :=
  ∃ v : P.Value t, .event ⟨t, v⟩ ∈ tasks

/-- An event of the topic was sent after the first `n`, or waits. -/
def Offered (n : Nat) (t : Topic) (s : Daemon P) (tasks : List (Task P)) : Prop :=
  (∃ v : P.Value t, ⟨t, v⟩ ∈ s.sent.drop n) ∨ Pending t tasks

/-- The types that a new connection polls, each with one command or from the data store. -/
def polled : List Kind := requests.map Request.kind ++ offers

/-- What it polls, in that order. -/
def poll (P : Payloads) : List Topic :=
  requests.map (fun r => .stored r.kind) ++
    .preamp :: (offers.map .stored ++ P.allHistos.map .histogram)

theorem stored_mem_poll {k : Kind} (h : k ∈ polled) : .stored k ∈ poll P := by
  rcases List.mem_append.mp h with h | h
  · obtain ⟨r, hr, rfl⟩ := List.mem_map.mp h
    exact List.mem_append_left _ (List.mem_map.mpr ⟨r, hr, rfl⟩)
  · simp [poll, h]

theorem preamp_mem_poll : .preamp ∈ poll P := by simp [poll]

theorem histogram_mem_poll (name : Histo) : .histogram name ∈ poll P := by
  simp [poll, P.mem_allHistos name]

/-- What had been sent and stored when a client joined. -/
structure Mark where
  sent : Nat := 0
  stores : Nat := 0

def Daemon.mark (s : Daemon P) : Mark := ⟨s.sent.length, s.preampStores⟩

/-- The events of preamplifiers that were sent after the first `n`, and those that wait. -/
def preampEvents (n : Nat) (s : Daemon P) (tasks : List (Task P)) : List PreampSwitchEvent :=
  (s.sent.drop n).filterMap (valueAt .preamp) ++ tasks.filterMap (sending .preamp)

/-- They end with the two that are stored. -/
def EndWith (data : Vector PreampSwitchEvent 2) (events : List PreampSwitchEvent) : Prop :=
  [firstEntry data, secondEntry data] <:+ events

/-- What was sent last of a topic is stored, up to what waits. -/
structure Synced (s : Daemon P) (tasks : List (Task P)) : Prop where
  whole : ∀ data, s.data .mcp4728 = some data ∨ .datastoreStoreEvent .mcp4728 data ∈ tasks ∨
    .event ⟨.stored .mcp4728, data⟩ ∈ tasks → Whole .mcp4728 data
  unwrapped : ∀ data, .datastoreStoreEvent .mqttStatus data ∉ tasks
  stored : ∀ k : Kind, k.Follows → ∀ data,
    latest (sending (.stored k)) tasks (lastSent (.stored k) s) = some data →
      s.data k = some data
  mqtt : Pending (.stored .mqttStatus) tasks ∨
    ∀ data, lastSent (.stored .mqttStatus) s = some data → s.data .mqttStatus = some data
  settings : Pending (.stored .mcp4728) tasks ∨ ∀ e voltage,
    latest (sending (.setting e)) tasks (lastSent (.setting e) s) = some voltage →
      current s e = some voltage
  preamps : s.preamps = none ↔ s.preampStores = 0
  histograms : ∀ name, latest (sending (.histogram name)) tasks (lastSent (.histogram name) s) =
    s.copied name

/-- What is stored was offered after the mark, or is going to be. What is still to do is left
out, and the first event of a preamplifier that comes after the mark. -/
structure Served (todo : List Topic) (n : Mark) (s : Daemon P) (tasks : List (Task P)) : Prop where
  length : n.sent ≤ s.sent.length
  stores : n.stores ≤ s.preampStores
  stored : ∀ k ∈ polled, .stored k ∉ todo → s.data k ≠ none →
    (∃ r : Request, r.kind = k ∧ .request r ∈ tasks) ∨ k.sunk = false ∨
      Offered n.sent (.stored k) s tasks
  settings : .stored .mcp4728 ∉ todo → s.data .mcp4728 ≠ none →
    .request .dacSetting ∈ tasks ∨ Pending (.stored .mcp4728) tasks ∨
      ∀ e, Offered n.sent (.setting e) s tasks
  preamps : .preamp ∉ todo → ∀ data, s.preamps = some data → .preampSwitchRequest ∈ tasks ∨
    EndWith data (preampEvents n.sent s tasks) ∨ n.stores = 0 ∧ s.preampStores = 1
  histograms : ∀ name, .histogram name ∉ todo → Offered n.sent (.histogram name) s tasks

structure Inv (todo : List Topic) (n : Mark) (s : Daemon P) (tasks : List (Task P)) : Prop where
  synced : Synced s tasks
  served : Served todo n s tasks

variable {todo : List Topic} {n : Mark} {m : Nat} {s : Daemon P} {tasks : List (Task P)}

theorem Pending.mono {t : Topic} {tasks' : List (Task P)} (hsub : tasks ⊆ tasks')
    (h : Pending t tasks) : Pending t tasks' :=
  h.imp fun _ hv => hsub hv

/-- It is not the event of the topic that leaves the queue. -/
theorem Pending.of_cons {t : Topic} {task : Task P} (hne : ∀ v, task ≠ .event ⟨t, v⟩)
    (h : Pending t (task :: tasks)) : Pending t tasks := by
  obtain ⟨v, hmem⟩ := h
  exact ⟨v, (List.mem_cons.mp hmem).resolve_left fun heq => hne v heq.symm⟩

theorem Pending.tail {t : Topic} {e : Event P} (hne : e.topic ≠ t)
    (h : Pending t (.event e :: tasks)) : Pending t tasks :=
  h.of_cons fun v heq => hne (by rw [Task.event.inj heq])

/-- Where the queue has a value of the topic, an event of it waits. -/
theorem pending_of_latest {t : Topic} (h : latest (sending t) tasks none ≠ none) :
    Pending t tasks := by
  obtain ⟨task, hmem, hsends⟩ := exists_of_latest_ne_none h
  cases task with
  | event e =>
    have htopic : e.topic = t := by
      by_contra hne
      exact hsends (sending_of_ne hne)
    obtain ⟨v, rfl⟩ := exists_valueAt htopic
    exact ⟨v, hmem⟩
  | _ => exact absurd rfl hsends

theorem Offered.mono {t : Topic} {tasks' : List (Task P)} (hsub : tasks ⊆ tasks')
    (h : Offered m t s tasks) : Offered m t s tasks' :=
  h.imp_right (Pending.mono hsub)

/-- More tasks are in the queue, none of which sends an event of a preamplifier, unless these are
to do. -/
theorem Served.mono {todo' : List Topic} {tasks' : List (Task P)} (htodo : todo ⊆ todo')
    (hsub : tasks ⊆ tasks')
    (hpreamps : .preamp ∉ todo' →
      tasks'.filterMap (sending .preamp) = tasks.filterMap (sending .preamp))
    (h : Served todo n s tasks) : Served todo' n s tasks' where
  length := h.length
  stores := h.stores
  stored k hk hdo hdata := by
    rcases h.stored k hk (fun hmem => hdo (htodo hmem)) hdata with ⟨r, hr, hmem⟩ | hsunk | hoffered
    · exact .inl ⟨r, hr, hsub hmem⟩
    · exact .inr (.inl hsunk)
    · exact .inr (.inr (hoffered.mono hsub))
  settings hdo hdata := by
    rcases h.settings (fun hmem => hdo (htodo hmem)) hdata with hmem | hpending | hoffered
    · exact .inl (hsub hmem)
    · exact .inr (.inl (hpending.mono hsub))
    · exact .inr (.inr fun e => (hoffered e).mono hsub)
  preamps hdo data hdata := by
    rw [preampEvents, hpreamps hdo]
    exact (h.preamps (fun hmem => hdo (htodo hmem)) data hdata).imp_left fun hmem => hsub hmem
  histograms name hdo := (h.histograms name fun hmem => hdo (htodo hmem)).mono hsub

theorem Inv.more {todo' : List Topic} (htodo : todo ⊆ todo') (h : Inv todo n s tasks) :
    Inv todo' n s tasks :=
  ⟨h.synced, h.served.mono htodo (List.Subset.refl _) fun _ => rfl⟩

/-! ## The queue -/

theorem latest_insert {t : Topic} (ht : t.Tracked) {front others back : List (Task P)}
    (hothers : ∀ task ∈ others, IsSource task) (old : Option (P.Value t)) :
    latest (sending t) (front ++ others ++ back) old = latest (sending t) (front ++ back) old := by
  rw [latest_append, latest_append, latest_append,
    latest_of_none fun task htask => sending_source ht (hothers task htask)]

theorem preamps_insert {front others back : List (Task P)}
    (hothers : ∀ task ∈ others, IsSource task) :
    (front ++ others ++ back).filterMap (sending .preamp) =
      (front ++ back).filterMap (sending .preamp) := by
  have hnone : others.filterMap (sending .preamp) = [] :=
    List.filterMap_eq_nil_iff.mpr fun task htask =>
      sending_source (t := .preamp) trivial (hothers task htask)
  rw [List.filterMap_append, List.filterMap_append, List.filterMap_append, hnone, List.append_nil]

/-- What others publish meanwhile changes nothing. -/
theorem Inv.insert {front others back : List (Task P)}
    (hothers : ∀ task ∈ others, IsSource task) (h : Inv todo n s (front ++ back)) :
    Inv todo n s (front ++ others ++ back) := by
  have hsub : front ++ back ⊆ front ++ others ++ back := by
    intro task hmem
    rcases List.mem_append.mp hmem with hmem | hmem <;> simp [hmem]
  have hcases : ∀ task, task ∈ front ++ others ++ back →
      task ∈ front ++ back ∨ IsSource task := by
    intro task hmem
    simp only [List.mem_append] at hmem ⊢
    rcases hmem with (hmem | hmem) | hmem
    · exact .inl (.inl hmem)
    · exact .inr (hothers task hmem)
    · exact .inl (.inr hmem)
  refine ⟨⟨fun data hdata => ?_, fun data hmem => ?_, fun k hk data hlast => ?_,
    h.synced.mqtt.imp_left (Pending.mono hsub), h.synced.settings.imp (Pending.mono hsub)
      fun hsettings e voltage hlast => ?_, h.synced.preamps, fun name => ?_⟩,
    h.served.mono (List.Subset.refl _) hsub fun _ => preamps_insert hothers⟩
  · rcases hdata with hdata | hdata | hdata
    · exact h.synced.whole data (.inl hdata)
    · rcases hcases _ hdata with hold | hsource
      · exact h.synced.whole data (.inr (.inl hold))
      · exact hsource.2
    · rcases hcases _ hdata with hold | ⟨k, hk, hsource⟩
      · exact h.synced.whole data (.inr (.inr hold))
      · obtain rfl : Kind.mcp4728 = k := Topic.stored.inj hk
        simp [Kind.direct] at hsource
  · rcases hcases _ hmem with hold | hsource
    · exact h.synced.unwrapped data hold
    · exact hsource.1 rfl
  · rw [latest_insert (t := .stored k) hk hothers] at hlast
    exact h.synced.stored k hk data hlast
  · rw [latest_insert (t := .setting e) trivial hothers] at hlast
    exact hsettings e voltage hlast
  · rw [latest_insert (t := .histogram name) trivial hothers]
    exact h.synced.histograms name

theorem Inv.append {others : List (Task P)} (hothers : ∀ task ∈ others, IsSource task)
    (h : Inv todo n s tasks) : Inv todo n s (tasks ++ others) := by
  rw [← List.append_nil tasks] at h
  have hmore := h.insert hothers
  rwa [List.append_nil] at hmore

theorem latest_tail {t : Topic} {task : Task P} (h : sending t task = none)
    (old : Option (P.Value t)) :
    latest (sending t) (task :: tasks) old = latest (sending t) tasks old := by
  rw [latest_cons, h, Option.none_or]

/-- A task that sends nothing and stores nothing leaves the queue. -/
theorem Synced.tail {task : Task P} (hsends : ∀ e, task ≠ .event e)
    (h : Synced s (task :: tasks)) : Synced s tasks := by
  have hnone : ∀ t : Topic, sending t task = none := by
    intro t
    cases task with
    | event e => exact absurd rfl (hsends e)
    | _ => rfl
  have hpending : ∀ t : Topic, Pending t (task :: tasks) → Pending t tasks :=
    fun _ h => h.of_cons fun _ => hsends _
  refine ⟨fun data hdata => h.whole data ?_, fun data hmem => ?_, fun k hk data hlast => ?_,
    h.mqtt.imp_left (hpending _), h.settings.imp (hpending _) fun hsettings e voltage hlast => ?_,
    h.preamps, fun name => ?_⟩
  · exact hdata.imp_right (Or.imp (List.mem_cons_of_mem _) (List.mem_cons_of_mem _))
  · exact h.unwrapped data (List.mem_cons_of_mem _ hmem)
  · exact h.stored k hk data (by rwa [latest_tail (hnone _)])
  · exact hsettings e voltage (by rwa [latest_tail (hnone _)])
  · rw [← h.histograms name, latest_tail (hnone _)]

/-- A request leaves the queue, and what it asks for is to do. -/
theorem Inv.tail {task : Task P} {extra : List Topic} (hsends : ∀ e, task ≠ .event e)
    (hrequest : ∀ r, task = .request r → .stored r.kind ∈ extra)
    (hpreamp : task = .preampSwitchRequest → .preamp ∈ extra) (h : Inv todo n s (task :: tasks)) :
    Inv (extra ++ todo) n s tasks := by
  have hoffered : ∀ t : Topic, Offered n.sent t s (task :: tasks) → Offered n.sent t s tasks :=
    fun _ => Or.imp_right fun h => h.of_cons fun _ => hsends _
  have hpreamps : (task :: tasks).filterMap (sending .preamp) =
      tasks.filterMap (sending .preamp) := by
    cases task with
    | event e => exact absurd rfl (hsends e)
    | _ => rfl
  refine ⟨h.synced.tail hsends, h.served.length, h.served.stores, fun k hk hdo hdata => ?_,
    fun hdo hdata => ?_, fun hdo data hdata => ?_, fun name hdo => ?_⟩
  · have hk' : .stored k ∉ extra ∧ .stored k ∉ todo := by simpa using hdo
    rcases h.served.stored k hk hk'.2 hdata with ⟨r, hr, hmem⟩ | hsunk | hsent
    · rcases List.mem_cons.mp hmem with heq | hmem
      · exact absurd (hr ▸ hrequest r heq.symm) hk'.1
      · exact .inl ⟨r, hr, hmem⟩
    · exact .inr (.inl hsunk)
    · exact .inr (.inr (hoffered _ hsent))
  · have hk' : Topic.stored .mcp4728 ∉ extra ∧ Topic.stored .mcp4728 ∉ todo := by simpa using hdo
    rcases h.served.settings hk'.2 hdata with hmem | hpending | hsent
    · rcases List.mem_cons.mp hmem with heq | hmem
      · exact absurd (hrequest .dacSetting heq.symm) hk'.1
      · exact .inl hmem
    · exact .inr (.inl (hpending.of_cons fun _ => hsends _))
    · exact .inr (.inr fun e => hoffered _ (hsent e))
  · have hdo' : Topic.preamp ∉ extra ∧ Topic.preamp ∉ todo := by simpa using hdo
    rw [preampEvents, ← hpreamps]
    refine (h.served.preamps hdo'.2 data hdata).imp_left fun hmem => ?_
    exact (List.mem_cons.mp hmem).resolve_left fun heq => hdo'.1 (hpreamp heq.symm)
  · have hdo' : .histogram name ∉ extra ∧ .histogram name ∉ todo := by simpa using hdo
    exact hoffered _ (h.served.histograms name hdo'.2)

/-- A task that asks for nothing leaves the queue. -/
theorem Inv.tail_other {task : Task P} (hsends : ∀ e, task ≠ .event e)
    (hrequest : ∀ r, task ≠ .request r) (hpreamp : task ≠ .preampSwitchRequest)
    (h : Inv todo n s (task :: tasks)) : Inv todo n s tasks := by
  have htail : Inv ([] ++ todo) n s tasks :=
    h.tail hsends (fun r heq => absurd heq (hrequest r)) fun heq => absurd heq hpreamp
  exact htail

/-! ## The data store -/

theorem latest_event {t : Topic} (e : Event P) (old : Option (P.Value t)) :
    latest (sending t) (tasks ++ [.event e]) old =
      (valueAt t e).or (latest (sending t) tasks old) := latest_concat _

theorem pending_event (t : Topic) (v : P.Value t) : Pending t (tasks ++ [.event ⟨t, v⟩]) :=
  ⟨v, by simp⟩

/-- What is stored for the settings only depends on the DAC. -/
theorem current_store {k : Kind} {data : P.Data k} (e : Setting) (h : k ≠ .mcp4728) :
    current (s.store k data) e = current s e := by
  rw [current, current, Daemon.store_data_of_ne h.symm]

/-- An event that is none of a preamplifier. -/
theorem preamps_event {e : Event P} (h : e.topic ≠ .preamp) :
    (tasks ++ [Task.event e]).filterMap (sending .preamp) = tasks.filterMap (sending .preamp) := by
  have hnone : [Task.event e].filterMap (sending .preamp) = [] :=
    List.filterMap_eq_nil_iff.mpr fun task htask => List.mem_singleton.mp htask ▸ sending_of_ne h
  rw [List.filterMap_append, hnone, List.append_nil]

theorem Served.store {k : Kind} {data : P.Data k} (h : Served (.stored k :: todo) n s tasks) :
    Served todo n (s.store k data) (tasks ++ [.event ⟨.stored k, data⟩]) := by
  have hsub : tasks ⊆ tasks ++ [.event ⟨.stored k, data⟩] := List.subset_append_left _ _
  have hmore : Served (.stored k :: todo) n s (tasks ++ [.event ⟨.stored k, data⟩]) :=
    h.mono (List.Subset.refl _) hsub fun _ => preamps_event (by rintro ⟨⟩)
  refine ⟨h.length, h.stores, fun k' hk' hdo hdata => ?_, fun hdo hdata => ?_,
    fun hdo => hmore.preamps (by simp [hdo]), fun name hdo => hmore.histograms name (by simp [hdo])⟩
  · by_cases hkk : k' = k
    · subst hkk
      exact .inr (.inr (.inr (pending_event (.stored k') data)))
    · rw [Daemon.store_data_of_ne hkk] at hdata
      exact hmore.stored k' hk' (by simp [hkk, hdo]) hdata
  · by_cases hkk : Kind.mcp4728 = k
    · subst hkk
      exact .inr (.inl (pending_event (.stored .mcp4728) data))
    · rw [Daemon.store_data_of_ne hkk] at hdata
      exact hmore.settings (by simp [hkk, hdo]) hdata

theorem Synced.whole_of {k : Kind} {data : P.Data k}
    (hdata : s.data k = some data ∨ .datastoreStoreEvent k data ∈ tasks) (h : Synced s tasks) :
    Whole k data := by
  cases k with
  | mcp4728 => exact h.whole data (hdata.imp_right .inl)
  | _ => exact trivial

/-- A value is stored, and its event waits. -/
theorem Synced.store {k : Kind} {data : P.Data k} (hwhole : Whole k data) (h : Synced s tasks) :
    Synced (s.store k data) (tasks ++ [.event ⟨.stored k, data⟩]) := by
  have hsub : tasks ⊆ tasks ++ [.event ⟨.stored k, data⟩] := List.subset_append_left _ _
  refine ⟨fun data' hdata => ?_, fun data' hmem => ?_, fun k' hk' data' hlast => ?_, ?_, ?_,
    h.preamps, fun name => ?_⟩
  · rcases hdata with hdata | hdata | hdata
    · by_cases hk : Kind.mcp4728 = k
      · subst hk
        rw [Daemon.store_data_self, Option.some.injEq] at hdata
        exact hdata ▸ hwhole
      · rw [Daemon.store_data_of_ne hk] at hdata
        exact h.whole data' (.inl hdata)
    · exact h.whole data' (.inr (.inl (by simpa using hdata)))
    · rcases List.mem_append.mp hdata with hdata | hdata
      · exact h.whole data' (.inr (.inr hdata))
      · have heq := Task.event.inj (List.mem_singleton.mp hdata)
        obtain ⟨rfl, hvalue⟩ : Kind.mcp4728 = k ∧ HEq data' data := by simpa using heq
        exact (eq_of_heq hvalue) ▸ hwhole
  · exact h.unwrapped data' (by simpa using hmem)
  · rw [latest_event] at hlast
    by_cases hkk : k' = k
    · subst hkk
      rw [Daemon.store_data_self]
      simpa using hlast
    · have hne : Topic.stored k ≠ .stored k' := fun heq => hkk (Topic.stored.inj heq).symm
      rw [valueAt_of_ne hne, Option.none_or] at hlast
      rw [Daemon.store_data_of_ne hkk]
      exact h.stored k' hk' data' hlast
  · by_cases hk : Kind.mqttStatus = k
    · subst hk
      exact .inl (pending_event (.stored .mqttStatus) data)
    · rw [Daemon.store_data_of_ne hk]
      exact h.mqtt.imp_left (Pending.mono hsub)
  · by_cases hk : Kind.mcp4728 = k
    · subst hk
      exact .inl (pending_event (.stored .mcp4728) data)
    · refine h.settings.imp (Pending.mono hsub) fun hold e voltage hlast => ?_
      rw [latest_event, valueAt_of_ne (by simp), Option.none_or] at hlast
      rw [current_store e (Ne.symm hk)]
      exact hold e voltage hlast
  · rw [latest_event, valueAt_of_ne (by simp), Option.none_or]
    exact h.histograms name

theorem Inv.store {k : Kind} {data : P.Data k}
    (h : Inv todo n s (.datastoreStoreEvent k data :: tasks)) :
    Inv todo n (s.store k data) (tasks ++ [.event ⟨.stored k, data⟩]) := by
  have htail : Inv ([.stored k] ++ todo) n s tasks := h.tail (by simp) (by simp) (by simp)
  have hwhole : Whole k data := h.synced.whole_of (.inr (by simp))
  exact ⟨htail.synced.store hwhole, htail.served.store⟩

/-- What is stored waits to be sent, as if it had just been stored. -/
theorem Inv.offer {k : Kind} {data : P.Data k} (hdata : s.data k = some data)
    (h : Inv (.stored k :: todo) n s tasks) :
    Inv todo n s (tasks ++ [.event ⟨.stored k, data⟩]) := by
  have hsame : s.store k data = s := by
    rw [Daemon.store, ← hdata, Function.update_eq_self]
  have hstored : Inv todo n (s.store k data) (tasks ++ [.event ⟨.stored k, data⟩]) :=
    ⟨h.synced.store (h.synced.whole_of (.inl hdata)), h.served.store⟩
  rwa [hsame] at hstored

/-- A type of which nothing is stored is done. -/
theorem Inv.skip {k : Kind} (hnone : s.data k = none) (h : Inv (.stored k :: todo) n s tasks) :
    Inv todo n s tasks := by
  refine ⟨h.synced, h.served.length, h.served.stores, fun k' hk' hdo hdata => ?_,
    fun hdo hdata => ?_, fun hdo => h.served.preamps (by simp [hdo]),
    fun name hdo => h.served.histograms name (by simp [hdo])⟩
  · have hne : k' ≠ k := fun heq => hdata (heq ▸ hnone)
    exact h.served.stored k' hk' (by simp [hne, hdo]) hdata
  · have hne : Kind.mcp4728 ≠ k := fun heq => hdata (heq ▸ hnone)
    exact h.served.settings (by simp [hne, hdo]) hdata

/-- A request waits. -/
theorem Inv.request {r : Request} (h : Inv (.stored r.kind :: todo) n s tasks) :
    Inv todo n s (tasks ++ [.request r]) := by
  have hsource : ∀ task ∈ [(.request r : Task P)], IsSource task := by simp [IsSource]
  have hmore := h.append hsource
  refine ⟨hmore.synced, hmore.served.length, hmore.served.stores, fun k hk hdo hdata => ?_,
    fun hdo hdata => ?_, fun hdo => hmore.served.preamps (by simp [hdo]),
    fun name hdo => hmore.served.histograms name (by simp [hdo])⟩
  · by_cases hkr : k = r.kind
    · exact .inl ⟨r, hkr.symm, by simp⟩
    · exact hmore.served.stored k hk (by simp [hkr, hdo]) hdata
  · by_cases hkr : Kind.mcp4728 = r.kind
    · obtain rfl : r = .dacSetting := by
        cases r <;> first | rfl | exact absurd hkr (by decide)
      exact .inl (by simp)
    · exact hmore.served.settings (by simp [hkr, hdo]) hdata

/-! ## The preamplifiers -/

/-- The request for the preamplifiers waits. -/
theorem Inv.requestPreamps (h : Inv (.preamp :: todo) n s tasks) :
    Inv todo n s (tasks ++ [.preampSwitchRequest]) := by
  have hsource : ∀ task ∈ [(.preampSwitchRequest : Task P)], IsSource task := by simp [IsSource]
  have hmore := h.append hsource
  refine ⟨hmore.synced, hmore.served.length, hmore.served.stores,
    fun k hk hdo => hmore.served.stored k hk (by simp [hdo]),
    fun hdo => hmore.served.settings (by simp [hdo]), fun _ _ _ => .inl (by simp),
    fun name hdo => hmore.served.histograms name (by simp [hdo])⟩

/-- While no preamplifier is stored there is nothing to send of one. -/
theorem Inv.skipPreamps (hnone : s.preamps = none) (h : Inv (.preamp :: todo) n s tasks) :
    Inv todo n s tasks := by
  refine ⟨h.synced, h.served.length, h.served.stores,
    fun k hk hdo => h.served.stored k hk (by simp [hdo]),
    fun hdo => h.served.settings (by simp [hdo]), fun _ data hdata => ?_,
    fun name hdo => h.served.histograms name (by simp [hdo])⟩
  rw [hnone] at hdata
  cases hdata

/-- A preamplifier is stored, and the request for both is going to be made. -/
theorem Inv.storePreamps (data : Vector PreampSwitchEvent 2) (h : Inv todo n s tasks) :
    Inv (.preamp :: todo) n (s.storePreamps data) tasks := by
  have hsynced := h.synced
  refine ⟨⟨hsynced.whole, hsynced.unwrapped, hsynced.stored, hsynced.mqtt, hsynced.settings,
    by simp [Daemon.storePreamps], hsynced.histograms⟩, h.served.length,
    Nat.le_succ_of_le h.served.stores, fun k hk hdo => h.served.stored k hk (by simp_all),
    fun hdo => h.served.settings (by simp_all), fun hdo => absurd (by simp) hdo,
    fun name hdo => h.served.histograms name (by simp_all)⟩

/-- The first preamplifier is stored, and nothing is published. -/
theorem Inv.storeFirst (data : Vector PreampSwitchEvent 2) (hnone : s.preamps = none)
    (h : Inv todo n s tasks) : Inv todo n (s.storePreamps data) tasks := by
  have hstored := h.storePreamps data
  have hzero : s.preampStores = 0 := h.synced.preamps.mp hnone
  have hstores : n.stores = 0 := Nat.le_zero.mp (hzero ▸ h.served.stores)
  refine ⟨hstored.synced, hstored.served.length, hstored.served.stores, h.served.stored,
    h.served.settings, fun _ _ _ => .inr (.inr ⟨hstores, ?_⟩), h.served.histograms⟩
  exact congrArg Nat.succ hzero

/-- An event that is neither stored nor a setting is published. Of a histogram it is the copy that
was made last. -/
theorem Synced.append_event {e : Event P} {copied : Histo → Option P.Histogram}
    (hstored : ∀ k, e.topic ≠ .stored k) (hsetting : ∀ e', e.topic ≠ .setting e')
    (hcopied : ∀ name, copied name = (valueAt (.histogram name) e).or (s.copied name))
    (h : Synced s tasks) : Synced { s with copied := copied } (tasks ++ [.event e]) := by
  have hsub : tasks ⊆ tasks ++ [.event e] := List.subset_append_left _ _
  refine ⟨fun data hdata => h.whole data ?_,
    fun data hmem => h.unwrapped data (by simpa using hmem), fun k hk data hlast => ?_, h.mqtt.imp_left (Pending.mono hsub),
    h.settings.imp (Pending.mono hsub) fun hold e' voltage hlast => ?_, h.preamps, fun name => ?_⟩
  · refine hdata.imp_right (Or.imp (fun hmem => by simpa using hmem) fun hmem => ?_)
    refine (List.mem_append.mp hmem).resolve_right fun hmem => hstored .mcp4728 ?_
    rw [← Task.event.inj (List.mem_singleton.mp hmem)]
  · rw [latest_event, valueAt_of_ne (hstored k), Option.none_or] at hlast
    exact h.stored k hk data hlast
  · rw [latest_event, valueAt_of_ne (hsetting e'), Option.none_or] at hlast
    exact hold e' voltage hlast
  · refine (latest_event e _).trans (Eq.trans ?_ (hcopied name).symm)
    rw [← h.histograms name]
    rfl

theorem Inv.append_preamp (event : PreampSwitchEvent) (h : Inv (.preamp :: todo) n s tasks) :
    Inv (.preamp :: todo) n s (tasks ++ [.event ⟨.preamp, event⟩]) := by
  refine ⟨h.synced.append_event (by simp) (by simp) fun name => ?_,
    h.served.mono (List.Subset.refl _) (List.subset_append_left _ _)
      fun hdo => absurd List.mem_cons_self hdo⟩
  rw [valueAt_of_ne (by simp), Option.none_or]

/-- The events of both preamplifiers are published. Others may come between them. -/
theorem Inv.offerPreamps {data : Vector PreampSwitchEvent 2} (hdata : s.preamps = some data)
    (h : Inv (.preamp :: todo) n s tasks) {others : List (Task P)}
    (hothers : ∀ task ∈ others, IsSource task) :
    Inv todo n s (tasks ++ [.event ⟨.preamp, firstEntry data⟩] ++ others ++
      [.event ⟨.preamp, secondEntry data⟩]) := by
  have hboth := ((h.append_preamp (firstEntry data)).append hothers).append_preamp (secondEntry data)
  refine ⟨hboth.synced, hboth.served.length, hboth.served.stores,
    fun k hk hdo => hboth.served.stored k hk (by simp [hdo]),
    fun hdo => hboth.served.settings (by simp [hdo]), fun _ data' hdata' => .inr (.inl ?_),
    fun name hdo => hboth.served.histograms name (by simp [hdo])⟩
  obtain rfl := Option.some.inj (hdata.symm.trans hdata')
  have hnone : others.filterMap (sending .preamp) = [] :=
    List.filterMap_eq_nil_iff.mpr fun task htask =>
      sending_source (t := .preamp) trivial (hothers task htask)
  refine ⟨preampEvents n.sent s tasks, ?_⟩
  simp [preampEvents, hnone, sending]

/-! ## The histograms -/

/-- The histograms themselves are not what the invariant is about. -/
theorem Inv.filled (fill : Histos P → Histos P) (h : Inv todo n s tasks) :
    Inv todo n (s.filled fill) tasks := by
  obtain ⟨hsynced, hserved⟩ := h
  exact ⟨⟨hsynced.whole, hsynced.unwrapped, hsynced.stored, hsynced.mqtt, hsynced.settings,
    hsynced.preamps, hsynced.histograms⟩, ⟨hserved.length, hserved.stores, hserved.stored,
    hserved.settings, hserved.preamps, hserved.histograms⟩⟩

/-- A histogram is copied, and the copy published. -/
theorem Inv.copy {name : Histo} (h : Inv (.histogram name :: todo) n s tasks) :
    Inv todo n (s.copy name) (tasks ++ [.event ⟨.histogram name, s.histos name⟩]) := by
  have hmore : Served (.histogram name :: todo) n s
      (tasks ++ [.event ⟨.histogram name, s.histos name⟩]) :=
    h.served.mono (List.Subset.refl _) (List.subset_append_left _ _)
      fun _ => preamps_event (by rintro ⟨⟩)
  refine ⟨h.synced.append_event (by simp) (by simp) fun name' => ?_, hmore.length, hmore.stores,
    fun k hk hdo => hmore.stored k hk (by simp [hdo]), fun hdo => hmore.settings (by simp [hdo]),
    fun hdo => hmore.preamps (by simp [hdo]), fun name' hdo => ?_⟩
  · by_cases hname : name' = name
    · subst hname
      rw [Function.update_self, valueAt_self, Option.some_or]
    · have hne : Topic.histogram name ≠ .histogram name' := fun heq =>
        hname (Topic.histogram.inj heq).symm
      rw [Function.update_of_ne hname, valueAt_of_ne hne, Option.none_or]
  · by_cases hname : name' = name
    · subst hname
      exact .inr (pending_event (.histogram name') _)
    · exact hmore.histograms name' (by simp [hname, hdo])

/-! ## The sink -/

theorem lastSince_handle (hm : m ≤ s.sent.length) (t : Topic) (e : Event P) :
    lastSince m t (s.handle e) = (valueAt t e).or (lastSince m t s) := by
  rw [lastSince, Daemon.handle, List.drop_append_of_le_length hm]
  exact latest_concat _

theorem lastSent_handle (t : Topic) (e : Event P) :
    lastSent t (s.handle e) = (valueAt t e).or (lastSent t s) :=
  lastSince_handle (Nat.zero_le _) t e

theorem latest_handle (t : Topic) (e : Event P) :
    latest (sending t) tasks (lastSent t (s.handle e)) =
      latest (sending t) (.event e :: tasks) (lastSent t s) := by
  rw [lastSent_handle, latest_cons]
  rfl

theorem Offered.handle {t : Topic} {e : Event P} (hm : m ≤ s.sent.length)
    (h : Offered m t s (.event e :: tasks)) : Offered m t (s.handle e) tasks := by
  have hsent : (s.handle e).sent.drop m = s.sent.drop m ++ [e] :=
    List.drop_append_of_le_length hm
  rw [Offered, hsent]
  rcases h with ⟨v, hmem⟩ | ⟨v, hmem⟩
  · exact .inl ⟨v, List.mem_append_left _ hmem⟩
  · rcases List.mem_cons.mp hmem with heq | hmem
    · exact .inl ⟨v, by simp [Task.event.inj heq]⟩
    · exact .inr ⟨v, hmem⟩

/-- An event that is sent no longer waits. -/
theorem preampEvents_handle (hm : m ≤ s.sent.length) (e : Event P) :
    preampEvents m (s.handle e) tasks = preampEvents m s (.event e :: tasks) := by
  rw [preampEvents, preampEvents, Daemon.handle, List.drop_append_of_le_length hm,
    List.filterMap_append, List.append_assoc]
  refine congrArg _ ?_
  cases hvalue : valueAt .preamp e <;> simp [sending, hvalue]

theorem Served.handle {e : Event P} (h : Served todo n s (.event e :: tasks))
    (hdac : e.topic = .stored .mcp4728 → ∀ e', Offered n.sent (.setting e') s tasks) :
    Served todo n (s.handle e) tasks := by
  refine ⟨?_, h.stores, fun k hk hdo hdata => ?_, fun hdo hdata => ?_, fun hdo data hdata => ?_,
    fun name hdo => (h.histograms name hdo).handle h.length⟩
  · have hlength := h.length
    simp only [Daemon.handle, List.length_append]
    omega
  · rcases h.stored k hk hdo hdata with ⟨r, hr, hmem⟩ | hsunk | hoffered
    · exact .inl ⟨r, hr, by simpa using hmem⟩
    · exact .inr (.inl hsunk)
    · exact .inr (.inr (hoffered.handle h.length))
  · have hsettings : (∀ e', Offered n.sent (.setting e') s tasks) →
        ∀ e', Offered n.sent (.setting e') (s.handle e) tasks := fun hall e' =>
      ((hall e').mono (List.subset_cons_self _ _)).handle h.length
    rcases h.settings hdo hdata with hmem | hpending | hoffered
    · exact .inl (by simpa using hmem)
    · by_cases htopic : e.topic = .stored .mcp4728
      · exact .inr (.inr (hsettings (hdac htopic)))
      · exact .inr (.inl (hpending.tail htopic))
    · exact .inr (.inr fun e' => (hoffered e').handle h.length)
  · rw [preampEvents_handle h.length]
    exact (h.preamps hdo data hdata).imp_left fun hmem => by simpa using hmem

/-- The sink is called with an event. Of the status of MQTT that is after it was stored, and of
the DAC after its settings were published. -/
theorem Inv.handle {e : Event P} (h : Inv todo n s (.event e :: tasks))
    (hmqtt : ∀ data, valueAt (.stored .mqttStatus) e = some data → s.data .mqttStatus = some data)
    (hdac : e.topic = .stored .mcp4728 → (∀ e', Offered n.sent (.setting e') s tasks) ∧
      (Pending (.stored .mcp4728) tasks ∨ ∀ e' voltage,
        latest (sending (.setting e')) tasks none = some voltage → current s e' = some voltage)
      ∧ ∀ e', latest (sending (.setting e')) tasks none ≠ none) :
    Inv todo n (s.handle e) tasks := by
  refine ⟨⟨fun data hdata => ?_, fun data hmem => ?_, fun k hk data hlast => ?_, ?_, ?_,
    h.synced.preamps, fun name => ?_⟩, h.served.handle fun htopic => (hdac htopic).1⟩
  · refine h.synced.whole data (hdata.imp_right (Or.imp ?_ ?_))
    · exact List.mem_cons_of_mem _
    · exact List.mem_cons_of_mem _
  · exact h.synced.unwrapped data (List.mem_cons_of_mem _ hmem)
  · rw [latest_handle] at hlast
    exact h.synced.stored k hk data hlast
  · by_cases htopic : e.topic = .stored .mqttStatus
    · refine .inr fun data hlast => ?_
      obtain ⟨v, rfl⟩ := exists_valueAt htopic
      rw [lastSent_handle, valueAt_self, Option.some_or] at hlast
      exact hmqtt data (by rw [valueAt_self, hlast])
    · refine h.synced.mqtt.imp (·.tail htopic) fun hold data hlast => ?_
      rw [lastSent_handle, valueAt_of_ne htopic, Option.none_or] at hlast
      exact hold data hlast
  · by_cases htopic : e.topic = .stored .mcp4728
    · obtain ⟨-, hsettings, hsome⟩ := hdac htopic
      refine hsettings.imp_right fun hsettings e' voltage hlast => hsettings e' voltage ?_
      obtain ⟨voltage', hvoltage⟩ := Option.ne_none_iff_exists'.mp (hsome e')
      rw [latest_of_some hvoltage] at hlast
      rw [hvoltage, hlast]
    · refine h.synced.settings.imp (·.tail htopic) fun hold e' voltage hlast => ?_
      rw [latest_handle] at hlast
      exact hold e' voltage hlast
  · rw [latest_handle]
    exact h.synced.histograms name

/-- The settings of a DAC event wait, and it is the event's turn. -/
theorem Inv.handle_dac {data : P.Data .mcp4728} (hwhole : Whole .mcp4728 data)
    (hset : ∀ e, latest (sending (.setting e)) tasks none = P.voltages data e.channel)
    (h : Inv todo n s (.event ⟨.stored .mcp4728, data⟩ :: tasks)) :
    Inv todo n (s.handle ⟨.stored .mcp4728, data⟩) tasks := by
  have hsome : ∀ e, latest (sending (.setting e)) tasks none ≠ none := fun e =>
    (hset e).trans_ne (hwhole e)
  have hfollows : Kind.mcp4728.Follows := by decide
  refine h.handle (fun data' hdata => ?_) fun _ => ⟨fun e => .inr ?_, ?_, hsome⟩
  · rw [valueAt_of_ne (by simp)] at hdata
    cases hdata
  · exact pending_of_latest (hsome e)
  · -- it is stored still, or another one waits
    cases hlast : latest (sending (.stored .mcp4728)) tasks none with
    | none =>
      refine .inr fun e voltage hvoltage => ?_
      have hdata : s.data .mcp4728 = some data := by
        refine h.synced.stored .mcp4728 hfollows data ?_
        rw [latest_cons, latest_of_eq_none hlast]
        exact congrArg (Option.or · _) (valueAt_self _ _)
      rw [current, hdata, Option.bind_some, ← hset e, hvoltage]
    | some data' =>
      have hwaits : latest (sending (.stored .mcp4728)) tasks none ≠ none := by
        rw [hlast]
        exact Option.some_ne_none data'
      exact .inl (pending_of_latest hwaits)

/-! ## The handlers -/

/-- What the handlers keep. -/
abbrev Keeps (todo : List Topic) (n : Mark) (p : Prog P) (s : Daemon P) (tasks : List (Task P)) :
    Prop :=
  p.wp bindings IsSource Reads (Inv todo n) s tasks

theorem keeps_publish {task : Task P} (h : Inv todo n s (tasks ++ [task])) :
    Keeps todo n (.publish task .done) s tasks :=
  fun _ hothers => h.insert hothers

theorem keeps_sink {e : Event P} (h : Inv todo n (s.handle e) tasks) :
    Keeps todo n (sink e) s tasks :=
  fun _ _ hothers _ => h.append hothers

theorem keeps_offer {k : Kind} {todo' : List Topic} {next : Prog P}
    (h : Inv (.stored k :: todo') n s tasks)
    (hnext : ∀ tasks, Inv todo' n s tasks → Keeps todo n next s tasks) :
    Keeps todo n (StoredEvents.offer k next) s tasks := by
  intro others _ hothers _
  change Program.wp _ _ _ _ (if (s.data k).isSome then _ else _) s _
  cases hdata : s.data k with
  | none => exact hnext _ ((h.skip hdata).append hothers)
  | some data =>
    intro others' _ hothers' _
    change Program.wp _ _ _ _ (match s.data k with | none => _ | some data => _) s _
    rw [hdata]
    intro others'' hothers''
    refine hnext _ ?_
    exact (((h.offer hdata).insert hothers).insert hothers').insert hothers''

/-- The settings are published one after the other. What is said of the queue may depend on the
settings that are left. -/
theorem keeps_publishSettings {data : P.Data .mcp4728} (hwhole : Whole .mcp4728 data)
    {R : List Setting → List (Task P) → Prop} {next : Prog P}
    (hR : ∀ e es tasks others voltage, R (e :: es) tasks → (∀ task ∈ others, IsSource task) →
      P.voltages data e.channel = some voltage →
      R es (tasks ++ others ++ [.event ⟨.setting e, voltage⟩]))
    (hnext : ∀ tasks, R [] tasks → Keeps todo n next s tasks) {es : List Setting} (h : R es tasks) :
    Keeps todo n (publishSettings data es next) s tasks := by
  induction es generalizing tasks with
  | nil => exact hnext tasks h
  | cons e es ih =>
    change Program.wp _ _ _ _ (publishSetting data (publishSettings data es next) e) s tasks
    unfold publishSetting
    split
    · next hnone => exact absurd hnone (hwhole e)
    · next voltage hvoltage =>
      intro others hothers
      exact ih (hR e es tasks others voltage h hothers hvoltage)

/-- A setting of what is stored waits. -/
theorem Inv.append_setting {e : Setting} {voltage : P.Voltage}
    (hcurrent : Pending (.stored .mcp4728) tasks ∨ current s e = some voltage)
    (h : Inv todo n s tasks) : Inv todo n s (tasks ++ [.event ⟨.setting e, voltage⟩]) := by
  have hsub : tasks ⊆ tasks ++ [.event ⟨.setting e, voltage⟩] := List.subset_append_left _ _
  refine ⟨⟨fun data hdata => h.synced.whole data (by simpa using hdata),
    fun data hmem => h.synced.unwrapped data (by simpa using hmem), fun k hk data hlast => ?_,
    h.synced.mqtt.imp_left (Pending.mono hsub), ?_, h.synced.preamps, fun name => ?_⟩,
    h.served.mono (List.Subset.refl _) hsub fun _ => preamps_event (by rintro ⟨⟩)⟩
  · rw [latest_event, valueAt_of_ne (by simp), Option.none_or] at hlast
    exact h.synced.stored k hk data hlast
  · rcases hcurrent with hpending | hcurrent
    · exact .inl (hpending.mono hsub)
    · refine h.synced.settings.imp (Pending.mono hsub) fun hold e' voltage' hlast => ?_
      rw [latest_event] at hlast
      by_cases he : e = e'
      · subst he
        rw [valueAt_self, Option.some_or, Option.some.injEq] at hlast
        exact hlast ▸ hcurrent
      · rw [valueAt_of_ne (by simpa using he), Option.none_or] at hlast
        exact hold e' voltage' hlast
  · rw [latest_event, valueAt_of_ne (by simp), Option.none_or]
    exact h.synced.histograms name

theorem keeps_offerSettings (es : List Setting) (h : Inv todo n s tasks) :
    Keeps todo n (offerSettings es) s tasks := by
  intro others _ hothers _
  have hmore := h.append hothers
  change Program.wp _ _ _ _ (if (s.data .mcp4728).isSome then _ else _) s _
  cases hdata : s.data .mcp4728 with
  | none => exact hmore
  | some data =>
    intro others' _ hothers' _
    change Program.wp _ _ _ _ (match s.data .mcp4728 with | none => _ | some data => _) s _
    rw [hdata]
    change Keeps todo n (publishSettings data es .done) s _
    refine keeps_publishSettings (h.synced.whole data (.inl hdata))
      (R := fun _ tasks => Inv todo n s tasks) (fun e es tasks others voltage hinv hothers hv => ?_)
      (fun _ hinv => ?_) (hmore.append hothers')
    · refine (hinv.append hothers).append_setting (.inr ?_)
      rw [current, hdata, Option.bind_some, hv]
    · exact hinv

/-- The settings of a DAC event are published ahead of the event itself. -/
theorem keeps_dac {data : P.Data .mcp4728}
    (h : Inv todo n s (.event ⟨.stored .mcp4728, data⟩ :: tasks)) :
    Keeps todo n (handler (.event ⟨.stored .mcp4728, data⟩)) s tasks := by
  have hwhole : Whole .mcp4728 data := h.synced.whole data (.inr (.inr (by simp)))
  refine keeps_publishSettings hwhole
    (R := fun es tasks => Inv todo n s (.event ⟨.stored .mcp4728, data⟩ :: tasks) ∧
      ∀ e, e ∉ es → latest (sending (.setting e)) tasks none = P.voltages data e.channel)
    (fun e es tasks others voltage hR hothers hv => ⟨?_, fun e' he' => ?_⟩)
    (fun tasks hR => ?_) ⟨h, fun e he => ?_⟩
  · have hmore : Inv todo n s (.event ⟨.stored .mcp4728, data⟩ :: (tasks ++ others)) :=
      hR.1.append hothers
    exact hmore.append_setting (.inl ⟨data, by simp⟩)
  · rw [latest_event, latest_append, latest_of_none fun task htask =>
      sending_source (t := .setting e') trivial (hothers task htask)]
    by_cases he : e = e'
    · subst he
      rw [valueAt_self, Option.some_or, hv]
    · rw [valueAt_of_ne (by simpa using he), Option.none_or]
      exact hR.2 e' (by simp [Ne.symm he, he'])
  · exact keeps_sink (hR.1.handle_dac hwhole fun e => hR.2 e (by simp))
  · cases e <;> simp at he

/-- An event that nobody is subscribed to. -/
theorem Inv.drop {k : Kind} {data : P.Data k} (hsunk : k.sunk = false)
    (h : Inv todo n s (.event ⟨.stored k, data⟩ :: tasks)) : Inv todo n s tasks := by
  have hne : ∀ k' : Kind, k'.sunk = true → Topic.stored k ≠ .stored k' := by
    intro k' hk' heq
    obtain rfl := Topic.stored.inj heq
    rw [hsunk] at hk'
    cases hk'
  have hskip : ∀ (t : Topic) (old : Option (P.Value t)), Topic.stored k ≠ t →
      latest (sending t) (.event ⟨.stored k, data⟩ :: tasks) old = latest (sending t) tasks old :=
    fun t old ht => latest_tail (sending_of_ne ht) old
  have hpreamps : preampEvents n.sent s (.event ⟨.stored k, data⟩ :: tasks) =
      preampEvents n.sent s tasks := by
    rw [preampEvents, List.filterMap_cons_none (sending_of_ne (by rintro ⟨⟩))]
    rfl
  refine ⟨⟨fun data' hdata => ?_, fun data' hmem => ?_, fun k' hk' data' hlast => ?_,
    h.synced.mqtt.imp_left (·.tail (hne _ rfl)), ?_, h.synced.preamps, fun name => ?_⟩,
    h.served.length, h.served.stores, fun k' hk' hdo hdata => ?_, fun hdo hdata => ?_,
    fun hdo data' hdata => ?_, fun name hdo => ?_⟩
  · refine h.synced.whole data' (hdata.imp_right (Or.imp ?_ ?_))
    · exact List.mem_cons_of_mem _
    · exact List.mem_cons_of_mem _
  · exact h.synced.unwrapped data' (List.mem_cons_of_mem _ hmem)
  · exact h.synced.stored k' hk' data' (by rwa [hskip _ _ (hne k' hk'.1)])
  · refine h.synced.settings.imp (·.tail (hne _ rfl)) fun hold e voltage hlast => ?_
    exact hold e voltage (by rwa [hskip _ _ (by simp)])
  · rw [← h.synced.histograms name, hskip _ _ (by simp)]
  · rcases h.served.stored k' hk' hdo hdata with ⟨r, hr, hmem⟩ | hsunk' | hoffered
    · exact .inl ⟨r, hr, by simpa using hmem⟩
    · exact .inr (.inl hsunk')
    · cases hsunk' : k'.sunk with
      | false => exact .inr (.inl rfl)
      | true => exact .inr (.inr (hoffered.imp_right (·.tail (hne k' hsunk'))))
  · rcases h.served.settings hdo hdata with hmem | hpending | hoffered
    · exact .inl (by simpa using hmem)
    · exact .inr (.inl (hpending.tail (hne _ rfl)))
    · exact .inr (.inr fun e => (hoffered e).imp_right (·.tail (by simp)))
  · rw [← hpreamps]
    exact (h.served.preamps hdo data' hdata).imp_left fun hmem => by simpa using hmem
  · exact (h.served.histograms name hdo).imp_right (·.tail (by simp))

/-- The status of MQTT is stored while its event is handled. -/
theorem Inv.store_mqtt {data : P.Data .mqttStatus}
    (h : Inv todo n s (.event ⟨.stored .mqttStatus, data⟩ :: tasks)) :
    Inv todo n (s.store .mqttStatus data) (.event ⟨.stored .mqttStatus, data⟩ :: tasks) := by
  have hdac : (s.store .mqttStatus data).data .mcp4728 = s.data .mcp4728 :=
    Daemon.store_data_of_ne (by decide)
  refine ⟨⟨fun data' hdata => h.synced.whole data' (by rwa [hdac] at hdata), h.synced.unwrapped,
    fun k hk data' hlast => ?_, .inl ⟨data, by simp⟩, h.synced.settings.imp_right
      fun hold e voltage hlast => ?_, h.synced.preamps, h.synced.histograms⟩, h.served.length,
    h.served.stores, fun k hk hdo hdata => ?_,
    fun hdo hdata => h.served.settings hdo (by rwa [hdac] at hdata), h.served.preamps,
    h.served.histograms⟩
  · rw [Daemon.store_data_of_ne hk.2.2]
    exact h.synced.stored k hk data' hlast
  · rw [current_store e (by decide)]
    exact hold e voltage hlast
  · by_cases hkm : k = .mqttStatus
    · subst hkm
      exact .inr (.inr (.inr ⟨data, by simp⟩))
    · rw [Daemon.store_data_of_ne hkm] at hdata
      exact h.served.stored k hk hdo hdata

theorem convert_of_ne {k : Kind} {data : P.Data k} {next : Prog P} (hdac : k ≠ .mcp4728)
    (hmqtt : k ≠ .mqttStatus) : convert k data next = next := by
  cases k <;> first | rfl | exact absurd rfl hdac | exact absurd rfl hmqtt

theorem keeps_stored {k : Kind} {data : P.Data k}
    (h : Inv todo n s (.event ⟨.stored k, data⟩ :: tasks)) :
    Keeps todo n (handler (.event ⟨.stored k, data⟩)) s tasks := by
  by_cases hdac : k = .mcp4728
  · subst hdac
    exact keeps_dac h
  · have hne : Topic.stored k ≠ .stored .mcp4728 := fun heq => hdac (Topic.stored.inj heq)
    by_cases hmqtt : k = .mqttStatus
    · subst hmqtt
      intro others _ hothers _
      have hmore : Inv todo n s (.event ⟨.stored .mqttStatus, data⟩ :: (tasks ++ others)) :=
        h.append hothers
      refine keeps_sink (hmore.store_mqtt.handle (fun data' hdata => ?_) fun htopic =>
        absurd htopic hne)
      rw [valueAt_self] at hdata
      exact Daemon.store_data_self.trans hdata
    · simp only [handler, convert_of_ne hdac hmqtt]
      cases hsunk : k.sunk with
      | false => exact h.drop hsunk
      | true =>
        refine keeps_sink (h.handle (fun data' hdata => ?_) fun htopic => absurd htopic hne)
        have hother : Topic.stored k ≠ .stored .mqttStatus := fun heq =>
          hmqtt (Topic.stored.inj heq)
        rw [valueAt_of_ne hother] at hdata
        cases hdata

theorem keeps_setting {e : Setting} {voltage : P.Voltage}
    (h : Inv todo n s (.event ⟨.setting e, voltage⟩ :: tasks)) :
    Keeps todo n (handler (.event ⟨.setting e, voltage⟩)) s tasks := by
  refine keeps_sink (h.handle (fun data hdata => ?_) fun htopic => by cases htopic)
  rw [valueAt_of_ne (by simp)] at hdata
  cases hdata

theorem keeps_preamp {event : PreampSwitchEvent}
    (h : Inv todo n s (.event ⟨.preamp, event⟩ :: tasks)) :
    Keeps todo n (handler (.event ⟨.preamp, event⟩)) s tasks := by
  refine keeps_sink (h.handle (fun data hdata => ?_) fun htopic => by cases htopic)
  rw [valueAt_of_ne (by simp)] at hdata
  cases hdata

theorem keeps_histogram {name : Histo} {histogram : P.Histogram}
    (h : Inv todo n s (.event ⟨.histogram name, histogram⟩ :: tasks)) :
    Keeps todo n (handler (.event ⟨.histogram name, histogram⟩)) s tasks := by
  refine keeps_sink (h.handle (fun data hdata => ?_) fun htopic => by cases htopic)
  rw [valueAt_of_ne (by simp)] at hdata
  cases hdata

theorem keeps_readDac (h : Inv todo n s tasks) : Keeps todo n readDac s tasks := by
  intro others c hothers hreads
  have hmore := h.append hothers
  change Program.wp _ _ _ _ (match c.read with | none => _ | some data => _) s _
  cases hread : c.read with
  | none => exact hmore
  | some data =>
    refine keeps_publish (hmore.append fun task htask => ?_)
    rw [List.mem_singleton.mp htask]
    exact ⟨by decide, hreads data hread⟩

theorem keeps_request {r : Request} (h : Inv todo n s (.request r :: tasks)) :
    Keeps todo n (handler (.request r)) s tasks := by
  have htail : Inv ([.stored r.kind] ++ todo) n s tasks :=
    h.tail (by simp) (fun r' hr' => by simp_all) (by simp)
  refine keeps_offer htail fun tasks hinv => ?_
  split_ifs
  · exact keeps_readDac hinv
  · exact hinv

/-- Both preamplifiers are published, if they are stored. -/
theorem keeps_offerPreamps (h : Inv (.preamp :: todo) n s tasks) :
    Keeps todo n offerPreamps s tasks := by
  intro others _ hothers _
  have hmore := h.append hothers
  change Program.wp _ _ _ _ (if s.preamps.isSome then _ else _) s _
  cases hdata : s.preamps with
  | none => exact hmore.skipPreamps hdata
  | some data =>
    intro others' _ hothers' _
    rw [show (bindings.exec _ s .getPreamps).2 = some data from hdata]
    intro first hfirst second hsecond
    exact ((hmore.append hothers').append hfirst).offerPreamps hdata hsecond

/-- A preamplifier is stored. Of all but the first event the request follows. -/
theorem keeps_storePreamp (event : PreampSwitchEvent) (h : Inv todo n s tasks) :
    Keeps todo n (storePreamp event) s tasks := by
  unfold storePreamp
  split_ifs
  · exact h
  · intro others _ hothers _
    have hmore := h.append hothers
    change Program.wp _ _ _ _ (if s.preamps.isSome then _ else _) s _
    cases hdata : s.preamps with
    | none =>
      intro others' _ hothers' _
      exact (hmore.append hothers').storeFirst _ hdata
    | some data =>
      intro others' _ hothers' _
      rw [show (bindings.exec _ s .getPreamps).2 = some data from hdata]
      intro others'' _ hothers'' _ last hlast
      have hstored : Inv (.preamp :: todo) n (s.storePreamps (setChannel data event)) _ :=
        ((hmore.append hothers').append hothers'').storePreamps _
      exact (hstored.append hlast).requestPreamps

/-- Every histogram is copied, and the copies are published. -/
theorem keeps_offerHistos (names : List Histo) (h : Inv (names.map .histogram ++ todo) n s tasks) :
    Keeps todo n (offerHistos names .done) s tasks := by
  induction names generalizing s tasks with
  | nil => exact h
  | cons name names ih =>
    intro others _ hothers _ others' _ hothers' _ others'' hothers''
    have hmore := ((h.append hothers).append hothers').append hothers''
    exact ih (hmore.filled fun histos => Function.update histos name (P.rescale (histos name))).copy

theorem keeps_offers {todo' : List Topic} {next : Prog P} (ks : List Kind)
    (h : Inv (ks.map .stored ++ todo') n s tasks)
    (hnext : ∀ tasks, Inv todo' n s tasks → Keeps todo n next s tasks) :
    Keeps todo n (ks.foldr StoredEvents.offer next) s tasks := by
  induction ks generalizing tasks with
  | nil => exact hnext tasks h
  | cons k ks ih => exact keeps_offer h fun _ hinv => ih hinv

theorem keeps_requests {rs : List Request} {todo' : List Topic} {next : Prog P}
    (h : Inv (rs.map (fun r => .stored r.kind) ++ todo') n s tasks)
    (hnext : ∀ tasks, Inv todo' n s tasks → Keeps todo n next s tasks) :
    Keeps todo n (rs.foldr (fun r next => .publish (.request r) next) next) s tasks := by
  induction rs generalizing tasks with
  | nil => exact hnext tasks h
  | cons r rs ih =>
    intro others hothers
    have hmore : Inv (rs.map (fun r => .stored r.kind) ++ todo') n s (tasks ++ [.request r]) :=
      h.request
    exact ih (hmore.insert hothers)

/-- What a new connection polls is done. -/
theorem keeps_pollDatastore (h : Inv (poll P ++ todo) n s tasks) :
    Keeps todo n pollDatastore s tasks := by
  rw [poll, List.append_assoc, List.cons_append, List.append_assoc] at h
  refine keeps_requests h fun tasks hinv others hothers => ?_
  exact keeps_offers offers (hinv.append hothers).requestPreamps fun _ hinv =>
    keeps_offerHistos P.allHistos hinv

theorem keeps_handler {task : Task P} (h : Inv todo n s (task :: tasks)) :
    Keeps todo n (handler task) s tasks := by
  cases task with
  | datastoreStoreEvent k data =>
    intro others c hothers _ others' hothers'
    have hfilled := h.filled (if k.fills then c.fill else id)
    exact (hfilled.store.insert hothers).insert hothers'
  | event e =>
    obtain ⟨topic, value⟩ := e
    cases topic with
    | stored k => exact keeps_stored h
    | setting e => exact keeps_setting h
    | preamp => exact keeps_preamp h
    | histogram name => exact keeps_histogram h
  | request r => exact keeps_request h
  | thresholdSettingRequest =>
    exact keeps_offerSettings _ (h.tail_other (by simp) (by simp) (by simp))
  | biasVoltageRequest =>
    exact keeps_offerSettings _ (h.tail_other (by simp) (by simp) (by simp))
  | preampStoreEvent event =>
    exact keeps_storePreamp event (h.tail_other (by simp) (by simp) (by simp))
  | preampSwitchRequest =>
    have htail : Inv ([.preamp] ++ todo) n s tasks := h.tail (by simp) (by simp) (by simp)
    exact keeps_offerPreamps htail
  | filling =>
    intro others c hothers _
    exact ((h.tail_other (by simp) (by simp) (by simp)).append hothers).filled c.fill
  | histogramRequest =>
    have htail := h.tail_other (by simp) (by simp) (by simp)
    exact keeps_offerHistos P.allHistos (htail.more (List.subset_append_right _ _))
  | histogramClear name =>
    have htail := h.tail_other (by simp) (by simp) (by simp)
    cases name with
    | none => exact htail
    | some name =>
      intro others _ hothers _
      exact (htail.append hothers).filled fun histos =>
        Function.update histos name (P.clear (histos name))
  | serverConnCount newlyConnected =>
    have htail := h.tail_other (by simp) (by simp) (by simp)
    simp only [handler]
    split_ifs
    · exact keeps_pollDatastore (htail.more (List.subset_append_right _ _))
    · exact htail

/-! ## Every run -/

/-- What a client has been sent that was added to the sink at the mark. Of the types that are
published directly it has something, of all others that are polled what is stored; of the
preamplifiers the two that are stored, unless only one event of them has come yet and that after
the mark; of every histogram the copy that was made last. -/
structure UpToDate (n : Mark) (s : Daemon P) : Prop where
  polled : ∀ k ∈ polled, k.sunk = true → k.direct = false →
    lastSince n.sent (.stored k) s = s.data k
  direct : ∀ k ∈ StoredEvents.polled, k.direct = true → s.data k ≠ none →
    lastSince n.sent (.stored k) s ≠ none
  settings : ∀ e, lastSince n.sent (.setting e) s = current s e
  preamps : ∀ data, s.preamps = some data → 0 < n.stores ∨ 1 < s.preampStores →
    EndWith data ((s.sent.drop n.sent).filterMap (valueAt .preamp))
  histograms : ∀ name, lastSince n.sent (.histogram name) s = s.copied name ∧
    s.copied name ≠ none
  others : ∀ k : Kind, k.Follows → ∀ data, lastSince n.sent (.stored k) s = some data →
    s.data k = some data

theorem lastSent_of_lastSince {t : Topic} {v : P.Value t} (h : lastSince m t s = some v) :
    lastSent t s = some v := by
  rw [lastSent, lastSince, List.drop_zero, ← List.take_append_drop m s.sent, latest_append]
  exact latest_of_some h

theorem lastSince_ne_none {t : Topic} (h : Offered m t s []) : lastSince m t s ≠ none := by
  rcases h with ⟨v, hmem⟩ | ⟨v, hmem⟩
  · exact latest_ne_none hmem (by simp)
  · cases hmem

/-- What was sent last is what is stored, where nothing else was sent and it was sent at all. -/
theorem lastSince_eq {t : Topic} {now : Option (P.Value t)}
    (hsome : ∀ v, lastSince m t s = some v → now = some v)
    (hne : now ≠ none → lastSince m t s ≠ none) : lastSince m t s = now := by
  cases hlast : lastSince m t s with
  | some v => exact (hsome v hlast).symm
  | none =>
    by_contra hnow
    exact hne (Ne.symm hnow) hlast

/-- Nothing waits and nothing is to do. -/
theorem Inv.upToDate (h : Inv [] n s []) : UpToDate n s := by
  have hfollowed : ∀ k : Kind, k.sunk = true → k.direct = false → ∀ data,
      lastSince n.sent (.stored k) s = some data → s.data k = some data := by
    intro k hsunk hdirect data hlast
    by_cases hmqtt : k = .mqttStatus
    · subst hmqtt
      rcases h.synced.mqtt with ⟨v, hmem⟩ | hold
      · cases hmem
      · exact hold data (lastSent_of_lastSince hlast)
    · exact h.synced.stored k ⟨hsunk, hdirect, hmqtt⟩ data (lastSent_of_lastSince hlast)
  have hoffered : ∀ k ∈ polled, k.sunk = true → s.data k ≠ none →
      lastSince n.sent (.stored k) s ≠ none := by
    intro k hk hsunk hdata
    rcases h.served.stored k hk (by simp) hdata with ⟨r, -, hmem⟩ | hunsunk | hoffered
    · cases hmem
    · rw [hsunk] at hunsunk
      cases hunsunk
    · exact lastSince_ne_none hoffered
  refine ⟨fun k hk hsunk hdirect => ?_, fun k hk hdirect hdata => ?_, fun e => ?_,
    fun data hdata hstores => ?_, fun name => ?_, fun k hk => hfollowed k hk.1 hk.2.1⟩
  · exact lastSince_eq (hfollowed k hsunk hdirect) (hoffered k hk hsunk)
  · have hsunk : k.sunk = true := by cases k <;> first | rfl | cases hdirect
    exact hoffered k hk hsunk hdata
  · refine lastSince_eq (fun voltage hlast => ?_) fun hcurrent => ?_
    · rcases h.synced.settings with ⟨v, hmem⟩ | hold
      · cases hmem
      · exact hold e voltage (lastSent_of_lastSince hlast)
    · have hdata : s.data .mcp4728 ≠ none := by
        intro hnone
        rw [current, hnone] at hcurrent
        exact hcurrent rfl
      rcases h.served.settings (by simp) hdata with hmem | ⟨v, hmem⟩ | hoffered
      · cases hmem
      · cases hmem
      · exact lastSince_ne_none (hoffered e)
  · rcases h.served.preamps (by simp) data hdata with hmem | hends | hfirst
    · cases hmem
    · rwa [preampEvents, List.filterMap_nil, List.append_nil] at hends
    · omega
  · have hsome := lastSince_ne_none (h.served.histograms name (by simp))
    obtain ⟨v, hlast⟩ := Option.ne_none_iff_exists'.mp hsome
    have hcopied : s.copied name = some v :=
      (h.synced.histograms name).symm.trans (lastSent_of_lastSince hlast)
    exact ⟨hlast.trans hcopied.symm, hcopied ▸ Option.some_ne_none v⟩

/-- Where all that is polled is to do, nothing has to be offered yet. -/
theorem Synced.inv (h : Synced s tasks) (hsent : n.sent ≤ s.sent.length)
    (hstores : n.stores ≤ s.preampStores) : Inv (poll P) n s tasks :=
  ⟨h, hsent, hstores, fun _ hk hdo => absurd (stored_mem_poll hk) hdo,
    fun hdo => absurd (stored_mem_poll (by decide)) hdo, fun hdo => absurd preamp_mem_poll hdo,
    fun name hdo => absurd (histogram_mem_poll name) hdo⟩

/-- Numbers for all values. -/
def numbers : Payloads where
  Data _ := Nat
  Voltage := Nat
  voltages data _ := some data
  Histogram := Nat
  rescale histogram := histogram
  clear _ := (0 : Nat)
  allHistos := [.geoHeight, .geoLongitude, .geoLatitude, .weightedGeoHeight, .pulseHeight,
    .adcSampleTime, .ubxEventLength, .gpioEventInterval, .gpioEventIntervalShort,
    .ubxEventInterval, .tpTimePhase, .tpTimeJitter, .biasVoltage, .biasCurrent, .pDOP, .tDOP]
  mem_allHistos name := by cases name <;> decide

/-- The first worker takes one task after the other, each of so many steps. -/
def turns (steps : List Nat) : List (Label (Task numbers) (Choice numbers)) :=
  steps.flatMap fun n => .take 0 :: List.replicate n (.run 0 {})

def connect : List (Label (Task numbers) (Choice numbers)) :=
  .publish (.serverConnCount true) ::
    turns ([83, 2, 5, 2, 4, 2, 2, 2, 2, 2, 5, 3] ++ List.replicate 19 2 ++ [5, 1, 2, 2, 2, 2, 2])

end MuonDetector.Core.StoredEvents
