import Mathlib.Data.List.Perm.Basic
import MuonDetector.Library.Machine

/-!
# Datagrams between nodes

Nodes answer datagrams with datagrams. The network delivers what is in flight in any order,
may lose it and may deliver it twice. Where an answer weighs less than what it answers, the
network comes to rest; where nothing is lost, what a datagram in flight stands for comes about.
-/

namespace MuonDetector.Library.Datagrams

open MuonDetector.Library

/-- The nodes of a network with what they do of their own and how they answer. -/
structure Protocol (σ Input Datagram : Type*) where
  onInput : σ → Input → Option (σ × List Datagram)
  onDatagram : σ → Datagram → σ × List Datagram

structure Network (σ Datagram : Type*) where
  nodes : σ
  inFlight : List Datagram

inductive Action (Input : Type*) where
  | input (i : Input)
  | deliver (i : Nat)
  | lose (i : Nat)
  | duplicate (i : Nat)

variable {σ Input Datagram : Type*}

def step (p : Protocol σ Input Datagram) (n : Network σ Datagram) :
    Action Input → Option (Network σ Datagram)
  | .input i => (p.onInput n.nodes i).map fun r => ⟨r.1, n.inFlight ++ r.2⟩
  | .deliver i => n.inFlight[i]?.map fun d =>
    ⟨(p.onDatagram n.nodes d).1, n.inFlight.eraseIdx i ++ (p.onDatagram n.nodes d).2⟩
  | .lose i => n.inFlight[i]?.map fun _ => ⟨n.nodes, n.inFlight.eraseIdx i⟩
  | .duplicate i => n.inFlight[i]?.map fun d => ⟨n.nodes, n.inFlight ++ [d]⟩

abbrev run (p : Protocol σ Input Datagram) (n : Network σ Datagram) (as : List (Action Input)) :
    Option (Network σ Datagram) := Machine.run (step p) n as

variable {p : Protocol σ Input Datagram} {n n' : Network σ Datagram}

/-- What a step does: the datagram at hand is one of those in flight. -/
inductive Stepped (p : Protocol σ Input Datagram) (n n' : Network σ Datagram) :
    Action Input → Prop where
  | input (i : Input) (sent : List Datagram) (does : p.onInput n.nodes i = some (n'.nodes, sent))
    (inFlight : n'.inFlight = n.inFlight ++ sent) : Stepped p n n' (.input i)
  | deliver (i : Nat) (d : Datagram) (others : List Datagram)
    (before : n.inFlight.Perm (d :: others)) (nodes : n'.nodes = (p.onDatagram n.nodes d).1)
    (inFlight : n'.inFlight = others ++ (p.onDatagram n.nodes d).2) : Stepped p n n' (.deliver i)
  | lose (i : Nat) (d : Datagram) (before : n.inFlight.Perm (d :: n'.inFlight))
    (nodes : n'.nodes = n.nodes) : Stepped p n n' (.lose i)
  | duplicate (i : Nat) (d : Datagram) (before : d ∈ n.inFlight) (nodes : n'.nodes = n.nodes)
    (inFlight : n'.inFlight = n.inFlight ++ [d]) : Stepped p n n' (.duplicate i)

theorem perm_of_getElem? {ds : List Datagram} {d : Datagram} {i : Nat} (h : ds[i]? = some d) :
    ds.Perm (d :: ds.eraseIdx i) := by
  obtain ⟨hi, rfl⟩ := List.getElem?_eq_some_iff.mp h
  exact (List.getElem_cons_eraseIdx_perm hi).symm

theorem stepped {a : Action Input} (h : step p n a = some n') : Stepped p n n' a := by
  cases a with
  | input i =>
    obtain ⟨r, hr, rfl⟩ := Option.map_eq_some_iff.mp h
    exact .input i r.2 hr rfl
  | deliver i =>
    obtain ⟨d, hd, rfl⟩ := Option.map_eq_some_iff.mp h
    exact .deliver i d _ (perm_of_getElem? hd) rfl rfl
  | lose i =>
    obtain ⟨d, hd, rfl⟩ := Option.map_eq_some_iff.mp h
    exact .lose i d (perm_of_getElem? hd) rfl
  | duplicate i =>
    obtain ⟨d, hd, rfl⟩ := Option.map_eq_some_iff.mp h
    exact .duplicate i d (List.mem_of_getElem? hd) rfl rfl

/-! ## Invariants -/

/-- What is kept of the nodes by every input and every datagram of a kind, beside the kinds
of datagrams that are sent. -/
structure Keeps (p : Protocol σ Input Datagram) (P : σ → Input → Prop) (I : σ → Prop)
    (K : σ → Datagram → Prop) : Prop where
  input : ∀ s i s' sent, I s → P s i → p.onInput s i = some (s', sent) →
    I s' ∧ (∀ d ∈ sent, K s' d) ∧ ∀ d, K s d → K s' d
  datagram : ∀ s d, I s → K s d →
    I (p.onDatagram s d).1 ∧ (∀ e ∈ (p.onDatagram s d).2, K (p.onDatagram s d).1 e) ∧
      ∀ e, K s e → K (p.onDatagram s d).1 e

/-- The condition on an action that it asks of its input. -/
def OnInput (P : σ → Input → Prop) (n : Network σ Datagram) : Action Input → Prop
  | .input i => P n.nodes i
  | _ => True

/-- The nodes are as they are to be and so is everything in flight. -/
structure Holds (I : σ → Prop) (K : σ → Datagram → Prop) (n : Network σ Datagram) : Prop where
  nodes : I n.nodes
  inFlight : ∀ d ∈ n.inFlight, K n.nodes d

variable {P : σ → Input → Prop} {I : σ → Prop} {K : σ → Datagram → Prop}

theorem Keeps.step (hk : Keeps p P I K) {a : Action Input} (hn : Holds I K n)
    (hP : OnInput P n a) (h : Datagrams.step p n a = some n') : Holds I K n' := by
  cases stepped h with
  | input i sent does inFlight =>
    obtain ⟨hI, hsent, hold⟩ := hk.input _ _ _ _ hn.nodes hP does
    refine ⟨hI, fun d hd => ?_⟩
    rw [inFlight] at hd
    rcases List.mem_append.mp hd with hd | hd
    · exact hold d (hn.inFlight d hd)
    · exact hsent d hd
  | deliver i d others before nodes inFlight =>
    have hd : K n.nodes d := hn.inFlight d (before.mem_iff.mpr (by simp))
    obtain ⟨hI, hsent, hold⟩ := hk.datagram _ d hn.nodes hd
    rw [← nodes] at hI hsent hold
    refine ⟨hI, fun e he => ?_⟩
    rw [inFlight] at he
    rcases List.mem_append.mp he with he | he
    · exact hold e (hn.inFlight e (before.mem_iff.mpr (by simp [he])))
    · exact hsent e he
  | lose i d before nodes =>
    refine ⟨nodes ▸ hn.nodes, fun e he => ?_⟩
    rw [nodes]
    exact hn.inFlight e (before.mem_iff.mpr (by simp [he]))
  | duplicate i d before nodes inFlight =>
    refine ⟨nodes ▸ hn.nodes, fun e he => ?_⟩
    rw [inFlight] at he
    rw [nodes]
    rcases List.mem_append.mp he with he | he
    · exact hn.inFlight e he
    · exact hn.inFlight e (List.mem_singleton.mp he ▸ before)

/-- What is kept holds over every run. -/
theorem Keeps.run (hk : Keeps p P I K) {as : List (Action Input)} (hn : Holds I K n)
    (hP : Machine.Meets (Datagrams.step p) (OnInput P) n as)
    (h : Datagrams.run p n as = some n') : Holds I K n' :=
  Machine.run_history_of_meets (I := fun _ n => Holds I K n)
    (fun _ _ _ _ hi hP ha => hk.step hi hP ha) hn hP h

/-! ## What comes about -/

/-- A datagram that stands for `Q` brings it about when it is delivered or leaves another one
in flight that stands for it, and nothing undoes it. -/
structure Promises (p : Protocol σ Input Datagram) (P : σ → Input → Prop) (I : σ → Prop)
    (K : σ → Datagram → Prop) (Q : σ → Prop) (D : σ → Datagram → Prop) : Prop where
  kept : Keeps p P I K
  input : ∀ s i s' sent, I s → P s i → p.onInput s i = some (s', sent) →
    (Q s → Q s') ∧ ∀ d, D s d → D s' d
  other : ∀ s d, I s → K s d →
    (Q s → Q (p.onDatagram s d).1) ∧ ∀ e, D s e → D (p.onDatagram s d).1 e
  delivered : ∀ s d, I s → K s d → D s d →
    Q (p.onDatagram s d).1 ∨ ∃ e ∈ (p.onDatagram s d).2, D (p.onDatagram s d).1 e

/-- It has come about, or a datagram in flight stands for it. -/
def Due (Q : σ → Prop) (D : σ → Datagram → Prop) (n : Network σ Datagram) : Prop :=
  Q n.nodes ∨ ∃ d ∈ n.inFlight, D n.nodes d

def IsLoss : Action Input → Prop
  | .lose _ => True
  | _ => False

variable {Q : σ → Prop} {D : σ → Datagram → Prop}

theorem Promises.step (hp : Promises p P I K Q D) {a : Action Input} (hn : Holds I K n)
    (hdue : Due Q D n) (hP : OnInput P n a) (hloss : ¬ IsLoss a)
    (h : Datagrams.step p n a = some n') : Due Q D n' := by
  cases stepped h with
  | input i sent does inFlight =>
    obtain ⟨hQ, hD⟩ := hp.input _ _ _ _ hn.nodes hP does
    rcases hdue with hdone | ⟨d, hd, hstands⟩
    · exact .inl (hQ hdone)
    · exact .inr ⟨d, by rw [inFlight]; exact List.mem_append_left _ hd, hD d hstands⟩
  | deliver i d others before nodes inFlight =>
    have hd : K n.nodes d := hn.inFlight d (before.mem_iff.mpr (by simp))
    obtain ⟨hQ, hD⟩ := hp.other _ d hn.nodes hd
    rw [← nodes] at hQ hD
    rcases hdue with hdone | ⟨e, he, hstands⟩
    · exact .inl (hQ hdone)
    · rcases List.mem_cons.mp (before.mem_iff.mp he) with rfl | he
      · have hnext := hp.delivered _ e hn.nodes hd hstands
        rw [← nodes] at hnext
        rcases hnext with hdone | ⟨f, hf, hstands⟩
        · exact .inl hdone
        · exact .inr ⟨f, by rw [inFlight]; exact List.mem_append_right _ hf, hstands⟩
      · exact .inr ⟨e, by rw [inFlight]; exact List.mem_append_left _ he, hD e hstands⟩
  | lose i d before nodes => exact absurd trivial hloss
  | duplicate i d before nodes inFlight =>
    rcases hdue with hdone | ⟨e, he, hstands⟩
    · exact .inl (nodes ▸ hdone)
    · refine .inr ⟨e, ?_, nodes ▸ hstands⟩
      rw [inFlight]
      exact List.mem_append_left _ he

/-- **Where nothing is lost, what is due has come about when nothing is in flight.** -/
theorem Promises.run (hp : Promises p P I K Q D) {as : List (Action Input)} (hn : Holds I K n)
    (hdue : Due Q D n) (hP : Machine.Meets (Datagrams.step p) (OnInput P) n as)
    (hloss : ∀ a ∈ as, ¬ IsLoss a) (h : Datagrams.run p n as = some n') :
    Due Q D n' := by
  induction as generalizing n with
  | nil =>
    cases h
    exact hdue
  | cons a as ih =>
    obtain ⟨next, ha, hrest⟩ := Machine.run_cons_some.mp h
    have hhead : OnInput P n a := hP.1
    exact ih (hp.kept.step hn hhead ha) (hp.step hn hdue hhead (hloss a (by simp)) ha)
      (hP.2 next ha) (fun b hb => hloss b (by simp [hb])) hrest

theorem Due.done {n : Network σ Datagram} (h : Due Q D n) (hrest : n.inFlight = []) :
    Q n.nodes := by
  rcases h with hdone | ⟨d, hd, -⟩
  · exact hdone
  · rw [hrest] at hd
    cases hd

/-! ## Coming to rest -/

/-- The weight of everything in a list. -/
def total (weight : Datagram → Nat) : List Datagram → Nat
  | [] => 0
  | d :: ds => weight d + total weight ds

variable {weight : Datagram → Nat}

theorem total_append (ds es : List Datagram) :
    total weight (ds ++ es) = total weight ds + total weight es := by
  induction ds with
  | nil => exact (Nat.zero_add _).symm
  | cons d ds ih => rw [List.cons_append, total, total, ih, Nat.add_assoc]

theorem total_perm {ds es : List Datagram} (h : ds.Perm es) :
    total weight ds = total weight es := by
  induction h with
  | nil => rfl
  | cons d _ ih => rw [total, total, ih]
  | swap d e ds => simp only [total]; omega
  | trans _ _ ih ih' => exact ih.trans ih'

/-- The network delivers or loses what is in flight. -/
def IsPassing : Action Input → Prop
  | .deliver _ => True
  | .lose _ => True
  | _ => False

theorem total_passing (hless : ∀ s d, total weight (p.onDatagram s d).2 < weight d)
    {a : Action Input} (ha : IsPassing a) (h : step p n a = some n') :
    total weight n'.inFlight < total weight n.inFlight := by
  cases stepped h with
  | input => cases ha
  | deliver i d others before nodes inFlight =>
    have hd := hless n.nodes d
    rw [inFlight, total_append, total_perm before, total]
    omega
  | lose i d before nodes =>
    have hd := hless n.nodes d
    rw [total_perm before, total]
    omega
  | duplicate => cases ha

/-- **Where answers weigh less, the network comes to rest.** -/
theorem passing_run (hless : ∀ s d, total weight (p.onDatagram s d).2 < weight d)
    {as : List (Action Input)} (ha : ∀ a ∈ as, IsPassing a) (h : run p n as = some n') :
    as.length + total weight n'.inFlight ≤ total weight n.inFlight := by
  induction as generalizing n with
  | nil =>
    cases h
    exact Nat.le_of_eq (Nat.zero_add _)
  | cons a as ih =>
    obtain ⟨next, hstep, hrest⟩ := Machine.run_cons_some.mp h
    have hfirst := total_passing hless (ha a (by simp)) hstep
    have hmore := ih (fun b hb => ha b (by simp [hb])) hrest
    rw [List.length_cons]
    omega

end MuonDetector.Library.Datagrams
