import Mathlib.Data.List.Basic

/-!
# Runs of a partial step function

A step function answers `none` when a label cannot occur in a state. A run is a
list of labels each of which can occur where it stands. The induction rules below
carry an invariant of the state together with the labels that led to it from one
step to every run, or to every run whose steps meet a condition on the state before
them.
-/

namespace MuonDetector.Library.Machine

variable {σ α : Type*} {step : σ → α → Option σ}

/-- The state after the given labels, or `none` if one of them cannot occur. -/
def run (step : σ → α → Option σ) : σ → List α → Option σ
  | s, [] => some s
  | s, a :: as => (step s a).bind fun s' => run step s' as

@[simp] theorem run_nil (s : σ) : run step s [] = some s := rfl

theorem run_cons_some {s t : σ} {a : α} {as : List α} :
    run step s (a :: as) = some t ↔ ∃ s', step s a = some s' ∧ run step s' as = some t := by
  simp only [run, Option.bind_eq_some_iff]

theorem run_append {s : σ} {as bs : List α} :
    run step s (as ++ bs) = (run step s as).bind fun s' => run step s' bs := by
  induction as generalizing s with
  | nil => rfl
  | cons a as ih =>
    rw [List.cons_append, run, run, Option.bind_assoc]
    congr 1
    funext s'
    exact ih

/-- The run around one of its labels. -/
theorem run_append_cons {s t : σ} {a : α} {as bs : List α} :
    run step s (as ++ a :: bs) = some t ↔
      ∃ u u', run step s as = some u ∧ step u a = some u' ∧ run step u' bs = some t := by
  simp only [run_append, Option.bind_eq_some_iff, run_cons_some]
  constructor
  · rintro ⟨u, hu, u', ha, ht⟩
    exact ⟨u, u', hu, ha, ht⟩
  · rintro ⟨u, u', hu, ha, ht⟩
    exact ⟨u, hu, u', ha, ht⟩

theorem run_snoc {s t u : σ} {as : List α} {a : α} (hs : run step s as = some t)
    (ha : step t a = some u) : run step s (as ++ [a]) = some u := by
  rw [run_append, hs, Option.bind_some, run_cons_some]
  exact ⟨u, ha, rfl⟩

/-- Every step of the run meets `P`. -/
def Meets (step : σ → α → Option σ) (P : σ → α → Prop) : σ → List α → Prop
  | _, [] => True
  | s, a :: as => P s a ∧ ∀ s' ∈ step s a, Meets step P s' as

instance Meets.decidable {P : σ → α → Prop} [∀ s a, Decidable (P s a)] :
    ∀ (s : σ) (as : List α), Decidable (Meets step P s as)
  | _, [] => .isTrue trivial
  | s, a :: as =>
    have : ∀ s', Decidable (Meets step P s' as) := fun s' => decidable s' as
    inferInstanceAs (Decidable (P s a ∧ ∀ s' ∈ step s a, Meets step P s' as))

theorem meets_append {P : σ → α → Prop} {s t : σ} {as bs : List α}
    (hr : run step s as = some t) :
    Meets step P s (as ++ bs) ↔ Meets step P s as ∧ Meets step P t bs := by
  induction as generalizing s with
  | nil =>
    cases hr
    simp [Meets]
  | cons b as ih =>
    obtain ⟨s', hb, hr⟩ := run_cons_some.mp hr
    have hrest := ih hr
    simp only [List.cons_append, Meets, Option.mem_def, hb, Option.some.injEq, forall_eq', hrest,
      and_assoc]

theorem meets_snoc {P : σ → α → Prop} {s t : σ} {as : List α} {a : α}
    (hr : run step s as = some t) :
    Meets step P s (as ++ [a]) ↔ Meets step P s as ∧ P t a := by
  rw [meets_append hr]
  simp [Meets]

/-- What every step that meets the condition preserves, of the labels so far and the
state, holds of every run whose steps meet it. -/
theorem run_history_of_meets {P : σ → α → Prop} {I : List α → σ → Prop}
    (hstep : ∀ as s a s', I as s → P s a → step s a = some s' → I (as ++ [a]) s')
    {s t : σ} (hs : I [] s) {as : List α} (hmeets : Meets step P s as)
    (hr : run step s as = some t) : I as t := by
  suffices h : ∀ (pre : List α) (s : σ), I pre s → Meets step P s as →
      run step s as = some t → I (pre ++ as) t by
    simpa using h [] s hs hmeets hr
  clear hs hr hmeets s
  induction as with
  | nil =>
    intro pre s hs _ hr
    cases hr
    simpa using hs
  | cons a as ih =>
    intro pre s hs hmeets hr
    obtain ⟨s', ha, hr⟩ := run_cons_some.mp hr
    obtain ⟨hP, hrest⟩ := hmeets
    have h := ih (pre ++ [a]) s' (hstep pre s a s' hs hP ha) (hrest s' ha) hr
    rwa [List.append_assoc] at h

theorem meets_of_forall {P : σ → α → Prop} {s : σ} {as : List α} (h : ∀ a ∈ as, ∀ s, P s a) :
    Meets step P s as := by
  induction as generalizing s with
  | nil => trivial
  | cons a as ih => exact ⟨h a (by simp) s, fun s' _ => ih fun b hb => h b (by simp [hb])⟩

/-- Every step meets the condition that asks for nothing. -/
theorem meets_true (s : σ) (as : List α) : Meets step (fun _ _ => True) s as :=
  meets_of_forall fun _ _ _ => trivial

/-- What every step preserves, of the labels so far and the state, holds of every run. -/
theorem run_history {I : List α → σ → Prop}
    (hstep : ∀ as s a s', I as s → step s a = some s' → I (as ++ [a]) s')
    {s t : σ} (hs : I [] s) {as : List α} (hr : run step s as = some t) : I as t :=
  run_history_of_meets (fun as s a s' hI _ ha => hstep as s a s' hI ha) hs (meets_true s as) hr

/-- Where a step from a good state leads to a good state exactly when it meets the condition,
all states of a run are good exactly when all its steps meet the condition. -/
theorem always_iff_meets {P : σ → α → Prop} {I : σ → Prop}
    (hstep : ∀ s a s', I s → step s a = some s' → (I s' ↔ P s a))
    {s t : σ} (hs : I s) {as : List α} (hr : run step s as = some t) :
    (∀ pre u, pre <+: as → run step s pre = some u → I u) ↔ Meets step P s as := by
  induction as generalizing s with
  | nil =>
    refine iff_of_true ?_ trivial
    intro pre u hpre hu
    rw [List.prefix_nil.mp hpre] at hu
    cases hu
    exact hs
  | cons a as ih =>
    obtain ⟨s', ha, hnext⟩ := run_cons_some.mp hr
    have hfirst := hstep s a s' hs ha
    constructor
    · intro h
      have hs' : I s' := h [a] s' ⟨as, rfl⟩ (run_cons_some.mpr ⟨s', ha, rfl⟩)
      refine ⟨hfirst.mp hs', ?_⟩
      intro s'' ha'
      obtain rfl : s' = s'' := Option.some.inj (ha.symm.trans ha')
      refine (ih hs' hnext).mp ?_
      intro pre u hpre hu
      exact h (a :: pre) u (List.cons_prefix_cons.mpr ⟨rfl, hpre⟩)
        (run_cons_some.mpr ⟨s', ha, hu⟩)
    · rintro ⟨hP, hrest⟩ pre u hpre hu
      have hs' : I s' := hfirst.mpr hP
      cases pre with
      | nil =>
        cases hu
        exact hs
      | cons b pre =>
        obtain ⟨rfl, htail⟩ := List.cons_prefix_cons.mp hpre
        obtain ⟨s'', ha', hu⟩ := run_cons_some.mp hu
        obtain rfl : s' = s'' := Option.some.inj (ha.symm.trans ha')
        exact (ih hs' hnext).mpr (hrest s' ha) pre u htail hu

/-- Where a step does what is asked of it exactly when it meets the condition, all steps of a
run do so exactly when all of them meet the condition. -/
theorem steps_iff_meets {P : σ → α → Prop} {Q : σ → α → σ → Prop} {I : σ → Prop}
    (hI : ∀ s a s', I s → step s a = some s' → I s')
    (hstep : ∀ s a s', I s → step s a = some s' → (Q s a s' ↔ P s a))
    {s t : σ} (hs : I s) {as : List α} (hr : run step s as = some t) :
    (∀ pre a post u u', as = pre ++ a :: post → run step s pre = some u → step u a = some u' →
      Q u a u') ↔ Meets step P s as := by
  induction as generalizing s with
  | nil =>
    refine iff_of_true ?_ trivial
    intro pre a post u u' has
    cases pre <;> cases has
  | cons a as ih =>
    obtain ⟨s', ha, hnext⟩ := run_cons_some.mp hr
    have hrest := ih (hI s a s' hs ha) hnext
    constructor
    · intro h
      refine ⟨(hstep s a s' hs ha).mp (h [] a as s s' rfl rfl ha), ?_⟩
      intro s'' ha'
      obtain rfl : s' = s'' := Option.some.inj (ha.symm.trans ha')
      refine hrest.mp ?_
      rintro pre b post u u' rfl hu hb
      exact h (a :: pre) b post u u' rfl (run_cons_some.mpr ⟨s', ha, hu⟩) hb
    · rintro ⟨hP, hmeets⟩ pre b post u u' has hu hb
      cases pre with
      | nil =>
        obtain ⟨rfl, rfl⟩ := List.cons.inj has
        obtain rfl := Option.some.inj hu
        exact (hstep s a u' hs hb).mpr hP
      | cons c pre =>
        obtain ⟨rfl, rfl⟩ := List.cons.inj has
        obtain ⟨s'', ha', hu⟩ := run_cons_some.mp hu
        obtain rfl : s' = s'' := Option.some.inj (ha.symm.trans ha')
        exact hrest.mpr (hmeets s' ha) pre b post u u' rfl hu hb

end MuonDetector.Library.Machine
