import Mathlib.Data.List.Pairwise
import Mathlib.Logic.Function.Basic
import OctopusPallets.Infra.Machine

/-!
# Compare and set

A cell that any number of workers change. Each reads it once, proposes a new value or declines, and
sets the cell if what it holds is still what was read. A schedule lists who takes a step when, in
any order.

* `run_inTurn` — those who set the cell did so one after the other, on what the last of them left
* `pairwise_of_remembered` — what each of them leaves in the cell keeps the later ones away
-/

namespace Infra.CompareAndSet

variable {ι ρ : Type}

inductive Outcome where
  /-- The cell was set. -/
  | set
  /-- The worker declined. -/
  | declined
  /-- The cell was changed since the worker read it. -/
  | concurrent
deriving DecidableEq

inductive Phase (ρ : Type) where
  | ready
  | read (value : Option ρ)
  | done (outcome : Outcome)
deriving DecidableEq

structure State (ι ρ : Type) where
  cell : Option ρ
  phase : ι → Phase ρ

/-- The next step of worker `i`, who proposes `propose i value` after it read `value`. -/
def step [DecidableEq ι] [DecidableEq ρ] (propose : ι → Option ρ → Option ρ) (i : ι)
    (s : State ι ρ) : State ι ρ × List ι :=
  match s.phase i with
  | .ready => ({ s with phase := Function.update s.phase i (.read s.cell) }, [])
  | .read value =>
    match propose i value with
    | none => ({ s with phase := Function.update s.phase i (.done .declined) }, [])
    | some new =>
      if s.cell = value then
        ({ cell := some new, phase := Function.update s.phase i (.done .set) }, [i])
      else ({ s with phase := Function.update s.phase i (.done .concurrent) }, [])
  | .done _ => (s, [])

/-- The workers under a schedule. It emits who sets the cell. -/
def machine [DecidableEq ι] [DecidableEq ρ] (propose : ι → Option ρ → Option ρ) :
    Machine (State ι ρ) ι ι where
  step := step propose

/-- Nobody has begun. -/
def start (cell : Option ρ) : State ι ρ := ⟨cell, fun _ => .ready⟩

/-- One worker after the other sets the cell, each without being interrupted. -/
def InTurn (propose : ι → Option ρ → Option ρ) : List ι → Option ρ → Option ρ → Prop
  | [], cell, cell' => cell' = cell
  | i :: is, cell, cell' => ∃ new, propose i cell = some new ∧ InTurn propose is (some new) cell'

section Runs

variable [DecidableEq ι] [DecidableEq ρ] {propose : ι → Option ρ → Option ρ}

/-- A step leaves the cell as it is, or is a worker setting what it proposes for the value in the
cell. -/
theorem step_cases (propose : ι → Option ρ → Option ρ) (i : ι) (s : State ι ρ) :
    ((step propose i s).2 = [] ∧ (step propose i s).1.cell = s.cell ∧
        ((step propose i s).1.phase i = .done .set → s.phase i = .done .set)) ∨
      ∃ new, propose i s.cell = some new ∧ (step propose i s).2 = [i] ∧
        (step propose i s).1.cell = some new := by
  unfold step
  cases hphase : s.phase i with
  | ready => exact Or.inl ⟨rfl, rfl, by simp⟩
  | read value =>
    dsimp only
    cases hnew : propose i value with
    | none => exact Or.inl ⟨rfl, rfl, by simp⟩
    | some new =>
      dsimp only
      by_cases hcell : s.cell = value
      · rw [if_pos hcell]
        exact Or.inr ⟨new, by rw [hcell, hnew], rfl, rfl⟩
      · rw [if_neg hcell]
        exact Or.inl ⟨rfl, rfl, by simp⟩
  | done outcome => exact Or.inl ⟨rfl, rfl, fun h => hphase ▸ h⟩

/-- A step is about one worker. -/
theorem step_phase_of_ne (propose : ι → Option ρ → Option ρ) {i j : ι} (h : j ≠ i)
    (s : State ι ρ) : (step propose i s).1.phase j = s.phase j := by
  unfold step
  split
  · exact Function.update_of_ne h _ _
  · split
    · exact Function.update_of_ne h _ _
    · split
      · exact Function.update_of_ne h _ _
      · exact Function.update_of_ne h _ _
  · rfl

/-- **The workers that set the cell did so in turn.** -/
theorem run_inTurn (propose : ι → Option ρ → Option ρ) : ∀ (schedule : List ι) (s : State ι ρ),
    InTurn propose ((machine propose).log schedule s) s.cell
      ((machine propose).run schedule s).cell := by
  intro schedule
  induction schedule with
  | nil => exact fun _ => rfl
  | cons i schedule ih =>
    intro s
    have hrest := ih (step propose i s).1
    show InTurn propose ((step propose i s).2 ++ _) s.cell _
    rcases step_cases propose i s with ⟨hnobody, hcell, -⟩ | ⟨new, hnew, hset, hcell⟩
    · rw [hnobody, ← hcell]
      exact hrest
    · rw [hset]
      rw [hcell] at hrest
      exact ⟨new, hnew, hrest⟩

/-- Who is done with setting the cell has set it. -/
theorem mem_log_of_done (propose : ι → Option ρ → Option ρ) {i : ι} :
    ∀ (schedule : List ι) (s : State ι ρ),
      ((machine propose).run schedule s).phase i = .done .set →
        s.phase i = .done .set ∨ i ∈ (machine propose).log schedule s := by
  intro schedule
  induction schedule with
  | nil => exact fun _ h => Or.inl h
  | cons j schedule ih =>
    intro s hdone
    show _ ∨ i ∈ (step propose j s).2 ++ _
    rcases ih (step propose j s).1 hdone with hphase | hlater
    · by_cases hij : i = j
      · subst hij
        rcases step_cases propose i s with ⟨-, -, hback⟩ | ⟨new, -, hset, -⟩
        · exact Or.inl (hback hphase)
        · rw [hset]
          exact Or.inr (List.mem_append_left _ (List.mem_singleton_self i))
      · rw [step_phase_of_ne propose hij] at hphase
        exact Or.inl hphase
    · exact Or.inr (List.mem_append_right _ hlater)

end Runs

/-! ## What the cell remembers -/

section Remembered

variable {propose : ι → Option ρ → Option ρ} {Remembers : ι → Option ρ → Prop} {R : ι → ι → Prop}

theorem InTurn.forall_of_remembered
    (keep : ∀ i j cell new, Remembers i cell → propose j cell = some new →
      R i j ∧ Remembers i (some new)) {i : ι} : ∀ {is : List ι} {cell cell' : Option ρ},
    Remembers i cell → InTurn propose is cell cell' → ∀ j ∈ is, R i j := by
  intro is
  induction is with
  | nil => exact fun _ _ j hj => by cases hj
  | cons k is ih =>
    rintro cell cell' hi ⟨new, hnew, hrest⟩ j hj
    obtain ⟨hik, hi'⟩ := keep i k cell new hi hnew
    rcases List.mem_cons.mp hj with rfl | hj
    · exact hik
    · exact ih hi' hrest j hj

/-- **Where the cell remembers who has set it, each worker is related to all later ones.** -/
theorem InTurn.pairwise_of_remembered
    (enter : ∀ i cell new, propose i cell = some new → Remembers i (some new))
    (keep : ∀ i j cell new, Remembers i cell → propose j cell = some new →
      R i j ∧ Remembers i (some new)) : ∀ {is : List ι} {cell cell' : Option ρ},
    InTurn propose is cell cell' → is.Pairwise R := by
  intro is
  induction is with
  | nil => exact fun _ => List.Pairwise.nil
  | cons i is ih =>
    rintro cell cell' ⟨new, hnew, hrest⟩
    exact List.pairwise_cons.mpr
      ⟨hrest.forall_of_remembered keep (enter i cell new hnew), ih hrest⟩

end Remembered

end Infra.CompareAndSet
