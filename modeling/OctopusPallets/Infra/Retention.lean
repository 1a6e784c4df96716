import Mathlib.Tactic.Common

/-!
# A log of which the newest entries are kept

Entries are appended under consecutive numbers. Besides the newest one, `depth` older ones are to be
kept: an append drops the entry that has become too old, a smaller depth drops all that have, and a
larger one brings nothing back. `floor` is the lowest number that is still there.

* `Fits` — nothing too old is left, an invariant of every move
* `floor_run_le` — an entry stays as long as no depth was too small for it
-/

namespace Infra.Retention

/-- The entries that are kept: those from `floor` to before `next`. -/
structure Window where
  /-- How many entries were appended. -/
  next : Nat
  depth : Nat
  floor : Nat

inductive Move where
  | append
  /-- An empty log keeps the depth that it has. -/
  | resize (depth : Nat)
  | idle

namespace Window

variable {w : Window}

/-- The newest entry less the depth: what is below is too old. -/
def bound (w : Window) : Nat := w.next - 1 - w.depth

def step (w : Window) : Move → Window
  | .append => ⟨w.next + 1, w.depth, max w.floor (w.next - w.depth)⟩
  | .resize depth =>
    if w.next = 0 then w else ⟨w.next, depth, max w.floor (w.next - 1 - depth)⟩
  | .idle => w

def run (moves : List Move) (w : Window) : Window := moves.foldl step w

@[simp] theorem step_append : w.step .append
    = ⟨w.next + 1, w.depth, max w.floor (w.next - w.depth)⟩ := rfl

@[simp] theorem step_idle : w.step .idle = w := rfl

theorem step_resize_empty (h : w.next = 0) (depth : Nat) : w.step (.resize depth) = w := if_pos h

theorem step_resize (h : w.next ≠ 0) (depth : Nat) :
    w.step (.resize depth) = ⟨w.next, depth, max w.floor (w.next - 1 - depth)⟩ := if_neg h

@[simp] theorem run_nil : run [] w = w := rfl

@[simp] theorem run_cons (m : Move) (moves : List Move) : run (m :: moves) w = run moves (w.step m) :=
  rfl

theorem run_append (moves moves' : List Move) : run (moves ++ moves') w = run moves' (run moves w) :=
  List.foldl_append

/-! ## What is kept -/

/-- Nothing too old is left, and the newest entry is there. -/
structure Fits (w : Window) : Prop where
  bound_le : w.bound ≤ w.floor
  floor_le : w.floor ≤ w.next - 1

theorem Fits.step (h : w.Fits) (m : Move) : (w.step m).Fits := by
  obtain ⟨hbound, hfloor⟩ := h
  cases m with
  | append =>
    refine ⟨Nat.le_max_right _ _, ?_⟩
    simp only [step_append]
    omega
  | resize depth =>
    by_cases hempty : w.next = 0
    · rw [step_resize_empty hempty]
      exact ⟨hbound, hfloor⟩
    · rw [step_resize hempty]
      refine ⟨Nat.le_max_right _ _, ?_⟩
      simp only
      omega
  | idle => exact ⟨hbound, hfloor⟩

theorem next_le_step (m : Move) : w.next ≤ (w.step m).next := by
  cases m with
  | append => exact Nat.le_succ _
  | resize depth =>
    by_cases hempty : w.next = 0
    · simp [step_resize_empty hempty]
    · simp [step_resize hempty]
  | idle => exact Nat.le_refl _

theorem next_le_run (moves : List Move) : ∀ w : Window, w.next ≤ (w.run moves).next := by
  induction moves with
  | nil => exact fun w => Nat.le_refl _
  | cons m moves ih => exact fun w => Nat.le_trans (next_le_step m) (ih (w.step m))

/-- A move drops what is too old after it, and nothing else. -/
theorem floor_step_le (m : Move) : (w.step m).floor ≤ max w.floor (w.step m).bound := by
  unfold bound
  cases m with
  | append => exact Nat.le_refl _
  | resize depth =>
    by_cases hempty : w.next = 0
    · rw [step_resize_empty hempty]
      exact Nat.le_max_left _ _
    · simp [step_resize hempty]
  | idle => exact Nat.le_max_left _ _

/-- **An entry stays while every depth on the way reaches back to it from the end.** -/
theorem floor_run_le {e : Nat} : ∀ {moves : List Move} {w : Window}, w.floor ≤ e →
    (∀ since, since <+: moves → (w.run moves).next - 1 - (w.run since).depth ≤ e) →
      (w.run moves).floor ≤ e
  | [], _, hfloor, _ => hfloor
  | m :: moves, w, hfloor, hdepth => by
    refine floor_run_le (w := w.step m) ?_ fun since hsince =>
      hdepth (m :: since) (List.cons_prefix_cons.mpr ⟨rfl, hsince⟩)
    have hone := hdepth [m] (List.cons_prefix_cons.mpr ⟨rfl, List.nil_prefix⟩)
    have hnext := next_le_run moves (w.step m)
    have hstep := floor_step_le (w := w) m
    rw [run_cons, run_cons, run_nil] at hone
    unfold bound at hstep
    omega

end Window

end Infra.Retention
