import Mathlib.Data.List.Induction
import Mathlib.Tactic.Common

/-!
# Machines that emit

A deterministic machine reads inputs one by one, moves its state and emits outputs. `run` is the
state after a list of inputs, `log` what was emitted on the way, and `Along P` says that every
input met the condition `P` in the state it found.

`invariant` is the one induction over runs that the developments on top use.
-/

namespace Infra

/-- A step function with outputs. -/
structure Machine (σ ι ω : Type) where
  step : ι → σ → σ × List ω

namespace Machine

variable {σ ι κ ω : Type} (M : Machine σ ι ω)

def run : List ι → σ → σ
  | [], s => s
  | i :: is, s => run is (M.step i s).1

def log : List ι → σ → List ω
  | [], _ => []
  | i :: is, s => (M.step i s).2 ++ log is (M.step i s).1

/-- Every input meets `P` in the state it finds. -/
def Along (P : σ → ι → Prop) : List ι → σ → Prop
  | [], _ => True
  | i :: is, s => P s i ∧ Along P is (M.step i s).1

instance along_decidable {P : σ → ι → Prop} [∀ s i, Decidable (P s i)] :
    ∀ (is : List ι) (s : σ), Decidable (M.Along P is s)
  | [], _ => isTrue trivial
  | i :: is, s =>
    have : Decidable (M.Along P is (M.step i s).1) := along_decidable is _
    inferInstanceAs (Decidable (P s i ∧ M.Along P is (M.step i s).1))

theorem run_append : ∀ (is js : List ι) (s : σ),
    M.run (is ++ js) s = M.run js (M.run is s)
  | [], _, _ => rfl
  | i :: is, js, s => run_append is js (M.step i s).1

theorem log_append : ∀ (is js : List ι) (s : σ),
    M.log (is ++ js) s = M.log is s ++ M.log js (M.run is s)
  | [], _, _ => rfl
  | i :: is, js, s => by
    rw [List.cons_append, log, log, log_append is js, List.append_assoc]
    rfl

theorem along_append {P : σ → ι → Prop} : ∀ (is js : List ι) (s : σ),
    M.Along P (is ++ js) s ↔ M.Along P is s ∧ M.Along P js (M.run is s)
  | [], js, s => by simp [Along, run]
  | i :: is, js, s => by
    rw [List.cons_append, Along, Along, along_append is js, run, and_assoc]

theorem along_of_forall {P : ι → Prop} : ∀ {is : List ι}, (∀ i ∈ is, P i) → ∀ s : σ,
    M.Along (fun _ i => P i) is s
  | [], _, _ => trivial
  | _ :: _, h, _ => ⟨h _ (.head _), along_of_forall (fun j hj => h j (.tail _ hj)) _⟩

theorem along_trivial : ∀ (is : List ι) (s : σ), M.Along (fun _ _ => True) is s
  | [], _ => trivial
  | _ :: is, _ => ⟨trivial, along_trivial is _⟩

variable {M} in
theorem Along.mono {P Q : σ → ι → Prop} (h : ∀ s i, P s i → Q s i) : ∀ {is : List ι} {s : σ},
    M.Along P is s → M.Along Q is s
  | [], _, _ => trivial
  | _ :: _, _, ⟨hp, hrest⟩ => ⟨h _ _ hp, Along.mono h hrest⟩

variable {M} in
theorem Along.and {P Q : σ → ι → Prop} : ∀ {is : List ι} {s : σ}, M.Along P is s →
    M.Along Q is s → M.Along (fun s i => P s i ∧ Q s i) is s
  | [], _, _, _ => trivial
  | _ :: _, _, ⟨hp, hps⟩, ⟨hq, hqs⟩ => ⟨⟨hp, hq⟩, Along.and hps hqs⟩

variable {M} in
/-- An invariant turns one condition on the inputs into another. -/
theorem Along.of_invariant {P Q : σ → ι → Prop} {I : σ → Prop}
    (keep : ∀ s i, I s → P s i → Q s i ∧ I (M.step i s).1) : ∀ {is : List ι} {s : σ}, I s →
      M.Along P is s → M.Along Q is s
  | [], _, _, _ => trivial
  | _ :: _, _, hI, ⟨hp, hps⟩ =>
    have hstep := keep _ _ hI hp
    ⟨hstep.1, Along.of_invariant keep hstep.2 hps⟩

variable {M} in
/-- Each input of such a run met `P` in some state. -/
theorem Along.exists_of_mem {P : σ → ι → Prop} {i : ι} : ∀ {is : List ι} {s : σ},
    M.Along P is s → i ∈ is → ∃ t, P t i
  | _ :: _, _, h, .head _ => ⟨_, h.1⟩
  | _ :: _, _, h, .tail _ hi => exists_of_mem h.2 hi

/--
**The run rule.** What holds at the start and is kept by every step that meets `P` holds of the
inputs read, the state reached and the outputs emitted by every run that meets `P` all along.
-/
theorem invariant {P : σ → ι → Prop} {I : List ι → σ → List ω → Prop} {s : σ}
    (start : I [] s [])
    (keep : ∀ is t os i, I is t os → P t i →
      I (is ++ [i]) (M.step i t).1 (os ++ (M.step i t).2)) :
    ∀ is, M.Along P is s → I is (M.run is s) (M.log is s) := by
  intro is
  -- from the end, so that the last input is the one that `keep` is about
  induction is using List.reverseRecOn with
  | nil => exact fun _ => start
  | append_singleton is i ih =>
    intro h
    rw [along_append] at h
    rw [run_append, log_append]
    have hstep := keep is _ _ i (ih h.1) h.2.1
    simpa only [run, log, List.append_nil] using hstep

/-- The rule for a property of the state alone. -/
theorem invariant_state {I : σ → Prop} {s₀ : σ} (start : I s₀)
    (keep : ∀ s i, I s → I (M.step i s).1) (is : List ι) : I (M.run is s₀) :=
  M.invariant (P := fun _ _ => True) (I := fun _ s _ => I s) start
    (fun _ s _ i hs _ => keep s i hs) is (M.along_trivial is s₀)

/--
The run rule in both directions. Where a step keeps `I` exactly when its input meets `P`, a run is in
`I` all along exactly when its inputs meet `P`. `J` and `Q` are what is known of the states and the
inputs besides.
-/
theorem prefixes_iff {P Q : σ → ι → Prop} {J : σ → Prop} {I : List ω → σ → Prop}
    (keep : ∀ s i, J s → Q s i → J (M.step i s).1)
    (exact : ∀ os s i, J s → Q s i → I os s → (I (os ++ (M.step i s).2) (M.step i s).1 ↔ P s i)) :
    ∀ (is : List ι) (os : List ω) (s : σ), J s → M.Along Q is s → I os s →
      ((∀ js, js <+: is → I (os ++ M.log js s) (M.run js s)) ↔ M.Along P is s) := by
  intro is
  induction is with
  | nil =>
    intro os s _ _ hI
    refine iff_of_true (fun js hjs => ?_) trivial
    rw [List.prefix_nil.mp hjs]
    simpa [log, run] using hI
  | cons i is ih =>
    intro os s hJ hQ hI
    have hstep := exact os s i hJ hQ.1 hI
    have hrest := fun h => ih _ _ (keep s i hJ hQ.1) hQ.2 (hstep.mpr h)
    constructor
    · intro h
      have hone := h [i] (by simp)
      rw [log, log, run, run, List.append_nil] at hone
      refine ⟨hstep.mp hone, (hrest (hstep.mp hone)).mp fun js hjs => ?_⟩
      have hjs := h (i :: js) (by simpa using hjs)
      rwa [log, run, ← List.append_assoc] at hjs
    · rintro ⟨hp, hps⟩ js hjs
      rcases List.prefix_cons_iff.mp hjs with rfl | ⟨ks, rfl, hks⟩
      · simpa [log, run] using hI
      · have hks := (hrest hp).mpr hps ks hks
        rwa [List.append_assoc] at hks

/-- What a run emitted, some step of it emitted. -/
theorem mem_log {w : ω} : ∀ {is : List ι} {s : σ}, w ∈ M.log is s →
    ∃ js i ks, is = js ++ i :: ks ∧ w ∈ (M.step i (M.run js s)).2
  | [], _, h => by cases h
  | i :: is, s, h => by
    rw [log, List.mem_append] at h
    rcases h with h | h
    · exact ⟨[], i, is, rfl, h⟩
    · obtain ⟨js, j, ks, rfl, hw⟩ := mem_log h
      exact ⟨i :: js, j, ks, rfl, hw⟩

/-- Some input meets `P` in the state it finds. -/
def Meets (P : σ → ι → Prop) : List ι → σ → Prop
  | [], _ => False
  | i :: is, s => P s i ∨ Meets P is (M.step i s).1

theorem meets_of_mem {P : σ → ι → Prop} {i : ι} (hi : ∀ s, P s i) : ∀ {is : List ι} {s : σ},
    i ∈ is → M.Meets P is s
  | _ :: _, s, .head _ => Or.inl (hi s)
  | _ :: _, _, .tail _ h => Or.inr (meets_of_mem hi h)

variable {M} in
/--
The rule for what has to happen once. What a step that meets `Q` brings about, and every step keeps,
holds at the end of a run in which some step met `Q`. `I` is what is known of the states besides.
-/
theorem Meets.after {P Q : σ → ι → Prop} {I G : σ → Prop}
    (keep : ∀ s i, I s → P s i → I (M.step i s).1)
    (make : ∀ s i, I s → P s i → Q s i ∨ G s → G (M.step i s).1) {is : List ι} {s : σ}
    (hI : I s) (hsteps : M.Along P is s) (h : M.Meets Q is s ∨ G s) : G (M.run is s) := by
  induction is generalizing s with
  | nil => exact h.resolve_left id
  | cons i is ih =>
    have hrest : M.Meets Q is (M.step i s).1 ∨ G (M.step i s).1 := by
      rcases h with (hq | hmeets) | hG
      · exact Or.inr (make s i hI hsteps.1 (Or.inl hq))
      · exact Or.inl hmeets
      · exact Or.inr (make s i hI hsteps.1 (Or.inr hG))
    exact ih (keep s i hI hsteps.1) hsteps.2 hrest

/-! ## Other outputs -/

/-- Machines that move alike run alike, whatever they emit. -/
theorem run_congr {ω' : Type} {N : Machine σ ι ω'} (h : ∀ i s, (M.step i s).1 = (N.step i s).1) :
    ∀ (is : List ι) (s : σ), M.run is s = N.run is s
  | [], _ => rfl
  | i :: is, s => by
    rw [run, run, h i s]
    exact run_congr h is _

/-- The same machine, emitting what `f` reads off each step. -/
def observing {ω' : Type} (f : σ → ι → σ → List ω') : Machine σ ι ω' where
  step i s := ((M.step i s).1, f s i (M.step i s).1)

theorem observing_run {ω' : Type} (f : σ → ι → σ → List ω') (is : List ι) (s : σ) :
    (M.observing f).run is s = M.run is s :=
  (M.observing f).run_congr (N := M) (fun _ _ => rfl) is s

theorem observing_along {ω' : Type} (f : σ → ι → σ → List ω') {P : σ → ι → Prop} :
    ∀ (is : List ι) (s : σ), (M.observing f).Along P is s ↔ M.Along P is s
  | [], _ => Iff.rfl
  | i :: is, s => and_congr_right fun _ => observing_along f is (M.step i s).1

/-! ## History variables -/

/-- The same machine, remembering something of its steps. -/
def remembering {γ : Type} (f : γ → σ → ι → σ → γ) : Machine (σ × γ) ι ω where
  step i p := (((M.step i p.1).1, f p.2 p.1 i (M.step i p.1).1), (M.step i p.1).2)

theorem remembering_run {γ : Type} (f : γ → σ → ι → σ → γ) : ∀ (is : List ι) (s : σ) (g : γ),
    ((M.remembering f).run is (s, g)).1 = M.run is s
  | [], _, _ => rfl
  | i :: is, s, g => remembering_run f is (M.step i s).1 (f g s i (M.step i s).1)

theorem remembering_log {γ : Type} (f : γ → σ → ι → σ → γ) : ∀ (is : List ι) (s : σ) (g : γ),
    (M.remembering f).log is (s, g) = M.log is s
  | [], _, _ => rfl
  | i :: is, s, g => congrArg ((M.step i s).2 ++ ·)
    (remembering_log f is (M.step i s).1 (f g s i (M.step i s).1))

theorem remembering_along {γ : Type} (f : γ → σ → ι → σ → γ) {P : σ → ι → Prop} :
    ∀ (is : List ι) (s : σ) (g : γ),
      (M.remembering f).Along (fun p i => P p.1 i) is (s, g) ↔ M.Along P is s
  | [], _, _ => Iff.rfl
  | i :: is, s, g => and_congr_right fun _ =>
    remembering_along f is (M.step i s).1 (f g s i (M.step i s).1)

/-! ## Inputs made of smaller inputs -/

/-- The machine whose inputs are unfolded into inputs of `M`. -/
def unfolding (f : κ → List ι) : Machine σ κ ω where
  step k s := (M.run (f k) s, M.log (f k) s)

theorem unfolding_run (f : κ → List ι) : ∀ (ks : List κ) (s : σ),
    (M.unfolding f).run ks s = M.run (ks.flatMap f) s
  | [], _ => rfl
  | k :: ks, s => by
    rw [List.flatMap_cons, run_append]
    exact unfolding_run f ks _

theorem unfolding_log (f : κ → List ι) : ∀ (ks : List κ) (s : σ),
    (M.unfolding f).log ks s = M.log (ks.flatMap f) s
  | [], _ => rfl
  | k :: ks, s => by
    rw [List.flatMap_cons, log_append, ← unfolding_log f ks]
    rfl

/--
The run rule for unfolded inputs. `P` is about the inputs, `Q` and `R` about the inputs they
unfold into: what one input does to the invariant and to `R`, a run does.
-/
theorem along_unfolding {f : κ → List ι} {P : σ → κ → Prop} {Q R : σ → ι → Prop} {I : σ → Prop}
    (keep : ∀ s k, I s → P s k → M.Along Q (f k) s →
      M.Along R (f k) s ∧ I (M.run (f k) s)) :
    ∀ (ks : List κ) (s : σ), I s → (M.unfolding f).Along P ks s → M.Along Q (ks.flatMap f) s →
      M.Along R (ks.flatMap f) s
  | [], _, _, _, _ => trivial
  | k :: ks, s, hI, hP, hQ => by
    rw [List.flatMap_cons, along_append] at hQ ⊢
    obtain ⟨hR, hI'⟩ := keep s k hI hP.1 hQ.1
    exact ⟨hR, along_unfolding keep ks _ hI' hP.2 hQ.2⟩

end Machine

end Infra
