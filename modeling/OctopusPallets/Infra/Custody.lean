import OctopusPallets.Infra.Machine
import Mathlib.Data.List.Chain

/-!
# Custody

A thing with one owner is taken by a keeper and released again. The keeper has it in custody if what
was taken and released alternates, and if it is the owner exactly while the last was to take.

`Machine.custody_iff` is about machines that emit what they take and release: they have the thing in
custody all along exactly when nothing is taken by its keeper and nothing is released but to others
and by its keeper.
-/

namespace Infra

inductive Handover where
  | taken
  | released
deriving DecidableEq

/-- Taken first, and never twice the same. -/
def Alternates (os : List Handover) : Prop :=
  os.IsChain (· ≠ ·) ∧ os.head? ≠ some .released

instance (os : List Handover) : Decidable (Alternates os) := inferInstanceAs (Decidable (_ ∧ _))

theorem alternates_taken {os : List Handover} (h : Alternates os) :
    Alternates (os ++ [.taken]) ↔ os.getLast? ≠ some .taken := by
  obtain ⟨hchain, hhead⟩ := h
  unfold Alternates
  rw [List.isChain_append]
  cases os with
  | nil => simp
  | cons o os =>
    have hfirst : (o :: os ++ [Handover.taken]).head? ≠ some .released := hhead
    constructor
    · rintro ⟨⟨-, -, hlast⟩, -⟩ htaken
      exact hlast .taken htaken .taken rfl rfl
    · intro hlast
      refine ⟨⟨hchain, List.isChain_singleton _, ?_⟩, hfirst⟩
      rintro x hx y hy rfl
      obtain rfl := Option.some.inj hy
      exact hlast hx

theorem alternates_released {os : List Handover} (h : Alternates os) :
    Alternates (os ++ [.released]) ↔ os.getLast? = some .taken := by
  obtain ⟨hchain, hhead⟩ := h
  unfold Alternates
  rw [List.isChain_append]
  cases os with
  | nil => simp
  | cons o os =>
    have hfirst : (o :: os ++ [Handover.released]).head? ≠ some .released := hhead
    obtain ⟨last, hlast⟩ : ∃ last, (o :: os).getLast? = some last :=
      ⟨_, List.getLast?_eq_some_getLast (List.cons_ne_nil o os)⟩
    rw [hlast]
    constructor
    · rintro ⟨⟨-, -, hne⟩, -⟩
      cases last with
      | taken => rfl
      | released => exact absurd rfl (hne .released rfl .released rfl)
    · intro htaken
      refine ⟨⟨hchain, List.isChain_singleton _, ?_⟩, hfirst⟩
      rintro x hx y hy rfl
      obtain rfl := Option.some.inj hy
      cases hx.symm.trans htaken

variable {α : Type}

structure InCustody (keeper : α) (os : List Handover) (owner : Option α) : Prop where
  alternates : Alternates os
  owner_iff : owner = some keeper ↔ os.getLast? = some .taken

theorem InCustody.start {keeper : α} {owner : Option α} (h : owner ≠ some keeper) :
    InCustody keeper [] owner :=
  ⟨⟨.nil, by simp⟩, iff_of_false h (by simp)⟩

/-- What one step does, and what the condition `P` on it then amounts to. -/
inductive Handled (keeper : α) (owner : Option α) : Option α → List Handover → Prop → Prop where
  | kept {P : Prop} (hp : P) : Handled keeper owner owner [] P
  | taken {P : Prop} (hp : P ↔ owner ≠ some keeper) :
    Handled keeper owner (some keeper) [.taken] P
  | released {P : Prop} {receiver : α} (hp : P ↔ owner = some keeper ∧ receiver ≠ keeper) :
    Handled keeper owner (some receiver) [.released] P

variable {keeper : α} {owner owner' : Option α} {os out : List Handover} {P : Prop}

/-- A thing that somebody owns is owned by somebody afterwards. -/
theorem Handled.isSome (h : Handled keeper owner owner' out P) (howner : owner.isSome) :
    owner'.isSome := by
  cases h with
  | kept _ => exact howner
  | taken _ | released _ => rfl

/-- The step lemma. -/
theorem Handled.inCustody_iff (h : Handled keeper owner owner' out P)
    (hcustody : InCustody keeper os owner) : InCustody keeper (os ++ out) owner' ↔ P := by
  obtain ⟨halternates, howner⟩ := hcustody
  cases h with
  | kept hp =>
    rw [List.append_nil]
    exact iff_of_true ⟨halternates, howner⟩ hp
  | taken hp =>
    rw [hp, ne_eq, howner]
    constructor
    · intro h
      exact (alternates_taken halternates).mp h.alternates
    · intro h
      exact ⟨(alternates_taken halternates).mpr h, by simp⟩
  | @released _ receiver hp =>
    rw [hp, howner]
    constructor
    · intro h
      refine ⟨(alternates_released halternates).mp h.alternates, ?_⟩
      rintro rfl
      have hlast := h.owner_iff.mp rfl
      simp at hlast
    · rintro ⟨hlast, hne⟩
      exact ⟨(alternates_released halternates).mpr hlast, by simp [hne]⟩

/-- The run lemma. -/
theorem Machine.custody_iff {σ ι : Type} (M : Machine σ ι Handover) (keeper : α)
    (ownerOf : σ → Option α) {P Q : σ → ι → Prop}
    (handled : ∀ s i, (ownerOf s).isSome → Q s i →
      Handled keeper (ownerOf s) (ownerOf (M.step i s).1) (M.step i s).2 (P s i))
    {s : σ} (howner : (ownerOf s).isSome) (hout : ownerOf s ≠ some keeper) {is : List ι}
    (h : M.Along Q is s) :
    (∀ js, js <+: is → InCustody keeper (M.log js s) (ownerOf (M.run js s))) ↔ M.Along P is s :=
  M.prefixes_iff (J := fun s => (ownerOf s).isSome)
    (I := fun os s => InCustody keeper os (ownerOf s))
    (fun s i hsome hQ => (handled s i hsome hQ).isSome hsome)
    (fun _ s i hsome hQ hcustody => (handled s i hsome hQ).inCustody_iff hcustody) is [] s howner h
    (.start hout)

end Infra
