import OctopusPallets.Appchain.History

/-!
# The anchor contract

What the mainchain knows of the appchain: a validator set for each era number, and the numbered
notifications. An observation is genuine when the anchor contract holds it.
-/

namespace OctopusPallets.Appchain

variable {AccountId : Type}

/-- The anchor contract. Set 0 is the one the appchain starts with. -/
structure Anchor (AccountId : Type) extends History AccountId where
  validators : Nat → List (Validator AccountId)

namespace Anchor

variable (A : Anchor AccountId)

def valSet (setId : Nat) : ValidatorSet AccountId := ⟨setId, A.validators setId⟩

/-- The set with this id, as the appchain pallet plans it. -/
def plan (setId : Nat) : List (AccountId × Nat) := (A.valSet setId).plan

/-- `o` is what the contract holds under its kind and index. -/
def Holds : Observation AccountId → Prop
  | .updateValidatorSet valSet => valSet = A.valSet valSet.setId
  | o => A.Contains o

instance [DecidableEq AccountId] (o : Observation AccountId) : Decidable (A.Holds o) := by
  cases o <;> exact inferInstanceAs (Decidable (_ = _))

variable {A}

theorem holds_valSet (setId : Nat) : A.Holds (.updateValidatorSet (A.valSet setId)) := rfl

theorem holds_notification {o : Observation AccountId} (ho : o.IsNotification) :
    A.Holds o ↔ A.Contains o := by
  cases o with
  | updateValidatorSet _ => exact absurd rfl ho
  | burn _ | lockAsset _ | burnNft _ => exact Iff.rfl

/-- A genuine set is planned as the contract has it. -/
theorem plan_of_holds {valSet : ValidatorSet AccountId} (h : A.Holds (.updateValidatorSet valSet)) :
    valSet.plan = A.plan valSet.setId := congrArg ValidatorSet.plan h

theorem holds_of_mem_slice {m k : Nat} {o : Observation AccountId} (h : o ∈ A.slice m k) :
    A.Holds o := by
  obtain ⟨i, -, rfl⟩ := List.mem_map.mp h
  exact (holds_notification (A.isNotification i)).mpr (A.contains_notification i)

end Anchor

end OctopusPallets.Appchain
