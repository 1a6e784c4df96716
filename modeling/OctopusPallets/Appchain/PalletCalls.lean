import OctopusPallets.Appchain.VoteBook

/-!
# Runs of all calls of the pallet

Calls of any kind and from any origin, one after the other. Only `submit_observations` writes the
vote book, by its votes, so what holds of the book after every vote holds after every call. A vote
that fails after it was entered is undone by its transaction, in both maps.
-/

namespace OctopusPallets.Appchain

open Infra Infra.Dispatch Infra.FixedWidth

variable {cfg : Config} {AccountId Public Signature β : Type} [DecidableEq AccountId]

/-- A call of the pallet, with its origin and what the other pallets hold when it is dispatched. -/
structure Dispatched (Public AccountId Signature : Type) where
  lpos : LposInterface AccountId
  origin : Origin AccountId
  call : PalletCall Public AccountId Signature

/-- The pallet as a machine that reads calls and emits their results. -/
def palletMachine (bridge : BridgeInterface AccountId β) :
    Machine (State cfg AccountId β) (Dispatched Public AccountId Signature)
      (Except DispatchError Unit) where
  step c s :=
    ((c.call.dispatch bridge c.lpos c.origin s).2, [(c.call.dispatch bridge c.lpos c.origin s).1])

omit [DecidableEq AccountId] in
theorem forceSet_apply (origin : Origin AccountId)
    (put : State cfg AccountId β → State cfg AccountId β) (s : State cfg AccountId β) :
    (forceSet origin put s).2 = put s ∨ (forceSet origin put s).2 = s := by
  cases origin with
  | root => exact Or.inl rfl
  | signed _ | none => exact Or.inr rfl

/-- A call casts votes, or leaves both maps of the vote book alone. -/
theorem PalletCall.dispatch_book (bridge : BridgeInterface AccountId β)
    (lpos : LposInterface AccountId) (origin : Origin AccountId)
    (call : PalletCall Public AccountId Signature) (s : State cfg AccountId β) :
    (∃ xs, (call.dispatch bridge lpos origin s).2 = (voteMachine bridge).run xs s) ∨
      (call.dispatch bridge lpos origin s).2.observations = s.observations ∧
        (call.dispatch bridge lpos origin s).2.observing = s.observing := by
  have hforce : ∀ put : State cfg AccountId β → State cfg AccountId β,
      (∀ t, (put t).observations = t.observations ∧ (put t).observing = t.observing) →
        (forceSet origin put s).2.observations = s.observations ∧
          (forceSet origin put s).2.observing = s.observing := by
    intro put hput
    rcases forceSet_apply origin put s with h | h <;> rw [h]
    · exact hput s
    · exact ⟨rfl, rfl⟩
  cases call with
  | submitObservations payload _ =>
    cases origin with
    | none => exact Or.inl ⟨_, submitObservations_state bridge ⟨lpos, payload⟩ s⟩
    | root | signed _ => exact Or.inr ⟨rfl, rfl⟩
  | forceSetIsActivated _ | forceSetNextSetId _ | forceSetPlannedValidators _
  | forceSetNextNotificationId _ => exact Or.inr (hforce _ fun _ => ⟨rfl, rfl⟩)

/-- The run lemma: the vote book stays consistent under all calls. -/
theorem wellFormed_palletRun (bridge : BridgeInterface AccountId β) {s₀ : State cfg AccountId β}
    (hs₀ : s₀.WellFormed) (calls : List (Dispatched Public AccountId Signature)) :
    ((palletMachine bridge).run calls s₀).WellFormed := by
  refine (palletMachine bridge).invariant_state hs₀ ?_ calls
  intro s c hs
  show (c.call.dispatch bridge c.lpos c.origin s).2.WellFormed
  rcases c.call.dispatch_book bridge c.lpos c.origin s with ⟨xs, hxs⟩ | ⟨hobservations, hobserving⟩
  · rw [hxs]
    exact wellFormed_run bridge hs xs
  · exact hs.of_maps hobservations hobserving

/--
**The vote book is bounded, free of duplicates and filed under the right keys.**

After any calls from genesis, failing ones included: a list of `Observations` has at most a hundred
different entries, all of its own type and index, a list of `Observing` has at most `MaxValidators`
different voters, and the observations that are filed are those that have a voter.
-/
theorem vote_book_invariant (bridge : BridgeInterface AccountId β) (anchorContract : List UInt8)
    (genesis : List (AccountId × Nat)) (b : β)
    (calls : List (Dispatched Public AccountId Signature)) :
    let s := (palletMachine bridge).run calls (genesisBuild cfg anchorContract genesis b)
    (∀ t i, (s.observations (t, i)).val.Nodup ∧ (s.observations (t, i)).val.length ≤ 100 ∧
      ∀ o ∈ (s.observations (t, i)).val, o.getObservationType = t ∧ o.observationIndex = i) ∧
    ∀ o, (s.observing o).val.Nodup ∧ (s.observing o).val.length ≤ cfg.maxValidators ∧
      ((s.observing o).val ≠ [] ↔
        o ∈ (s.observations (o.getObservationType, o.observationIndex)).val) := by
  intro s
  have hs : s.WellFormed :=
    wellFormed_palletRun bridge (wellFormed_genesis anchorContract genesis b) calls
  constructor
  · intro t i
    refine ⟨hs.nodup (t, i), (s.observations (t, i)).length_le, fun o ho => ?_⟩
    have hkey := hs.keyed (t, i) o ho
    exact Prod.mk.inj hkey
  · intro o
    exact ⟨hs.voters_nodup o, (s.observing o).length_le, (hs.registered o).symm⟩

end OctopusPallets.Appchain
