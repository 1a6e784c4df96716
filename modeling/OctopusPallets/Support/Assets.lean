import OctopusPallets.Support.Currency

/-!
# What a pallet of assets does

The bridge mints and burns wrapped tokens with the `fungibles::Mutate` of another pallet.
`FungiblesLaws` is what it relies on, about the issuance, the balances and the minimum balance that
are read off the storage, and `palletAssets` keeps it, as `pallet_assets` does: a burn that would
leave less than the minimum balance takes the rest along.
-/

namespace OctopusPallets

open Infra

/-- What is burned along, of the rest of a balance. -/
def dust (minimumBalance rest : Nat) : Nat := if rest < minimumBalance then rest else 0

theorem leaving_add_dust (minimumBalance rest : Nat) :
    leaving minimumBalance rest + dust minimumBalance rest = rest := by
  unfold leaving dust
  split <;> simp

/-- Nothing is burned along when nothing is left, or enough. -/
theorem dust_eq_zero {minimumBalance rest : Nat} :
    dust minimumBalance rest = 0 ↔ rest = 0 ∨ minimumBalance ≤ rest := by
  unfold dust
  split <;> omega

theorem dust_sub_eq_zero {minimumBalance balance amount : Nat} (h : amount ≤ balance) :
    dust minimumBalance (balance - amount) = 0 ↔
      balance = amount ∨ amount + minimumBalance ≤ balance := by
  rw [dust_eq_zero]
  omega

variable {AccountId φ : Type}

/-- A burn destroys what it was asked to with the dust that would be left. -/
structure BurnLaw (F : Fungibles AccountId φ) (balanceOf : φ → Nat → AccountId → Nat)
    (minimumBalance : φ → Nat → Nat) : Prop where
  actual : ∀ {x x' : φ} {asset : Nat} {who : AccountId} {amount actual : Nat},
    F.burnFrom asset who amount x = (.ok actual, x') → amount ≤ balanceOf x asset who ∧
      actual = amount + dust (minimumBalance x asset) (balanceOf x asset who - amount)

/-- Besides, a mint issues the amount or fails without change, and a burn takes what it destroys from
the issuance. Other assets are not issued or destroyed along. -/
structure FungiblesLaws (F : Fungibles AccountId φ) (issuanceOf : φ → Nat → Nat)
    (balanceOf : φ → Nat → AccountId → Nat) (minimumBalance : φ → Nat → Nat) : Prop
    extends BurnLaw F balanceOf minimumBalance where
  mintFailed : ∀ {x x' : φ} {asset : Nat} {who : AccountId} {amount : Nat} {e},
    F.mintInto asset who amount x = (.error e, x') → x' = x
  minted : ∀ {x x' : φ} {asset : Nat} {who : AccountId} {amount : Nat},
    F.mintInto asset who amount x = (.ok (), x') →
      issuanceOf x' asset = issuanceOf x asset + amount
  mintedOther : ∀ {x x' : φ} {asset other : Nat} {who : AccountId} {amount : Nat},
    F.mintInto asset who amount x = (.ok (), x') → other ≠ asset →
      issuanceOf x' other = issuanceOf x other
  burned : ∀ {x x' : φ} {asset : Nat} {who : AccountId} {amount actual : Nat},
    F.burnFrom asset who amount x = (.ok actual, x') →
      issuanceOf x' asset + actual = issuanceOf x asset
  burnedOther : ∀ {x x' : φ} {asset other : Nat} {who : AccountId} {amount actual : Nat},
    F.burnFrom asset who amount x = (.ok actual, x') → other ≠ asset →
      issuanceOf x' other = issuanceOf x other

/-- **A burn is exact when it leaves nothing, or the minimum balance.** -/
theorem BurnLaw.exact_iff {F : Fungibles AccountId φ} {balanceOf : φ → Nat → AccountId → Nat}
    {minimumBalance : φ → Nat → Nat} (hlaw : BurnLaw F balanceOf minimumBalance) {x x' : φ}
    {asset amount actual : Nat} {who : AccountId}
    (h : F.burnFrom asset who amount x = (.ok actual, x')) :
    actual = amount ↔ balanceOf x asset who = amount ∨
      amount + minimumBalance x asset ≤ balanceOf x asset who := by
  obtain ⟨hfunds, rfl⟩ := hlaw.actual h
  rw [← dust_sub_eq_zero hfunds, Nat.add_eq_left]

/-! ## An implementation -/

variable [DecidableEq AccountId]

/-- The balance of one account in one asset is replaced. -/
def setHolding (x : Nat → AccountId → Nat) (asset : Nat) (who : AccountId) (value : Nat) :
    Nat → AccountId → Nat :=
  Function.update x asset (Function.update (x asset) who value)

section

variable [Fintype AccountId]

/-- The total issuance of an asset. -/
def issuance (x : Nat → AccountId → Nat) (asset : Nat) : Nat := ∑ who, x asset who

/-- `pallet_assets`, with assets of one minimum balance and accounts that are not frozen. -/
def palletAssets (minimumBalance : Nat) : Fungibles AccountId (Nat → AccountId → Nat) where
  mintInto asset who amount x :=
    if x asset who + amount < minimumBalance ∨ 2 ^ 128 ≤ issuance x asset + amount then
      (.error (.foreign 3), x)
    else (.ok (), setHolding x asset who (x asset who + amount))
  burnFrom asset who amount x :=
    if x asset who < amount then (.error (.foreign 4), x)
    else
      let rest := x asset who - amount
      (.ok (amount + dust minimumBalance rest),
        setHolding x asset who (leaving minimumBalance rest))

theorem issuance_setHolding (x : Nat → AccountId → Nat) (asset : Nat) (who : AccountId)
    (value : Nat) :
    issuance (setHolding x asset who value) asset + x asset who = issuance x asset + value := by
  have hsum := sum_update_add (x asset) who value
  unfold issuance setHolding
  rwa [Function.update_self]

theorem issuance_setHolding_of_ne (x : Nat → AccountId → Nat) {asset other : Nat}
    (hne : other ≠ asset) (who : AccountId) (value : Nat) :
    issuance (setHolding x asset who value) other = issuance x other := by
  unfold issuance setHolding
  rw [Function.update_of_ne hne]

theorem palletAssets_mintInto {minimumBalance asset amount : Nat} {who : AccountId}
    {x x' : Nat → AccountId → Nat}
    (h : (palletAssets minimumBalance).mintInto asset who amount x = (.ok (), x')) :
    x' = setHolding x asset who (x asset who + amount) := by
  simp only [palletAssets] at h
  split at h
  · cases (Prod.mk.inj h).1
  · exact (Prod.mk.inj h).2.symm

theorem palletAssets_burnFrom {minimumBalance asset amount actual : Nat} {who : AccountId}
    {x x' : Nat → AccountId → Nat}
    (h : (palletAssets minimumBalance).burnFrom asset who amount x = (.ok actual, x')) :
    amount ≤ x asset who ∧ actual = amount + dust minimumBalance (x asset who - amount) ∧
      x' = setHolding x asset who (leaving minimumBalance (x asset who - amount)) := by
  simp only [palletAssets] at h
  split at h
  · cases (Prod.mk.inj h).1
  · next hfunds =>
    obtain ⟨hactual, hleft⟩ := Prod.mk.inj h
    exact ⟨Nat.not_lt.mp hfunds, (Except.ok.inj hactual).symm, hleft.symm⟩

/-- **`pallet_assets` keeps the laws.** -/
theorem palletAssets_laws (minimumBalance : Nat) :
    FungiblesLaws (palletAssets minimumBalance) issuance
      (fun x : Nat → AccountId → Nat => x) fun _ _ => minimumBalance where
  mintFailed h := by
    simp only [palletAssets] at h
    split at h
    · exact (Prod.mk.inj h).2.symm
    · cases (Prod.mk.inj h).1
  minted {x x' asset who amount} h := by
    have hissued := issuance_setHolding x asset who (x asset who + amount)
    rw [palletAssets_mintInto h]
    omega
  mintedOther {x x' asset other who amount} h hne := by
    rw [palletAssets_mintInto h]
    exact issuance_setHolding_of_ne x hne who _
  burned {x x' asset who amount actual} h := by
    obtain ⟨hfunds, rfl, rfl⟩ := palletAssets_burnFrom h
    have hissued := issuance_setHolding x asset who
      (leaving minimumBalance (x asset who - amount))
    have hrest := leaving_add_dust minimumBalance (x asset who - amount)
    omega
  burnedOther {x x' asset other who amount actual} h hne := by
    obtain ⟨-, -, rfl⟩ := palletAssets_burnFrom h
    exact issuance_setHolding_of_ne x hne who _
  actual h := by
    obtain ⟨hfunds, hactual, -⟩ := palletAssets_burnFrom h
    exact ⟨hfunds, hactual⟩

end

end OctopusPallets
