import OctopusPallets.Support.Traits
import Mathlib.Algebra.BigOperators.Group.Finset.Piecewise
import Mathlib.Algebra.Order.BigOperators.Group.Finset
import Mathlib.Logic.Function.Basic

/-!
# What a currency does

The pallets move native tokens with the `Currency` of another pallet. `CurrencyLaws` and
`KeepAliveLaws` are what they rely on, about the balances that `balanceOf` reads, and
`balancesCurrency` is a currency that keeps them: free balances with an existential deposit, as in
`pallet_balances`.
-/

namespace OctopusPallets

open Infra Infra.Dispatch

variable {AccountId χ : Type}

/-- A transfer moves exactly the amount or fails without change, and a deposit adds the amount when
the account can take it. -/
structure CurrencyLaws (C : Currency AccountId χ) (balanceOf : χ → AccountId → Nat)
    (deposits : χ → AccountId → Nat → Bool) : Prop where
  failed : ∀ {x x' : χ} {source dest : AccountId} {value : Nat} {requirement e},
    C.transfer source dest value requirement x = (.error e, x') → x' = x
  received : ∀ {x x' : χ} {source dest : AccountId} {value : Nat} {requirement}, source ≠ dest →
    C.transfer source dest value requirement x = (.ok (), x') →
      balanceOf x' dest = balanceOf x dest + value
  sent : ∀ {x x' : χ} {source dest : AccountId} {value : Nat}, source ≠ dest →
    C.transfer source dest value .keepAlive x = (.ok (), x') →
      balanceOf x' source + value = balanceOf x source
  unmoved : ∀ {x x' : χ} {who : AccountId} {value : Nat} {requirement},
    C.transfer who who value requirement x = (.ok (), x') → x' = x
  deposited : ∀ (x : χ) (who : AccountId) (value : Nat),
    balanceOf (C.depositCreating who value x) who
      = balanceOf x who + if deposits x who value then value else 0
  elsewhere : ∀ (x : χ) (who : AccountId) (value : Nat) {other : AccountId}, other ≠ who →
    balanceOf (C.depositCreating who value x) other = balanceOf x other

variable [DecidableEq AccountId]

/-- What is left of a free balance: below the existential deposit it is dust. -/
def leaving (existentialDeposit rest : Nat) : Nat :=
  if rest < existentialDeposit then 0 else rest

/-- `pallet_balances`, without reserves and locks. -/
def balancesCurrency (existentialDeposit : Nat) : Currency AccountId (AccountId → Nat) where
  transfer source dest value requirement balances :=
    if value = 0 ∨ source = dest then (.ok (), balances)
    else if balances source < value ∨ balances dest + value < existentialDeposit then
      (.error (.foreign 0), balances)
    else
      let rest := balances source - value
      match requirement with
      | .keepAlive =>
        if rest < existentialDeposit then (.error (.foreign 1), balances)
        else
          (.ok (), Function.update (Function.update balances source rest) dest
            (balances dest + value))
      | .allowDeath =>
        (.ok (), Function.update (Function.update balances source (leaving existentialDeposit rest))
          dest (balances dest + value))
  depositCreating who value balances :=
    if balances who + value < existentialDeposit then balances
    else Function.update balances who (balances who + value)

/-- A transfer that succeeds moved nothing, or it updated the two balances. -/
theorem balancesCurrency_transfer_ok {existentialDeposit value : Nat} {source dest : AccountId}
    {requirement : ExistenceRequirement} {x x' : AccountId → Nat}
    (h : (balancesCurrency existentialDeposit).transfer source dest value requirement x
      = (.ok (), x')) :
    ((value = 0 ∨ source = dest) ∧ x' = x) ∨
      source ≠ dest ∧ value ≤ x source ∧ existentialDeposit ≤ x dest + value ∧
        ∃ rest, x' = Function.update (Function.update x source rest) dest (x dest + value) ∧
          (rest = x source - value ∧ existentialDeposit ≤ rest ∨
            requirement = .allowDeath ∧ rest = leaving existentialDeposit (x source - value)) := by
  simp only [balancesCurrency] at h
  split at h
  · next htrivial => exact Or.inl ⟨htrivial, (Prod.mk.inj h).2.symm⟩
  · next hmoves =>
    rw [not_or] at hmoves
    split at h
    · cases (Prod.mk.inj h).1
    · next hfunds =>
      rw [not_or, Nat.not_lt, Nat.not_lt] at hfunds
      refine Or.inr ⟨hmoves.2, hfunds.1, hfunds.2, ?_⟩
      cases requirement with
      | keepAlive =>
        simp only at h
        split at h
        · cases (Prod.mk.inj h).1
        · next halive =>
          exact ⟨_, (Prod.mk.inj h).2.symm, Or.inl ⟨rfl, Nat.not_lt.mp halive⟩⟩
      | allowDeath => exact ⟨_, (Prod.mk.inj h).2.symm, Or.inr ⟨rfl, rfl⟩⟩

/-- A transfer that fails changes nothing. -/
theorem balancesCurrency_transfer_error {existentialDeposit value : Nat} {source dest : AccountId}
    {requirement : ExistenceRequirement} {x x' : AccountId → Nat} {e : DispatchError}
    (h : (balancesCurrency existentialDeposit).transfer source dest value requirement x
      = (.error e, x')) : x' = x := by
  simp only [balancesCurrency] at h
  split at h
  · cases (Prod.mk.inj h).1
  · split at h
    · exact (Prod.mk.inj h).2.symm
    · cases requirement with
      | keepAlive =>
        simp only at h
        split at h
        · exact (Prod.mk.inj h).2.symm
        · cases (Prod.mk.inj h).1
      | allowDeath => cases (Prod.mk.inj h).1

/-- **`pallet_balances` keeps the laws.** -/
theorem balancesCurrency_laws (existentialDeposit : Nat) :
    CurrencyLaws (balancesCurrency existentialDeposit) (fun balances : AccountId → Nat => balances)
      fun balances who value => existentialDeposit ≤ balances who + value where
  failed h := balancesCurrency_transfer_error h
  received hne h := by
    rcases balancesCurrency_transfer_ok h with ⟨htrivial, rfl⟩ | ⟨-, -, -, rest, rfl, -⟩
    · rw [htrivial.resolve_right hne, Nat.add_zero]
    · exact Function.update_self ..
  sent hne h := by
    rcases balancesCurrency_transfer_ok h with ⟨htrivial, rfl⟩ | ⟨-, hle, -, rest, rfl, hrest⟩
    · rw [htrivial.resolve_right hne, Nat.add_zero]
    · rcases hrest with ⟨rfl, -⟩ | ⟨hdeath, -⟩
      · rw [Function.update_of_ne hne, Function.update_self, Nat.sub_add_cancel hle]
      · cases hdeath
  unmoved h := by
    rcases balancesCurrency_transfer_ok h with ⟨-, heq⟩ | ⟨hne, -⟩
    · exact heq
    · exact absurd rfl hne
  deposited x who value := by
    simp only [balancesCurrency]
    by_cases hlt : x who + value < existentialDeposit
    · rw [if_pos hlt, decide_eq_false (Nat.not_le.mpr hlt)]
      rfl
    · rw [if_neg hlt, decide_eq_true (Nat.not_lt.mp hlt), Function.update_self]
      rfl
  elsewhere x who value other hne := by
    simp only [balancesCurrency]
    split
    · rfl
    · exact Function.update_of_ne hne ..

/-! ## Balances of a fixed width -/

omit [DecidableEq AccountId] in
/-- A balance fits its type, and what leaves both accounts alive is moved. -/
structure KeepAliveLaws (C : Currency AccountId χ) (balanceOf : χ → AccountId → Nat)
    (existentialDeposit bits : Nat) : Prop where
  fits : ∀ (x : χ) (who : AccountId), balanceOf x who < 2 ^ bits
  moves : ∀ {x : χ} {source dest : AccountId} {value : Nat},
    value + existentialDeposit ≤ balanceOf x source → existentialDeposit ≤ balanceOf x dest →
      ∃ x', C.transfer source dest value .keepAlive x = (.ok (), x')

omit [DecidableEq AccountId] in
/-- The currency on the storages that satisfy `P`: what would leave them is refused. -/
def Currency.within (C : Currency AccountId χ) (P : χ → Prop) [DecidablePred P] :
    Currency AccountId { x // P x } where
  transfer source dest value requirement x :=
    if h : P (C.transfer source dest value requirement x.1).2 then
      ((C.transfer source dest value requirement x.1).1, ⟨_, h⟩)
    else (.error (.foreign 2), x)
  depositCreating who value x :=
    if h : P (C.depositCreating who value x.1) then ⟨_, h⟩ else x

section

omit [DecidableEq AccountId]

variable {C : Currency AccountId χ} {P : χ → Prop} [DecidablePred P]

theorem Currency.within_ok {source dest : AccountId} {value : Nat}
    {requirement : ExistenceRequirement} {x x' : { x // P x }} :
    (C.within P).transfer source dest value requirement x = (.ok (), x') ↔
      C.transfer source dest value requirement x.1 = (.ok (), x'.1) := by
  simp only [Currency.within]
  split
  · next h =>
    rw [Prod.ext_iff, Prod.ext_iff, Subtype.ext_iff]
  · next h =>
    constructor
    · intro heq
      cases (Prod.mk.inj heq).1
    · intro heq
      rw [heq] at h
      exact absurd x'.2 h

/-- **A currency that keeps the laws keeps them within `P`.** -/
theorem CurrencyLaws.within {balanceOf : χ → AccountId → Nat}
    {deposits : χ → AccountId → Nat → Bool} (hlaws : CurrencyLaws C balanceOf deposits) :
    CurrencyLaws (C.within P) (fun x => balanceOf x.1) fun x who value =>
      deposits x.1 who value && decide (P (C.depositCreating who value x.1)) where
  failed {x x' source dest value requirement e} h := by
    simp only [Currency.within] at h
    split at h
    · obtain ⟨herror, rfl⟩ := Prod.mk.inj h
      exact Subtype.ext (hlaws.failed (Prod.ext herror rfl))
    · exact (Prod.mk.inj h).2.symm
  received hne h := hlaws.received hne (Currency.within_ok.mp h)
  sent hne h := hlaws.sent hne (Currency.within_ok.mp h)
  unmoved h := Subtype.ext (hlaws.unmoved (Currency.within_ok.mp h))
  deposited x who value := by
    simp only [Currency.within]
    by_cases h : P (C.depositCreating who value x.1)
    · simp [h, hlaws.deposited]
    · simp [h]
  elsewhere x who value other hne := by
    simp only [Currency.within]
    split
    · exact hlaws.elsewhere x.1 who value hne
    · rfl

end

section

variable [Fintype AccountId]

theorem sum_update_add (x : AccountId → Nat) (who : AccountId) (value : Nat) :
    (∑ a, Function.update x who value a) + x who = (∑ a, x a) + value := by
  rw [Finset.sum_update_of_mem (Finset.mem_univ who),
    Finset.sum_eq_add_sum_sdiff_singleton_of_mem (Finset.mem_univ who) x]
  omega

/-- The balances add up to no more than the type of a balance holds, as the total issuance of
`pallet_balances`. -/
def Issued (bits : Nat) (x : AccountId → Nat) : Prop := ∑ a, x a < 2 ^ bits

instance (bits : Nat) : DecidablePred (Issued bits : (AccountId → Nat) → Prop) :=
  fun _ => inferInstanceAs (Decidable (_ < _))

/-- A transfer that keeps both accounts alive issues nothing. -/
theorem sum_transfer {x : AccountId → Nat} {source dest : AccountId} {value : Nat}
    (hne : source ≠ dest) (hle : value ≤ x source) :
    ∑ a, Function.update (Function.update x source (x source - value)) dest (x dest + value) a
      = ∑ a, x a := by
  have hdest := sum_update_add (Function.update x source (x source - value)) dest (x dest + value)
  have hsource := sum_update_add x source (x source - value)
  rw [Function.update_of_ne hne.symm] at hdest
  omega

theorem balancesCurrency_keepAlive (existentialDeposit bits : Nat) :
    KeepAliveLaws ((balancesCurrency existentialDeposit).within (Issued bits))
      (fun x : { x : AccountId → Nat // Issued bits x } => x.1) existentialDeposit bits where
  fits x who := (Finset.single_le_sum (fun _ _ => Nat.zero_le _) (Finset.mem_univ who)).trans_lt x.2
  moves {x source dest value} hsource hdest := by
    by_cases htrivial : value = 0 ∨ source = dest
    · refine ⟨x, Currency.within_ok.mpr ?_⟩
      simp only [balancesCurrency, if_pos htrivial]
    · have hle : value ≤ x.1 source := by omega
      have hissued := sum_transfer (fun h => htrivial (Or.inr h)) hle
      refine ⟨⟨_, lt_of_eq_of_lt hissued x.2⟩, Currency.within_ok.mpr ?_⟩
      simp only [balancesCurrency, if_neg htrivial]
      rw [if_neg (by omega), if_neg (by omega)]

end

end OctopusPallets
