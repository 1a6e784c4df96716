import OctopusPallets.Lpos.BondedEras
import OctopusPallets.Lpos.Payout
import Mathlib.Data.List.Count

/-!
# Counting offences

A report that is handled counts each of its offenders once more. In a release build a count wraps at
`2 ^ 32`, in a debug build the block is refused before.

* `Chain.reportOffence_lookup` — what a report adds to the counts
-/

namespace OctopusPallets.Lpos

open Infra Infra.Dispatch Infra.FixedWidth

variable {AccountId : Type} {T : Config AccountId} [DecidableEq AccountId]

/-- The number of offences stored for `key`. -/
def State.offencesOf (s : State T) (key : Kind × AccountId) : Nat := (s.offenders.lookup key).getD 0

/-- The offences that a report counts. -/
def State.counted (s : State T) (kind : Kind) (offenceSession : Nat) (offenders : List AccountId) :
    Except OffenceError Unit → List (Kind × AccountId)
  | .error _ => []
  | .ok _ =>
    if Reaches s.bondedEras offenceSession &&
        (countOffences T.build kind offenders s.offenders).isSome then
      offenders.map fun who => (kind, who)
    else []

theorem Build.add_one_of_fits {build : Build} {n next : Nat} (h : build.add 32 n 1 = some next)
    (hfits : build = .debug ∨ n + 1 < 2 ^ 32) : next = n + 1 := by
  rcases hfits with rfl | hlt
  · have hfit := (Build.debug_eq_some_iff.mp ⟨next, h⟩).2
    have hlt : n + 1 < 2 ^ 32 := by exact_mod_cast hfit
    exact Option.some.inj (h.symm.trans (Build.debug.add_of_lt hlt))
  · exact Option.some.inj (h.symm.trans (build.add_of_lt hlt))

/-- Each offender is counted as often as it is reported, if no count wraps. -/
theorem countOffences_lookup {build : Build} {kind : Kind} {offenders : List AccountId}
    {counts counts' : AList fun _ : Kind × AccountId => Nat}
    (h : countOffences build kind offenders counts = some counts')
    (hfits : build = .debug ∨ ∀ who, (counts.lookup (kind, who)).getD 0 + offenders.count who < 2 ^ 32)
    (key : Kind × AccountId) : (counts'.lookup key).getD 0
      = (counts.lookup key).getD 0 + (offenders.map fun who => (kind, who)).count key := by
  induction offenders generalizing counts with
  | nil =>
    obtain rfl : counts = counts' := Option.some.inj h
    rfl
  | cons offender offenders ih =>
    unfold countOffences at h
    rw [List.foldlM_cons, Option.bind_eq_bind, Option.bind_eq_some_iff] at h
    obtain ⟨counted, hcounted, h⟩ := h
    rw [Option.bind_eq_bind, Option.bind_eq_some_iff] at hcounted
    obtain ⟨count, hcount, hinsert⟩ := hcounted
    obtain rfl : counts.insert (kind, offender) count = counted := Option.some.inj hinsert
    obtain rfl : count = (counts.lookup (kind, offender)).getD 0 + 1 := by
      refine Build.add_one_of_fits hcount (hfits.imp_right fun hlt => ?_)
      have hhead := hlt offender
      rw [List.count_cons_self] at hhead
      omega
    have hrest := ih h (hfits.imp_right fun hlt who => by
      have hwho := hlt who
      by_cases heq : who = offender
      · subst heq
        rw [List.count_cons_self] at hwho
        rw [AList.lookup_insert, Option.getD_some]
        omega
      · rw [AList.lookup_insert_ne (by simpa using heq)]
        rw [List.count_cons_of_ne (Ne.symm heq)] at hwho
        exact hwho)
    rw [hrest, List.map_cons]
    by_cases hkey : key = (kind, offender)
    · subst hkey
      rw [AList.lookup_insert, Option.getD_some, List.count_cons_self]
      omega
    · rw [AList.lookup_insert_ne hkey, List.count_cons_of_ne (Ne.symm hkey)]

theorem forwardReport_ok (kind : Kind) (offenders : List AccountId) (s : State T) :
    forwardReport kind offenders (.ok ()) s =
      match countOffences T.build kind offenders s.offenders with
      | some counts => (.ok (.ok ()), { s with offenders := counts })
      | none => (.error .abort, s) := by
  show (load (fun s : State T => s.offenders) >>= _) s = _
  rw [load_bind]
  cases countOffences T.build kind offenders s.offenders <;> rfl

/-- **A report adds to the counts what it counts.** -/
theorem Chain.reportOffence_lookup (c : Chain T) (kind : Kind) (offenceSession : Nat)
    (offenders : List AccountId) (reported : Except OffenceError Unit)
    (hfits : T.build = .debug ∨ ∀ key,
      c.state.offencesOf key + (c.state.counted kind offenceSession offenders reported).count key
        < 2 ^ 32) (key : Kind × AccountId) :
    (c.step (.reportOffence kind offenceSession offenders reported)).1.state.offencesOf key
      = c.state.offencesOf key
        + (c.state.counted kind offenceSession offenders reported).count key := by
  have hsame : ∀ {s' : State T}, s'.offenders = c.state.offenders →
      c.state.counted kind offenceSession offenders reported = [] →
      s'.offencesOf key = c.state.offencesOf key
        + (c.state.counted kind offenceSession offenders reported).count key := by
    intro s' hs' hcounted
    rw [hcounted, List.count_nil, Nat.add_zero]
    unfold State.offencesOf
    rw [hs']
  have hstep : (c.step (.reportOffence kind offenceSession offenders reported)).1
      = c.apply (Lpos.reportOffence kind offenceSession offenders reported >>= fun _ => pure ()) := rfl
  rw [hstep]
  unfold Chain.apply
  rw [bind_apply, reportOffence_apply]
  by_cases hreach : Reaches c.state.bondedEras offenceSession = true
  · rw [if_pos hreach]
    cases reported with
    | error e => exact hsame rfl rfl
    | ok _ =>
      rw [forwardReport_ok]
      cases hcount : countOffences T.build kind offenders c.state.offenders with
      | none => exact hsame rfl (by simp [State.counted, hcount])
      | some counts =>
        have hcounted : c.state.counted kind offenceSession offenders (.ok ())
            = offenders.map fun who => (kind, who) := by
          simp [State.counted, hcount, hreach]
        rw [hcounted] at hfits ⊢
        refine countOffences_lookup hcount (hfits.imp_right fun hlt who => ?_) key
        have hwho := hlt (kind, who)
        rwa [List.count_map_of_injective offenders (fun who => (kind, who))
          (fun _ _ h => (Prod.mk.inj h).2) who] at hwho
  · rw [if_neg hreach]
    refine hsame rfl ?_
    cases reported with
    | error e => rfl
    | ok _ => simp [State.counted, hreach]

/-- The genesis is seen only by those who see a rotation that ends no era. -/
theorem Genesis.frame {τ : Type} {f : State T → τ} (hf : Apart f) (g : Genesis T)
    (hstarted : ∀ (s : State T) activeEra bondedEras historical,
      f { s with activeEra, bondedEras, historical } = f s)
    (hsubmit : g.ctx.appchain.isActivated = true → ∀ payload (s : State T), f { s with
      messages := (T.upwardMessages.submit none .planNewEra payload s.messages).2 } = f s)
    {c₀ : Chain T} {os₀ : List (Observed AccountId)} (hchain : g.chain = some (c₀, os₀)) :
    f c₀.state = f g.state := by
  obtain ⟨s, hplanned, hstart⟩ := Genesis.starts hchain (planning_frame hf g.ctx hsubmit)
  have hkept := startSession_frame hf g.ctx hstarted 0 s
  rw [hstart] at hkept
  exact hkept.trans hplanned

/-- The genesis stores no offences. -/
theorem Genesis.offenders (g : Genesis T) {c₀ : Chain T} {os₀ : List (Observed AccountId)}
    (hchain : g.chain = some (c₀, os₀)) : c₀.state.offenders = ∅ :=
  g.frame (f := fun s => s.offenders) (fun _ _ => rfl) (fun _ _ _ _ => rfl) (fun _ _ _ => rfl) hchain

end OctopusPallets.Lpos
