import OctopusPallets.Appchain.VoteBook

/-!
# Reporting the mainchain's history

The notifications of the mainchain are numbered from 0, and an honest validator reports a slice of
them that starts at the counter it has read. When nothing but notifications of the history took
effect, they took effect as a prefix of the history exactly if the quorums came in order.
-/

namespace OctopusPallets.Appchain

open Infra Infra.Dispatch Infra.FixedWidth

variable {cfg : Config} {AccountId Public β : Type}

/-! ## Histories -/

/-- The notifications of the anchor contract, one at each index. -/
structure History (AccountId : Type) where
  notification : Nat → Observation AccountId
  isNotification : ∀ i, (notification i).IsNotification
  index : ∀ i, (notification i).observationIndex = i

namespace History

variable (H : History AccountId)

/-- `get_appchain_notification_histories`: `k` notifications from index `m` on. -/
def slice (m k : Nat) : List (Observation AccountId) :=
  (List.range' m k).map H.notification

/-- `o` is what the history holds at its index. -/
def Contains (o : Observation AccountId) : Prop := o = H.notification o.observationIndex

theorem contains_notification (i : Nat) : H.Contains (H.notification i) := by
  unfold Contains
  rw [H.index]

variable {H}

theorem contains_of_mem_slice {m k : Nat} {o : Observation AccountId} (h : o ∈ H.slice m k) :
    H.Contains o := by
  obtain ⟨i, -, rfl⟩ := List.mem_map.mp h
  exact H.contains_notification i

/-- Notifications of the history that are numbered from 0 are a prefix of it. -/
theorem eq_prefix_iff {os : List (Observation AccountId)} (hos : ∀ o ∈ os, H.Contains o) :
    os = (List.range os.length).map H.notification ↔
      os.map Observation.observationIndex = List.range' 0 os.length := by
  rw [← List.range_eq_range']
  constructor
  · intro h
    rw [h, List.map_map, List.length_map, List.length_range]
    conv_rhs => rw [← List.map_id (List.range os.length)]
    exact List.map_congr_left fun i _ => H.index i
  · intro h
    rw [← h, List.map_map]
    conv_lhs => rw [← List.map_id os]
    exact List.map_congr_left fun o ho => hos o ho

/-- Notifications of the history that are numbered in a row are a slice of it. -/
theorem eq_slice {os : List (Observation AccountId)} (hos : ∀ o ∈ os, H.Contains o) {m : Nat}
    (h : os.map Observation.observationIndex = List.range' m os.length) :
    os = H.slice m os.length := by
  unfold slice
  rw [← h, List.map_map]
  conv_lhs => rw [← List.map_id os]
  exact List.map_congr_left fun o ho => hos o ho

/-- A prefix of the history and the slice after it. -/
theorem prefix_append_slice (n k : Nat) :
    (List.range n).map H.notification ++ H.slice n k
      = (List.range (n + k)).map H.notification := by
  unfold slice
  rw [List.range_eq_range', List.range_eq_range', ← List.range'_append_1, List.map_append,
    Nat.zero_add]

end History

/-- An honest payload: a slice from a value that the counter has had. The counter starts at 0 and
moves by one, so these are the values up to the current one. -/
def HonestSlice (H : History AccountId) (s : State cfg AccountId β)
    (os : List (Observation AccountId)) : Prop :=
  ∃ m k, m ≤ s.nextNotificationId ∧ k ≤ cfg.requestEventLimit ∧ os = H.slice m k

namespace Sample

/-- A history of burns. -/
def burns : History Nat := ⟨burnAt, fun _ => (nomatch ·), fun _ => rfl⟩

theorem honest_slice (s : State config Nat Unit) : HonestSlice burns s [burnAt 0, burnAt 1] :=
  ⟨0, 2, Nat.zero_le _, by decide, rfl⟩

end Sample

variable [DecidableEq AccountId]

/-! ## Executing the history -/

/--
**If only notifications of the history took effect, they are the history up to the counter exactly
when the quorums came in order.**
-/
theorem executes_history_iff (bridge : BridgeInterface AccountId β) (H : History AccountId)
    {s₀ : State cfg AccountId β} (hs₀ : s₀.nextNotificationId = 0) (xs : List (Vote AccountId))
    (htrue : ∀ o ∈ notifications ((voteMachine bridge).log xs s₀), H.Contains o) :
    notifications ((voteMachine bridge).log xs s₀)
        = (List.range ((voteMachine bridge).run xs s₀).nextNotificationId).map H.notification ↔
      (voteMachine bridge).Along InOrder xs s₀ := by
  rw [nextNotificationId_run, hs₀, Nat.zero_add, H.eq_prefix_iff htrue, ← indices_run, hs₀]

/-- The notifications among the effects of a run, each with the vote that completed its quorum. -/
theorem relays_of_mem_log {bridge : BridgeInterface AccountId β} {s₀ : State cfg AccountId β}
    {xs : List (Vote AccountId)} {o : Observation AccountId}
    (ho : o ∈ notifications ((voteMachine bridge).log xs s₀)) :
    ∃ ys x zs, xs = ys ++ x :: zs ∧ x.observation = o ∧
      ((voteMachine bridge).run ys s₀).Relays x := by
  obtain ⟨hlog, hnotification⟩ := List.mem_filter.mp ho
  obtain ⟨ys, x, zs, rfl, hstep⟩ := (voteMachine bridge).mem_log hlog
  have hmem : o ∈ notifications
      ((voteMachine bridge).step x ((voteMachine bridge).run ys s₀)).2 :=
    List.mem_filter.mpr ⟨hstep, hnotification⟩
  rw [notifications_of_step (voteMachine_step bridge x _)] at hmem
  split at hmem
  · next hrelays => exact ⟨ys, x, zs, rfl, (List.mem_singleton.mp hmem).symm, hrelays⟩
  · cases hmem

end OctopusPallets.Appchain
