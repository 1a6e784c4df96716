import OctopusPallets.Lpos.EraSchedule
import OctopusPallets.Lpos.Frames
import OctopusPallets.Lpos.Rotation
import Mathlib.Data.List.Basic

/-!
# The bonding window

`start_era` appends to `BondedEras` and never removes anything: the entries that lie before the
window are counted and kept. So the vector is the list of all eras that were started, and it is the
window exactly as long as the window reaches back to era 0.

* `rotateSession_bonding` — a rotation starts at most one era
* `bonding_window_iff` — when the window is kept
-/

namespace OctopusPallets.Lpos

open Infra Infra.Dispatch Infra.FixedWidth

variable {AccountId : Type} {T : Config AccountId}

/-! ## Reports -/

/-- A report that is forwarded to the handler: its answer decides whether the offences count. -/
def forwardReport [DecidableEq AccountId] (kind : Kind) (offenders : List AccountId) :
    Except OffenceError Unit → Dispatch Fault (State T) (Except OffenceError Unit)
  | .error e => pure (.error e)
  | .ok _ => do
    let counts ← load fun s => s.offenders
    let counts ← okOr (countOffences T.build kind offenders counts) .abort
    store fun s => { s with offenders := counts }
    pure (.ok ())

/-- A report that is too old. -/
def discardReport (offenceSession : Nat) :
    Dispatch Fault (State T) (Except OffenceError Unit) := do
  depositEvent (.oldSlashingReportDiscarded offenceSession)
  pure (.ok ())

/-- The session is not before that of the first of these eras. -/
def Reaches (eras : List (Nat × Nat)) (offenceSession : Nat) : Bool :=
  eras.head?.any fun e => e.2 ≤ offenceSession

/-- **What becomes of a report is decided by the first bonded era.** -/
theorem reportOffence_apply [DecidableEq AccountId] (kind : Kind) (offenceSession : Nat)
    (offenders : List AccountId) (reported : Except OffenceError Unit) (s : State T) :
    reportOffence kind offenceSession offenders reported s =
      if Reaches s.bondedEras offenceSession then forwardReport kind offenders reported s
      else discardReport offenceSession s := by
  unfold reportOffence Reaches
  rw [load_bind]
  split
  · cases reported with
    | error e => rfl
    | ok _ => rfl
  · rfl

/-! ## A rotation -/

/-- What a start of an era writes, besides the set id. -/
def State.bonding (s : State T) : Option Nat × List (Nat × Nat) :=
  (s.timeline.activeIndex, s.timeline.bonded)

theorem keeps_bonding {α : Type} {x : Dispatch Fault (State T) α} (h : Keeps State.timeline x) :
    Keeps State.bonding x := by
  intro s
  unfold State.bonding
  rw [h s]

/-- The active era and the bonded eras, with all that is stored of them. -/
def State.started (s : State T) : Option ActiveEraInfo × List (Nat × Nat) :=
  (s.activeEra, s.bondedEras)

theorem keeps_bonding_of_started {α : Type} {x : Dispatch Fault (State T) α}
    (h : Keeps State.started x) : Keeps State.bonding x := by
  intro s
  exact congrArg (fun p : Option ActiveEraInfo × List (Nat × Nat) =>
    ((p.1.map fun e => (e.index, e.setId)).map Prod.fst, p.2)) (h s)

theorem apart_started : Apart (State.started : State T → _) := fun _ _ => rfl

variable [DecidableEq AccountId]

theorem planning_keeps_started (ctx : Context AccountId) (session : Nat) :
    Keeps State.started (planning (T := T) (SessionManager.newSession ctx session) session) :=
  planning_frame apart_started ctx (fun _ _ _ => rfl) session

theorem planning_keeps_bonding (ctx : Context AccountId) (session : Nat) :
    Keeps State.bonding (planning (T := T) (SessionManager.newSession ctx session) session) :=
  keeps_bonding_of_started (planning_keeps_started ctx session)

omit [DecidableEq AccountId] in
/-- A session starts the next era, or none. -/
theorem startSession_bonding (ctx : Context AccountId) {s s' : State T} {session era : Nat}
    (hera : following s.timeline.activeIndex = era) (hlt : era < 2 ^ 32)
    (h : SessionManager.startSession ctx session s = (.ok (), s')) :
    s'.bonding = s.bonding ∨
      s'.bonding = (some era, s.timeline.bonded ++ [(era, session)]) := by
  subst hera
  obtain ⟨setId, -, htimeline⟩ := startSession_of_ok ctx hlt h
  have hbonding : s'.bonding = ((s.timeline.startPhase setId session).activeIndex,
      (s.timeline.startPhase setId session).bonded) := by
    show (s'.timeline.unprinted.activeIndex, s'.timeline.unprinted.bonded) = _
    rw [htimeline]
    rfl
  rw [hbonding]
  unfold Timeline.startPhase
  split
  · exact Or.inr rfl
  · exact Or.inl rfl

/-- **A rotation starts the next era, in the next session, or none.** -/
theorem rotateSession_bonding (ctx : Context AccountId) {s s' : State T} {i era : Nat}
    {os : List (Observed AccountId)} (hera : following s.timeline.activeIndex = era)
    (hlt : era < 2 ^ 32) (h : rotateSession ctx i s = (.ok os, s')) :
    s'.bonding = s.bonding ∨
      s'.bonding = (some era, s.timeline.bonded ++ [(era, i + 1)]) := by
  obtain ⟨os₁, os₂, s₁, s₂, hend, hstart, hplan, -⟩ := rotateSession_eq_ok.mp h
  have hended : s₁.timeline = s.timeline := by
    have hs := ending_keeps ctx i s
    rwa [hend] at hs
  have hplanned : s'.bonding = s₂.bonding := by
    have hs := planning_keeps_bonding ctx (i + 2) s₂
    rwa [hplan] at hs
  rw [← hended] at hera
  have hstarted := startSession_bonding ctx hera hlt hstart
  unfold State.bonding at hstarted ⊢
  rw [← hended]
  unfold State.bonding at hplanned
  rwa [hplanned]

/-! ## Between rotations -/

/-- Only the first block of an era, in `on_finalize`, writes the active era between rotations. -/
theorem between_keeps_started {call : Call T} (hfinalize : ∀ ctx, call ≠ .onFinalize ctx) :
    Keeps State.started call.between := by
  refine between_frame apart_started ?_
  cases call with
  | onFinalize ctx => exact absurd rfl (hfinalize ctx)
  | reportOffence _ _ _ _ => exact fun _ _ => rfl
  | elsewhere _ _ _ => exact fun _ => rfl
  | rotate _ | noteAuthor _ | dispatch _ _ => trivial

theorem between_keeps_bonding (call : Call T) : Keeps State.bonding call.between := by
  by_cases hfinalize : ∃ ctx, call = .onFinalize ctx
  · obtain ⟨ctx, rfl⟩ := hfinalize
    exact keeps_bonding (.store (onFinalize_timeline ctx))
  · exact keeps_bonding_of_started
      (between_keeps_started fun ctx hcall => hfinalize ⟨ctx, hcall⟩)

/-! ## Runs -/

/-- The era that has become the active one, with the session it starts with. -/
def eraStarted (before : Option Nat) (c : Chain T) : List (Nat × Nat) :=
  if c.state.timeline.activeIndex = before then []
  else (c.state.timeline.activeIndex.map fun era => (era, c.session)).toList

/-- The chain, seen through the eras it starts. -/
def startsMachine (T : Config AccountId) : Machine (Chain T) (Call T) (Nat × Nat) :=
  (chainMachine T).observing fun c _ c' => eraStarted c.state.timeline.activeIndex c'

/-- Session indices stay in `u32`. -/
def Call.SessionInRange (c : Chain T) : Call T → Prop
  | .rotate _ => c.session + 2 < 2 ^ 32
  | _ => True

instance (c : Chain T) (call : Call T) : Decidable (call.SessionInRange c) := by
  cases call <;> unfold Call.SessionInRange <;> infer_instance

/-- The eras were started one after the other, each in a later session, and all are bonded. -/
structure Bonded (c : Chain T) (starts : List (Nat × Nat)) : Prop where
  bonded : c.state.timeline.bonded = starts
  eras : starts.map Prod.fst = List.range (following c.state.timeline.activeIndex)
  sessions : (starts.map Prod.snd).Pairwise (· < ·)
  session_le : ∀ p ∈ starts, p.2 ≤ c.session
  active_le : following c.state.timeline.activeIndex ≤ c.session + 1

namespace Bonded

variable {c : Chain T} {starts : List (Nat × Nat)}

omit [DecidableEq AccountId] in
/-- A call that starts no era leaves the bonded eras alone. -/
theorem same (h : Bonded c starts) (c' : Chain T) (hbonding : c'.state.bonding = c.state.bonding)
    (hsession : c.session ≤ c'.session) :
    Bonded c' (starts ++ eraStarted c.state.timeline.activeIndex c') := by
  have hactive : c'.state.timeline.activeIndex = c.state.timeline.activeIndex :=
    congrArg Prod.fst hbonding
  have hbonded : c'.state.timeline.bonded = c.state.timeline.bonded := congrArg Prod.snd hbonding
  have hle := h.active_le
  unfold eraStarted
  rw [if_pos hactive, List.append_nil]
  refine ⟨hbonded.trans h.bonded, by rw [hactive]; exact h.eras, h.sessions,
    fun p hp => Nat.le_trans (h.session_le p hp) hsession, ?_⟩
  rw [hactive]
  omega

omit [DecidableEq AccountId] in
/-- The next era starts in the next session. -/
theorem next (h : Bonded c starts) {s' : State T}
    (hbonding : s'.bonding = (some (following c.state.timeline.activeIndex),
      c.state.timeline.bonded ++ [(following c.state.timeline.activeIndex, c.session + 1)])) :
    Bonded ⟨c.session + 1, s'⟩
      (starts ++ eraStarted c.state.timeline.activeIndex ⟨c.session + 1, s'⟩) := by
  have hactive : s'.timeline.activeIndex = some (following c.state.timeline.activeIndex) :=
    congrArg Prod.fst hbonding
  have hbonded : s'.timeline.bonded = _ := congrArg Prod.snd hbonding
  have hnew : s'.timeline.activeIndex ≠ c.state.timeline.activeIndex := by
    rw [hactive]
    cases c.state.timeline.activeIndex with
    | none => exact fun h => by cases h
    | some era =>
      intro heq
      have hsucc : era + 1 = era := Option.some.inj heq
      omega
  have hle := h.active_le
  have hstarted : eraStarted c.state.timeline.activeIndex ⟨c.session + 1, s'⟩
      = [(following c.state.timeline.activeIndex, c.session + 1)] := by
    unfold eraStarted
    dsimp only
    rw [if_neg hnew, hactive]
    rfl
  rw [hstarted]
  refine ⟨by rw [hbonded, h.bonded], ?_, ?_, ?_, ?_⟩
  · rw [List.map_append, h.eras, hactive]
    exact List.range_succ.symm
  · rw [List.map_append, List.pairwise_append]
    refine ⟨h.sessions, List.pairwise_singleton _ _, fun n hn m hm => ?_⟩
    obtain ⟨p, hp, rfl⟩ := List.mem_map.mp hn
    rw [List.map_singleton, List.mem_singleton] at hm
    have hsession := h.session_le p hp
    omega
  · intro p hp
    rcases List.mem_append.mp hp with hp | hp
    · exact Nat.le_succ_of_le (h.session_le p hp)
    · rw [List.mem_singleton.mp hp]
  · rw [hactive]
    exact Nat.succ_le_succ hle

/-- **One call starts at most the next era.** -/
theorem step (h : Bonded c starts) {call : Call T} (hrange : call.SessionInRange c) :
    Bonded (c.step call).1
      (starts ++ eraStarted c.state.timeline.activeIndex (c.step call).1) := by
  by_cases hrotate : ∃ ctx, call = .rotate ctx
  · obtain ⟨ctx, rfl⟩ := hrotate
    show Bonded (c.rotate ctx).1 (starts ++ eraStarted _ (c.rotate ctx).1)
    unfold Chain.rotate
    rcases hrun : rotateSession ctx c.session c.state with ⟨_ | os, s'⟩
    · exact h.same c rfl (Nat.le_refl _)
    · have hle := h.active_le
      have hlt : c.session + 2 < 2 ^ 32 := hrange
      rcases rotateSession_bonding ctx rfl (by omega) hrun with hsame | hnext
      · exact h.same ⟨c.session + 1, s'⟩ hsame (Nat.le_succ _)
      · exact h.next hnext
  · rw [c.step_between fun ctx hcall => hrotate ⟨ctx, hcall⟩]
    exact h.same _ (c.apply_keeps (between_keeps_bonding call)) (c.apply_session _).ge

end Bonded

/-- The genesis starts era 0 in session 0, or no era. -/
theorem genesis_bonded (g : Genesis T) {c₀ : Chain T} {os₀ : List (Observed AccountId)}
    (hchain : g.chain = some (c₀, os₀)) : Bonded c₀ (eraStarted none c₀) := by
  obtain ⟨s₂, hblank, hstart⟩ := Genesis.starts hchain (planning_keeps_bonding g.ctx)
  obtain ⟨hsession, -⟩ := Genesis.hooks hchain
  obtain ⟨session, s⟩ := c₀
  obtain rfl : session = 0 := hsession
  have hactive : s₂.timeline.activeIndex = none := congrArg Prod.fst hblank
  have hbonded : s₂.timeline.bonded = [] := congrArg Prod.snd hblank
  have hera : following s₂.timeline.activeIndex = 0 := by rw [hactive]; rfl
  rcases startSession_bonding g.ctx hera (by decide) hstart with hsame | hnext
  · have hactive₃ : s.timeline.activeIndex = none := (congrArg Prod.fst hsame).trans hactive
    have hbonded₃ : s.timeline.bonded = [] := (congrArg Prod.snd hsame).trans hbonded
    have hstarted : eraStarted none (⟨0, s⟩ : Chain T) = [] := if_pos hactive₃
    rw [hstarted]
    refine ⟨hbonded₃, ?_, List.Pairwise.nil, fun p hp => absurd hp List.not_mem_nil, ?_⟩
    · rw [hactive₃]
      rfl
    · rw [hactive₃]
      exact Nat.zero_le _
  · have hactive₃ : s.timeline.activeIndex = some 0 := congrArg Prod.fst hnext
    have hbonded₃ : s.timeline.bonded = [(0, 0)] := by
      have hsnd : s.timeline.bonded = s₂.timeline.bonded ++ [(0, 0)] := congrArg Prod.snd hnext
      rw [hsnd, hbonded]
      rfl
    have hstarted : eraStarted none (⟨0, s⟩ : Chain T) = [(0, 0)] := by
      unfold eraStarted
      dsimp only
      rw [hactive₃]
      rfl
    rw [hstarted]
    refine ⟨hbonded₃, ?_, List.pairwise_singleton _ _, fun p hp => ?_, ?_⟩
    · rw [hactive₃]
      rfl
    · rw [List.mem_singleton.mp hp]
    · rw [hactive₃]
      exact Nat.le_refl _

/-- **All eras that were started are bonded, in every run.** -/
theorem run_bonded (g : Genesis T) {c₀ : Chain T} {os₀ : List (Observed AccountId)}
    (hchain : g.chain = some (c₀, os₀)) (calls : List (Call T))
    (hcalls : (startsMachine T).Along Call.SessionInRange calls c₀) :
    Bonded ((startsMachine T).run calls c₀)
      (eraStarted none c₀ ++ (startsMachine T).log calls c₀) := by
  refine (startsMachine T).invariant (I := fun _ c starts => Bonded c (eraStarted none c₀ ++ starts))
    ?_ ?_ calls hcalls
  · rw [List.append_nil]
    exact genesis_bonded g hchain
  · intro _ c starts call hc hrange
    have hstep := hc.step hrange
    rwa [List.append_assoc] at hstep

/-! ## The window -/

/-- The eras of the last `bondingDuration` and the active one, among those that were started. -/
def window (bondingDuration activeEra : Nat) (starts : List (Nat × Nat)) : List (Nat × Nat) :=
  starts.filter fun p => activeEra - bondingDuration ≤ p.1

/-- The bonded eras are the window, and a report counts when its session is not before it. -/
structure KeepsWindow (activeEra : Nat) (starts : List (Nat × Nat)) (s : State T) : Prop where
  bonded : s.bondedEras = window T.bondingDuration activeEra starts
  reports : ∀ (kind : Kind) (offenceSession : Nat) (offenders : List AccountId)
    (reported : Except OffenceError Unit),
    reportOffence kind offenceSession offenders reported s =
      if Reaches (window T.bondingDuration activeEra starts) offenceSession then
        forwardReport kind offenders reported s
      else discardReport offenceSession s

/-- The window of all eras reaches back to era 0. -/
theorem window_eq_iff {bondingDuration activeEra : Nat} {starts : List (Nat × Nat)}
    (heras : starts.map Prod.fst = List.range (activeEra + 1)) :
    starts = window bondingDuration activeEra starts ↔ activeEra ≤ bondingDuration := by
  have hmem : 0 ∈ starts.map Prod.fst := by
    rw [heras]
    exact List.mem_range.mpr (Nat.succ_pos _)
  obtain ⟨p, hp, hzero⟩ := List.mem_map.mp hmem
  unfold window
  constructor
  · intro h
    rw [h, List.mem_filter, hzero, decide_eq_true_eq] at hp
    omega
  · intro hle
    rw [eq_comm, List.filter_eq_self]
    intro q _
    rw [decide_eq_true_eq]
    omega

theorem keepsWindow_iff {s : State T} {starts : List (Nat × Nat)} {activeEra : Nat}
    (hbonded : s.bondedEras = starts) (heras : starts.map Prod.fst = List.range (activeEra + 1)) :
    KeepsWindow activeEra starts s ↔ activeEra ≤ T.bondingDuration := by
  rw [← window_eq_iff heras]
  constructor
  · exact fun h => hbonded.symm.trans h.bonded
  · intro h
    have hwindow := hbonded.trans h
    refine ⟨hwindow, fun kind offenceSession offenders reported => ?_⟩
    rw [reportOffence_apply, hwindow]

/--
**The bonding window.** In every run the eras were started one after the other, each in a later
session than the one before. `BondedEras` and the filter of the reports keep to the window as long
as the window reaches back to era 0, and no longer.
-/
theorem bonding_window_iff {T : Config AccountId} (g : Genesis T) {c₀ : Chain T}
    {os₀ : List (Observed AccountId)} (hchain : g.chain = some (c₀, os₀)) (calls : List (Call T))
    (hcalls : (startsMachine T).Along Call.SessionInRange calls c₀) {activeEra : ActiveEraInfo}
    (hactive : ((startsMachine T).run calls c₀).state.activeEra = some activeEra) :
    let starts := eraStarted none c₀ ++ (startsMachine T).log calls c₀
    starts.map Prod.fst = List.range (activeEra.index + 1) ∧
      (starts.map Prod.snd).Pairwise (· < ·) ∧
      (KeepsWindow activeEra.index starts ((startsMachine T).run calls c₀).state ↔
        activeEra.index ≤ T.bondingDuration) := by
  intro starts
  have h := run_bonded g hchain calls hcalls
  have hindex : ((startsMachine T).run calls c₀).state.timeline.activeIndex
      = some activeEra.index := by
    rw [State.timeline_activeIndex, hactive]
    rfl
  have heras := h.eras
  rw [hindex] at heras
  exact ⟨heras, h.sessions, keepsWindow_iff h.bonded heras⟩

/-- With a bonding duration of one era, the window is kept in era 1, and not in era 2. -/
theorem bonding_window_of_three_eras :
    ∃ c₀ os₀ first third, Sample.genesis.chain = some (c₀, os₀) ∧
      (((startsMachine Sample.config).run (Sample.calls.take 5) c₀).state.activeEra = some first ∧
        first.index = 1 ∧
        KeepsWindow first.index
          (eraStarted none c₀ ++ (startsMachine Sample.config).log (Sample.calls.take 5) c₀)
          ((startsMachine Sample.config).run (Sample.calls.take 5) c₀).state) ∧
      ((startsMachine Sample.config).run Sample.calls c₀).state.activeEra = some third ∧
      third.index = 2 ∧
      ¬ KeepsWindow third.index
        (eraStarted none c₀ ++ (startsMachine Sample.config).log Sample.calls c₀)
        ((startsMachine Sample.config).run Sample.calls c₀).state := by
  have hkept := bonding_window_iff Sample.genesis rfl (Sample.calls.take 5) (by decide) rfl
  have hleft := bonding_window_iff Sample.genesis rfl Sample.calls (by decide) rfl
  exact ⟨_, _, _, _, rfl, ⟨rfl, rfl, hkept.2.2.mpr (by decide)⟩, rfl, rfl,
    fun hkeeps => absurd (hleft.2.2.mp hkeeps) (by decide)⟩

namespace Sample

/-- The 16 bytes of `im-online:offlin`. -/
def kind : Kind := [105, 109, 45, 111, 110, 108, 105, 110, 101, 58, 111, 102, 102, 108, 105, 110]

end Sample

/-- Era 0 is still bonded when era 2 is active, and an offence of session 0 is counted. -/
theorem bonded_era_outlives_window :
    ∃ c₀ os₀, Sample.genesis.chain = some (c₀, os₀) ∧
      ((startsMachine Sample.config).run Sample.calls c₀).state.activeEra.map ActiveEraInfo.index
        = some 2 ∧
      ((startsMachine Sample.config).run Sample.calls c₀).state.bondedEras
        = [(0, 0), (1, 2), (2, 4)] ∧
      window Sample.config.bondingDuration 2
        (eraStarted none c₀ ++ (startsMachine Sample.config).log Sample.calls c₀)
        = [(1, 2), (2, 4)] ∧
      (reportOffence Sample.kind 0 [7] (.ok ())
        ((startsMachine Sample.config).run Sample.calls c₀).state).2.offenders.lookup
          (Sample.kind, 7) = some 1 :=
  ⟨_, _, rfl, by decide, by decide, by decide, by decide⟩

end OctopusPallets.Lpos
