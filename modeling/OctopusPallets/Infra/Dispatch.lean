import Mathlib.Tactic.Common

/-!
# Calls over a storage

A call reads and writes a storage and ends with a value or an error. An error does not undo the
writes made before it: that is what `transactional` is for. Keeping the storage of a failed call
makes the two kinds of failure different in the model, as they are on chain.
-/

namespace Infra

/-- A call over the storage `σ` that returns `α` or fails with `ε`. -/
def Dispatch (ε σ α : Type) : Type := σ → Except ε α × σ

namespace Dispatch

variable {ε ε' σ τ α β : Type}

protected def pure (a : α) : Dispatch ε σ α := fun s => (.ok a, s)

protected def bind (x : Dispatch ε σ α) (f : α → Dispatch ε σ β) : Dispatch ε σ β := fun s =>
  match x s with
  | (.ok a, s') => f a s'
  | (.error e, s') => (.error e, s')

instance : Monad (Dispatch ε σ) where
  pure := Dispatch.pure
  bind := Dispatch.bind

/-- Fail with `e`. -/
def fail (e : ε) : Dispatch ε σ α := fun s => (.error e, s)

/-- Read a part of the storage. -/
def load (f : σ → α) : Dispatch ε σ α := fun s => (.ok (f s), s)

/-- Write the storage. -/
def store (f : σ → σ) : Dispatch ε σ Unit := fun s => (.ok (), f s)

/-- `ensure!(b, e)`. -/
def ensure (b : Bool) (e : ε) : Dispatch ε σ Unit := fun s =>
  if b then (.ok (), s) else (.error e, s)

/-- `o.ok_or(e)?`. -/
def okOr (o : Option α) (e : ε) : Dispatch ε σ α := fun s =>
  match o with
  | some a => (.ok a, s)
  | none => (.error e, s)

/-- `x.map_err(f)?`. -/
def mapErr (f : ε → ε') (x : Dispatch ε σ α) : Dispatch ε' σ α := fun s =>
  match x s with
  | (.ok a, s') => (.ok a, s')
  | (.error e, s') => (.error (f e), s')

/-- Take the result of `x` as a value: the caller goes on after an error, with the storage as `x`
left it. -/
def attempt (x : Dispatch ε σ α) : Dispatch ε' σ (Except ε α) := fun s => (.ok (x s).1, (x s).2)

/-- Run a call of another storage on the part of the storage that holds it. -/
def zoom (get : σ → τ) (put : τ → σ → σ) (x : Dispatch ε τ α) : Dispatch ε σ α := fun s =>
  ((x (get s)).1, put (x (get s)).2 s)

/-- `#[transactional]`: a failure restores the storage. -/
def transactional (x : Dispatch ε σ α) : Dispatch ε σ α := fun s =>
  match x s with
  | (.ok a, s') => (.ok a, s')
  | (.error e, _) => (.error e, s)

/-! ## Evaluation -/

@[simp] theorem pure_apply (a : α) (s : σ) : (pure a : Dispatch ε σ α) s = (.ok a, s) := rfl

theorem bind_apply (x : Dispatch ε σ α) (f : α → Dispatch ε σ β) (s : σ) :
    (x >>= f) s = match x s with
      | (.ok a, s') => f a s'
      | (.error e, s') => (.error e, s') := rfl

@[simp] theorem fail_apply (e : ε) (s : σ) : (fail e : Dispatch ε σ α) s = (.error e, s) := rfl

@[simp] theorem load_apply (f : σ → α) (s : σ) :
    (load f : Dispatch ε σ α) s = (.ok (f s), s) := rfl

@[simp] theorem store_apply (f : σ → σ) (s : σ) :
    (store f : Dispatch ε σ Unit) s = (.ok (), f s) := rfl

@[simp] theorem load_bind (f : σ → α) (g : α → Dispatch ε σ β) (s : σ) :
    (load f >>= g) s = g (f s) s := rfl

@[simp] theorem store_bind (f : σ → σ) (g : Unit → Dispatch ε σ β) (s : σ) :
    (store f >>= g) s = g () (f s) := rfl

@[simp] theorem fail_bind (e : ε) (g : α → Dispatch ε σ β) (s : σ) :
    (fail e >>= g) s = (.error e, s) := rfl

@[simp] theorem attempt_bind (x : Dispatch ε σ α) (g : Except ε α → Dispatch ε' σ β) (s : σ) :
    (attempt x >>= g) s = g (x s).1 (x s).2 := rfl

@[simp] theorem pure_bind (a : α) (g : α → Dispatch ε σ β) (s : σ) :
    ((pure a : Dispatch ε σ α) >>= g) s = g a s := rfl

theorem ensure_bind (b : Bool) (e : ε) (g : Unit → Dispatch ε σ β) (s : σ) :
    (ensure b e >>= g) s = if b then g () s else (.error e, s) := by
  cases b <;> rfl

@[simp] theorem okOr_some (a : α) (e : ε) (s : σ) :
    (okOr (some a) e : Dispatch ε σ α) s = (.ok a, s) := rfl

/-- A call that ends with a value hands it to the next one. -/
theorem bind_of_ok {x : Dispatch ε σ α} {f : α → Dispatch ε σ β} {s s' : σ} {a : α}
    (h : x s = (.ok a, s')) : (x >>= f) s = f a s' := by
  rw [bind_apply, h]

/-- A call that fails ends the whole. -/
theorem bind_of_error {x : Dispatch ε σ α} {f : α → Dispatch ε σ β} {s s' : σ} {e : ε}
    (h : x s = (.error e, s')) : (x >>= f) s = (.error e, s') := by
  rw [bind_apply, h]

/-- A call on a part of the storage ends as it does there. -/
theorem zoom_of_eq {get : σ → τ} {put : τ → σ → σ} {x : Dispatch ε τ α} {s : σ} {r : Except ε α}
    {t : τ} (h : x (get s) = (r, t)) : zoom get put x s = (r, put t s) := by
  unfold zoom
  rw [h]

/-- A call followed by another succeeds exactly when both do, one after the other. -/
theorem bind_eq_ok {x : Dispatch ε σ α} {f : α → Dispatch ε σ β} {s s' : σ} {b : β} :
    (x >>= f) s = (.ok b, s') ↔ ∃ a t, x s = (.ok a, t) ∧ f a t = (.ok b, s') := by
  rw [bind_apply]
  rcases hx : x s with ⟨_ | a, t⟩ <;> simp

theorem pure_eq_ok {a b : α} {s s' : σ} :
    (pure a : Dispatch ε σ α) s = (.ok b, s') ↔ b = a ∧ s' = s := by
  rw [pure_apply, Prod.mk.injEq, Except.ok.injEq, eq_comm, eq_comm (a := s)]

theorem load_eq_ok {f : σ → α} {b : α} {s s' : σ} :
    (load f : Dispatch ε σ α) s = (.ok b, s') ↔ b = f s ∧ s' = s := by
  rw [load_apply, Prod.mk.injEq, Except.ok.injEq, eq_comm, eq_comm (a := s)]

theorem store_eq_ok {f : σ → σ} {u : Unit} {s s' : σ} :
    (store f : Dispatch ε σ Unit) s = (.ok u, s') ↔ s' = f s := by
  rw [store_apply, Prod.mk.injEq, eq_comm (a := f s)]
  exact and_iff_right rfl

theorem ensure_eq_ok {b : Bool} {e : ε} {u : Unit} {s s' : σ} :
    ensure b e s = (.ok u, s') ↔ b = true ∧ s' = s := by
  unfold ensure
  cases b <;> simp [eq_comm]

theorem okOr_eq_ok {o : Option α} {e : ε} {s s' : σ} {a : α} :
    okOr o e s = (.ok a, s') ↔ o = some a ∧ s' = s := by
  unfold okOr
  cases o <;> simp [eq_comm]

theorem mapErr_eq_ok {f : ε → ε'} {x : Dispatch ε σ α} {s s' : σ} {a : α} :
    mapErr f x s = (.ok a, s') ↔ x s = (.ok a, s') := by
  unfold mapErr
  rcases hx : x s with ⟨_ | a', t⟩ <;> simp

theorem mapErr_of_error {f : ε → ε'} {x : Dispatch ε σ α} {s s' : σ} {e : ε}
    (h : x s = (.error e, s')) : mapErr f x s = (.error (f e), s') := by
  unfold mapErr
  rw [h]

theorem zoom_eq_ok {get : σ → τ} {put : τ → σ → σ} {x : Dispatch ε τ α} {s s' : σ} {a : α} :
    zoom get put x s = (.ok a, s') ↔ ∃ t, x (get s) = (.ok a, t) ∧ s' = put t s := by
  unfold zoom
  rcases hx : x (get s) with ⟨_ | a', t⟩ <;> simp [eq_comm]

/-- A call followed by another fails exactly when the first does, or the second does where the first
leaves off. -/
theorem bind_eq_error {x : Dispatch ε σ α} {f : α → Dispatch ε σ β} {s s' : σ} {e : ε} :
    (x >>= f) s = (.error e, s') ↔
      x s = (.error e, s') ∨ ∃ a t, x s = (.ok a, t) ∧ f a t = (.error e, s') := by
  rw [bind_apply]
  rcases hx : x s with ⟨_ | a, t⟩ <;> simp

theorem load_ne_error {f : σ → α} {s s' : σ} {e : ε} :
    (load f : Dispatch ε σ α) s ≠ (.error e, s') := nofun

theorem store_ne_error {f : σ → σ} {s s' : σ} {e : ε} :
    (store f : Dispatch ε σ Unit) s ≠ (.error e, s') := nofun

theorem okOr_eq_error {o : Option α} {e e' : ε} {s s' : σ} :
    okOr o e s = (.error e', s') ↔ o = none ∧ e' = e ∧ s' = s := by
  unfold okOr
  cases o <;> simp [eq_comm]

theorem zoom_eq_error {get : σ → τ} {put : τ → σ → σ} {x : Dispatch ε τ α} {s s' : σ} {e : ε} :
    zoom get put x s = (.error e, s') ↔ ∃ t, x (get s) = (.error e, t) ∧ s' = put t s := by
  unfold zoom
  rcases hx : x (get s) with ⟨_ | a, t⟩ <;> simp [eq_comm]

/-- A call succeeds when it ends with a value, whatever the storage it leaves. -/
theorem fst_eq_ok {x : Dispatch ε σ α} {s : σ} {a : α} :
    (x s).1 = .ok a ↔ ∃ s', x s = (.ok a, s') := by
  constructor
  · exact fun h => ⟨(x s).2, Prod.ext h rfl⟩
  · rintro ⟨s', h⟩
    rw [h]

/-! ## Rollback -/

theorem transactional_ok {x : Dispatch ε σ α} {s s' : σ} {a : α} (h : x s = (.ok a, s')) :
    transactional x s = (.ok a, s') := by
  unfold transactional
  rw [h]

theorem transactional_error {x : Dispatch ε σ α} {s t : σ} {e : ε} (h : x s = (.error e, t)) :
    transactional x s = (.error e, s) := by
  unfold transactional
  rw [h]

theorem transactional_eq_ok {x : Dispatch ε σ α} {s s' : σ} {a : α} :
    transactional x s = (.ok a, s') ↔ x s = (.ok a, s') := by
  unfold transactional
  rcases hx : x s with ⟨_ | a', t⟩ <;> simp

/-- **A transactional call that fails leaves the storage as it was.** -/
theorem transactional_state_of_error {x : Dispatch ε σ α} {s : σ} {e : ε}
    (h : (transactional x s).1 = .error e) : (transactional x s).2 = s := by
  unfold transactional at h ⊢
  rcases hx : x s with ⟨_ | a, t⟩
  · rfl
  · rw [hx] at h
    cases h

/-! ## Frames -/

/-- Whatever the outcome, `x` leaves what `f` reads as it was. -/
def Keeps (f : σ → τ) (x : Dispatch ε σ α) : Prop := ∀ s, f (x s).2 = f s

namespace Keeps

variable {f : σ → τ}

theorem pure (a : α) : Keeps f (pure a : Dispatch ε σ α) := fun _ => rfl

theorem fail (e : ε) : Keeps f (fail e : Dispatch ε σ α) := fun _ => rfl

theorem load (g : σ → α) : Keeps f (load g : Dispatch ε σ α) := fun _ => rfl

theorem store {g : σ → σ} (h : ∀ s, f (g s) = f s) : Keeps f (store g : Dispatch ε σ Unit) := h

theorem ensure (b : Bool) (e : ε) : Keeps f (ensure b e) := by
  intro s
  cases b <;> rfl

theorem okOr (o : Option α) (e : ε) : Keeps f (okOr o e) := by
  intro s
  cases o <;> rfl

theorem bind {x : Dispatch ε σ α} {g : α → Dispatch ε σ β} (hx : Keeps f x)
    (hg : ∀ a, Keeps f (g a)) : Keeps f (x >>= g) := by
  intro s
  have hs := hx s
  rw [bind_apply]
  rcases h : x s with ⟨_ | a, s'⟩ <;> rw [h] at hs
  · exact hs
  · exact (hg a s').trans hs

theorem attempt {x : Dispatch ε σ α} (hx : Keeps f x) :
    Keeps f (attempt x : Dispatch ε' σ (Except ε α)) := hx

theorem mapErr {g : ε → ε'} {x : Dispatch ε σ α} (hx : Keeps f x) : Keeps f (mapErr g x) := by
  intro s
  have hs := hx s
  unfold Dispatch.mapErr
  rcases h : x s with ⟨_ | a, s'⟩ <;> rwa [h] at hs

/-- Writes to one part of the storage are not seen in another. -/
theorem zoom {υ : Type} {get : σ → υ} {put : υ → σ → σ} (h : ∀ u s, f (put u s) = f s)
    (x : Dispatch ε υ α) : Keeps f (zoom get put x) := fun s => h _ s

end Keeps

end Dispatch

end Infra
