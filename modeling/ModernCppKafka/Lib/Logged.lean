/-
  ModernCppKafka.Lib.Logged — computations that log as they go and may end in an exception.

  The lines logged before an exception stay logged.  Two computations are compared by what they
  log and by how they end: `Agree R` relates computations that end alike, in related values.

  The rules:
    * `bind_eq_ok`                   — a sequence returns when its parts do;
    * `Agree.logs_bind_eq_iff`       — what is logged in the end, after computations that agree;
    * `Agree.logs_lift_bind_eq_iff`  — what is logged after a beginning that logs nothing.
-/
import Mathlib.Data.List.Basic

namespace ModernCppKafka.Lib.Logged

/-- What was logged, and a value or the exception that ended it. -/
structure WithLog (L ε α : Type) where
  logs : List L
  result : Except ε α

/-- What a mapped value was made of. -/
theorem map_eq_ok {ε α β : Type} {x : Except ε α} {f : α → β} {b : β} :
    x.map f = .ok b ↔ ∃ a, x = .ok a ∧ f a = b := by
  cases x with
  | error e =>
    constructor
    · intro h
      cases h
    · rintro ⟨a, h, -⟩
      cases h
  | ok a =>
    constructor
    · intro h
      exact ⟨a, rfl, Except.ok.inj h⟩
    · rintro ⟨_, ⟨⟩, rfl⟩
      rfl

namespace WithLog

variable {L ε α β γ δ : Type}

instance monad : Monad (WithLog L ε) where
  pure a := ⟨[], .ok a⟩
  bind x f :=
    match x.result with
    | .error e => ⟨x.logs, .error e⟩
    | .ok a => ⟨x.logs ++ (f a).logs, (f a).result⟩

/-- Log these lines. -/
def log (lines : List L) : WithLog L ε Unit := ⟨lines, .ok ()⟩

/-- A computation that logs nothing. -/
def ofExcept (x : Except ε α) : WithLog L ε α := ⟨[], x⟩

instance monadLift : MonadLift (Except ε) (WithLog L ε) := ⟨ofExcept⟩

@[simp] theorem logs_pure (a : α) : (pure a : WithLog L ε α).logs = [] := rfl

@[simp] theorem logs_liftM (x : Except ε α) : (liftM x : WithLog L ε α).logs = [] := rfl

@[simp] theorem result_liftM (x : Except ε α) : (liftM x : WithLog L ε α).result = x := rfl

theorem bind_of_ok {x : WithLog L ε α} {a : α} (h : x.result = .ok a) (f : α → WithLog L ε β) :
    x >>= f = ⟨x.logs ++ (f a).logs, (f a).result⟩ := by
  show (match x.result with
    | .error e => (⟨x.logs, .error e⟩ : WithLog L ε β)
    | .ok a => ⟨x.logs ++ (f a).logs, (f a).result⟩) = _
  rw [h]

theorem bind_of_error {x : WithLog L ε α} {e : ε} (h : x.result = .error e)
    (f : α → WithLog L ε β) : x >>= f = ⟨x.logs, .error e⟩ := by
  show (match x.result with
    | .error e => (⟨x.logs, .error e⟩ : WithLog L ε β)
    | .ok a => ⟨x.logs ++ (f a).logs, (f a).result⟩) = _
  rw [h]

/-- A sequence returns when its parts do. -/
theorem bind_eq_ok {x : WithLog L ε α} {f : α → WithLog L ε β} {b : β} :
    (x >>= f).result = .ok b ↔ ∃ a, x.result = .ok a ∧ (f a).result = .ok b := by
  cases hx : x.result with
  | error e => simp [bind_of_error hx]
  | ok a => simp [bind_of_ok hx]

/-! ## §1. Two computations. -/

/-- Both return, related values, or both throw. -/
def Agree (R : α → β → Prop) (x : WithLog L ε α) (y : WithLog L ε β) : Prop :=
  match x.result, y.result with
  | .ok a, .ok b => R a b
  | .error _, .error _ => True
  | _, _ => False

theorem Agree.cases {R : α → β → Prop} {x : WithLog L ε α} {y : WithLog L ε β} (h : Agree R x y) :
    (∃ a b, x.result = .ok a ∧ y.result = .ok b ∧ R a b) ∨
      (∃ e e', x.result = .error e ∧ y.result = .error e') := by
  rw [Agree] at h
  cases hx : x.result with
  | error e =>
    cases hy : y.result with
    | error e' => exact Or.inr ⟨e, e', rfl, rfl⟩
    | ok b => simp [hx, hy] at h
  | ok a =>
    cases hy : y.result with
    | error e' => simp [hx, hy] at h
    | ok b =>
      simp only [hx, hy] at h
      exact Or.inl ⟨a, b, rfl, rfl, h⟩

theorem agree_of_ok {R : α → β → Prop} {x : WithLog L ε α} {y : WithLog L ε β} {a : α} {b : β}
    (hx : x.result = .ok a) (hy : y.result = .ok b) (h : R a b) : Agree R x y := by
  simpa [Agree, hx, hy] using h

theorem agree_of_error {R : α → β → Prop} {x : WithLog L ε α} {y : WithLog L ε β} {e e' : ε}
    (hx : x.result = .error e) (hy : y.result = .error e') : Agree R x y := by
  simp [Agree, hx, hy]

/-- **A common end**: what agreeing computations go on to log does not tell them apart, if it is
the same for related values. -/
theorem Agree.logs_bind_eq_iff {R : α → β → Prop} {x : WithLog L ε α} {y : WithLog L ε β}
    {f : α → WithLog L ε γ} {g : β → WithLog L ε δ} (h : Agree R x y)
    (hfg : ∀ a b, R a b → (f a).logs = (g b).logs) :
    (x >>= f).logs = (y >>= g).logs ↔ x.logs = y.logs := by
  rcases h.cases with ⟨a, b, hx, hy, hab⟩ | ⟨e, e', hx, hy⟩
  · rw [bind_of_ok hx, bind_of_ok hy, hfg a b hab]
    exact List.append_left_inj _
  · rw [bind_of_error hx, bind_of_error hy]

/-- **A silent beginning**: what comes after it is compared when it returns. -/
theorem Agree.logs_lift_bind_eq_iff {R : α → β → Prop} {x : Except ε α} {y : Except ε β}
    {f : α → WithLog L ε γ} {g : β → WithLog L ε δ}
    (h : Agree R (liftM x : WithLog L ε α) (liftM y : WithLog L ε β)) :
    ((liftM x : WithLog L ε α) >>= f).logs = ((liftM y : WithLog L ε β) >>= g).logs ↔
      ∀ a b, x = .ok a → y = .ok b → (f a).logs = (g b).logs := by
  rcases h.cases with ⟨a, b, hx, hy, -⟩ | ⟨e, e', hx, hy⟩
  · rw [bind_of_ok hx, bind_of_ok hy]
    rw [result_liftM] at hx hy
    subst hx hy
    constructor
    · rintro hlogs _ _ ⟨⟩ ⟨⟩
      exact hlogs
    · intro hlogs
      exact hlogs a b rfl rfl
  · rw [bind_of_error hx, bind_of_error hy]
    rw [result_liftM] at hx hy
    subst hx hy
    refine iff_of_true rfl ?_
    rintro _ _ ⟨⟩

end WithLog

end ModernCppKafka.Lib.Logged
