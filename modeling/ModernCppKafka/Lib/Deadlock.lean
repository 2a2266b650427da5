/-
  ModernCppKafka.Lib.Deadlock — processes that wait for an environment.

  `env` are the steps of the surroundings and `proc` those of the processes.  A state is `Stuck`
  when, whatever the environment does next, no process can take a step.
-/
import ModernCppKafka.Lib.Run

namespace ModernCppKafka.Lib.Deadlock

open ModernCppKafka.Lib.Run

variable {S E P : Type*} (env : S → E → Option S) (proc : S → P → Option S)

/-- Whatever the environment does, no process can move. -/
def Stuck (s : S) : Prop := ∀ es s', run env s es = some s' → ∀ p, proc s' p = none

variable {env proc}

/-- **The blocking rule**: what the environment preserves and no process can leave is stuck. -/
theorem stuck_of_blocked {Blocked : S → Prop}
    (henv : ∀ s e s', Blocked s → env s e = some s' → Blocked s')
    (hproc : ∀ s p, Blocked s → proc s p = none) {s : S} (h : Blocked s) : Stuck env proc s :=
  fun _ _ hrun p => hproc _ p (run_invariant henv h hrun)

theorem not_stuck_of_step {s s' : S} {p : P} (h : proc s p = some s') : ¬ Stuck env proc s :=
  fun hstuck => by simpa [h] using hstuck [] s rfl p

/-- The environment makes a step possible. -/
theorem not_stuck_of_env {s s' : S} {e : E} (h : env s e = some s')
    (h' : ¬ Stuck env proc s') : ¬ Stuck env proc s :=
  fun hstuck => h' fun es t hrun => hstuck (e :: es) t ((run_cons_eq_some env).mpr ⟨s', h, hrun⟩)

end ModernCppKafka.Lib.Deadlock
