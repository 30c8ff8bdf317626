import TestBeam.Proofs.Executor.Blueprints
import TestBeam.Stage.Builtin

/-!
# The built-in environment

The environment of the built-in stages has the modules of their registry, so it plans what the registry
plans.
-/

namespace TestBeam.Stage

variable {m : Type → Type} [Monad m] [FileStore m]

theorem environment_registry (clock : m Float) :
    (environment clock).registry = registry.mapFactories fun build setup => pure (build setup) := by
  unfold registry
  rw [Registry.mapFactories_ofList]
  rfl

theorem plan_environment (c : Configuration) (clock : m Float) :
    c.plan (environment clock).registry = c.plan registry := by
  rw [environment_registry, Configuration.plan_mapFactories]

end TestBeam.Stage
