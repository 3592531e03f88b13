import ExprLang.Library.Basic

/-!
# The history of a registry

A registry is filled step by step: with single definitions, with plain functions, by decorators and
with the whole library, and it can be emptied again.

* `RegistryStep.apply` — one step.
* `Registry.ofHistory` — what a sequence of steps makes of an empty registry.
-/

namespace ExprLang

inductive RegistryStep where
  | register (definition : FunctionDefinition)
  | registerCallable (name : Text) (implementation : HostFunction) (qualifier : Option Text)
      (description : Text)
  | decorate (name : Text) (qualifier : Option Text) (metadata : FunctionMetadata)
      (implementation : HostFunction)
  | addLibrary (qualifier : Option Text)
  | clear

def RegistryStep.apply (registry : Registry) : RegistryStep → Registry
  | .register definition => registry.register definition
  | .registerCallable name implementation qualifier description =>
    registry.registerCallable name implementation qualifier description
  | .decorate name qualifier metadata implementation =>
    (registry.decorate name qualifier metadata implementation).2
  | .addLibrary qualifier => registry.addLibrary qualifier
  | .clear => registry.clear

/-- The registry after these steps, which start with none registered. -/
def Registry.ofHistory (steps : List RegistryStep) : Registry :=
  steps.foldl RegistryStep.apply .empty

end ExprLang
