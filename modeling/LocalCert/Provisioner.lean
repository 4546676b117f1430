import LocalCert.Strategy.Manual
import LocalCert.Strategy.Trusted

/-
  Provisioning: the strategies are tried in order until one
  issues material.  The failure of the last one, or one that
  no strategy may follow, is the failure of the whole.

  Key definitions include:
    * `Provisioner`
    * `Provisioner.ofStrategies`
    * `Provisioner.provision`
    * `provision`
-/

------------------------------------------------------------
-- Provisioners
------------------------------------------------------------

namespace LocalCert

/- The strategies to try, and the one to try last. -/
structure Provisioner where
  fallible : List Strategy
  last : Strategy

namespace Provisioner

/- The hostname if none is given. -/
def defaultHostname : String := "localhost"

/- At least one strategy makes a provisioner. -/
def ofStrategies
    (strategies : List Strategy) :
    Except Failure Provisioner :=
  match strategies.getLast? with
  | none => .error .noStrategy
  | some last => .ok ⟨strategies.dropLast, last⟩

/-
  The trusted tool first and the three steps after it, both
  with the configuration found in the world.
-/
def standard
    (config : World → Config) : Provisioner :=
  ⟨[.trusted config], .manual config⟩

------------------------------------------------------------
-- Fallback
------------------------------------------------------------

/- Try strategies in order, and one last. -/
def tryEach
    (hostname : String)
    (last : Strategy) : List Strategy → Act Material
  | [] => last.issue hostname
  | s :: ss =>
      Act.orElseWith (s.issue hostname) (fun f =>
        if f.isRecoverable then do
          Act.report (.fellBack s.name hostname f)
          tryEach hostname last ss
        else
          Act.fail f)

/- Issue material for a hostname that can be a subject. -/
def provision
    (p : Provisioner)
    (hostname : String) : Act Material :=
  match Hostname.validate hostname with
  | .error d => Act.fail (.hostname d)
  | .ok hostname => tryEach hostname p.last p.fallible

end Provisioner

/-
  Issue material with a provisioner of its own for the given
  configuration.
-/
def provision
    (hostname : String)
    (config : Config) : Act Material :=
  (Provisioner.standard (fun _ => config)).provision hostname

end LocalCert
