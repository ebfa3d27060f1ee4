import Byoh.Foundation.WorkQueue
import Byoh.Model.System

/-!
# The agents behind their watches

`HostReconciler.SetupWithManager`: an agent watches its host, and its event filter is
`predicates.ResourceNotPaused`. A reconcile that returns an error is tried again.
-/

set_option autoImplicit false

namespace Byoh.Model.HostReconciler

open Byoh.Foundation

/-- `predicates.ResourceNotPaused`. -/
def resourceNotPaused : PredicateFuncs ByoHost where
  createFunc := some fun object => !object.carries .paused
  updateFunc := some fun _ objectNew => !objectNew.carries .paused
  deleteFunc := some fun object => !object.carries .paused

/-- What others do to the objects that an agent reads. -/
inductive HostAction where
  /-- Create a host, or write a new version of it, such as a paused one. -/
  | put (h : ByoHost)
  | delete (key : NamespacedName)
  /-- The informer lists the host again. -/
  | resync (key : NamespacedName)
  /-- Everything but the hosts changes. -/
  | rest (w : World)

/-- An action of others and its event; `none` when it is not possible. -/
def hostStep : HostAction → Site → Option (Site × List (WatchEvent ByoHost))
  | .put h, s =>
      some ({ s with world := s.world.setHost h.key h },
        match s.world.hosts.lookup h.key with
        | none => [.create h]
        | some old => [.update old h])
  | .delete k, s =>
      (s.world.hosts.lookup k).map fun h =>
        ({ s with world := { s.world with hosts := s.world.hosts.erase k } }, [.delete h])
  | .resync k, s => (s.world.hosts.lookup k).map fun h => (s, [.update h h])
  | .rest w, s => some ({ s with world := { w with hosts := s.world.hosts } }, [])

/-- Something in the host differs. -/
def hostDiffers (h h' : ByoHost) : Bool :=
  h.conditions ≠ h'.conditions || h.changed h' || h.statusChanged h'

/-- The event of the patch of a reconcile. -/
def patchEvent (old new : Option ByoHost) : List (WatchEvent ByoHost) :=
  match old, new with
  | some old, some new => if hostDiffers old new then [.update old new] else []
  | _, _ => []

/-- The agents of all hosts, each behind its watch and its work queue. -/
def agents (cfg : Config) : WatchSystem Site NamespacedName ByoHost HostAction (List Outcome) where
  key := ByoHost.key
  filter := resourceNotPaused
  env := hostStep
  reconcile k os s :=
    let s' := s.agentStep cfg k os
    (s', patchEvent (s.world.hosts.lookup k) (s'.world.hosts.lookup k),
      match (Prog.run exec os (reconcile cfg k) s.world).1 with | .err _ => true | _ => false)

end Byoh.Model.HostReconciler
