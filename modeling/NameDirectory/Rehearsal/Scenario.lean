import NameDirectory.Network
import NameDirectory.Shell

/-!
# Scenarios

Scripts to run whole clients by: they open contexts on hosts of one network and use them, and
hosts stop and start in between.  All clients share one registry.  A context that no label
stands for any more gives up its lease.  No part of the program is built on them.
-/

namespace NameDirectory

open Registry (Route)

structure Scenario where
  registry : Registry Network Nat Nat
  handles : Script.Handles Route := []

namespace Scenario

inductive Act where
  | connect (label : String) (c : Configuration)
  | context (s : Script.Step)
  | shell (label line : String)
  | stop (host : Nat)
  | start (host : Nat)
  | tree (host : Nat)
  | forget (label : String)
  | counts
  | shutdown

inductive Response where
  | connected (result : Except ClientFault Unit)
  | context (answer : Script.Answer)
  | notCommand (fault : Shell.Fault)
  | printed (result : Except ClientFault (Option String))
  | noContext
  | tree (t : Tree)
  | counts (shared : List Nat)
  | nothing

/-- Hosts with listeners, and no clients. -/
def start (network : Network) : Scenario := { registry := { world := network } }

def shelf : Script.Shelf Scenario Route := ⟨Scenario.handles, fun h w => { w with handles := h }⟩

def within {α : Type} (f : Registry Network Nat Nat → α × Registry Network Nat Nat)
    (w : Scenario) : α × Scenario :=
  let (a, registry) := f w.registry
  (a, { w with registry })

def stores : Script.Stores Scenario Route where
  serve route r := within (Registry.serve Network.carrier route r)
  close route w := (.ok (), { w with registry := w.registry.closeRoute Network.carrier route })
  home route := .direct route.team

def holds (w : Scenario) (i : Nat) : Bool :=
  w.handles.any fun (_, c) => match c.store with
    | .lease j _ => i = j
    | .direct _ => false

def collect (w : Scenario) : Scenario :=
  (List.range w.registry.leases.length).foldl (fun w i =>
    if w.holds i then w
    else { w with registry := w.registry.endLease Network.carrier i }) w

def withNetwork (f : Network → Network) (w : Scenario) : Scenario :=
  { w with registry := { w.registry with world := f w.registry.world } }

def step (a : Act) (w : Scenario) : Response × Scenario :=
  match a with
  | .connect label c =>
    match w.within (Registry.context c) with
    | (.error fault, w) => (.connected (.error fault), w)
    | (.ok context, w) => (.connected (.ok ()), shelf.put label context w)
  | .context s =>
    let (answer, w) := s.run stores shelf w
    (.context answer, w)
  | .shell label line =>
    match shelf.find? label w, Shell.parse line with
    | none, _ => (.noContext, w)
    | _, .error fault => (.notCommand fault, w)
    | some c, .ok command =>
      let (result, w) := command.run (fun r => stores.serve c.store (c.absolute r)) w
      (.printed result, w)
  | .stop host => (.nothing, w.withNetwork (·.stop host))
  | .start host => (.nothing, w.withNetwork (·.start host))
  | .tree host => (.tree (w.registry.world.tree host), w)
  | .forget label => (.nothing, { w with handles := w.handles.filter (·.1 ≠ label) })
  | .counts => (.counts w.registry.counts, w)
  | .shutdown => (.nothing, { w with registry := w.registry.shutdown Network.carrier })

/-- Make a step, and give the servers on which sessions were opened during it. -/
def perform (a : Act) (w : Scenario) : Response × List Destination × Scenario :=
  let (r, w) := step a { w with registry := { w.registry with reached := [] } }
  (r, w.registry.reached, w.collect)

end Scenario

end NameDirectory
