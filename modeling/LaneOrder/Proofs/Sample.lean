import LaneOrder.Board.Basic
import LaneOrder.Surroundings

/-!
This module contains what examples of runs have in common: one workspace with one member, tasks with small numbers as
identifiers, and surroundings in which time stands still.
-/

namespace LaneOrder.Sample

def workspace : WorkspaceId :=
  ⟨.ofNat 0⟩

def actor : ActorId :=
  ⟨.ofNat 0⟩

def id (n : Nat) : TaskId :=
  ⟨.ofNat n⟩

def task (n : Nat) (lane : Lane) (position : Nat) : Task :=
  .new (id n) workspace "" lane (.ofNat position) .epoch

def board (rows : Rows) : Board where
  rows
  members := [⟨workspace, actor, .owner⟩]

def surroundings : Surroundings where
  allocator := ⟨.ofNat 1000, .ofNat 1⟩
  now := .epoch
  freshId n := id (1000 + n)

end LaneOrder.Sample
