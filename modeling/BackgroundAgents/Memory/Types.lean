import Mathlib.Data.List.Basic

/-! # The words of the memory records -/

namespace BackgroundAgents.Memory

inductive MemoryType where
  | fact
  | directive
  deriving DecidableEq, Repr

inductive MemoryStatus where
  | proposed
  | active
  | archived
  deriving DecidableEq, Repr

def MemoryStatus.text : MemoryStatus → List Char
  | .proposed => "proposed".toList
  | .active => "active".toList
  | .archived => "archived".toList

inductive MemoryArchiveKind where
  | manual
  | rejected
  | superseded
  deriving DecidableEq, Repr

inductive MemoryAuthorKind where
  | user
  | agent
  deriving DecidableEq, Repr

inductive MemoryPartition where
  | personal (userId : String)
  | repository (repoId : Nat)
  | environment (environmentId : String)
  deriving DecidableEq, Repr

end BackgroundAgents.Memory
