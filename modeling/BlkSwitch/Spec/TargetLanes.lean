import BlkSwitch.Lib.Runs
import Mathlib.Data.Finset.Card

/-! The lanes of the nvmet-tcp target (drivers/nvme/target/tcp.c): every queue of every controller
draws an index from one allocator when it is set up, and the index decides its class. -/

namespace BlkSwitch.Target

/-- `ida_simple_get(ida, 0, 0, ...)`: the lowest index that is not in use. -/
def idaSimpleGet (used : List ℕ) : ℕ :=
  ((List.range (used.length + 1)).find? (fun i => decide (i ∉ used))).getD 0

structure LaneQueue where
  ctrl : ℕ
  /-- the host's number for it, 0 for an admin queue -/
  qid : ℕ
  idx : ℕ
  prioClass : ℕ
  /-- not yet disconnected -/
  live : Bool
  deriving DecidableEq, Repr

/-- The part of `nvmet_tcp_alloc_queue` that sets index and class. -/
def nvmetTcpAllocQueue (numOnlineCpus : ℕ) (used : List ℕ) (ctrl qid : ℕ) : LaneQueue :=
  let idx := idaSimpleGet used
  { ctrl := ctrl
    qid := qid
    idx := idx
    prioClass := if numOnlineCpus < idx then 1 else 0
    live := true }

/-- The queues that hold an index. -/
abbrev LaneState := List LaneQueue

def LaneState.used (s : LaneState) : List ℕ := s.map (·.idx)

/-- A discovery controller has its admin queue only. -/
inductive LaneEvent
  | connect (ctrl qid : ℕ)
  | disconnect (i : ℕ)
  /-- `nvmet_tcp_release_queue_work` -/
  | release (i : ℕ)
  deriving DecidableEq, Repr

def laneStep (numOnlineCpus : ℕ) (s : LaneState) : LaneEvent → Option LaneState
  | .connect ctrl qid => some (s ++ [nvmetTcpAllocQueue numOnlineCpus (LaneState.used s) ctrl qid])
  | .disconnect i => (s[i]?).map fun x => s.set i { x with live := false }
  | .release i => (s[i]?).bind fun x => if x.live then none else some (s.eraseIdx i)

def laneSystem (numOnlineCpus : ℕ) : Runs.System LaneState LaneEvent where
  init := []
  step := laneStep numOnlineCpus

end BlkSwitch.Target
