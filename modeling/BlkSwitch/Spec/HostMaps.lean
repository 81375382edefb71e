import BlkSwitch.Lib.Runs
import BlkSwitch.Spec.Steering

/-! How the nvme-tcp host divides its I/O queues (drivers/nvme/host/tcp.c): the numbers that
`nvme_tcp_set_io_queues` keeps in `ctrl->io_queues` from one connect to the next, and the queue
maps that `nvme_tcp_map_queues` makes of them. -/

namespace BlkSwitch.Host

open Blk (HctxType)

structure CtrlOptions where
  nrIoQueues : ℕ
  nrWriteQueues : ℕ
  nrPollQueues : ℕ
  numOnlineCpus : ℕ
  deriving DecidableEq, Repr

structure QueueMap where
  nrQueues : ℕ
  queueOffset : ℕ
  deriving DecidableEq, Repr

def nvmeTcpNrIoQueues (o : CtrlOptions) : ℕ :=
  min o.nrIoQueues o.numOnlineCpus + min o.nrWriteQueues o.numOnlineCpus +
    min o.nrPollQueues o.numOnlineCpus

def separate (o : CtrlOptions) (nrIoQueues : ℕ) : Bool :=
  o.nrWriteQueues != 0 && decide (o.nrIoQueues < nrIoQueues)

def defaultQueues (o : CtrlOptions) (nrIoQueues : ℕ) : ℕ :=
  if separate o nrIoQueues then min o.nrWriteQueues (nrIoQueues - o.nrIoQueues)
  else min o.nrIoQueues nrIoQueues

def leftQueues (o : CtrlOptions) (nrIoQueues : ℕ) : ℕ :=
  if separate o nrIoQueues then nrIoQueues - o.nrIoQueues - defaultQueues o nrIoQueues
  else nrIoQueues - defaultQueues o nrIoQueues

/-- The shared branch leaves the entry for reads as it is, and the entry for polling changes only
when queues are left. -/
def nvmeTcpSetIoQueues (o : CtrlOptions) (nrIoQueues : ℕ) (io : HctxType → ℕ) : HctxType → ℕ
  | .default => defaultQueues o nrIoQueues
  | .read => if separate o nrIoQueues then o.nrIoQueues else io .read
  | .poll =>
    if o.nrPollQueues ≠ 0 ∧ leftQueues o nrIoQueues ≠ 0 then
      min o.nrPollQueues (leftQueues o nrIoQueues)
    else io .poll

/-- A map of its own, rather than one shared with another type. -/
def dedicated (o : CtrlOptions) (io : HctxType → ℕ) : HctxType → Bool
  | .default => true
  | .read => o.nrWriteQueues != 0 && io .read != 0
  | .poll => o.nrPollQueues != 0 && io .poll != 0

def nvmeTcpMapQueues (o : CtrlOptions) (io : HctxType → ℕ) (map : HctxType → QueueMap) : HctxType →
    QueueMap
  | .default => ⟨io .default, 0⟩
  | .read => if dedicated o io .read then ⟨io .read, io .default⟩ else ⟨io .default, 0⟩
  | .poll => if dedicated o io .poll then ⟨io .poll, io .default + io .read⟩ else map .poll

structure Ctrl where
  ioQueues : HctxType → ℕ
  /-- of the tag set, once there is one -/
  map : HctxType → QueueMap
  tagset : Bool
  nrHwQueues : ℕ

/-- The maps of a tag set when `blk_mq_alloc_tag_set` calls `map_queues`. -/
def allocTagSet (o : CtrlOptions) (nrHwQueues : ℕ) : HctxType → QueueMap
  | .default | .read => ⟨nrHwQueues, 0⟩
  | .poll => if o.nrPollQueues ≠ 0 then ⟨nrHwQueues, 0⟩ else ⟨0, 0⟩

/-- The part of `nvme_tcp_configure_io_queues` that divides the queues. A tag set that exists is
mapped anew by `blk_mq_update_nr_hw_queues`, unless the number of queues is the same. -/
def nvmeTcpConfigureIoQueues (o : CtrlOptions) (granted : ℕ) (s : Ctrl) : Ctrl :=
  let io := nvmeTcpSetIoQueues o granted s.ioQueues
  { ioQueues := io
    map :=
      if s.tagset then
        if granted = s.nrHwQueues then s.map else nvmeTcpMapQueues o io s.map
      else nvmeTcpMapQueues o io (allocTagSet o granted)
    tagset := true
    nrHwQueues := granted }

/-- A connect or reconnect in which the target grants some of the queues asked for. -/
def connectStep (o : CtrlOptions) (s : Ctrl) (granted : ℕ) : Option Ctrl :=
  if 1 ≤ granted ∧ granted ≤ nvmeTcpNrIoQueues o then some (nvmeTcpConfigureIoQueues o granted s)
  else none

def connectSystem (o : CtrlOptions) : Runs.System Ctrl ℕ where
  init := ⟨fun _ => 0, fun _ => ⟨0, 0⟩, false, 0⟩
  step := connectStep o

end BlkSwitch.Host
