import Mathlib.Data.Int.Notation
import Mathlib.Data.Nat.Notation

/-! The decisions of blk-switch (block/blk-switch.h, and their part of block/blk-mq.c): the class
of a request, the type of hardware queue it goes to, the load metrics of a CPU, and the targets of
application and request steering. -/

/-- `msecs_to_jiffies` at `hz` ticks a second, rounded up. -/
def BlkSwitch.msecsToJiffies (hz ms : ℕ) : ℕ := (ms * hz + 999) / 1000

namespace BlkSwitch.Blk

inductive HctxType
  | default
  | read
  | poll
  deriving DecidableEq, Repr

def REQ_PRIO : UInt32 := (1 : UInt32) <<< 13
def REQ_FUA : UInt32 := (1 : UInt32) <<< 17
def REQ_HIPRI : UInt32 := (1 : UInt32) <<< 25

def IOPRIO_CLASS_SHIFT : UInt16 := 13
/-- `IOPRIO_PRIO_VALUE(IOPRIO_CLASS_NONE, IOPRIO_NORM)` -/
def IOPRIO_DEFAULT : UInt16 := 4

def BLK_SWITCH_TCP_BATCH : ℤ := 16
def BLK_SWITCH_THRESH_L : UInt64 := 98304
def BLK_SWITCH_T_APP : UInt16 := 0
def BLK_SWITCH_L_APP : UInt16 := 1
def BLK_SWITCH_TCP : ℕ := 1
def BLK_SWITCH_RDMA : ℕ := 2

structure Bio where
  biOpf : UInt32
  biIoprio : UInt16
  biSize : UInt32
  deriving DecidableEq, Repr

structure Task where
  ioContext : Option UInt16
  deriving DecidableEq, Repr

def ioprioPrioClass (ioprio : UInt16) : UInt16 := ioprio >>> IOPRIO_CLASS_SHIFT

def blkSwitchSetIoprio (p : Task) (bio : Bio) : Bio :=
  let ioprio := p.ioContext.getD IOPRIO_DEFAULT
  if ioprioPrioClass ioprio = BLK_SWITCH_L_APP then
    { bio with biIoprio := ioprio, biOpf := bio.biOpf ||| REQ_PRIO }
  else bio

def blkSwitchIsThruRequest (bio : Bio) : Bool := ioprioPrioClass bio.biIoprio != BLK_SWITCH_L_APP

/-- The type that `blk_mq_map_queue` picks. -/
def blkMqMapQueue (flags : UInt32) : HctxType :=
  if flags &&& REQ_HIPRI ≠ 0 then .poll
  else if flags &&& REQ_PRIO ≠ 0 ∧ flags &&& REQ_FUA = 0 then .read
  else .default

/-- The update of a metric with an `int` sample, which is made an `unsigned long` again. -/
def metricUpdate (metric : UInt64) (sample : Int32) : UInt64 :=
  if metric = 0 then sample.toInt64.toUInt64
  else metric - (metric >>> 3) + (sample >>> 3).toInt64.toUInt64

def metricFloor (metric : UInt64) : UInt64 := if metric < 10 then 0 else metric

structure Cores where
  nrCpus : ℕ
  nrNodes : ℕ
  curNode : ℕ
  deriving DecidableEq, Repr

def Cores.count (n : Cores) : ℕ := n.nrCpus / n.nrNodes

def Cores.cpu (n : Cores) (i : ℕ) : ℕ := i * n.nrNodes + n.curNode

/-- The snapshot that application steering works from. -/
structure Appstr where
  lAppstr : ℕ → UInt64
  tAppstr : ℕ → UInt64
  appstrApp : UInt16

def Appstr.sum (v : Appstr) (cpu : ℕ) : UInt64 := v.lAppstr cpu + v.tAppstr cpu

/-- The loop that looks for a core for the application, from the cores that are left. -/
def appSteeringLoop (v : Appstr) (thru : Bool) (cur : ℕ) : List ℕ → Option ℕ → UInt64 → Option ℕ
  | [], target, _ => target
  | iter :: iters, target, minMetric =>
    if iter = cur ∨ BLK_SWITCH_THRESH_L < v.lAppstr iter then appSteeringLoop v thru cur iters
      target minMetric
    else if v.appstrApp = BLK_SWITCH_L_APP ∧ thru = false then
      if v.tAppstr cur ≠ 0 ∧ v.lAppstr iter ≠ 0 ∧ v.sum iter < v.sum cur ∧
        v.sum iter < minMetric then
        appSteeringLoop v thru cur iters (some iter) (v.sum iter)
      else appSteeringLoop v thru cur iters target minMetric
    else if v.appstrApp = BLK_SWITCH_T_APP ∧ thru = true then
      -- wait for the latency application to move first
      if v.lAppstr cur < v.lAppstr iter ∧ v.lAppstr iter < BLK_SWITCH_THRESH_L then none
      else if v.lAppstr iter < v.lAppstr cur ∧ v.tAppstr iter < minMetric then
        appSteeringLoop v thru cur iters (some iter) (v.tAppstr iter)
      else appSteeringLoop v thru cur iters target minMetric
    else appSteeringLoop v thru cur iters target minMetric

/-- `target_cpu` of application steering for a request on the CPU `cur`, `none` for -1. -/
def appSteering (n : Cores) (v : Appstr) (thru : Bool) (cur : ℕ) : Option ℕ :=
  appSteeringLoop v thru cur ((List.range n.count).map n.cpu) none
    (if thru then 8388608 else v.sum cur)

/-- What `driver_data` of a hardware queue points to. -/
inductive DriverQueue
  | nvmeTcpQueue
  | nvmeRdmaQueue
  deriving DecidableEq, Repr

/-- Of a `blk_mq_hw_ctx`, what the drivers set for blk-switch. -/
structure HwCtx where
  blkSwitch : Bool
  driverData : Option DriverQueue
  deriving DecidableEq, Repr

/-- An `int` stored in a `bool`. -/
def storeBool (v : ℕ) : Bool := v != 0

def nvmeRdmaInitHctx (hctx : HwCtx) : HwCtx :=
  { hctx with blkSwitch := storeBool 2, driverData := some .nvmeRdmaQueue }

/-- `blk_mq_init_hctx` with the `init_hctx` of a driver. -/
def blkMqInitHctx (initHctx : HwCtx → HwCtx) (hctx : HwCtx) : HwCtx :=
  initHctx { hctx with blkSwitch := storeBool 0 }

/-- What request steering reads while it runs. The counters of a hardware queue are read anew at
each place, and `rand` are the bytes that `get_random_bytes` gives, in order. -/
structure Reads where
  localActive : ℤ
  nrActive : ℕ → ℤ
  nrReq : ℕ → ℤ
  lMetric : ℕ → UInt64
  nrActiveTwo : ℕ → ℤ
  rand : ℕ → UInt8

structure Choice where
  target : Option ℕ
  minNr : ℤ
  minActive : ℤ
  /-- how many random bytes are used -/
  drawn : ℕ

def twoNr (blkSwitch : Bool) (r : Reads) (cpu : ℕ) : ℤ :=
  if blkSwitch.toNat = BLK_SWITCH_TCP then BLK_SWITCH_TCP_BATCH - r.nrReq cpu else 0

/-- Cores that request steering picks from first. -/
def eligible (blkSwitch : Bool) (r : Reads) (cpu : ℕ) : Bool :=
  r.lMetric cpu == 0 && (blkSwitch.toNat == BLK_SWITCH_RDMA ||
    (blkSwitch.toNat == BLK_SWITCH_TCP && decide (r.nrActive cpu < BLK_SWITCH_TCP_BATCH)))

/-- One turn of the loop over the cores; `hctx->blk_switch` is a `bool` in the source. -/
def pickCore (blkSwitch : Bool) (r : Reads) (cur : ℕ) (c : Choice) (cpu : ℕ) : Choice :=
  if eligible blkSwitch r cpu then
    if twoNr blkSwitch r cpu < c.minNr then
      { c with target := some cpu, minNr := twoNr blkSwitch r cpu, minActive := r.nrActive cpu }
    else if twoNr blkSwitch r cpu = c.minNr then
      if r.nrActive cpu < c.minActive then { c with target := some cpu, minActive := r.nrActive cpu }
      else if r.nrActive cpu = c.minActive then
        if cpu = cur then { c with target := some cpu }
        else if c.target ≠ some cur then
          { c with
            target := if r.rand c.drawn % 2 = 0 then some cpu else c.target
            drawn := c.drawn + 1 }
        else c
      else c
    else c
  else c

def pickCores (n : Cores) (blkSwitch : Bool) (r : Reads) (cur : ℕ) : Choice :=
  ((List.range n.count).map n.cpu).foldl (pickCore blkSwitch r cur) ⟨none, 1024, 2048, 0⟩

def randomCore (n : Cores) (byte : UInt8) : ℕ := n.cpu (byte.toNat % n.count)

/-- The loop that draws a second core until it is another one than the first. -/
def drawOther (n : Cores) (rand : ℕ → UInt8) (first : ℕ) : ℕ → ℕ → Option ℕ
  | 0, _ => none
  | fuel + 1, pos =>
    let second := randomCore n (rand pos)
    if first = second then drawOther n rand first fuel (pos + 1) else some second

/-- `req_thresh`, an `int`: the double of a threshold from `2 ^ 30` on is negative. -/
def reqThresh (blkSwitch : Bool) (threshB : Int32) : Int32 :=
  if 0 < threshB then threshB * 2
  else if blkSwitch.toNat = BLK_SWITCH_TCP then .ofInt (BLK_SWITCH_TCP_BATCH * 2)
  else .ofInt (BLK_SWITCH_TCP_BATCH / 2)

/-- `target_cpu` of request steering; `none` when the loop of random bytes has not ended in `fuel`
turns. -/
def requestSteering (n : Cores) (blkSwitch : Bool) (threshB : Int32) (r : Reads) (cur fuel : ℕ) :
    Option ℕ :=
  if r.localActive ≤ (reqThresh blkSwitch threshB).toInt then some cur
  else
    let c := pickCores n blkSwitch r cur
    match c.target with
    | some cpu => some cpu
    | none =>
      let first := randomCore n (r.rand c.drawn)
      (drawOther n r.rand first fuel (c.drawn + 1)).map fun second =>
        if r.nrActiveTwo first ≤ r.nrActiveTwo second then first else second

/-- The CPUs whose `driver_data` request steering reads as an `nvme_tcp_queue`. -/
def tcpQueueReads (n : Cores) (blkSwitch : Bool) (threshB : Int32) (r : Reads) : List ℕ :=
  if r.localActive ≤ (reqThresh blkSwitch threshB).toInt then []
  else ((List.range n.count).map n.cpu).filter fun _ => blkSwitch.toNat == BLK_SWITCH_TCP

end BlkSwitch.Blk
