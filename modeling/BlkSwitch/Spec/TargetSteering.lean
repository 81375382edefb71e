import BlkSwitch.Lib.Runs
import BlkSwitch.Spec.Steering
import Mathlib.Logic.Function.Basic

/-! Steering on the nvmet-tcp target (drivers/nvme/target/tcp.c): `nvmet_tcp_alloc_queue` gives a
queue its CPU, and every `nvmet_tcp_data_ready` measures the queues of the node and may move the
queue it is called for. CPUs of a node are numbered by slots, `cpu / nr_nodes`. The statistics that
are printed are left out. -/

namespace BlkSwitch.Target

structure Machine where
  /-- `num_online_cpus()` -/
  nrCpus : ℕ
  /-- `num_online_nodes()` -/
  nrNodes : ℕ
  hz : ℕ

def Machine.slots (m : Machine) : ℕ := m.nrCpus / m.nrNodes

structure SteerQueue where
  port : ℕ
  /-- `nvme_sq.qid`, 0 until the host has connected it as an I/O queue -/
  qid : ℕ
  idx : ℕ
  prioClass : ℕ
  cpu : ℕ
  origCpu : ℕ
  numaNode : ℕ
  metric : UInt32
  deriving DecidableEq, Repr

structure NvmetTcpPort where
  lastCpu : ℤ
  resetMetric : ℕ
  deriving DecidableEq, Repr

structure SteerState where
  /-- `nvmet_tcp_queue_list` -/
  queues : List SteerQueue
  ports : ℕ → NvmetTcpPort

section Alloc

/-- `last_cpu` for the next queue; `next` is what `cpumask_next_wrap` finds. -/
def nextCpu (idx : ℕ) (next : ℤ) (port : NvmetTcpPort) : ℤ := if idx ≠ 1 then next else port.lastCpu

/-- The part of `nvmet_tcp_alloc_queue` that gives a queue its class and its CPU. The CPU is
compared with `num_online_cpus()` as an `unsigned int`. -/
def allocQueueCpu (m : Machine) (port idx : ℕ) (lastCpu : ℤ) : SteerQueue :=
  let lat := decide (m.nrCpus < idx)
  let cpu := if lat then lastCpu + 1 else lastCpu
  let cpu := if cpu < 0 ∨ m.nrCpus ≤ cpu then 0 else cpu.toNat
  { port := port
    qid := 0
    idx := idx
    prioClass := if lat then 1 else 0
    cpu := cpu
    origCpu := cpu
    numaNode := cpu % m.nrNodes
    metric := 0 }

end Alloc

/-- What a call meets: the time, `sk_rmem_alloc` of each queue by its place on the list, and what
the stack holds where the arrays are. -/
structure Call where
  jiffies : ℕ
  rmem : ℕ → Int32
  latStack : ℕ → Int32
  thruStack : ℕ → Int32

/-- An access to element `i` of `lat_metric` or `thru_metric`: its initialisation, or any other. -/
inductive Access
  | init (i : ℕ)
  | use (i : ℕ)
  deriving DecidableEq, Repr

structure Slots where
  lat : ℕ → Int32
  thru : ℕ → Int32

section Measure

variable (m : Machine)

def SteerQueue.slot (q : SteerQueue) : ℕ := q.cpu / m.nrNodes

def SteerQueue.isLat (q : SteerQueue) : Bool := decide (m.nrCpus < q.idx)

/-- A queue that is measured in a call for a queue of the node. -/
def SteerQueue.counted (node : ℕ) (q : SteerQueue) : Bool := q.qid != 0 && q.numaNode == node

/-- Everything starts anew after 200 ms without traffic on the port. -/
def resets (call : Call) (q : SteerQueue) (s : SteerState) : Prop :=
  q.qid ≠ 0 ∧ ((s.ports q.port).resetMetric = 0 ∨ (s.ports q.port).resetMetric < call.jiffies)

instance (call : Call) (q : SteerQueue) (s : SteerState) : Decidable (resets call q s) :=
  inferInstanceAs (Decidable (_ ∧ _))

def SteerQueue.reset (q : SteerQueue) : SteerQueue :=
  if q.qid ≠ 0 then { q with metric := 0, cpu := q.origCpu } else q

/-- `metric` is unsigned, the sample an `int`. -/
def nextMetric (metric : UInt32) (sample : Int32) : UInt32 :=
  let metric :=
    if metric = 0 then sample.toUInt32
    else metric - (metric >>> 3) + (sample >>> 3).toUInt32
  if metric < 10 then 0 else metric

def SteerQueue.measure (node : ℕ) (sample : Int32) (q : SteerQueue) : SteerQueue :=
  if q.counted node then { q with metric := nextMetric q.metric sample } else q

/-- The queues behind the measuring loop of a call for queue `q`. -/
def measured (call : Call) (q : SteerQueue) (s : SteerState) : List SteerQueue :=
  let queues := if resets call q s then s.queues.map SteerQueue.reset else s.queues
  queues.mapIdx fun i => SteerQueue.measure q.numaNode (call.rmem i)

def clearSlots (call : Call) : Slots where
  lat := fun i => if i < m.slots then 0 else call.latStack i
  thru := fun i => if i < m.slots then 0 else call.thruStack i

def addMetric (node : ℕ) (a : Slots) (q : SteerQueue) : Slots :=
  if q.counted node then
    if q.isLat m then
      { a with lat := Function.update a.lat (q.slot m) (a.lat (q.slot m) + q.metric.toInt32) }
    else { a with thru := Function.update a.thru (q.slot m) (a.thru (q.slot m) + q.metric.toInt32) }
  else a

def addMetrics (call : Call) (node : ℕ) (queues : List SteerQueue) : Slots :=
  queues.foldl (addMetric m node) (clearSlots m call)

end Measure

section Choose

/-- `target_cpu`, by its slot, and `min_metric`. -/
structure Choice where
  target : Option ℕ
  minMetric : Int32

def latTurn (a : Slots) (home : ℕ) (c : Choice) (i : ℕ) : Choice :=
  if i ≠ home ∧ a.lat i ≠ 0 ∧ a.thru home ≠ 0 ∧ a.lat i + a.thru i < a.lat home + a.thru home ∧
      a.lat i + a.thru i < c.minMetric then
    ⟨some i, a.lat i + a.thru i⟩
  else c

def thruTurn (a : Slots) (home : ℕ) (c : Choice) (i : ℕ) : Choice :=
  if i ≠ home ∧ a.lat home ≠ 0 ∧ a.lat i < c.minMetric then ⟨some i, a.lat i⟩ else c

/-- The target of a queue whose `local` is `home`. -/
def chooseSlot (m : Machine) (lat : Bool) (a : Slots) (home : ℕ) : Option ℕ :=
  ((List.range m.slots).foldl (if lat then latTurn a home else thruTurn a home)
    ⟨none, 1000000⟩).target

/-- The elements that a turn looks at, as far as its condition is evaluated. -/
def turnReads (lat : Bool) (a : Slots) (home i : ℕ) : List ℕ :=
  if i = home then []
  else if lat then
    i :: if a.lat i = 0 then [] else home :: if a.thru home = 0 then [] else [i, home]
  else home :: if a.lat home = 0 then [] else [i]

end Choose

section DataReady

variable (m : Machine)

/-- Every access to the arrays in a call for queue `q`. -/
def accesses (call : Call) (q : SteerQueue) (s : SteerState) : List Access :=
  let queues := measured call q s
  let a := addMetrics m call q.numaNode queues
  (List.range m.slots).map .init ++
    ((queues.filter (SteerQueue.counted q.numaNode)).map fun q => .use (q.slot m)) ++
    ((List.range m.slots).flatMap (turnReads (q.prioClass == 1) a (q.slot m))).map .use

/-- The slot a call for queue `q` moves it to; `local` is taken before the reset. -/
def targetSlot (call : Call) (q : SteerQueue) (s : SteerState) : Option ℕ :=
  chooseSlot m (q.prioClass == 1) (addMetrics m call q.numaNode (measured call q s)) (q.slot m)

/-- `nvmet_tcp_data_ready` for queue `j`, with i10_target_steering. -/
def nvmetTcpDataReady (call : Call) (j : ℕ) (s : SteerState) : Option SteerState :=
  (s.queues[j]?).map fun q =>
    let queues := measured call q s
    { queues :=
        match targetSlot m call q s with
        | none => queues
        | some i => queues.modify j fun q => { q with cpu := i * m.nrNodes + q.numaNode }
      ports := Function.update s.ports q.port
        { s.ports q.port with resetMetric := call.jiffies + msecsToJiffies m.hz 200 } }

end DataReady

inductive SteerEvent
  | allocQueue (port idx : ℕ) (next : ℤ)
  /-- the connect command of an I/O queue -/
  | setQid (j qid : ℕ)
  | release (j : ℕ)
  | dataReady (j : ℕ) (call : Call)

def steerStep (m : Machine) (s : SteerState) : SteerEvent → Option SteerState
  | .allocQueue port idx next =>
    let lastCpu := nextCpu idx next (s.ports port)
    some
      { queues := s.queues ++ [allocQueueCpu m port idx lastCpu]
        ports := Function.update s.ports port { s.ports port with lastCpu := lastCpu } }
  | .setQid j qid => some { s with queues := s.queues.modify j fun q => { q with qid := qid } }
  | .release j => some { s with queues := s.queues.eraseIdx j }
  | .dataReady j call => nvmetTcpDataReady m call j s

def steerSystem (m : Machine) : Runs.System SteerState SteerEvent where
  init := ⟨[], fun _ => ⟨-1, 0⟩⟩
  step := steerStep m

end BlkSwitch.Target
