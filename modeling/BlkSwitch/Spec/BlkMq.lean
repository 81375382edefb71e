import BlkSwitch.Lib.Runs
import BlkSwitch.Spec.Steering

/-! The life of a request in blk-mq as blk-switch sees it (block/blk-mq.c): `blk_mq_make_request`
with `blk_mq_get_request`, bios that merge into a request there is, and `blk_mq_end_request`. What a
call meets outside these functions (the time, other counters, random bytes, the CPU the scheduler
puts the task on, whether there is a tag) is an argument. -/

namespace BlkSwitch.Blk

def BLK_SWITCH_NR_CPUS : ℕ := 64
def BLK_SWITCH_RESET_METRICS : ℕ := 1000
def BLK_SWITCH_APPSTR_INTERVAL : ℕ := 10

structure Params where
  blkSwitchOn : ℤ
  blkSwitchThreshB : Int32
  blkSwitchNrCpus : ℤ
  numOnlineCpus : ℕ
  numOnlineNodes : ℕ
  hz : ℕ
  hz_pos : 0 < hz

def nrCpus (p : Params) : ℕ :=
  if p.blkSwitchNrCpus ≤ 0 ∨ p.numOnlineCpus < p.blkSwitchNrCpus then p.numOnlineCpus
  else p.blkSwitchNrCpus.toNat

/-- The global variables of blk-switch. The arrays have a place for each of `BLK_SWITCH_NR_CPUS`
CPUs: what stands for a CPU from there on means nothing. -/
structure Switch where
  tBytes : ℕ → UInt64
  lBytes : ℕ → UInt64
  tMetric : ℕ → UInt64
  lMetric : ℕ → UInt64
  tAppstr : ℕ → UInt64
  lAppstr : ℕ → UInt64
  resetMetrics : ℕ
  lastAppstr : ℕ
  appstrApp : UInt16

structure RequestQueue where
  /-- `blk_switch` of its hardware queues -/
  blkSwitch : Bool
  /-- `numa_node` of the hardware queue of a CPU -/
  numaNode : ℕ → HctxType → ℕ

structure Request where
  /-- `mq_ctx->cpu` -/
  cpu : ℕ
  /-- `mq_hctx->blk_switch` -/
  blkSwitch : Bool
  tag : ℕ
  steered : Bool
  bio : Option Bio
  /-- `blk_rq_bytes` -/
  dataLen : UInt32

/-- What a call of `blk_mq_get_request` meets. -/
structure Meets where
  jiffies : ℕ
  /-- the hardware queue's tags have at most one active queue -/
  lone : Bool
  /-- `current->cpu` behind application steering -/
  currentCpu : ℕ
  localActive : ℤ
  nrActive : ℕ → ℤ
  nrReq : ℕ → ℤ
  nrActiveTwo : ℕ → ℤ
  rand : ℕ → UInt8
  fuel : ℕ
  tag : Option ℕ

def blkSwitchRequest (q : RequestQueue) (bio : Bio) : Bool := q.blkSwitch && decide (0 < bio.biSize)

def idle (m : Meets) (s : Switch) : Prop := s.resetMetrics = 0 ∨ s.resetMetrics < m.jiffies

instance (m : Meets) (s : Switch) : Decidable (idle m s) :=
  inferInstanceAs (Decidable (s.resetMetrics = 0 ∨ s.resetMetrics < m.jiffies))

def clearCpus (n : ℕ) (f : ℕ → UInt64) (cpu : ℕ) : UInt64 := if cpu < n then 0 else f cpu

/-- Everything starts anew after a second without traffic. -/
def resetIdle (p : Params) (m : Meets) (s : Switch) : Switch :=
  let s :=
    if idle m s then
      { s with
        tBytes := clearCpus (nrCpus p) s.tBytes
        lBytes := clearCpus (nrCpus p) s.lBytes
        tMetric := clearCpus (nrCpus p) s.tMetric
        lMetric := clearCpus (nrCpus p) s.lMetric
        tAppstr := clearCpus (nrCpus p) s.tAppstr
        lAppstr := clearCpus (nrCpus p) s.lAppstr
        lastAppstr := 0
        appstrApp := 0 }
    else s
  { s with resetMetrics := m.jiffies + msecsToJiffies p.hz BLK_SWITCH_RESET_METRICS }

/-- The bytes of a class that are out, with those of the bio, as an `int`. -/
def sample (bytes : UInt64) (bio : Bio) : Int32 := (bytes.toUInt32 + bio.biSize).toInt32

def updateMetrics (bio : Bio) (cpu : ℕ) (s : Switch) : Switch :=
  let t :=
    if blkSwitchIsThruRequest bio then metricUpdate (s.tMetric cpu) (sample (s.tBytes cpu) bio)
    else s.tMetric cpu
  let l :=
    if blkSwitchIsThruRequest bio then s.lMetric cpu else metricUpdate (s.lMetric cpu)
      (sample (s.lBytes cpu) bio)
  { s with
    tMetric := Function.update s.tMetric cpu (metricFloor t)
    lMetric := Function.update s.lMetric cpu (metricFloor l) }

/-- Every 10 ms application steering gets a new snapshot and looks at the other class. -/
def takeSnapshot (p : Params) (m : Meets) (s : Switch) : Switch :=
  let next := m.jiffies + msecsToJiffies p.hz BLK_SWITCH_APPSTR_INTERVAL
  if s.lastAppstr = 0 then { s with lastAppstr := next }
  else if s.lastAppstr < m.jiffies then
    { s with
      tAppstr := fun cpu => if cpu < nrCpus p then s.tMetric cpu else s.tAppstr cpu
      lAppstr := fun cpu => if cpu < nrCpus p then s.lMetric cpu else s.lAppstr cpu
      lastAppstr := next
      appstrApp := if s.appstrApp = BLK_SWITCH_T_APP then BLK_SWITCH_L_APP else BLK_SWITCH_T_APP }
  else s

def cores (p : Params) (q : RequestQueue) (cmdFlags : UInt32) (cpu : ℕ) : Cores :=
  ⟨nrCpus p, p.numOnlineNodes, q.numaNode cpu (blkMqMapQueue cmdFlags)⟩

/-- An application that is moved takes its metric away, if it was alone. -/
def leaveCore (bio : Bio) (cpu : ℕ) (m : Meets) (s : Switch) : Switch :=
  if m.lone then
    if blkSwitchIsThruRequest bio then { s with tMetric := Function.update s.tMetric cpu 0 }
    else { s with lMetric := Function.update s.lMetric cpu 0 }
  else s

def appStage (p : Params) (q : RequestQueue) (bio : Bio) (cmdFlags : UInt32) (cpu : ℕ) (m : Meets)
    (s : Switch) :
    Switch :=
  let s := takeSnapshot p m (updateMetrics bio cpu s)
  match appSteering (cores p q cmdFlags cpu) ⟨s.lAppstr, s.tAppstr, s.appstrApp⟩
      (blkSwitchIsThruRequest bio) cpu with
  | some _ => leaveCore bio cpu m s
  | none => s

def Meets.reads (m : Meets) (s : Switch) : Reads :=
  ⟨m.localActive, m.nrActive, m.nrReq, s.lMetric, m.nrActiveTwo, m.rand⟩

/-- The CPU whose context a request gets, whether request steering changed it, and the variables
after; `none` while the loop of random bytes has not ended. -/
def steer (p : Params) (q : RequestQueue) (bio : Bio) (cmdFlags : UInt32) (cpu : ℕ) (m : Meets)
    (s : Switch) :
    Option (ℕ × Bool × Switch) :=
  if blkSwitchRequest q bio then
    let s := resetIdle p m s
    let appOn := decide (2 ≤ p.blkSwitchOn)
    let s := if appOn then appStage p q bio cmdFlags cpu m s else s
    let appSteered := appOn && m.currentCpu != cpu
    let cpu := if appSteered then m.currentCpu else cpu
    if 1 ≤ p.blkSwitchOn ∧ blkSwitchIsThruRequest bio = true ∧ appSteered = false ∧
      p.numOnlineNodes * 2 ≤ nrCpus p then
      (requestSteering (cores p q cmdFlags cpu) q.blkSwitch p.blkSwitchThreshB (m.reads s) cpu
        m.fuel).map
        fun target => (target, target != cpu, s)
    else some (cpu, false, s)
  else some (cpu, false, s)

def charge (bio : Bio) (cpu : ℕ) (s : Switch) : Switch :=
  if blkSwitchIsThruRequest bio then
    { s with tBytes := Function.update s.tBytes cpu (s.tBytes cpu + bio.biSize.toUInt64) }
  else { s with lBytes := Function.update s.lBytes cpu (s.lBytes cpu + bio.biSize.toUInt64) }

/-- `blk_mq_get_request` for a bio, with the request it returns. -/
def blkMqGetRequest (p : Params) (q : RequestQueue) (bio : Bio) (cmdFlags : UInt32) (cpu : ℕ)
    (m : Meets) (s : Switch) : Option (Option Request × Switch) :=
  (steer p q bio cmdFlags cpu m s).map fun (cpu, reqSteered, s) =>
    match m.tag with
    | none => (none, s)
    | some tag =>
      let s := if q.blkSwitch && !reqSteered then charge bio cpu s else s
      (some
        { cpu := cpu
          blkSwitch := q.blkSwitch
          tag := tag
          steered := reqSteered
          bio := none
          dataLen := 0 }, s)

/-- `blk_mq_alloc_request`: a request without a bio is neither steered nor counted. -/
def blkMqAllocRequest (q : RequestQueue) (cpu tag : ℕ) : Request :=
  { cpu := cpu, blkSwitch := q.blkSwitch, tag := tag, steered := false, bio := none, dataLen := 0 }

def blkMqBioToRequest (rq : Request) (bio : Bio) : Request :=
  { rq with bio := some bio, dataLen := bio.biSize }

def release (bytes : ℕ → UInt64) (rq : Request) : ℕ → UInt64 :=
  Function.update bytes rq.cpu
    (if rq.dataLen.toUInt64 ≤ bytes rq.cpu then bytes rq.cpu - rq.dataLen.toUInt64 else 0)

/-- The part of `blk_mq_end_request` that is blk-switch's. -/
def blkMqEndRequest (rq : Request) (s : Switch) : Switch :=
  match rq.bio with
  | some bio =>
    if rq.blkSwitch = true ∧ rq.dataLen ≠ 0 ∧ rq.steered = false ∧ rq.tag ≠ 0 then
      if blkSwitchIsThruRequest bio then { s with tBytes := release s.tBytes rq }
      else { s with lBytes := release s.lBytes rq }
    else s
  | none => s

structure BlkState where
  switch : Switch
  /-- allocated and not ended -/
  live : List Request

inductive BlkEvent
  | makeRequest (q : RequestQueue) (task : Task) (bio : Bio) (cpu : ℕ) (m : Meets)
  | allocRequest (q : RequestQueue) (cpu tag : ℕ)
  | merge (i : ℕ) (task : Task) (bio : Bio) (front : Bool)
  | endRequest (i : ℕ)

/-- The CPUs that a request can be on have a place in the arrays: those it may be issued on, and
with them the cores of their nodes. -/
def Placed (p : Params) : BlkEvent → Prop
  | .makeRequest q _ _ cpu m =>
    nrCpus p ≤ BLK_SWITCH_NR_CPUS ∧ ∀ c ∈ [cpu, m.currentCpu],
      c < BLK_SWITCH_NR_CPUS ∧ ∀ t ∈ [HctxType.default, .read, .poll],
      q.numaNode c t < p.numOnlineNodes
  | .allocRequest _ cpu _ => cpu < BLK_SWITCH_NR_CPUS
  | _ => True

instance (p : Params) : DecidablePred (Placed p)
  | .makeRequest q _ _ cpu m => inferInstanceAs (Decidable (
      nrCpus p ≤ BLK_SWITCH_NR_CPUS ∧ ∀ c ∈ [cpu, m.currentCpu],
        c < BLK_SWITCH_NR_CPUS ∧ ∀ t ∈ [HctxType.default, .read, .poll],
          q.numaNode c t < p.numOnlineNodes))
  | .allocRequest _ cpu _ => inferInstanceAs (Decidable (cpu < BLK_SWITCH_NR_CPUS))
  | .merge _ _ _ _ => .isTrue trivial
  | .endRequest _ => .isTrue trivial

def HasRoom (s : BlkState) : Prop := s.live.length + 1 < 2 ^ 32

instance (s : BlkState) : Decidable (HasRoom s) := inferInstanceAs (Decidable (_ < _))

/-- A bio merges into a request of the same priority; the request's size stays an `unsigned int`. -/
def mergeBio (rq : Request) (bio : Bio) (front : Bool) : Option Request :=
  rq.bio.bind fun b =>
    if b.biIoprio = bio.biIoprio ∧ rq.dataLen.toNat + bio.biSize.toNat < 2 ^ 32 then
      some { rq with bio := some (if front then bio else b), dataLen := rq.dataLen + bio.biSize }
    else none

def blkStep (p : Params) (s : BlkState) : BlkEvent → Option BlkState
  | .makeRequest q task bio cpu m =>
    if HasRoom s then
      let bio := blkSwitchSetIoprio task bio
      (blkMqGetRequest p q bio bio.biOpf cpu m s.switch).map fun (rq, switch) =>
        match rq with
        | some rq => { switch := switch, live := s.live ++ [blkMqBioToRequest rq bio] }
        | none => { s with switch := switch }
    else none
  | .allocRequest q cpu tag =>
    if HasRoom s then some { s with live := s.live ++ [blkMqAllocRequest q cpu tag] } else none
  | .merge i task bio front =>
    (s.live[i]?).bind fun rq =>
      (mergeBio rq (blkSwitchSetIoprio task bio) front).map fun rq =>
        { s with live := s.live.set i rq }
  | .endRequest i =>
    (s.live[i]?).map fun rq => { switch := blkMqEndRequest rq s.switch, live := s.live.eraseIdx i }

def blankSwitch : Switch where
  tBytes := fun _ => 0
  lBytes := fun _ => 0
  tMetric := fun _ => 0
  lMetric := fun _ => 0
  tAppstr := fun _ => 0
  lAppstr := fun _ => 0
  resetMetrics := 0
  lastAppstr := 0
  appstrApp := 0

def blkSystem (p : Params) : Runs.System BlkState BlkEvent where
  init := ⟨blankSwitch, []⟩
  step := blkStep p

end BlkSwitch.Blk
