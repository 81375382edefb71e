import BlkSwitch.Lib.Runs
import BlkSwitch.Spec.HostSend

/-! One nvme-tcp host queue with everything that runs against it (drivers/nvme/host/tcp.c):
submitters, the doorbell timer, the socket callbacks and the two workers. A step is the part
of a function between two points where another party can get in: `nvme_tcp_queue_request` is
cut at its `spin_unlock`, `nvme_tcp_try_send` behind its locked dequeue. -/

namespace BlkSwitch.Host

structure NvmeTcpQueue extends SendQueue where
  sendList : List ℕ
  prioClass : ℕ
  nrCaravanReq : Int32
  nrReq : Int32
  /-- `hrtimer_active(&queue->doorbell_timer)` -/
  doorbellTimer : Bool
  timerSet : ℤ

def i10HostIsLatency (q : NvmeTcpQueue) : Bool := q.prioClass == 1

def i10HostLegacyPath (c : Config) (q : NvmeTcpQueue) : Bool :=
  c.qid == 0 || i10HostIsLatency q || decide (c.i10DelayedDoorbellUs < I10_MIN_DOORBELL_TIMEOUT)

/-- A request that waits for the doorbell and is counted in `nr_req`. -/
def isDelayed (c : Config) (q : NvmeTcpQueue) (t : ℕ) : Bool :=
  !i10HostLegacyPath c q && !i10HostIsNodelayPath (q.reqs t)

/-- `nvme_tcp_queue_request` up to `spin_unlock`, with its `no_delay`. -/
def nvmeTcpQueueRequestLocked (c : Config) (t : ℕ) (q : NvmeTcpQueue) : Bool × NvmeTcpQueue :=
  let q := { q with
    prioClass := if c.qid ≤ c.numOnlineCpus then 0 else 1
    sendList := q.sendList ++ [t] }
  if isDelayed c q t then
    let q := { q with nrReq := q.nrReq + 1 }
    if q.nrReq = 1 ∧ q.doorbellTimer = false then
      (false, { q with doorbellTimer := true, timerSet := q.timerSet + 1 })
    else (false, q)
  else (true, q)

/-- The rest of `nvme_tcp_queue_request`, and whether it queues work. -/
def nvmeTcpQueueRequestUnlocked (noDelay : Bool) (q : NvmeTcpQueue) : Bool × NvmeTcpQueue :=
  if noDelay = false ∧ q.nrReq.toInt < I10_AGGREGATION_SIZE then (false, q)
  else (true, { q with doorbellTimer := false, timerSet := 0 })

/-- `nvme_tcp_try_send` up to the caravan flush; `true` when it returns 0 there. -/
def nvmeTcpTrySendDequeue (c : Config) (q : NvmeTcpQueue) : Bool × NvmeTcpQueue :=
  match q.request with
  | some _ => (false, q)
  | none =>
    let q :=
      match q.sendList with
      | t :: rest =>
        { q with
          sendList := rest
          nrCaravanReq := if isDelayed c q t then q.nrCaravanReq + 1 else q.nrCaravanReq
          request := some t }
      | [] =>
        if (q.timerSet = 0 ∨ q.doorbellTimer = false) ∧ q.caravanLen ≠ 0 then
          { q with
            nrReq := q.nrReq - q.nrCaravanReq
            nrCaravanReq := 0
            timerSet := 0
            sendNow := true }
        else q
    (q.request.isNone && q.caravanLen == 0, q)

/-- `nvme_tcp_try_send` from the caravan flush on. -/
def nvmeTcpTrySendRest (c : Config) (nospace : Bool) (q : NvmeTcpQueue) : ℤ × NvmeTcpQueue :=
  let p := trySendRest c I10_MAX_AGGREGATION_SIZE
    (i10HostLegacyPath c q) q.sendNow nospace q.toSendQueue
  (p.1, { q with toSendQueue := p.2 })

/-- `nvme_tcp_try_send` undisturbed, with space in the socket for all it sends. -/
def nvmeTcpTrySend (c : Config) (q : NvmeTcpQueue) : ℤ × NvmeTcpQueue :=
  let p := nvmeTcpTrySendDequeue c q
  if p.1 then (0, p.2) else nvmeTcpTrySendRest c false { p.2 with replies := [] }

/-- `nvme_tcp_handle_r2t` undisturbed, for the request `t` that `command_id` stands for; `false`
when it returns -EPROTO. -/
def NvmeTcpQueue.nvmeTcpHandleR2t (c : Config) (t : ℕ) (pdu : NvmeTcpR2tPdu) (q : NvmeTcpQueue) :
    Bool × NvmeTcpQueue :=
  let p := nvmeTcpSetupH2cDataPdu c (q.reqs t) pdu
  if p.1 then
    let l := nvmeTcpQueueRequestLocked c t
      { q with toSendQueue := q.modifyReq t fun _ => { p.2 with state := .h2cPdu, offset := 0 } }
    (true, (nvmeTcpQueueRequestUnlocked l.1 l.2).2)
  else (false, { q with toSendQueue := q.modifyReq t fun _ => p.2 })

/-- `io_work` and `io_work_lat`. -/
inductive Lane
  | thru
  | lat
  deriving DecidableEq, Repr

/-- Where a worker stands: before `nvme_tcp_try_send`, behind its dequeue, or behind the
whole of it with its result. -/
inductive IoWorkPc
  | idle
  | send
  | flush
  | recv (result : ℤ)
  deriving DecidableEq, Repr

structure Work where
  queued : Bool
  pc : IoWorkPc
  deriving DecidableEq, Repr

structure HostState where
  q : NvmeTcpQueue
  work : Lane → Work
  /-- `no_delay` of each `nvme_tcp_queue_request` call that is past its lock -/
  calls : List Bool
  /-- the arguments of `nvme_tcp_fail_request` so far, `none` for NULL -/
  failed : List (Option ℕ)
  /-- the PDUs handed to `nvme_tcp_queue_request`, in order -/
  submitted : List (List Byte)

namespace HostState

def queueWork (s : HostState) (l : Lane) : HostState :=
  { s with work := Function.update s.work l { s.work l with queued := true } }

def setPc (s : HostState) (l : Lane) (pc : IoWorkPc) : HostState :=
  { s with work := Function.update s.work l { s.work l with pc := pc } }

/-- `queue_work_on` of the worker the queue's class selects. -/
def kick (s : HostState) : HostState := s.queueWork (if i10HostIsLatency s.q then .lat else .thru)

end HostState

inductive HostEvent
  | queueRq (t : ℕ) (rq : Rq)
  | handleR2t (t : ℕ) (pdu : NvmeTcpR2tPdu)
  | requestUnlocked (i : ℕ)
  | doorbellTimeout
  | dataReady
  | writeSpace
  | workStart (l : Lane)
  | sendDequeue (l : Lane)
  | sendRest (l : Lane) (nospace : Bool) (replies : List SockReply)
  | tryRecv (l : Lane) (got expired : Bool)

/-- Neither on `send_list` nor being sent nor referenced by the caravan. -/
def Free (q : SendQueue) (sendList : List ℕ) (t : ℕ) : Prop :=
  t ∉ sendList ∧ q.request ≠ some t ∧ ∀ k ∈ q.caravanIovs, ∀ off, k.base ≠ .pdu t off

instance (q : SendQueue) (sendList : List ℕ) (t : ℕ) : Decidable (Free q sendList t) :=
  decidable_of_iff (t ∉ sendList ∧ q.request ≠ some t ∧
      ∀ k ∈ q.caravanIovs,
        (match k.base with | .pdu u _ => u != t | .page _ _ => true) = true) <| by
    refine and_congr_right fun _ => and_congr_right fun _ => forall₂_congr fun k _ => ?_
    cases k.base <;> simp

/-- The block layer reuses a tag, and a conforming target answers a PDU, only then. -/
abbrev Unused (q : NvmeTcpQueue) (t : ℕ) : Prop := Free q.toSendQueue q.sendList t

/-- The PDU that `nvme_tcp_setup_cmd_pdu` prepares for `rq`. -/
def submittedCmd (c : Config) (rq : Rq) (r : NvmeTcpRequest) : List Byte :=
  wirePdu c (cmdPdu c rq r.dataLen r.pduLen).encode (if r.pduLen = 0 then [] else rq.data)

/-- The PDU that `nvme_tcp_setup_h2c_data_pdu` prepares, `r` being its result. -/
def submittedH2c (c : Config) (r : NvmeTcpRequest) (ttag : UInt16) : List Byte :=
  wirePdu c (h2cPdu c r ttag).encode ((r.rq.data.drop r.dataSent).take r.pduLen)

/-- A prepared request goes through the locked part of `nvme_tcp_queue_request`. -/
def submit (c : Config) (s : HostState) (t : ℕ) (r : NvmeTcpRequest) (pdu : List Byte) :
    HostState :=
  let q := { s.q with toSendQueue := s.q.modifyReq t fun _ => r }
  let p := nvmeTcpQueueRequestLocked c t q
  { s with q := p.2, calls := s.calls ++ [p.1], submitted := s.submitted ++ [pdu] }

def sendFailed (s : HostState) (l : Lane) (result : ℤ) : HostState :=
  let s :=
    if result ≠ -EPIPE ∧ result ≠ -ECONNRESET then { s with failed := s.failed ++ [s.q.request] }
    else s
  { s with q := { s.q with toSendQueue := nvmeTcpDoneSendReq s.q.toSendQueue } }.setPc l .idle

def hostStep (c : Config) (s : HostState) : HostEvent → Option HostState
  | .queueRq t rq =>
    if Unused s.q t then
      let r := nvmeTcpSetupCmdPdu c rq (s.q.reqs t)
      some (submit c s t r (submittedCmd c rq r))
    else none
  | .handleR2t t pdu =>
    if Unused s.q t then
      let p := nvmeTcpSetupH2cDataPdu c (s.q.reqs t) pdu
      if p.1 then
        some (submit c s t { p.2 with state := .h2cPdu, offset := 0 } (submittedH2c c p.2 pdu.ttag))
      else some { s with q := { s.q with toSendQueue := s.q.modifyReq t fun _ => p.2 } }
    else none
  | .requestUnlocked i =>
    match s.calls[i]? with
    | none => none
    | some noDelay =>
      let p := nvmeTcpQueueRequestUnlocked noDelay s.q
      let s := { s with q := p.2, calls := s.calls.eraseIdx i }
      some (if p.1 then s.kick else s)
  | .doorbellTimeout =>
    if s.q.doorbellTimer then
      some { s with q := { s.q with doorbellTimer := false, timerSet := 0 } }.kick
    else none
  | .dataReady => some s.kick
  | .writeSpace => some { s with q := { s.q with sockNospace := false } }.kick
  | .workStart l =>
    if (s.work l).queued ∧ (s.work l).pc = .idle then
      some { s with work := Function.update s.work l ⟨false, .send⟩ }
    else none
  | .sendDequeue l =>
    if (s.work l).pc = .send then
      let p := nvmeTcpTrySendDequeue c s.q
      some ({ s with q := p.2 }.setPc l (if p.1 then .recv 0 else .flush))
    else none
  | .sendRest l nospace replies =>
    if (s.work l).pc = .flush then
      let p := nvmeTcpTrySendRest c nospace { s.q with replies := replies }
      let s := { s with q := p.2 }
      some (if p.1 < 0 then sendFailed s l p.1 else s.setPc l (.recv p.1))
    else none
  | .tryRecv l got expired =>
    match (s.work l).pc with
    | .recv result =>
      if result ≤ 0 ∧ got = false then some (s.setPc l .idle)
      else if expired then some ((s.setPc l .idle).queueWork l)
      else some (s.setPc l .send)
    | _ => none

def blankRq : Rq where
  write := false
  nrPhysSegments := 0
  specialVec := none
  bio := []
  tag := 0
  cmd := ⟨0, 0, 0, 0, 0, 0, 0, ⟨0, 0, (0, 0, 0), 0⟩, 0, 0, 0, 0, 0, 0⟩
  backed := by simp
  special := by simp
  small := by simp

def blankRequest (c : Config) : NvmeTcpRequest where
  rq := blankRq
  pdu := List.replicate (72 + nvmeTcpHdgstLen c) 0
  dataLen := 0
  pduLen := 0
  pduSent := 0
  ddgst := []
  afterDdgst := []
  currBio := []
  iter := ⟨[], 0, 0⟩
  offset := 0
  dataSent := 0
  state := .cmdPdu

def blankQueue (c : Config) : NvmeTcpQueue where
  reqs := fun _ => blankRequest c
  request := none
  caravanIovs := []
  caravanLen := 0
  caravanMapped := []
  sendNow := false
  sndHash := []
  sent := []
  sockNospace := false
  replies := []
  sendList := []
  prioClass := 0
  nrCaravanReq := 0
  nrReq := 0
  doorbellTimer := false
  timerSet := 0

def hostSystem (c : Config) : Runs.System HostState HostEvent where
  init := ⟨blankQueue c, fun _ => ⟨false, .idle⟩, [], [], []⟩
  step := hostStep c

def withCpus (c : Config) (n : ℕ) : Config := { c with numOnlineCpus := n }

/-- The same queue while CPUs go online and offline: every event comes with the number of CPUs at
the time. -/
def hotplugSystem (c : Config) : Runs.System HostState (ℕ × HostEvent) where
  init := (hostSystem c).init
  step := fun s e => hostStep (withCpus c e.1) s e.2

section Reuse

def Out (q : NvmeTcpQueue) (t : ℕ) : Prop := t ∉ q.sendList ∧ q.request ≠ some t

instance (q : NvmeTcpQueue) (t : ℕ) : Decidable (Out q t) := inferInstanceAs (Decidable (_ ∧ _))

inductive ReuseEvent
  | queueRq (t : ℕ) (rq : Rq)
  | handleR2t (t : ℕ) (pdu : NvmeTcpR2tPdu)
  /-- the receive path leaves the request of a read further on in its bios -/
  | recvData (t : ℕ) (r : NvmeTcpRequest)
  | host (e : HostEvent)

def reuseStep (c : Config) (s : HostState) : ReuseEvent → Option HostState
  | .queueRq t rq =>
    if Out s.q t then
      let r := nvmeTcpSetupCmdPdu c rq (s.q.reqs t)
      some (submit c s t r (submittedCmd c rq r))
    else none
  | .handleR2t t pdu =>
    if Out s.q t then
      let p := nvmeTcpSetupH2cDataPdu c (s.q.reqs t) pdu
      if p.1 then
        some (submit c s t { p.2 with state := .h2cPdu, offset := 0 } (submittedH2c c p.2 pdu.ttag))
      else some { s with q := { s.q with toSendQueue := s.q.modifyReq t fun _ => p.2 } }
    else none
  | .recvData t r =>
    if Out s.q t then some { s with q := { s.q with toSendQueue := s.q.modifyReq t fun _ => r } }
    else none
  | .host e => hostStep c s e

/-- The same queue when a tag is handed out again as soon as its request is out, as it is behind a
failed send that left it in the caravan, and with what the receive path does to requests. -/
def reuseSystem (c : Config) : Runs.System HostState ReuseEvent where
  init := (hostSystem c).init
  step := reuseStep c

end Reuse

end BlkSwitch.Host
