import BlkSwitch.Spec.HostQueue

/-! One queue of the i10 host with everything that runs against it (drivers/nvme/host/i10.c).
The send path is that of the nvme-tcp host with half the aggregation size; what differs is who
rings the doorbell, and that `nr_req` is counted outside the queue's lock. A step is again the
part of a function between two points where another party can get in:
`i10_host_queue_request` is cut behind its `spin_unlock` and behind its `nr_req++`,
`i10_host_try_send` behind its fetch. -/

namespace BlkSwitch.I10

open Host

structure I10HostQueue extends SendQueue where
  sendList : List ℕ
  nrReq : ℤ
  /-- `hrtimer_active(&queue->doorbell_timer)` -/
  doorbellTimer : Bool

def i10HostLegacyPath (c : Config) : Bool :=
  c.qid == 0 || decide (c.i10DelayedDoorbellUs < I10_MIN_DOORBELL_TIMEOUT)

def isDelayed (c : Config) (q : I10HostQueue) (t : ℕ) : Bool :=
  !i10HostLegacyPath c && !i10HostIsNodelayPath (q.reqs t)

/-- How far a call of `i10_host_queue_request` is: past its `spin_unlock`, or past its
`nr_req++`. -/
inductive CallPc
  | listed
  | counted
  deriving DecidableEq, Repr

/-- `i10_host_queue_request` up to `spin_unlock`. -/
def i10HostQueueRequestLocked (t : ℕ) (q : I10HostQueue) : I10HostQueue :=
  { q with sendList := q.sendList ++ [t] }

/-- The next part of `i10_host_queue_request`: where the call stands then (`none` when it has
returned), whether it queues work, and the queue. -/
def i10HostQueueRequestNext (c : Config) (t : ℕ) : CallPc → I10HostQueue →
    Option CallPc × Bool × I10HostQueue
  | .listed, q =>
    if isDelayed c q t then (some .counted, false, { q with nrReq := q.nrReq + 1 })
    else (none, true, { q with doorbellTimer := false })
  | .counted, q =>
    if q.doorbellTimer = false ∧ q.nrReq = 1 then (none, false, { q with doorbellTimer := true })
    else if I10_AGGREGATION_SIZE ≤ q.nrReq then (none, true, { q with doorbellTimer := false })
    else (none, false, q)

/-- `i10_host_try_send` up to the caravan flush; `true` when it returns 0 there. -/
def i10HostTrySendFetch (q : I10HostQueue) : Bool × I10HostQueue :=
  match q.request with
  | some _ => (false, q)
  | none =>
    match q.sendList with
    | t :: rest => (false, { q with sendList := rest, request := some t })
    | [] => (q.caravanLen == 0, q)

def i10HostSendCaravan (q : I10HostQueue) : Bool :=
  q.sendNow || (!q.doorbellTimer && q.request.isNone && q.caravanLen != 0)

/-- `i10_host_try_send` from the caravan flush on. A caravan that has been sent takes `nr_req`
with it. -/
def i10HostTrySendRest (c : Config) (nospace : Bool) (q : I10HostQueue) : ℤ × I10HostQueue :=
  let flush := i10HostSendCaravan q
  let sent := flush && !nospace && decide (0 < (q.kernelSend q.caravanBytes).1)
  let p := trySendRest c I10_AGGREGATION_SIZE (i10HostLegacyPath c) flush nospace q.toSendQueue
  (p.1, { q with toSendQueue := p.2, nrReq := if sent then 0 else q.nrReq })

structure I10State where
  q : I10HostQueue
  work : Work
  /-- the `i10_host_queue_request` calls that have not returned, with their requests -/
  calls : List (ℕ × CallPc)
  /-- the arguments of `i10_host_fail_request` so far, `none` for NULL -/
  failed : List (Option ℕ)

namespace I10State

def queueWork (s : I10State) : I10State := { s with work := { s.work with queued := true } }

def setPc (s : I10State) (pc : IoWorkPc) : I10State := { s with work := { s.work with pc := pc } }

end I10State

inductive I10Event
  | queueRq (t : ℕ) (rq : Rq)
  | handleR2t (t : ℕ) (pdu : NvmeTcpR2tPdu)
  | requestNext (i : ℕ)
  | doorbellTimeout
  | dataReady
  | writeSpace
  | workStart
  | sendFetch
  | sendRest (nospace : Bool) (replies : List SockReply)
  | tryRecv (got expired : Bool)

def submit (s : I10State) (t : ℕ) (r : NvmeTcpRequest) : I10State :=
  { s with
    q := i10HostQueueRequestLocked t { s.q with toSendQueue := s.q.modifyReq t fun _ => r }
    calls := s.calls ++ [(t, .listed)] }

def sendFailed (s : I10State) (result : ℤ) : I10State :=
  let s :=
    if result ≠ -EPIPE ∧ result ≠ -ECONNRESET then { s with failed := s.failed ++ [s.q.request] }
    else s
  { s with q := { s.q with toSendQueue := nvmeTcpDoneSendReq s.q.toSendQueue } }.setPc .idle

def i10Step (c : Config) (s : I10State) : I10Event → Option I10State
  | .queueRq t rq =>
    if Free s.q.toSendQueue s.q.sendList t then
      some (submit s t (nvmeTcpSetupCmdPdu c rq (s.q.reqs t)))
    else none
  | .handleR2t t pdu =>
    if Free s.q.toSendQueue s.q.sendList t then
      let p := nvmeTcpSetupH2cDataPdu c (s.q.reqs t) pdu
      if p.1 then some (submit s t { p.2 with state := .h2cPdu, offset := 0 })
      else some { s with q := { s.q with toSendQueue := s.q.modifyReq t fun _ => p.2 } }
    else none
  | .requestNext i =>
    match s.calls[i]? with
    | none => none
    | some (t, pc) =>
      let p := i10HostQueueRequestNext c t pc s.q
      let s := { s with
        q := p.2.2
        calls := match p.1 with | some pc => s.calls.set i (t, pc) | none => s.calls.eraseIdx i }
      some (if p.2.1 then s.queueWork else s)
  | .doorbellTimeout =>
    if s.q.doorbellTimer then some { s with q := { s.q with doorbellTimer := false } }.queueWork
    else none
  | .dataReady => some s.queueWork
  | .writeSpace => some { s with q := { s.q with sockNospace := false } }.queueWork
  | .workStart =>
    if s.work.queued ∧ s.work.pc = .idle then some { s with work := ⟨false, .send⟩ }
    else none
  | .sendFetch =>
    if s.work.pc = .send then
      let p := i10HostTrySendFetch s.q
      some ({ s with q := p.2 }.setPc (if p.1 then .recv 0 else .flush))
    else none
  | .sendRest nospace replies =>
    if s.work.pc = .flush then
      let p := i10HostTrySendRest c nospace { s.q with replies := replies }
      let s := { s with q := p.2 }
      some (if p.1 < 0 then sendFailed s p.1 else s.setPc (.recv p.1))
    else none
  | .tryRecv got expired =>
    match s.work.pc with
    | .recv result =>
      if result ≤ 0 ∧ got = false then some (s.setPc .idle)
      else if expired then some (s.setPc .idle).queueWork
      else some (s.setPc .send)
    | _ => none

def i10System (c : Config) : Runs.System I10State I10Event where
  init :=
    { q :=
        { toSendQueue := (blankQueue c).toSendQueue
          sendList := []
          nrReq := 0
          doorbellTimer := false }
      work := ⟨false, .idle⟩
      calls := []
      failed := [] }
  step := i10Step c

end BlkSwitch.I10
