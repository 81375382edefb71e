import BlkSwitch.Spec.HostQueue

/-! The two workers of one nvme-tcp host queue when they get in each other's way
(drivers/nvme/host/tcp.c). `nvme_tcp_try_send_data` maps a page between its test of the caravan and
its append, and `kmap` may give the CPU away; `io_work_lat` is on a queue of higher priority than
`io_work`. A worker can be stopped at that point here. CPUs go online and offline. -/

namespace BlkSwitch.Host

open SendQueue

/-- An append whose test is behind it, and what the worker knows about its request. -/
structure PendingAppend where
  t : ℕ
  kvec : Kvec
  last : Bool
  deriving DecidableEq, Repr

structure PreemptState where
  host : HostState
  held : Lane → Option PendingAppend

def PreemptState.AllMoving (s : PreemptState) : Prop := s.held .thru = none ∧ s.held .lat = none

instance (s : PreemptState) : Decidable s.AllMoving := inferInstanceAs (Decidable (_ ∧ _))

/-- `nvme_tcp_try_send` from the caravan flush to the first `kmap`: a flush that is due succeeds,
and so do the headers of the request. -/
def untilMap (c : Config) (q : NvmeTcpQueue) : Option (PendingAppend × SendQueue) :=
  let legacy := i10HostLegacyPath c q
  let p :=
    if q.sendNow then (fun p => (p.1, caravanSent p.2)) (q.kernelSend q.caravanBytes)
    else (1, q.toSendQueue)
  match q.request with
  | none => none
  | some t =>
    let h := stage t .cmdPdu (nvmeTcpTrySendCmdPdu c I10_MAX_AGGREGATION_SIZE legacy t)
      (stage t .h2cPdu (nvmeTcpTrySendDataPdu c I10_MAX_AGGREGATION_SIZE legacy t) Prod.mk) 1 p.2
    let r := h.2.reqs t
    if 0 < p.1 ∧ 0 < h.1 ∧ r.state = .data ∧ legacy = false ∧
        h.2.i10HostIsCaravanFull I10_MAX_AGGREGATION_SIZE = false then
      some (⟨t, ⟨.page r.reqCurBvec r.iter.iovOffset, r.reqCurLength⟩,
        r.pduLastSend r.reqCurLength⟩, h.2)
    else none

def fromMap (c : Config) (legacy : Bool) (a : PendingAppend) (q : SendQueue) : ℤ × SendQueue :=
  let q := q.append a.kvec
  let p : ℤ × SendQueue :=
    if a.kvec.len = 0 then (0, q)
    else
      let q := dataSentUpdate c a.t (a.kvec.bytes q.reqs) a.kvec.len q
      if a.last then (1, dataDone c a.t q)
      else nvmeTcpTrySendData c I10_MAX_AGGREGATION_SIZE legacy a.t q
  let p := if p.1 ≤ 0 then p else stage a.t .ddgst (nvmeTcpTrySendDdgst a.t) Prod.mk p.1 p.2
  (if p.1 = -EAGAIN then 0 else p.1, p.2)

inductive PreemptEvent
  | run (cpus : ℕ) (e : ReuseEvent)
  | mapStart (cpus : ℕ) (l : Lane) (replies : List SockReply)
  | mapEnd (cpus : ℕ) (l : Lane) (replies : List SockReply)

/-- The worker whose turn behind the dequeue this is. -/
def ReuseEvent.sender : ReuseEvent → Option Lane
  | .host (.sendRest l _ _) => some l
  | _ => none

def preemptStep (c : Config) (s : PreemptState) : PreemptEvent → Option PreemptState
  | .run cpus e =>
    if e.sender.all fun l => (s.held l).isNone then
      (reuseStep (withCpus c cpus) s.host e).map fun host => { s with host := host }
    else none
  | .mapStart cpus l replies =>
    if (s.host.work l).pc = .flush ∧ s.held l = none then
      (untilMap (withCpus c cpus) { s.host.q with replies := replies }).map fun p =>
        ⟨{ s.host with q := { s.host.q with toSendQueue := p.2 } },
          Function.update s.held l (some p.1)⟩
    else none
  | .mapEnd cpus l replies =>
    match s.held l with
    | none => none
    | some a =>
      let c := withCpus c cpus
      let p := fromMap c (i10HostLegacyPath c s.host.q) a
        { s.host.q.toSendQueue with replies := replies }
      let host := { s.host with q := { s.host.q with toSendQueue := p.2 } }
      some ⟨if p.1 < 0 then sendFailed host l p.1 else host.setPc l (.recv p.1),
        Function.update s.held l none⟩

def preemptSystem (c : Config) : Runs.System PreemptState PreemptEvent where
  init := ⟨(hostSystem c).init, fun _ => none⟩
  step := preemptStep c

end BlkSwitch.Host
