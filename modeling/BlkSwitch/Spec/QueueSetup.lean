import BlkSwitch.Lib.Arena
import BlkSwitch.Lib.Runs

/-! Setting queues up and tearing them down on both sides, with what they allocate for caravans and
with the sockets of the host (drivers/nvme/host/tcp.c, drivers/nvme/target/tcp.c). The receive PDU,
the hashes and the tag sets are left out; a step that allocates one of them may fail like any
other. -/

namespace BlkSwitch.Host

open Blocks (Arena)

/-- The steps of `nvme_tcp_alloc_queue` that can fail, in their order. -/
inductive SetupStep
  | caravanIovs
  | caravanMapped
  | sockCreate
  | tcpSyncnt
  | tcpNodelay
  | soSndbufforce
  | soRcvbufforce
  | soLinger
  | ipTos
  | bind
  | allocCrypto
  | pdu
  | connect
  | initConnection
  deriving DecidableEq, Repr

structure SetupQueue where
  caravanIovs : Option ℕ
  caravanMapped : Option ℕ
  /-- NULL, or a socket, which may be gone -/
  sock : Option ℕ
  /-- `NVME_TCP_Q_ALLOCATED` -/
  allocated : Bool
  /-- the socket that the queue's last set-up has created -/
  created : Option ℕ
  deriving DecidableEq, Repr

/-- A call of `sock_release`, and what the set-up of the queue had created. -/
structure SockRelease where
  sock : Option ℕ
  created : Option ℕ
  deriving DecidableEq, Repr

structure SetupState where
  queues : ℕ → SetupQueue
  queueCount : ℕ
  arena : Arena
  nextSock : ℕ
  releases : List SockRelease
  /-- the last set-up has returned 0 -/
  up : Bool

def SetupState.setQueue (qid : ℕ) (q : SetupQueue) (s : SetupState) : SetupState :=
  { s with queues := Function.update s.queues qid q }

section Queue

variable (qid : ℕ) (s : SetupState)

def sockRelease : SetupState :=
  { s with releases := ⟨(s.queues qid).sock, (s.queues qid).created⟩ :: s.releases }

def errSock : SetupState := (sockRelease qid s).setQueue qid { s.queues qid with sock := none }

def kcallocIovs : SetupState :=
  { s.setQueue qid { s.queues qid with caravanIovs := some s.arena.next } with
    arena := s.arena.alloc }

def kcallocMapped : SetupState :=
  { s.setQueue qid { s.queues qid with caravanMapped := some s.arena.next } with
    arena := s.arena.alloc }

def sockCreate : SetupState :=
  { s.setQueue qid { s.queues qid with sock := some s.nextSock, created := some s.nextSock } with
    nextSock := s.nextSock + 1 }

/-- Whether it returns 0, and what it leaves. -/
def nvmeTcpAllocQueue (fails : Option SetupStep) : Bool × SetupState :=
  let s := s.setQueue qid { s.queues qid with created := none }
  if fails = some .caravanIovs then
    (false, errSock qid (s.setQueue qid { s.queues qid with caravanIovs := none }))
  else
    let s := kcallocIovs qid s
    if fails = some .caravanMapped then
      (false, errSock qid (s.setQueue qid { s.queues qid with caravanMapped := none }))
    else
      let s := kcallocMapped qid s
      -- this exit returns at once
      if fails = some .sockCreate then (false, s)
      else
        let s := sockCreate qid s
        -- the labels of all the others fall through to `err_sock`
        if fails.isSome then (false, errSock qid s)
        else (true, s.setQueue qid { s.queues qid with allocated := true })

/-- The pointers stay as they are. -/
def nvmeTcpFreeQueue : SetupState :=
  if (s.queues qid).allocated then
    { (sockRelease qid s).setQueue qid { s.queues qid with allocated := false } with
      arena := (s.arena.free (s.queues qid).caravanIovs).free (s.queues qid).caravanMapped }
  else s

end Queue

def freeQueues (qids : List ℕ) (s : SetupState) : SetupState :=
  qids.foldl (fun s qid => nvmeTcpFreeQueue qid s) s

def nvmeTcpFreeIoQueues (s : SetupState) : SetupState :=
  freeQueues (List.range' 1 (s.queueCount - 1)) s

/-- The loop of `__nvme_tcp_alloc_io_queues` from queue `i` on, with `n` queues to go; the queues
before the one that fails are freed. -/
def allocIoQueues (fails : ℕ → Option SetupStep) : (n i : ℕ) → SetupState → Bool × SetupState
  | 0, _, s => (true, s)
  | n + 1, i, s =>
    let r := nvmeTcpAllocQueue i s (fails i)
    if r.1 then allocIoQueues fails n (i + 1) r.2
    else (false, freeQueues (List.range' 1 (i - 1)).reverse r.2)

/-- How the parts of `nvme_tcp_setup_ctrl` turn out. -/
structure SetupOutcome where
  adminQueue : Option SetupStep
  asyncReq : Bool
  /-- tag set, queues, connect, enable and identify -/
  adminStart : Bool
  icdoff : Bool
  /-- the count that `nvme_set_queue_count` leaves, if it does not fail -/
  granted : Option ℕ
  ioQueues : ℕ → Option SetupStep
  /-- tag set, connect queue and the connects -/
  ioStart : Bool
  /-- the change to `NVME_CTRL_LIVE` -/
  live : Bool

section Ctrl

variable (o : SetupOutcome) (s : SetupState)

def allocAdminQueue : Bool × SetupState :=
  let r := nvmeTcpAllocQueue 0 s o.adminQueue
  if r.1 then if o.asyncReq then r else (false, nvmeTcpFreeQueue 0 r.2) else r

def configureAdminQueue : Bool × SetupState :=
  let r := allocAdminQueue o s
  if r.1 then if o.adminStart then r else (false, nvmeTcpFreeQueue 0 r.2) else r

def configureIoQueues : Bool × SetupState :=
  match o.granted with
  | none => (false, s)
  | some n =>
    let r := allocIoQueues o.ioQueues n 1 { s with queueCount := n + 1 }
    if r.1 then if o.ioStart then r else (false, nvmeTcpFreeIoQueues r.2) else r

def nvmeTcpSetupCtrl : Bool × SetupState :=
  let r := configureAdminQueue o s
  if r.1 then
    -- `ret` is still 0 here
    if o.icdoff then (true, nvmeTcpFreeQueue 0 r.2)
    else
      let r := if 1 < r.2.queueCount then configureIoQueues o r.2 else r
      if r.1 then
        if o.live then r
        else (false, nvmeTcpFreeQueue 0
          (if 1 < r.2.queueCount then nvmeTcpFreeIoQueues r.2 else r.2))
      else (false, nvmeTcpFreeQueue 0 r.2)
  else r

/-- `nvme_tcp_teardown_io_queues` and `nvme_tcp_teardown_admin_queue`. -/
def nvmeTcpTeardownCtrl : SetupState :=
  nvmeTcpFreeQueue 0 (if s.queueCount ≤ 1 then s else nvmeTcpFreeIoQueues s)

end Ctrl

inductive SetupEvent
  /-- a first connect, a reconnect or a reset, when the controller is down -/
  | setupCtrl (o : SetupOutcome)
  | teardown

def setupStep (s : SetupState) : SetupEvent → Option SetupState
  | .setupCtrl o =>
    if s.up then none
    else
      let r := nvmeTcpSetupCtrl o s
      some { r.2 with up := r.1 }
  | .teardown => some { nvmeTcpTeardownCtrl s with up := false }

def setupSystem (queueCount : ℕ) : Runs.System SetupState SetupEvent where
  init := ⟨fun _ => ⟨none, none, none, false, none⟩, queueCount, .empty, 0, [], false⟩
  step := setupStep

end BlkSwitch.Host

namespace BlkSwitch.Target

open Blocks (Arena)

/-- The steps of `nvmet_tcp_alloc_queue` that can fail, in their order. -/
inductive SetupStep
  | queue
  | caravanIovs
  | caravanCmds
  | caravanMapped
  | ida
  | allocCmd
  | sqInit
  | setQueueSock
  deriving DecidableEq, Repr

structure SetupQueue where
  caravanIovs : ℕ
  caravanCmds : ℕ
  caravanMapped : ℕ
  deriving DecidableEq, Repr

structure SetupState where
  /-- the queues that have not been released -/
  queues : List SetupQueue
  arena : Arena

def allocQueueCaravan (fails : Option SetupStep) (s : SetupState) : SetupState :=
  if fails = some .queue ∨ fails = some .caravanIovs then s
  else
    let iovs := s.arena.next
    let arena := s.arena.alloc
    if fails = some .caravanCmds then { s with arena := arena.free (some iovs) }
    else
      let cmds := arena.next
      let arena := arena.alloc
      if fails = some .caravanMapped then
        { s with arena := (arena.free (some cmds)).free (some iovs) }
      else
        let mapped := arena.next
        let arena := arena.alloc
        -- the labels of the others fall through to `out_free_mapped`
        if fails.isSome then
          { s with arena := ((arena.free (some mapped)).free (some cmds)).free (some iovs) }
        else
          { queues := s.queues ++ [⟨iovs, cmds, mapped⟩]
            arena := arena }

inductive SetupEvent
  | allocQueue (fails : Option SetupStep)
  /-- `nvmet_tcp_release_queue_work`: the queue itself is freed, nothing of its caravan is -/
  | releaseQueue (j : ℕ)

def setupStep (s : SetupState) : SetupEvent → Option SetupState
  | .allocQueue fails => some (allocQueueCaravan fails s)
  | .releaseQueue j =>
    if j < s.queues.length then some { s with queues := s.queues.eraseIdx j }
    else none

def setupSystem : Runs.System SetupState SetupEvent where
  init := ⟨[], .empty⟩
  step := setupStep

end BlkSwitch.Target
