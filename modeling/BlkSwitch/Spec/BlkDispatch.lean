import BlkSwitch.Spec.BlkSwqueue
import BlkSwitch.Spec.BlkTags

/-! From the software queues to the driver (block/blk-mq.c). Requests wait on the lists of software
queues, on the dispatch list of a hardware queue or on the requeue list; `blk_mq_dispatch_rq_list`
offers them to the driver and puts back what it does not get rid of. `held` is what submitters and
the code of blk-mq-sched.c have in their hands: that file is not part of the repository, and what it
does here is call the functions of this one with requests it has. Tags, budgets and the answers of
the driver are arguments. -/

namespace BlkSwitch.Blk

inductive MqRqState
  | idle
  | inFlight
  | complete
  deriving DecidableEq, Repr

inductive BlkStatus
  | ok
  | resource
  | devResource
  | ioerr
  deriving DecidableEq, Repr

structure MqRequest where
  mqCtx : ℕ
  tags : TagRequest
  state : MqRqState
  /-- RQF_SOFTBARRIER -/
  softbarrier : Bool
  /-- RQF_DONTPREP -/
  dontprep : Bool
  /-- RQF_TIMED_OUT -/
  timedOut : Bool
  deriving DecidableEq, Repr

structure HctxFlags where
  dispatchBusy : UInt32
  dispatched : ℕ → ℕ
  /-- BLK_MQ_S_STOPPED -/
  stopped : Bool
  /-- BLK_MQ_S_SCHED_RESTART -/
  restart : Bool
  /-- `dispatch_wait` is on a wait queue -/
  waiting : Bool
  /-- `run_work` is pending -/
  runWork : Bool
  /-- runs that have not come to the dispatch list yet -/
  running : ℕ

/-- Where a call of `blk_mq_dispatch_rq_list` is: in its loop, behind it, or behind the splice. -/
inductive CallPc
  | loop
  | out
  | rerun
  deriving DecidableEq, Repr

/-- Its variables, but for the list. -/
structure DispatchCall where
  gotBudget : Bool
  hctx : ℕ
  queued : ℕ
  errors : ℕ
  noTag : Bool
  ret : BlkStatus
  pc : CallPc
  deriving DecidableEq, Repr

structure MqConfig where
  nrHwQueues : ℕ
  pos : 0 < nrHwQueues
  queues : SwQueues
  elevator : Bool
  /-- BLK_MQ_F_BLOCKING -/
  blocking : Bool
  /-- BLK_MQ_F_TAG_SHARED -/
  tagShared : ℕ → Bool

/-- Where a request can be: in the hands of a caller, on a software queue, on a dispatch list, on
the requeue list or on that of its worker, on the list of a dispatch, on that of a
`blk_mq_try_issue_list_directly`, with the driver, or done. -/
inductive Place
  | held
  | ctx (cpu : ℕ) (type : HctxType)
  | dispatch (hctx : ℕ)
  | requeue
  | requeuing
  | call (w : ℕ)
  | issue (w : ℕ)
  | driver
  | ended
  deriving DecidableEq, Repr

structure MqLists where
  /-- requests are numbered as they are allocated -/
  born : ℕ
  held : List ℕ
  sw : SwLists
  dispatch : ℕ → List ℕ
  requeue : List ℕ
  requeuing : List ℕ
  calls : ℕ → List ℕ
  issues : ℕ → List ℕ
  driver : List ℕ
  ended : List ℕ

def MqLists.on (l : MqLists) : Place → List ℕ
  | .held => l.held
  | .ctx cpu type => l.sw.rqLists cpu type
  | .dispatch h => l.dispatch h
  | .requeue => l.requeue
  | .requeuing => l.requeuing
  | .call w => l.calls w
  | .issue w => l.issues w
  | .driver => l.driver
  | .ended => l.ended

structure MqState where
  rq : ℕ → MqRequest
  nrActive : ℕ → ℤ
  lists : MqLists
  flags : ℕ → HctxFlags
  calls : ℕ → Option DispatchCall
  quiesced : Bool
  /-- `requeue_work` is pending; it is running -/
  requeueWork : Bool
  requeueActive : Bool
  /-- calls of `blk_mq_run_hw_queue` that are still to come, with their `async` -/
  toRun : List (ℕ × Bool)

namespace MqState

variable (c : MqConfig) (s : MqState)

section Requests

/-- `rq->mq_hctx`. -/
def hctxOf (r : ℕ) : ℕ := (s.rq r).tags.mqHctx

def hasTag (r : ℕ) : Bool := (s.rq r).tags.tag.isSome

def setRq (r : ℕ) (f : MqRequest → MqRequest) : MqState :=
  { s with rq := Function.update s.rq r (f (s.rq r)) }

/-- A function on the tags of a request, with the counter of its hardware queue. -/
def onTags (f : TagRequest → TagState → TagRequest × TagState) (r : ℕ) : MqState :=
  let p := f (s.rq r).tags ⟨c.tagShared, s.nrActive, []⟩
  { s.setRq r fun rq => { rq with tags := p.1 } with nrActive := p.2.nrActive }

def getDriverTag (got : Option ℕ) (r : ℕ) : MqState := s.onTags c (blkMqGetDriverTag got) r

def putDriverTag (r : ℕ) : MqState := s.onTags c blkMqPutDriverTag r

def blkMqStartRequest (r : ℕ) : MqState := s.setRq r fun rq => { rq with state := .inFlight }

/-- `__blk_mq_requeue_request`. -/
def requeueRequest (r : ℕ) : MqState :=
  (s.putDriverTag c r).setRq r fun rq =>
    if rq.state ≠ .idle then { rq with state := .idle, timedOut := false } else rq

end Requests

section Flags

def setFlags (h : ℕ) (f : HctxFlags → HctxFlags) : MqState :=
  { s with flags := Function.update s.flags h (f (s.flags h)) }

def BLK_MQ_DISPATCH_BUSY_EWMA_WEIGHT : UInt32 := 8
def BLK_MQ_DISPATCH_BUSY_EWMA_FACTOR : UInt32 := 4

def ewma (old : UInt32) (busy : Bool) : UInt32 :=
  if old = 0 ∧ busy = false then old
  else
    let add : UInt32 := if busy then 1 <<< BLK_MQ_DISPATCH_BUSY_EWMA_FACTOR else 0
    (old * (BLK_MQ_DISPATCH_BUSY_EWMA_WEIGHT - 1) + add) / BLK_MQ_DISPATCH_BUSY_EWMA_WEIGHT

def updateDispatchBusy (h : ℕ) (busy : Bool) : MqState :=
  if c.elevator then s else s.setFlags h fun fl =>
    { fl with dispatchBusy := ewma fl.dispatchBusy busy }

def BLK_MQ_MAX_DISPATCH_ORDER : ℕ := 7

def queuedToIndex (queued : ℕ) : ℕ :=
  if queued = 0 then 0 else min (BLK_MQ_MAX_DISPATCH_ORDER - 1) (Nat.log2 queued + 1)

/-- The end of `blk_mq_run_hw_queue` is still to come. -/
def runLater (h : ℕ) (async : Bool) : MqState := { s with toRun := s.toRun ++ [(h, async)] }

def blkMqRunHwQueues (async : Bool) : MqState :=
  { s with
    toRun := s.toRun ++
      ((List.range c.nrHwQueues).filter fun h => !(s.flags h).stopped).map fun h => (h, async) }

/-- `__blk_mq_delay_run_hw_queue`; `here` says if the CPU is one of the queue's. -/
def delayRunHwQueue (async here : Bool) (h : ℕ) : MqState :=
  if (s.flags h).stopped then s
  else if async = false ∧ c.blocking = false ∧ here then s.setFlags h fun fl =>
    { fl with running := fl.running + 1 }
  else s.setFlags h fun fl => { fl with runWork := true }

/-- `blk_mq_hctx_has_pending`; `work` is what the elevator says. -/
def hasPending (work : Bool) (h : ℕ) : Bool :=
  !(s.lists.dispatch h).isEmpty || !(s.lists.sw.ctxMap h).isEmpty || work

def blkMqRunHwQueue (async here work : Bool) (h : ℕ) : MqState :=
  if !s.quiesced && s.hasPending work h then s.delayRunHwQueue c async here h else s

/-- `blk_mq_mark_tag_wait` when the tag allocator finds `again`. -/
def markTagWait (again : Option ℕ) (r : ℕ) : Bool × MqState :=
  let h := s.hctxOf r
  if c.tagShared h = false then
    let s := (s.setFlags h fun fl => { fl with restart := true }).getDriverTag c again r
    (s.hasTag r, s)
  else if (s.flags h).waiting then (false, s)
  else
    let s := (s.setFlags h fun fl => { fl with waiting := true }).getDriverTag c again r
    if s.hasTag r then (true, s.setFlags h fun fl => { fl with waiting := false }) else (false, s)

end Flags

section Moves

def withLists (f : MqLists → MqLists) : MqState := { s with lists := f s.lists }

def toHeld (r : ℕ) : MqState := s.withLists fun l => { l with held := r :: l.held }

def toDriver (r : ℕ) : MqState :=
  s.withLists fun l => { l with held := l.held.erase r, driver := l.driver ++ [r] }

def blkMqEndRequest (r : ℕ) : MqState :=
  ((s.onTags c blkMqFreeRequest r).setRq r fun rq => { rq with state := .idle }).withLists fun l =>
    { l with held := l.held.erase r, ended := l.ended ++ [r] }

/-- `blk_mq_request_bypass_insert`. -/
def bypassInsert (r : ℕ) (atHead runQueue : Bool) : MqState :=
  let h := s.hctxOf r
  let s := s.withLists fun l =>
    { l with
      held := l.held.erase r
      dispatch := Function.update l.dispatch h
        (if atHead then r :: l.dispatch h else l.dispatch h ++ [r]) }
  if runQueue then s.runLater h false else s

/-- `blk_mq_add_to_requeue_list`. -/
def addToRequeueList (r : ℕ) (atHead kick : Bool) : MqState :=
  let s := (if atHead then s.setRq r fun rq => { rq with softbarrier := true } else s).withLists
      fun l =>
    { l with
      held := l.held.erase r
      requeue := if atHead then r :: l.requeue else l.requeue ++ [r] }
  { s with requeueWork := s.requeueWork || kick }

end Moves

end MqState

/-- A list of requests gets onto a software queue, and the hardware queue is told. -/
def swInsert (q : SwQueues) (h cpu : ℕ) (l : List ℕ) (atHead : Bool) (sw : SwLists) : SwLists :=
  let type := (q.hctx h).type
  let bit := (q.ctx cpu).indexHw type
  let old := sw.rqLists cpu type
  { rqLists := Function.update sw.rqLists cpu
      (Function.update (sw.rqLists cpu) type (if atHead then l ++ old else old ++ l))
    ctxMap :=
      if bit ∈ sw.ctxMap h then sw.ctxMap
      else Function.update sw.ctxMap h (bit :: sw.ctxMap h) }

/-- A software queue has this list left, and its bit is cleared if it is empty. -/
def swLeave (q : SwQueues) (h cpu bit : ℕ) (left : List ℕ) (sw : SwLists) : SwLists :=
  let type := (q.hctx h).type
  { rqLists := Function.update sw.rqLists cpu (Function.update (sw.rqLists cpu) type left)
    ctxMap :=
      if left = [] then Function.update sw.ctxMap h ((sw.ctxMap h).erase bit)
      else sw.ctxMap }

section Dispatch

variable (c : MqConfig)

/-- What a turn of the loop of `blk_mq_dispatch_rq_list` meets. -/
structure DispatchEnv where
  budget : Bool
  tag : Option ℕ
  /-- the attempt of `blk_mq_mark_tag_wait` -/
  tagAgain : Option ℕ
  nextTag : Option ℕ
  /-- the driver has called `blk_mq_start_request` -/
  started : Bool
  ret : BlkStatus
  deriving DecidableEq, Repr

/-- The tag of the request behind, for the flag `last`. -/
def tagNext (got : Option ℕ) (rest : List ℕ) (s : MqState) : MqState :=
  match rest with
  | [] => s
  | nxt :: _ => s.getDriverTag c got nxt

def untagNext (rest : List ℕ) (s : MqState) : MqState :=
  match rest with
  | [] => s
  | nxt :: _ => s.putDriverTag c nxt

def setCall (w : ℕ) (call : Option DispatchCall) (s : MqState) : MqState :=
  { s with calls := Function.update s.calls w call }

def offCall (w r : ℕ) (rest : List ℕ) (s : MqState) : MqState :=
  (s.withLists fun l => { l with calls := Function.update l.calls w rest }).toHeld r

/-- A request with a tag is given to the driver. -/
def dispatchIssue (env : DispatchEnv) (w r : ℕ) (rest : List ℕ) (call : DispatchCall)
    (s : MqState) : MqState :=
  let s := tagNext c env.nextTag rest s
  let s := if env.started then s.blkMqStartRequest r else s
  let pc := if rest = [] then CallPc.out else .loop
  match env.ret with
  | .resource | .devResource =>
    setCall w (some { call with ret := env.ret, pc := .out })
      ((untagNext c rest s).requeueRequest c r)
  | .ioerr =>
    setCall w (some { call with ret := env.ret, errors := call.errors + 1, pc := pc })
      ((offCall w r rest s).blkMqEndRequest c r)
  | .ok =>
    setCall w (some { call with ret := env.ret, queued := call.queued + 1, pc := pc })
      ((offCall w r rest s).toDriver r)

/-- A turn of the loop, for a list of `r` and `rest`. -/
def dispatchTurn (env : DispatchEnv) (w r : ℕ) (rest : List ℕ) (call : DispatchCall) (s : MqState) :
    MqState :=
  let h := s.hctxOf r
  let call := { call with hctx := h }
  if call.gotBudget = false ∧ env.budget = false then
    setCall w (some { call with pc := .out }) (s.putDriverTag c r)
  else
    let s := s.getDriverTag c env.tag r
    if s.hasTag r then dispatchIssue c env w r rest call s
    else
      match s.markTagWait c env.tagAgain r with
      | (true, s) => dispatchIssue c env w r rest call s
      | (false, s) => setCall w
        (some { call with noTag := call.noTag || c.tagShared h, pc := .out }) s

/-- Behind the loop: the call is over, or what is left goes to the dispatch list. -/
def dispatchOut (w : ℕ) (call : DispatchCall) (s : MqState) : MqState :=
  let h := call.hctx
  let s := s.setFlags h fun fl =>
    { fl with
      dispatched := Function.update fl.dispatched (MqState.queuedToIndex call.queued)
        (fl.dispatched (MqState.queuedToIndex call.queued) + 1) }
  if s.lists.calls w = [] then setCall w none (s.updateDispatchBusy c h false)
  else
    setCall w (some { call with pc := .rerun })
      (s.withLists fun l =>
        { l with
          calls := Function.update l.calls w []
          dispatch := Function.update l.dispatch h (l.dispatch h ++ l.calls w) })

/-- Behind the splice: the queue is run again unless someone else will. -/
def dispatchRerun (w : ℕ) (call : DispatchCall) (s : MqState) : MqState :=
  let h := call.hctx
  let fl := s.flags h
  let s :=
    if fl.restart = false ∨ (call.noTag ∧ fl.waiting = false) then s.runLater h true
    else if call.ret = .resource then s.delayRunHwQueue c true false h
    else s
  setCall w none (s.updateDispatchBusy c h true)

end Dispatch

section Issue

variable (c : MqConfig)

structure IssueEnv where
  budget : Bool
  tag : Option ℕ
  started : Bool
  ret : BlkStatus
  deriving DecidableEq, Repr

/-- `__blk_mq_issue_directly`. -/
def issueDirectly (env : IssueEnv) (r : ℕ) (s : MqState) : BlkStatus × MqState :=
  let h := s.hctxOf r
  let s := if env.started then s.blkMqStartRequest r else s
  match env.ret with
  | .ok => (.ok, (s.updateDispatchBusy c h false).toDriver r)
  | .resource => (.resource, (s.updateDispatchBusy c h true).requeueRequest c r)
  | .devResource => (.devResource, (s.updateDispatchBusy c h true).requeueRequest c r)
  | .ioerr => (.ioerr, s.updateDispatchBusy c h false)

/-- Behind the label `insert`, with a run. -/
def insertUnless (bypass : Bool) (r : ℕ) (s : MqState) : BlkStatus × MqState :=
  if bypass then (.resource, s) else (.ok, s.bypassInsert r false true)

/-- `__blk_mq_try_issue_directly`. A queue that is stopped or quiesced takes the request without a
run. -/
def tryIssue (env : IssueEnv) (bypass : Bool) (r : ℕ) (s : MqState) : BlkStatus × MqState :=
  let h := s.hctxOf r
  if (s.flags h).stopped ∨ s.quiesced then (.ok, s.bypassInsert r false false)
  else if c.elevator ∧ bypass = false then insertUnless bypass r s
  else if env.budget = false then insertUnless bypass r s
  else
    let s := s.getDriverTag c env.tag r
    if s.hasTag r then issueDirectly c env r s else insertUnless bypass r s

def blkMqTryIssueDirectly (env : IssueEnv) (r : ℕ) (s : MqState) : MqState :=
  match tryIssue c env false r s with
  | (.ok, s) => s
  | (.resource, s) | (.devResource, s) => s.bypassInsert r false true
  | (.ioerr, s) => s.blkMqEndRequest c r

/-- The rest of a list that was not issued goes back to the caller, who runs the queue. -/
def giveBack (w h : ℕ) (rest : List ℕ) (s : MqState) : MqState :=
  if rest = [] then s
  else
    (s.withLists fun l =>
      { l with issues := Function.update l.issues w [], held := rest ++ l.held }).runLater h false

/-- A turn of the loop of `blk_mq_try_issue_list_directly`. -/
def issueTurn (env : IssueEnv) (w r : ℕ) (rest : List ℕ) (s : MqState) : MqState :=
  let h := s.hctxOf r
  let s := (s.withLists fun l => { l with issues := Function.update l.issues w rest }).toHeld r
  match tryIssue c env true r s with
  | (.ok, s) => s
  | (.resource, s) | (.devResource, s) => giveBack w h rest (s.bypassInsert r false rest.isEmpty)
  | (.ioerr, s) => s.blkMqEndRequest c r

end Issue

/-- Requests get onto lists and off software queues. -/
inductive CtxEvent
  /-- `__blk_mq_insert_request` -/
  | insertRequest (r : ℕ) (atHead : Bool)
  /-- `blk_mq_insert_requests` -/
  | insertRequests (h cpu : ℕ) (l : List ℕ)
  | bypassInsert (r : ℕ) (atHead runQueue : Bool)
  /-- `flush_busy_ctx` -/
  | flushBusyCtx (h bit : ℕ)
  /-- `dispatch_rq_from_ctx` -/
  | dispatchRqFromCtx (h bit : ℕ)
  /-- `blk_mq_hctx_notify_dead` -/
  | notifyDead (h cpu : ℕ)
  deriving DecidableEq, Repr

/-- Requests are offered to the driver. -/
inductive CallEvent
  /-- `blk_mq_dispatch_rq_list` is called, takes a turn, leaves its loop, and decides about another
  run -/
  | dispatchStart (w : ℕ) (l : List ℕ) (gotBudget : Bool)
  | dispatchTurn (w : ℕ) (env : DispatchEnv)
  | dispatchOut (w : ℕ)
  | dispatchRerun (w : ℕ)
  | tryIssueDirectly (r : ℕ) (env : IssueEnv)
  /-- `blk_mq_try_issue_list_directly` is called, and takes a turn -/
  | issueStart (w : ℕ) (l : List ℕ)
  | issueTurn (w : ℕ) (env : IssueEnv)
  deriving DecidableEq, Repr

/-- The driver is done with a request, or gives it back. -/
inductive DriverEvent
  /-- `blk_mq_complete_request` -/
  | complete (r : ℕ)
  | endRequest (r : ℕ)
  /-- `blk_mq_requeue_request` -/
  | requeue (r : ℕ) (kick : Bool)
  | addToRequeueList (r : ℕ) (atHead kick : Bool)
  /-- `blk_mq_requeue_work` takes the list, a request of it, and is done -/
  | requeueTake
  | requeueTurn
  | requeueDone
  deriving DecidableEq, Repr

/-- Hardware queues are run, stopped and started. -/
inductive RunEvent
  /-- `blk_mq_run_hw_queue` is called, and comes to its end -/
  | callRun (h : ℕ) (async : Bool)
  | run (k : ℕ) (here work : Bool)
  /-- `blk_mq_run_work_fn` -/
  | runWork (h : ℕ)
  /-- a run comes to the dispatch list -/
  | runTakes (h : ℕ)
  | stopHwQueue (h : ℕ)
  | startHwQueue (h : ℕ)
  | startStoppedHwQueue (h : ℕ) (async : Bool)
  | quiesce
  | unquiesce
  /-- SCHED_RESTART is set, and is found to be set when a request is freed -/
  | markRestart (h : ℕ)
  | schedRestart (h : ℕ)
  /-- `blk_mq_dispatch_wake` -/
  | dispatchWake (h : ℕ)
  deriving DecidableEq, Repr

inductive MqEvent
  /-- `blk_mq_get_request` -/
  | getRequest (mqCtx mqHctx : ℕ) (tag : ℕ) (dontprep : Bool)
  | ctx (e : CtxEvent)
  | call (e : CallEvent)
  | driver (e : DriverEvent)
  | run (e : RunEvent)
  deriving DecidableEq, Repr

/-- A request as `blk_mq_rq_ctx_init` leaves it. -/
def freshRequest (c : MqConfig) (mqCtx mqHctx tag : ℕ) (dontprep : Bool) (s : MqState) :
    MqRequest where
  mqCtx := mqCtx
  tags := (blkMqRqCtxInit ⟨mqHctx, c.elevator⟩ tag ⟨c.tagShared, s.nrActive, []⟩).1
  state := .idle
  softbarrier := false
  dontprep := dontprep
  timedOut := false

/-- The order in which `blk_mq_requeue_work` takes the requests of the list: in its first loop those
that come back to the head or are prepared already, in the second one the others. -/
def requeueOrder (rq : ℕ → MqRequest) (l : List ℕ) : List ℕ :=
  (l.filter fun r => (rq r).softbarrier || (rq r).dontprep) ++ l.filter fun r =>
    !((rq r).softbarrier || (rq r).dontprep)

/-- A prepared request goes to the dispatch list, any other to `blk_mq_sched_insert_request`. -/
def requeueTurn (r : ℕ) (rest : List ℕ) (s : MqState) : MqState :=
  let s := ((s.setRq r fun rq => { rq with softbarrier := false }).withLists fun l =>
    { l with requeuing := rest }).toHeld r
  if (s.rq r).dontprep then s.bypassInsert r false false else s

section Step

variable (c : MqConfig) (s : MqState)

/-- Requests of `held`, each once. -/
def HeldAll (l : List ℕ) : Prop := l.Nodup ∧ ∀ r ∈ l, r ∈ s.lists.held

instance (l : List ℕ) : Decidable (HeldAll s l) := inferInstanceAs (Decidable (_ ∧ _))

/-- A bit of a hardware queue and the software queue it stands for. -/
def onBit (h bit : ℕ) (f : ℕ → MqState) : Option MqState := ((c.queues.hctx h).ctxs[bit]?).map f

/-- `blk_mq_hctx_notify_dead`; what happens between its two critical sections sees neither list. -/
def notifyDead (h cpu : ℕ) : MqState :=
  let tmp := s.lists.sw.rqLists cpu (c.queues.hctx h).type
  if tmp = [] then s
  else
    (s.withLists fun l =>
      { l with
        sw := swLeave c.queues h cpu ((c.queues.ctx cpu).indexHw (c.queues.hctx h).type) [] l.sw
        dispatch := Function.update l.dispatch h (l.dispatch h ++ tmp) }).runLater h true

def ctxStep : CtxEvent → Option MqState
  | .insertRequest r atHead =>
    if r ∈ s.lists.held then
      some (s.withLists fun l =>
        { l with
          held := l.held.erase r
          sw := swInsert c.queues (s.hctxOf r) (s.rq r).mqCtx [r] atHead l.sw })
    else none
  | .insertRequests h cpu l =>
    if HeldAll s l ∧ ∀ r ∈ l, (s.rq r).mqCtx = cpu then
      some (s.withLists fun ls =>
        { ls with held := ls.held.diff l, sw := swInsert c.queues h cpu l false ls.sw })
    else none
  | .bypassInsert r atHead runQueue =>
    if r ∈ s.lists.held then some (s.bypassInsert r atHead runQueue)
    else none
  | .flushBusyCtx h bit =>
    onBit c h bit fun cpu => s.withLists fun l =>
      { l with
        held := l.sw.rqLists cpu (c.queues.hctx h).type ++ l.held
        sw := swLeave c.queues h cpu bit [] l.sw }
  | .dispatchRqFromCtx h bit =>
    onBit c h bit fun cpu =>
      match s.lists.sw.rqLists cpu (c.queues.hctx h).type with
      | [] => s
      | r :: rest => s.withLists fun l =>
        { l with held := r :: l.held, sw := swLeave c.queues h cpu bit rest l.sw }
  | .notifyDead h cpu => if h < c.nrHwQueues then some (notifyDead c s h cpu) else none

def callStep : CallEvent → Option MqState
  | .dispatchStart w l gotBudget =>
    if s.calls w = none ∧ s.lists.calls w = [] ∧ l ≠ [] ∧ HeldAll s l then
      some (setCall w (some ⟨gotBudget, s.hctxOf (l.headD 0), 0, 0, false, .ok, .loop⟩)
        (s.withLists fun ls =>
          { ls with held := ls.held.diff l, calls := Function.update ls.calls w l }))
    else none
  | .dispatchTurn w env =>
    match s.calls w, s.lists.calls w with
    | some call, r :: rest =>
      if call.pc = .loop then some (dispatchTurn c env w r rest call s)
      else none
    | _, _ => none
  | .dispatchOut w =>
    match s.calls w with
    | some call => if call.pc = .out then some (dispatchOut c w call s) else none
    | none => none
  | .dispatchRerun w =>
    match s.calls w with
    | some call => if call.pc = .rerun then some (dispatchRerun c w call s) else none
    | none => none
  | .tryIssueDirectly r env =>
    if r ∈ s.lists.held then some (blkMqTryIssueDirectly c env r s)
    else none
  | .issueStart w l =>
    if s.lists.issues w = [] ∧ HeldAll s l then
      some (s.withLists fun ls =>
        { ls with held := ls.held.diff l, issues := Function.update ls.issues w l })
    else none
  | .issueTurn w env =>
    match s.lists.issues w with
    | r :: rest => some (issueTurn c env w r rest s)
    | [] => none

def offDriver (r : ℕ) : MqState :=
  (s.withLists fun l => { l with driver := l.driver.erase r }).toHeld r

def driverStep : DriverEvent → Option MqState
  | .complete r =>
    if r ∈ s.lists.driver then some (s.setRq r fun rq => { rq with state := .complete }) else none
  | .endRequest r => if r ∈ s.lists.driver then some ((offDriver s r).blkMqEndRequest c r) else none
  | .requeue r kick =>
    if r ∈ s.lists.driver then
      some (((offDriver s r).requeueRequest c r).addToRequeueList r true kick)
    else none
  | .addToRequeueList r atHead kick =>
    if r ∈ s.lists.held then some (s.addToRequeueList r atHead kick)
    else none
  | .requeueTake =>
    if s.requeueWork ∧ s.requeueActive = false ∧ s.lists.requeuing = [] then
      some { s.withLists fun l => { l with requeue := [], requeuing := requeueOrder s.rq l.requeue } with
        requeueWork := false, requeueActive := true }
    else none
  | .requeueTurn =>
    match s.lists.requeuing with
    | r :: rest => if s.requeueActive then some (requeueTurn r rest s) else none
    | [] => none
  | .requeueDone =>
    if s.requeueActive ∧ s.lists.requeuing = [] then
      some ({ s with requeueActive := false }.blkMqRunHwQueues c false)
    else none

def runStep : RunEvent → Option MqState
  | .callRun h async => if h < c.nrHwQueues then some (s.runLater h async) else none
  | .run k here work =>
    (s.toRun[k]?).map fun p =>
      { s with toRun := s.toRun.eraseIdx k }.blkMqRunHwQueue c p.2 here work p.1
  | .runWork h =>
    if (s.flags h).runWork then
      some (s.setFlags h fun fl =>
        if fl.stopped then { fl with runWork := false }
        else { fl with runWork := false, running := fl.running + 1 })
    else none
  | .runTakes h =>
    if 0 < (s.flags h).running then
      let s' := s.setFlags h fun fl => { fl with running := fl.running - 1 }
      if (s.flags h).stopped ∨ s.quiesced then some s'
      else
        some (s'.withLists fun l =>
          { l with held := l.dispatch h ++ l.held, dispatch := Function.update l.dispatch h [] })
    else none
  | .stopHwQueue h => some (s.setFlags h fun fl => { fl with runWork := false, stopped := true })
  | .startHwQueue h => some ((s.setFlags h fun fl => { fl with stopped := false }).runLater h false)
  | .startStoppedHwQueue h async =>
    if (s.flags h).stopped then
      some ((s.setFlags h fun fl => { fl with stopped := false }).runLater h async)
    else some s
  | .quiesce => some { s with quiesced := true }
  | .unquiesce => some ({ s with quiesced := false }.blkMqRunHwQueues c true)
  | .markRestart h => some (s.setFlags h fun fl => { fl with restart := true })
  | .schedRestart h =>
    if (s.flags h).restart then
      some ((s.setFlags h fun fl => { fl with restart := false }).runLater h true)
    else some s
  | .dispatchWake h =>
    if (s.flags h).waiting then
      some ((s.setFlags h fun fl => { fl with waiting := false }).runLater h true)
    else none

def mqStep : MqEvent → Option MqState
  | .getRequest mqCtx mqHctx tag dontprep =>
    if mqHctx < c.nrHwQueues then
      some { s with
        rq := Function.update s.rq s.lists.born (freshRequest c mqCtx mqHctx tag dontprep s)
        nrActive := (blkMqRqCtxInit ⟨mqHctx, c.elevator⟩ tag
          ⟨c.tagShared, s.nrActive, []⟩).2.nrActive
        lists := { s.lists with born := s.lists.born + 1, held := s.lists.born :: s.lists.held } }
    else none
  | .ctx e => ctxStep c s e
  | .call e => callStep c s e
  | .driver e => driverStep c s e
  | .run e => runStep c s e

end Step

def blankRequest : MqRequest := ⟨0, ⟨0, none, none, false, 0, false⟩, .idle, false, false, false⟩

def mqSystem (c : MqConfig) : Runs.System MqState MqEvent where
  init :=
    { rq := fun _ => blankRequest
      nrActive := fun _ => 0
      lists := ⟨0, [], ⟨fun _ _ => [], fun _ => []⟩, fun _ => [], [], [], fun _ => [], fun _ => [],
        [], []⟩
      flags := fun _ => ⟨0, fun _ => 0, false, false, false, false, 0⟩
      calls := fun _ => none
      quiesced := false
      requeueWork := false
      requeueActive := false
      toRun := [] }
  step := mqStep c

end BlkSwitch.Blk
