import BlkSwitch.Spec.HostMaps

/-! Software and hardware queues of the block layer (block/blk-mq.c): `blk_mq_map_swqueue` gives
every CPU's software queue its hardware queues and its place in each of them, and that place is the
bit by which the hardware queue later finds the requests it is to dispatch. -/

namespace BlkSwitch.Blk

structure QueueMaps where
  nrMaps : ℕ
  nrQueues : HctxType → ℕ
  mqMap : HctxType → ℕ → ℕ

structure SwHctx where
  cpumask : List ℕ
  type : HctxType
  /-- software queues, by CPU -/
  ctxs : List ℕ
  deriving DecidableEq, Repr

structure SwCtx where
  hctxs : HctxType → ℕ
  indexHw : HctxType → ℕ

structure SwQueues where
  hctx : ℕ → SwHctx
  ctx : ℕ → SwCtx

def HctxType.all : List HctxType := [.default, .read, .poll]

section Map

variable (set : QueueMaps) (cpu : ℕ)

def setHctx (s : SwQueues) (t : HctxType) (h : ℕ) : SwQueues :=
  { s with
    ctx := Function.update s.ctx cpu
      { s.ctx cpu with hctxs := Function.update (s.ctx cpu).hctxs t h } }

/-- A software queue gets the next place of hardware queue `h`. -/
def attach (s : SwQueues) (t : HctxType) (h : ℕ) : SwQueues where
  hctx := Function.update s.hctx h
    { cpumask := cpu :: (s.hctx h).cpumask
      type := t
      ctxs := (s.hctx h).ctxs ++ [cpu] }
  ctx := Function.update s.ctx cpu
    { s.ctx cpu with indexHw := Function.update (s.ctx cpu).indexHw t (s.hctx h).ctxs.length }

def mapType (s : SwQueues) (t : HctxType) : SwQueues :=
  if set.nrQueues t = 0 then setHctx cpu s t (set.mqMap .default cpu)
  else
    let h := set.mqMap t cpu
    let s := setHctx cpu s t h
    if cpu ∈ (s.hctx h).cpumask then s else attach cpu s t h

def mapRest (s : SwQueues) (t : HctxType) : SwQueues := setHctx cpu s t (set.mqMap .default cpu)

def mapCpu (s : SwQueues) : SwQueues :=
  (HctxType.all.drop set.nrMaps).foldl (mapRest set cpu)
    ((HctxType.all.take set.nrMaps).foldl (mapType set cpu) s)

end Map

def blankQueues : SwQueues := ⟨fun _ => ⟨[], .default, []⟩, fun _ => ⟨fun _ => 0, fun _ => 0⟩⟩

/-- The tables of `blk_mq_map_swqueue`, when the tags of all hardware queues are there. -/
def mapSwqueue (set : QueueMaps) (nrCpus : ℕ) : SwQueues :=
  (List.range nrCpus).foldl (fun s cpu => mapCpu set cpu s) blankQueues

section Requests

structure SwLists where
  rqLists : ℕ → HctxType → List ℕ
  ctxMap : ℕ → List ℕ

variable (q : SwQueues)

/-- `__blk_mq_insert_request` at the tail, with `blk_mq_hctx_mark_pending`. -/
def blkMqInsertRequest (hctx cpu rq : ℕ) (s : SwLists) : SwLists :=
  let type := (q.hctx hctx).type
  let bit := (q.ctx cpu).indexHw type
  { rqLists := Function.update s.rqLists cpu
      (Function.update (s.rqLists cpu) type (s.rqLists cpu type ++ [rq]))
    ctxMap :=
      if bit ∈ s.ctxMap hctx then s.ctxMap
      else Function.update s.ctxMap hctx (bit :: s.ctxMap hctx) }

/-- What `flush_busy_ctx` takes for a bit that is set. -/
def flushBusyCtx (hctx bit : ℕ) (s : SwLists) : List ℕ × SwLists :=
  match (q.hctx hctx).ctxs[bit]? with
  | none => ([], s)
  | some cpu =>
    let type := (q.hctx hctx).type
    (s.rqLists cpu type,
      { rqLists := Function.update s.rqLists cpu (Function.update (s.rqLists cpu) type [])
        ctxMap := Function.update s.ctxMap hctx ((s.ctxMap hctx).erase bit) })

/-- A turn of `sbitmap_for_each_set` with it. -/
def flushBits (hctx : ℕ) (r : List ℕ × SwLists) (bit : ℕ) : List ℕ × SwLists :=
  (r.1 ++ (flushBusyCtx q hctx bit r.2).1, (flushBusyCtx q hctx bit r.2).2)

def blkMqFlushBusyCtxs (hctx : ℕ) (s : SwLists) : List ℕ × SwLists :=
  (s.ctxMap hctx).foldl (flushBits q hctx) ([], s)

/-- What `dispatch_rq_from_ctx` takes for a bit that is set. -/
def dispatchRqFromCtx (hctx bit : ℕ) (s : SwLists) : Option ℕ :=
  ((q.hctx hctx).ctxs[bit]?).bind fun cpu => (s.rqLists cpu (q.hctx hctx).type).head?

structure RqQueues where
  mqCtx : ℕ
  mqHctx : ℕ
  deriving DecidableEq, Repr

def mapQueue (flags : UInt32) (cpu : ℕ) : ℕ := (q.ctx cpu).hctxs (blkMqMapQueue flags)

/-- Steering, or a tag that was waited for, moves a request to another CPU's software queue. -/
def remap (flags : UInt32) (target : Option ℕ) (rq : RqQueues) : RqQueues :=
  match target with
  | none => rq
  | some cpu => ⟨cpu, mapQueue q flags cpu⟩

/-- The queues `blk_mq_get_request` gives a request of `cpu`, whatever application steering, request
steering and the tag allocator do. `blk_mq_alloc_request_hctx` comes with the hardware queue. -/
def getRequestQueues (flags : UInt32) (hctx : Option ℕ) (cpu : ℕ) (app req tag : Option ℕ) :
    RqQueues :=
  remap q flags tag (remap q flags req (remap q flags app ⟨cpu, hctx.getD (mapQueue q flags cpu)⟩))

end Requests

end BlkSwitch.Blk

namespace BlkSwitch.Host

open Blk

/-- The tag set of a controller. `map` says what `blk_mq_map_queues` makes of a number of queues and
an offset; the table for polling stays as `blk_mq_clear_mq_map` left it if there are no queues for
polling. -/
def tagSet (o : CtrlOptions) (s : Ctrl) (map : ℕ → ℕ → ℕ → ℕ) : QueueMaps where
  nrMaps := if o.nrPollQueues ≠ 0 then 3 else 2
  nrQueues := fun t => (s.map t).nrQueues
  mqMap := fun t cpu =>
    if t = .poll ∧ dedicated o s.ioQueues .poll = false then 0
    else map (s.map t).nrQueues (s.map t).queueOffset cpu

end BlkSwitch.Host
