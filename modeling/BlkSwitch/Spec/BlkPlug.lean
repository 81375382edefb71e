import Mathlib.Data.List.Sort

/-! The plug of a task that submits I/O (block/blk-mq.c): requests gather on its list, and are
handed over in batches when it is flushed. Queues and contexts stand for their addresses, which are
not NULL. -/

namespace BlkSwitch.Blk

structure PlugRequest where
  q : ℕ
  mqCtx : ℕ
  mqHctx : ℕ
  /-- `blk_rq_pos` -/
  pos : ℕ
  /-- tells apart two requests for one position -/
  tag : ℕ
  deriving DecidableEq, Repr

structure Plug where
  mqList : List PlugRequest
  rqCount : UInt16
  multipleQueues : Bool
  deriving DecidableEq, Repr

def blkAddRqToPlug (rq : PlugRequest) (plug : Plug) : Plug where
  mqList := plug.mqList ++ [rq]
  rqCount := plug.rqCount + 1
  multipleQueues :=
    plug.multipleQueues ||
      match plug.mqList with
      | [] => false
      | tmp :: _ => tmp.q != rq.q

def plugRqCmp (rqa rqb : PlugRequest) : ℤ :=
  if rqa.mqCtx < rqb.mqCtx then -1
  else if rqa.mqCtx > rqb.mqCtx then 1
  else if rqa.mqHctx < rqb.mqHctx then -1
  else if rqa.mqHctx > rqb.mqHctx then 1
  else if rqa.pos > rqb.pos then 1 else 0

/-- `list_sort`, which is stable. -/
def listSort (list : List PlugRequest) : List PlugRequest :=
  list.insertionSort fun a b => plugRqCmp a b ≤ 0

/-- What one call of `blk_mq_sched_insert_requests` is given; it leaves the list empty. -/
structure Batch where
  hctx : ℕ
  ctx : ℕ
  rqs : List PlugRequest
  deriving DecidableEq, Repr

/-- The variables of the loop of `blk_mq_flush_plug_list`, and the calls it has made. -/
structure FlushState where
  thisHctx : Option ℕ
  thisCtx : Option ℕ
  rqList : List PlugRequest
  inserted : List Batch
  deriving DecidableEq, Repr

def FlushState.insert (st : FlushState) : FlushState :=
  match st.thisHctx, st.thisCtx with
  | some hctx, some ctx =>
    { st with rqList := [], inserted := st.inserted ++ [⟨hctx, ctx, st.rqList⟩] }
  | _, _ => st

def flushTurn (st : FlushState) (rq : PlugRequest) : FlushState :=
  let st :=
    if some rq.mqHctx ≠ st.thisHctx ∨ some rq.mqCtx ≠ st.thisCtx then
      { st.insert with thisHctx := some rq.mqHctx, thisCtx := some rq.mqCtx }
    else st
  { st with rqList := st.rqList ++ [rq] }

/-- The list is sorted only when it pays. -/
def Plug.sorts (plug : Plug) : Bool := decide (plug.rqCount > 2) && plug.multipleQueues

/-- The calls of `blk_mq_sched_insert_requests`, and the plug behind them. -/
def blkMqFlushPlugList (plug : Plug) : List Batch × Plug :=
  let list := if plug.sorts then listSort plug.mqList else plug.mqList
  let st := list.foldl flushTurn ⟨none, none, [], []⟩
  (st.insert.inserted, { plug with mqList := [], rqCount := 0 })

/-- The BUG_ON of `blk_mq_insert_requests`. -/
def insertBug (b : Batch) : Bool := b.rqs.any fun rq => rq.mqCtx != b.ctx

end BlkSwitch.Blk
