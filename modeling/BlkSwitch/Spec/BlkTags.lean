import BlkSwitch.Lib.Runs
import Mathlib.Logic.Function.Basic

/-! The tags of blk-mq requests and the counter of active requests of a hardware queue
(block/blk-mq.c, block/blk-mq.h), which request steering reads as the load of a core. Hardware
queues are numbers; those of all devices that share tags are among them. What `blk_mq_get_tag` finds
is an argument, and so is the hardware queue a request is allocated for: steering or a tag allocator
that slept has chosen it. -/

namespace BlkSwitch.Blk

/-- `struct blk_mq_alloc_data` as `blk_mq_get_tag` leaves it. -/
structure AllocData where
  hctx : ℕ
  /-- BLK_MQ_REQ_INTERNAL, set when there is an elevator -/
  internal : Bool
  deriving DecidableEq, Repr

/-- The part of a request that tags are about; `none` is the tag -1. -/
structure TagRequest where
  mqHctx : ℕ
  tag : Option ℕ
  internalTag : Option ℕ
  /-- RQF_MQ_INFLIGHT -/
  mqInflight : Bool
  ref : ℕ
  /-- `blk_mq_free_request` has been called, and someone still has a reference -/
  freed : Bool
  deriving DecidableEq, Repr

structure TagState where
  /-- BLK_MQ_F_TAG_SHARED -/
  tagShared : ℕ → Bool
  nrActive : ℕ → ℤ
  /-- the requests with a reference left -/
  rqs : List TagRequest

def TagState.addActive (s : TagState) (hctx : ℕ) (n : ℤ) : TagState :=
  { s with nrActive := Function.update s.nrActive hctx (s.nrActive hctx + n) }

def blkMqRqCtxInit (data : AllocData) (tag : ℕ) (s : TagState) : TagRequest × TagState :=
  if data.internal then
    (⟨data.hctx, none, some tag, false, 1, false⟩, s)
  else if s.tagShared data.hctx then
    (⟨data.hctx, some tag, none, true, 1, false⟩, s.addActive data.hctx 1)
  else (⟨data.hctx, some tag, none, false, 1, false⟩, s)

/-- `blk_mq_get_driver_tag` when `blk_mq_get_tag` finds `got`. `blk_mq_tag_busy` is true for shared
tags. -/
def blkMqGetDriverTag (got : Option ℕ) (rq : TagRequest) (s : TagState) : TagRequest × TagState :=
  if rq.tag.isSome then (rq, s)
  else
    match got with
    | none => (rq, s)
    | some tag =>
      if s.tagShared rq.mqHctx then
        ({ rq with tag := some tag, mqInflight := true }, s.addActive rq.mqHctx 1)
      else ({ rq with tag := some tag }, s)

/-- `__blk_mq_put_driver_tag` for the hardware queue of the request. -/
def putDriverTag (rq : TagRequest) (s : TagState) : TagRequest × TagState :=
  if rq.mqInflight then
    ({ rq with tag := none, mqInflight := false }, s.addActive rq.mqHctx (-1))
  else ({ rq with tag := none }, s)

/-- `blk_mq_put_driver_tag`, which a requeue calls. -/
def blkMqPutDriverTag (rq : TagRequest) (s : TagState) : TagRequest × TagState :=
  if rq.tag.isNone ∨ rq.internalTag.isNone then (rq, s) else putDriverTag rq s

/-- `blk_mq_free_request` up to the drop of its reference; the flag stays. -/
def blkMqFreeRequest (rq : TagRequest) (s : TagState) : TagRequest × TagState :=
  ({ rq with freed := true }, if rq.mqInflight then s.addActive rq.mqHctx (-1) else s)

/-- `refcount_dec_and_test`, and `__blk_mq_free_request` of a request without references. -/
def TagState.putRef (s : TagState) (i : ℕ) (rq : TagRequest) : TagState :=
  { s with
    rqs := if rq.ref ≤ 1 then s.rqs.eraseIdx i else s.rqs.set i { rq with ref := rq.ref - 1 } }

/-- The references that are not the one of the request's own life. -/
def TagRequest.extraRefs (rq : TagRequest) : ℕ := rq.ref - if rq.freed then 0 else 1

inductive TagEvent
  /-- `blk_mq_get_request`, which gets a tag or not -/
  | getRequest (data : AllocData) (tag : Option ℕ)
  | getDriverTag (i : ℕ) (got : Option ℕ)
  /-- `blk_mq_put_driver_tag`, by a requeue or a dispatch that failed -/
  | putDriverTag (i : ℕ)
  /-- `__blk_mq_put_driver_tag`, called without a look at the tags -/
  | putDriverTagAnyway (i : ℕ)
  | freeRequest (i : ℕ)
  /-- the timeout handler looks at a request, and is done with it -/
  | getRef (i : ℕ)
  | putRef (i : ℕ)
  /-- the set of tags becomes shared, or stops being so -/
  | setShared (hctx : ℕ) (shared : Bool)
  deriving DecidableEq, Repr

def onLive (f : TagRequest → TagState → TagRequest × TagState) (i : ℕ) (s : TagState) :
    Option TagState :=
  (s.rqs[i]?).bind fun rq =>
    if rq.freed then none
    else
      let p := f rq s
      some { p.2 with rqs := s.rqs.set i p.1 }

def tagStep (s : TagState) : TagEvent → Option TagState
  | .getRequest _ none => some s
  | .getRequest data (some tag) =>
    let p := blkMqRqCtxInit data tag s
    some { p.2 with rqs := s.rqs ++ [p.1] }
  | .getDriverTag i got => onLive (blkMqGetDriverTag got) i s
  | .putDriverTag i => onLive blkMqPutDriverTag i s
  | .putDriverTagAnyway i => onLive Blk.putDriverTag i s
  | .freeRequest i =>
    (onLive blkMqFreeRequest i s).bind fun s => (s.rqs[i]?).map (s.putRef i)
  | .getRef i => (s.rqs[i]?).map fun rq =>
    { s with rqs := s.rqs.set i { rq with ref := rq.ref + 1 } }
  | .putRef i => (s.rqs[i]?).bind fun rq => if 0 < rq.extraRefs then some (s.putRef i rq) else none
  | .setShared hctx shared => some { s with tagShared := Function.update s.tagShared hctx shared }

def tagSystem (tagShared : ℕ → Bool) : Runs.System TagState TagEvent where
  init := ⟨tagShared, fun _ => 0, []⟩
  step := tagStep

end BlkSwitch.Blk
