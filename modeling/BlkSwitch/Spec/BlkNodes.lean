import BlkSwitch.Spec.BlkMq

/-! The CPU and node numbers of blk-switch (block/blk-mq.c): where the `numa_node` of a hardware
queue comes from, when a request queue is set up and when the number of hardware queues changes,
and the numbers that `blk_mq_get_request` and `blk_mq_end_request` make of it. Out of range such
a number reads foreign memory, so what the loops find in the arrays is left open here: which core
they settle on is an argument. -/

namespace BlkSwitch.Blk

def NUMA_NO_NODE : ℤ := -1

structure QueueMap where
  nrQueues : ℕ
  mqMap : ℕ → ℕ

structure Machine where
  nrCpuIds : ℕ
  /-- `local_memory_node(cpu_to_node(cpu))` -/
  node : ℕ → ℕ
  /-- `blk_mq_hw_queue_to_node`, which is a part of the kernel that blk-switch leaves alone -/
  blkMqHwQueueToNode : QueueMap → ℕ → ℤ

/-- What the kernel has `blk_mq_hw_queue_to_node` for: the node of a CPU that the map gives the
hardware queue, and no node for a queue of no CPU. -/
structure Machine.MapsNodes (m : Machine) : Prop where
  mapped : ∀ qmap i, (∃ cpu < m.nrCpuIds, qmap.mqMap cpu = i) →
    ∃ cpu < m.nrCpuIds, qmap.mqMap cpu = i ∧ m.blkMqHwQueueToNode qmap i = m.node cpu
  unmapped : ∀ qmap i, (∀ cpu < m.nrCpuIds, qmap.mqMap cpu ≠ i) →
    m.blkMqHwQueueToNode qmap i = NUMA_NO_NODE

structure TagSet where
  nrHwQueues : ℕ
  nrMaps : ℕ
  map : HctxType → QueueMap
  numaNode : ℤ

def HctxType.index : HctxType → ℕ
  | .default => 0
  | .read => 1
  | .poll => 2

def TagSet.types (set : TagSet) : List HctxType :=
  [HctxType.default, .read, .poll].filter fun j => decide (j.index < set.nrMaps)

/-- The hardware queues of a request queue, each by its `numa_node`. -/
structure HwQueues where
  nrHwQueues : ℕ
  queueHwCtx : ℕ → Option ℤ
  unusedHctxList : List ℤ

section Alloc

variable (m : Machine)

def blkMqAllocHctx (set : TagSet) (node : ℤ) : ℤ :=
  if node = NUMA_NO_NODE then set.numaNode else node

/-- A hardware context that is out of use is taken again if it has the node. -/
def blkMqAllocAndInitHctx (set : TagSet) (node : ℤ) (q : HwQueues) : ℤ × HwQueues :=
  if node ∈ q.unusedHctxList then (node, { q with unusedHctxList := q.unusedHctxList.erase node })
  else (blkMqAllocHctx set node, q)

def HwQueues.blkMqExitHctx (q : HwQueues) (i : ℕ) : HwQueues :=
  match q.queueHwCtx i with
  | some h =>
    { q with
      queueHwCtx := Function.update q.queueHwCtx i none
      unusedHctxList := h :: q.unusedHctxList }
  | none => q

def replaceHctx (set : TagSet) (node : ℤ) (i : ℕ) (q : HwQueues) : HwQueues :=
  let p := blkMqAllocAndInitHctx set node q
  let q := p.2.blkMqExitHctx i
  { q with queueHwCtx := Function.update q.queueHwCtx i (some p.1) }

/-- The loop of `blk_mq_realloc_hw_ctxs` from queue `i` on, with the queue it stopped at. `alloc`
says which allocations succeed; one that fails leaves the context there was, if there was one. -/
def reallocLoop (set : TagSet) (alloc : ℕ → Bool) : ℕ → ℕ → HwQueues → ℕ × HwQueues
  | 0, i, q => (i, q)
  | n + 1, i, q =>
    let node := m.blkMqHwQueueToNode (set.map .default) i
    if q.queueHwCtx i = some node then reallocLoop set alloc n (i + 1) q
    else if alloc i then reallocLoop set alloc n (i + 1) (replaceHctx set node i q)
    else if (q.queueHwCtx i).isSome then reallocLoop set alloc n (i + 1) q
    else (i, q)

def freeHctxs (j : ℕ) : ℕ → HwQueues → HwQueues
  | 0, q => q
  | n + 1, q => freeHctxs (j + 1) n (q.blkMqExitHctx j)

def blkMqReallocHwCtxs (set : TagSet) (alloc : ℕ → Bool) (q : HwQueues) : HwQueues :=
  let p := reallocLoop m set alloc set.nrHwQueues 0 q
  if p.1 ≠ set.nrHwQueues then freeHctxs q.nrHwQueues (p.1 - q.nrHwQueues) p.2
  else freeHctxs set.nrHwQueues (q.nrHwQueues - set.nrHwQueues)
    { p.2 with nrHwQueues := set.nrHwQueues }

/-- The repair in `blk_mq_init_cpu_queues`, for one CPU and one map. -/
def setLocalNode (set : TagSet) (q : HwQueues) (cpu : ℕ) (j : HctxType) : HwQueues :=
  let i := (set.map j).mqMap cpu
  if 1 < set.nrHwQueues ∧ q.queueHwCtx i = some NUMA_NO_NODE then
    { q with queueHwCtx := Function.update q.queueHwCtx i (some (m.node cpu)) }
  else q

def blkMqInitCpuQueues (set : TagSet) (q : HwQueues) : HwQueues :=
  (List.range m.nrCpuIds).foldl
    (fun q cpu => set.types.foldl (fun q j => setLocalNode m set q cpu j) q) q

def blkMqInitAllocatedQueue (set : TagSet) (alloc : ℕ → Bool) : HwQueues :=
  blkMqInitCpuQueues m set (blkMqReallocHwCtxs m set alloc ⟨0, fun _ => none, []⟩)

end Alloc

/-- `blk_mq_map_swqueue`, where the CPUs whose queue got no tags fall back to queue 0. -/
def blkMqMapSwqueue (noTags : ℕ → Bool) (set : TagSet) : TagSet :=
  { set with
    map := Function.update set.map .default
      { set.map .default with
        mqMap := fun cpu => if noTags cpu then 0 else (set.map .default).mqMap cpu } }

/-- The hardware queue that `ctx->hctxs[type]` of a CPU is. -/
def ctxHctx (set : TagSet) (cpu : ℕ) (j : HctxType) : ℕ :=
  if j.index < set.nrMaps ∧ (set.map j).nrQueues ≠ 0 then (set.map j).mqMap cpu
  else (set.map .default).mqMap cpu

/-- What a call of `blk_mq_get_request` meets, and where its loops end. -/
structure Call where
  params : Params
  blkSwitchDebug : ℤ
  bio : Option Bio
  cmdFlags : UInt32
  /-- `data->ctx->cpu` -/
  ctxCpu : ℕ
  /-- `current->cpu` at the start, and behind application steering -/
  currentCpu : ℕ
  movedCpu : ℕ
  reset : Bool
  snapshot : Bool
  /-- the turns that the loop of application steering makes, and the one it takes its target from -/
  appTurns : ℕ
  appPick : Option ℕ
  /-- the local queue is busy -/
  busy : Bool
  /-- the turn that request steering takes its target from -/
  reqPick : Option ℕ
  twoRand : UInt8 × UInt8
  second : Bool
  hasTag : Bool

/-- The subscripts of the arrays, the arguments of `per_cpu_ptr`, and the values of `cur_node` with
the number of nodes at the time. -/
structure Uses where
  subscripts : List ℤ
  perCpu : List ℤ
  nodes : List (ℤ × ℕ)
  deriving DecidableEq

def Uses.append (u v : Uses) : Uses :=
  ⟨u.subscripts ++ v.subscripts, u.perCpu ++ v.perCpu, u.nodes ++ v.nodes⟩

namespace Call

variable (c : Call)

def count : ℕ := nrCpus c.params / c.params.numOnlineNodes

def nodeCpu (curNode : ℤ) (i : ℕ) : ℤ := i * c.params.numOnlineNodes + curNode

def nodeCpus (curNode : ℤ) (turns : ℕ) : List ℤ := (List.range turns).map (c.nodeCpu curNode)

def allCpus : List ℤ := (List.range (nrCpus c.params)).map fun i : ℕ => (i : ℤ)

def switched : Bool :=
  match c.bio with
  | some bio => decide (0 < bio.biSize)
  | none => false

def thru : Bool :=
  match c.bio with
  | some bio => blkSwitchIsThruRequest bio
  | none => false

def resetUses : Uses :=
  ⟨(if c.reset then c.allCpus else []) ++
    (if c.blkSwitchDebug ≠ 0 then [(c.currentCpu : ℤ)] else []), [], []⟩

/-- Application steering; `target_cpu` is negative when there is none. -/
def appUses (curNode : ℤ) : Uses where
  subscripts :=
    (c.ctxCpu : ℤ) ::
      (if c.snapshot then c.allCpus ++ (if c.blkSwitchDebug = 3 then [0, 4, 8, 12, 16, 20] else [])
        else []) ++
      c.nodeCpus curNode c.appTurns ++
      (match c.appPick with
        | some i =>
          if 0 ≤ c.nodeCpu curNode i ∧ c.blkSwitchDebug ≠ 0 then [c.nodeCpu curNode i] else []
        | none => [])
  perCpu := if c.movedCpu ≠ c.ctxCpu then [(c.movedCpu : ℤ)] else []
  nodes := [(curNode, c.params.numOnlineNodes)]

def twoCpu (curNode : ℤ) : ℤ × ℤ :=
  (c.nodeCpu curNode (c.twoRand.1.toNat % c.count), c.nodeCpu curNode (c.twoRand.2.toNat % c.count))

/-- `target_cpu` of request steering. -/
def reqTarget (curNode : ℤ) : ℤ :=
  let random := if c.second then (c.twoCpu curNode).2 else (c.twoCpu curNode).1
  if c.busy then
    match c.reqPick with
    | some i => if 0 ≤ c.nodeCpu curNode i then c.nodeCpu curNode i else random
    | none => random
  else c.ctxCpu

/-- The random bytes are drawn when the loop leaves `target_cpu` negative. -/
def draws (curNode : ℤ) : Bool :=
  c.busy &&
    match c.reqPick with
    | some i => decide (c.nodeCpu curNode i < 0)
    | none => true

def reqUses (curNode : ℤ) : Uses where
  subscripts :=
    (c.ctxCpu : ℤ) :: (if c.busy then c.nodeCpus curNode c.count else []) ++
      (if c.reqTarget curNode ≠ c.ctxCpu then [c.reqTarget curNode] else [])
  perCpu :=
    (if c.busy then c.nodeCpus curNode c.count else []) ++
      (if c.draws curNode then [(c.twoCpu curNode).1, (c.twoCpu curNode).2] else []) ++
      (if c.reqTarget curNode ≠ c.ctxCpu then [c.reqTarget curNode] else [])
  nodes := [(curNode, c.params.numOnlineNodes)]

def appOn (blkSwitch : Bool) : Bool := blkSwitch && c.switched && decide (2 ≤ c.params.blkSwitchOn)

def appSteered (blkSwitch : Bool) : Bool := c.appOn blkSwitch && decide (c.movedCpu ≠ c.ctxCpu)

def reqOn (blkSwitch : Bool) : Bool :=
  blkSwitch && c.switched && c.thru && decide
    (1 ≤ c.params.blkSwitchOn) && !c.appSteered blkSwitch &&
    decide (c.params.numOnlineNodes * 2 ≤ nrCpus c.params)

/-- `data->ctx->cpu` behind both kinds of steering. -/
def cpu (blkSwitch : Bool) (curNode : ℤ) : ℤ :=
  if c.appSteered blkSwitch then c.movedCpu
  else if c.reqOn blkSwitch then c.reqTarget curNode
  else c.ctxCpu

def chargeUses (blkSwitch : Bool) (curNode : ℤ) : Uses :=
  let reqSteered := c.reqOn blkSwitch && decide (c.reqTarget curNode ≠ c.ctxCpu)
  ⟨if blkSwitch && c.bio.isSome && !reqSteered && c.hasTag then [c.cpu blkSwitch curNode] else [],
    [], []⟩

def noUses : Uses := ⟨[], [], []⟩

def uses (blkSwitch : Bool) (curNode : ℤ) : Uses :=
  (((if blkSwitch && c.switched then c.resetUses else noUses).append
    (if c.appOn blkSwitch then c.appUses curNode else noUses)).append
    (if c.reqOn blkSwitch then c.reqUses curNode else noUses)).append
    (c.chargeUses blkSwitch curNode)

/-- What a call of the kernel can be: CPUs that exist, and loops that end where they can. -/
structure Possible (m : Machine) (c : Call) : Prop where
  nodes : 0 < c.params.numOnlineNodes
  online : c.params.numOnlineCpus ≤ m.nrCpuIds
  ctx : c.ctxCpu < m.nrCpuIds
  current : c.currentCpu < m.nrCpuIds
  moved : c.movedCpu < m.nrCpuIds
  turns : c.appTurns ≤ c.count
  app : ∀ i ∈ c.appPick, i < c.appTurns
  req : ∀ i ∈ c.reqPick, i < c.count

instance (m : Machine) (c : Call) : Decidable (c.Possible m) :=
  decidable_of_iff
    (0 < c.params.numOnlineNodes ∧ c.params.numOnlineCpus ≤ m.nrCpuIds ∧ c.ctxCpu < m.nrCpuIds ∧
      c.currentCpu < m.nrCpuIds ∧ c.movedCpu < m.nrCpuIds ∧ c.appTurns ≤ c.count ∧
      (∀ i ∈ c.appPick, i < c.appTurns) ∧ ∀ i ∈ c.reqPick, i < c.count)
    ⟨fun ⟨h1, h2, h3, h4, h5, h6, h7, h8⟩ => ⟨h1, h2, h3, h4, h5, h6, h7, h8⟩,
      fun h => ⟨h.nodes, h.online, h.ctx, h.current, h.moved, h.turns, h.app, h.req⟩⟩

end Call

structure NodeState where
  set : TagSet
  q : HwQueues
  /-- `mq_ctx->cpu` of the requests that have not ended -/
  live : List ℤ
  uses : Uses

inductive NodeEvent
  /-- `blk_mq_update_nr_hw_queues`, with the maps that the driver makes. Should a request queue of
  the set fail to grow, the former number is restored with another default map. -/
  | updateNrHwQueues (n : ℕ) (map : HctxType → QueueMap) (alloc : ℕ → Bool)
      (fallback : Option (QueueMap × (ℕ → Bool))) (noTags : ℕ → Bool)
  | getRequest (c : Call)
  | endRequest (i : ℕ) (counted : Bool)

def TagSet.resized (set : TagSet) (n : ℕ) (map : HctxType → QueueMap) : TagSet :=
  { set with nrHwQueues := n, map := map }

def TagSet.restored (set : TagSet) (map : HctxType → QueueMap) (fallback : QueueMap) : TagSet :=
  { set with map := Function.update map .default fallback }

def blkMqUpdateNrHwQueues (m : Machine) (s : NodeState) (n : ℕ) (map : HctxType → QueueMap)
    (alloc : ℕ → Bool) (fallback : Option (QueueMap × (ℕ → Bool))) (noTags : ℕ → Bool) :
    Option NodeState :=
  let n := if s.set.nrMaps = 1 ∧ m.nrCpuIds < n then m.nrCpuIds else n
  if n < 1 ∨ n = s.set.nrHwQueues then some s
  else
    let q := blkMqReallocHwCtxs m (s.set.resized n map) alloc s.q
    let p : TagSet × HwQueues :=
      match fallback with
      | none => (s.set.resized n map, q)
      | some f => (s.set.restored map f.1, blkMqReallocHwCtxs m (s.set.restored map f.1) f.2 q)
    if p.2.nrHwQueues = p.1.nrHwQueues then
      some { s with set := blkMqMapSwqueue noTags p.1, q := p.2 }
    else none

def nodeStep (m : Machine) (blkSwitch : Bool) (s : NodeState) : NodeEvent → Option NodeState
  | .updateNrHwQueues n map alloc fallback noTags =>
    blkMqUpdateNrHwQueues m s n map alloc fallback noTags
  | .getRequest c =>
    if c.Possible m then
      (s.q.queueHwCtx (ctxHctx s.set c.ctxCpu (blkMqMapQueue c.cmdFlags))).map fun curNode =>
        { s with
          live := if c.hasTag then s.live ++ [c.cpu blkSwitch curNode] else s.live
          uses := s.uses.append (c.uses blkSwitch curNode) }
    else none
  | .endRequest i counted =>
    (s.live[i]?).map fun cpu =>
      { s with
        live := s.live.eraseIdx i
        uses := s.uses.append ⟨if counted then [cpu] else [], [], []⟩ }

def nodeSystem (m : Machine) (blkSwitch : Bool) (set : TagSet) (alloc : ℕ → Bool)
    (noTags : ℕ → Bool) :
    Runs.System NodeState NodeEvent where
  init := ⟨blkMqMapSwqueue noTags set, blkMqInitAllocatedQueue m set alloc, [], Call.noUses⟩
  step := nodeStep m blkSwitch

end BlkSwitch.Blk
