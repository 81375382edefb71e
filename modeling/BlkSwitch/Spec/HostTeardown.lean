import BlkSwitch.Spec.HostQueue

/-! An nvme-tcp host queue that is stopped, freed and set up again (drivers/nvme/host/tcp.c) while
its workers, its callbacks and its doorbell timer may still be underway. The stop begins when the
block layer has quiesced the queue, so no submitter is left then; a worker that handles an R2T goes
through `nvme_tcp_queue_request` itself. -/

namespace BlkSwitch.Host

/-- How far `__nvme_tcp_stop_queue` and `nvme_tcp_free_queue` have come. -/
inductive Phase
  | live
  /-- behind `kernel_sock_shutdown` -/
  | shutdown
  /-- behind `nvme_tcp_restore_sock_calls` -/
  | restored
  /-- inside `cancel_work_sync` of a worker -/
  | cancel (l : Lane)
  /-- between the two -/
  | thruCancelled
  | stopped
  /-- socket and caravan are freed -/
  | freed
  /-- behind `hrtimer_cancel` -/
  | down
  deriving DecidableEq, Repr

structure TeardownState where
  host : HostState
  /-- who is in each of the calls, a worker or a submitter -/
  callers : List (Option Lane)
  phase : Phase

inductive TeardownEvent
  | party (who : Option Lane) (e : HostEvent)
  | sockShutdown
  | restoreSockCalls
  | cancelStart
  | cancelDone
  | freeQueue
  | hrtimerCancel
  | allocQueue

def inRecv (s : HostState) (l : Lane) : Bool :=
  match (s.work l).pc with
  | .recv _ => true
  | _ => false

def unqueue (s : HostState) (l : Lane) : HostState :=
  { s with work := Function.update s.work l { s.work l with queued := false } }

/-- Nobody can queue a work item while `cancel_work_sync` holds it. -/
def held (phase : Phase) (s : HostState) : HostState :=
  match phase with
  | .cancel l => unqueue s l
  | _ => s

def mayRun (s : TeardownState) (who : Option Lane) : HostEvent → Bool
  | .queueRq _ _ => s.phase = .live && who.isNone
  | .handleR2t _ _ => who.any (inRecv s.host)
  | .dataReady | .writeSpace => s.phase = .live || s.phase = .shutdown
  | .tryRecv l _ _ => some l ∉ s.callers
  | _ => true

def callersAfter (s : TeardownState) (who : Option Lane) (h : HostState) : HostEvent →
    List (Option Lane)
  | .queueRq _ _ | .handleR2t _ _ =>
    if s.host.calls.length < h.calls.length then s.callers ++ [who] else s.callers
  | .requestUnlocked i => s.callers.eraseIdx i
  | _ => s.callers

def teardownStep (c : Config) (s : TeardownState) : TeardownEvent → Option TeardownState
  | .party who e =>
    if mayRun s who e then
      (hostStep c s.host e).map fun h =>
        { s with host := held s.phase h, callers := callersAfter s who h e }
    else none
  | .sockShutdown =>
    if s.phase = .live ∧ none ∉ s.callers then some { s with phase := .shutdown }
    else none
  | .restoreSockCalls => if s.phase = .shutdown then some { s with phase := .restored } else none
  | .cancelStart =>
    match s.phase with
    | .restored => some { s with host := unqueue s.host .thru, phase := .cancel .thru }
    | .thruCancelled => some { s with host := unqueue s.host .lat, phase := .cancel .lat }
    | _ => none
  | .cancelDone =>
    match s.phase with
    | .cancel .thru =>
      if (s.host.work .thru).pc = .idle then some { s with phase := .thruCancelled }
      else none
    | .cancel .lat =>
      if (s.host.work .lat).pc = .idle then some { s with phase := .stopped }
      else none
    | _ => none
  | .freeQueue => if s.phase = .stopped then some { s with phase := .freed } else none
  | .hrtimerCancel =>
    if s.phase = .freed then
      some { s with
        host := { s.host with q := { s.host.q with doorbellTimer := false } }
        phase := .down }
    else none
  | .allocQueue =>
    -- `prio_class` is left as it is
    if s.phase = .down then
      some
        { host :=
            { (hostSystem c).init with
              q := { blankQueue c with prioClass := s.host.q.prioClass } }
          callers := []
          phase := .live }
    else none

def teardownSystem (c : Config) : Runs.System TeardownState TeardownEvent where
  init := ⟨(hostSystem c).init, [], .live⟩
  step := teardownStep c

end BlkSwitch.Host
