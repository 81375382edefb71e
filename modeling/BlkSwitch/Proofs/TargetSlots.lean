import BlkSwitch.Proofs.TargetFifo
import BlkSwitch.Sanity.TargetReads

/-! The slots of a target queue. As long as the connection is up, no iovec is refused and no
write is rejected whose data the target then skips, every slot is in one place and every list of
pages is freed once or has one owner. A rejected write that is skipped is queued for its response
and being received at the same time. -/

namespace BlkSwitch.Target

open NvmetTcpQueue Custody

def places (q : NvmetTcpQueue) : List CmdId :=
  q.cmd.toList ++ q.waiting ++ q.executing ++ q.respList ++ q.respSendList ++ q.sndCmd.toList ++
    q.caravanCmds

/-- Every slot is in one place. -/
def OnePlace (c : Config) (q : NvmetTcpQueue) : Prop :=
  ∀ i < c.nrCmds, (q.freeList ++ places q).count (.slot i) = 1

/-- Every list of pages has been freed once, or never and one command will have it freed. -/
def FreedOnce (c : Config) (q : NvmetTcpQueue) : Prop :=
  ∀ g < q.sglAllocs, q.sglFreed.count g + ((places q).filterMap (owned c q)).count g = 1

instance (c : Config) (q : NvmetTcpQueue) : Decidable (OnePlace c q) := by
  unfold OnePlace
  infer_instance

instance (c : Config) (q : NvmetTcpQueue) : Decidable (FreedOnce c q) := by
  unfold FreedOnce
  infer_instance

/-- No write is rejected whose data the target skips. -/
def SkipsNothing (c : Config) (s : TargetState) : TargetEvent → Prop
  | .recv b env => ∀ pdu ∈ headerRead s.q b, ¬ Skips c env pdu
  | .complete _ _ _ | .sendStart _ | .sendTurn _ _ => True

instance (c : Config) (s : TargetState) : (e : TargetEvent) → Decidable (SkipsNothing c s e)
  | .recv b env => inferInstanceAs (Decidable (∀ pdu ∈ headerRead s.q b, ¬ Skips c env pdu))
  | .complete _ _ _ | .sendStart _ | .sendTurn _ _ => .isTrue trivial

/-- The connection is up and the step is fair and skips nothing. -/
def SlotStep (c : Config) (s : TargetState) (e : TargetEvent) : Prop :=
  s.q.fatal = false ∧ FairStep s e ∧ SkipsNothing c s e

instance (c : Config) (s : TargetState) (e : TargetEvent) : Decidable (SlotStep c s e) := by
  unfold SlotStep
  infer_instance

section Places

variable {c : Config} {q q' : NvmetTcpQueue} {i : CmdId}

/-- No request has failed with its data still to be skipped, and the receive path goes on. -/
structure Plain (q : NvmetTcpQueue) : Prop where
  flag : ∀ j, (q.cmds j).initFailed = false
  up : q.rcvState ≠ .err

theorem Plain.held (h : Plain q) (hr : RecvOk q) : Target.held q = places q := by
  have hrecv : receiving q = q.cmd.toList := by
    cases hs : q.rcvState with
    | pdu => simp [receiving, hs, hr.idle hs]
    | err => exact absurd hs h.up
    | data | ddgst => simp [receiving, hs, h.flag]
  rw [Target.held, places, hrecv]

theorem Plain.onePlace {L₀ : Ledger CmdId (pool c)} (h : Plain q) (hk : Kept c L₀ q) :
    OnePlace c q := by
  intro i hi
  obtain ⟨L, -, hL⟩ := hk.ledger
  have hin : CmdId.slot i ∈ pool c := by simp [pool, slots, hi]
  have hone := L.count_eq_one hin fun hr => by cases hL.retired _ hr
  rw [List.count_append, hL.free, hL.places.count_eq, List.nil_append, h.held hk.recv] at hone
  rw [List.count_append]
  exact hone

theorem Plain.freedOnce {L₀ : Ledger CmdId (pool c)} (h : Plain q) (hk : Kept c L₀ q) :
    FreedOnce c q := by
  intro g hg
  obtain ⟨L, -, hL⟩ := hk.ledger
  have hone := L.count_id_eq_one (g := g) (by rwa [hL.next])
  have howns : L.held.filterMap L.owns = L.held.filterMap (owned c q) :=
    List.filterMap_congr fun i hi => hL.owns i (hL.places.subset hi)
  rw [List.count_append, hL.released, howns, (hL.places.filterMap _).count_eq, List.nil_append,
    h.held hk.recv] at hone
  exact hone

theorem Plain.congr (h : Plain q) (hf : ∀ j, (q'.cmds j).initFailed = (q.cmds j).initFailed)
    (hr : q'.rcvState = q.rcvState) : Plain q' :=
  ⟨fun j => (hf j).trans (h.flag j), by rw [hr]; exact h.up⟩

theorem Plain.turn (h : Plain q) (last nospace : Bool) :
    Plain (trySendTurn c last nospace q).2 := by
  refine trySendTurn_invariant (I := Plain) ?_ ?_ ?_ ?_ last nospace h
  · intro q i sl rl len h _
    exact h.congr (fun j => (fetched_cmds_req sl rl len j).2) rfl
  · intro i q q' h hs
    have hf := hs.2.frame
    exact h.congr hf.flag hf.rcv.2.2.1
  · intro q h
    obtain ⟨b, rs, hq⟩ := q.kernelSend_heard q.caravanBytes
    rw [hq, caravanSent, freeCaravanCmds_eq]
    exact h.congr (fun _ => rfl) rfl
  · intro q h
    exact h.congr (fun _ => rfl) rfl

theorem Plain.step {s s' : TargetState} {e : TargetEvent} (h : Plain s.q) (hfair : FairStep s e)
    (hskip : SkipsNothing c s e) (hs : targetStep c s e = some s') (hup : s'.q.fatal = false) :
    Plain s'.q := by
  refine targetStep_invariant (I := Plain) h ?_ ?_ ?_ ?_ hs hup
  · rintro b env rfl hup
    have hf := recvFrame_tryRecv hfair hup
    refine ⟨fun j => ?_, hf.up h.up⟩
    by_contra hj
    have hold := hf.flag (fun ⟨pdu, hp, hw⟩ => hskip pdu hp hw) j (by simpa using hj)
    rw [h.flag j] at hold
    cases hold
  · rintro i cqe data q' rfl hq'
    obtain ⟨-, rfl⟩ := backendCompletes_some hq'
    have hset : CmdOnly i s.q (s.q.modifyCmd i (completed cqe data)) := cmdOnly_modifyCmd ⟨rfl, rfl⟩
    exact h.congr hset.initFailed rfl
  · intro rs
    exact h.congr (fun _ => rfl) rfl
  · intro q last nospace hq
    exact hq.turn last nospace

end Places

/-- In every run whose steps find the connection up, are fair and skip nothing, every slot is in
one place and every list of pages is freed once. -/
theorem slots_in_one_place {c : Config} {es : List TargetEvent} {s : TargetState}
    (h : (targetSystem c).RunIn (SlotStep c) es s) (hup : s.q.fatal = false) :
    OnePlace c s.q ∧ FreedOnce c s.q := by
  have hinv : s.q.fatal = false → Kept c (initLedger c) s.q ∧ Plain s.q := by
    refine h.invariant (I := fun s => s.q.fatal = false → Kept c (initLedger c) s.q ∧ Plain s.q) ?_
      ?_
    · exact fun _ => ⟨kept_init c, fun _ => rfl, by simp [targetSystem, initQueue]⟩
    · rintro s e s' ih ⟨hbefore, hfair, hskip⟩ hs hafter
      obtain ⟨hk, hp⟩ := ih hbefore
      exact ⟨hk.step hfair hs hafter, hp.step hfair hskip hs hafter⟩
  obtain ⟨hk, hp⟩ := hinv hup
  exact ⟨hp.onePlace hk, hp.freedOnce hk⟩

section Sample

def plainTarget : Config := { sampleTarget with hdrDigest := false }

def sampleCapsule (opcode type : UInt8) : List Byte :=
  let cmd := NvmeCommand.decodeAt [] 0
  let pdu : NvmeTcpCmdPdu :=
    ⟨⟨nvmeTcpCmd, 0, 72, 0, 72⟩, { cmd with opcode := opcode, sgl := ⟨0, 4, (0, 0, 0), type⟩ }⟩
  pdu.encode

def sampleRecv (pdu : List Byte) (env : Env) : List TargetEvent :=
  [.recv (pdu.take 8) env, .recv (pdu.drop 8) env]

/-- An inline write that is executed and answered, and a read whose data is sent. -/
def sampleSlotRun : List TargetEvent :=
  sampleRecv (sampleCapsule 1 1) ⟨.accept 4, .all⟩ ++
    [.recv [1, 2, 3, 4] ⟨.accept 0, .all⟩, .complete (.slot 0) ⟨0, 0, 0, 0, 0⟩ [1, 2, 3, 4],
    .sendStart 1,
      .sendTurn false []] ++
    sampleRecv (sampleCapsule 2 0x5a) ⟨.accept 4, .all⟩ ++
    [.complete (.slot 1) ⟨0, 0, 0, 0, 0⟩ [5, 6, 7, 8], .sendStart 2, .sendTurn true []]

theorem slots_in_one_place_sample :
    ∃ s, (targetSystem plainTarget).RunIn (SlotStep plainTarget) sampleSlotRun s ∧
      s.q.fatal = false ∧ s.q.caravanIovs ≠ [] ∧ s.q.sglFreed = [0] ∧ s.q.sglAllocs = 2 ∧
      OnePlace plainTarget s.q ∧ FreedOnce plainTarget s.q := by
  obtain ⟨s, hrun, hup, hcar, hfreed, hall⟩ : ∃ s,
    (targetSystem plainTarget).RunIn (SlotStep plainTarget)
      sampleSlotRun s ∧ s.q.fatal = false ∧ s.q.caravanIovs ≠ [] ∧ s.q.sglFreed = [0] ∧
        s.q.sglAllocs = 2 :=
    Runs.System.exists_runIn_of_execIn
      (fun s : TargetState => s.q.fatal = false ∧ s.q.caravanIovs ≠ [] ∧ s.q.sglFreed = [0] ∧
      s.q.sglAllocs = 2) (by decide +kernel)
  exact ⟨s, hrun, hup, hcar, hfreed, hall, slots_in_one_place hrun hup⟩

/-- A rejected inline write is being received and queued for its response at once. -/
theorem slot_in_two_places :
    ∃ s, (targetSystem plainTarget).Run
      (sampleRecv (sampleCapsule 1 1) ⟨.reject ⟨0, 0, 0, 0, 2⟩, .all⟩) s ∧ s.q.fatal = false ∧
      s.q.cmd = some (.slot 0) ∧ s.q.respList = [.slot 0] ∧ ¬ OnePlace plainTarget s.q :=
  Runs.System.exists_runIn_of_execIn
    (fun s : TargetState => s.q.fatal = false ∧ s.q.cmd = some (.slot 0) ∧
    s.q.respList = [.slot 0] ∧ ¬ OnePlace plainTarget s.q) (by decide +kernel)

end Sample

end BlkSwitch.Target
