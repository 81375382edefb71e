import BlkSwitch.Lib.Packing
import BlkSwitch.Proofs.HostCounter
import BlkSwitch.Proofs.HostWorkers
import BlkSwitch.Proofs.TargetFifo
import BlkSwitch.Sanity.TargetPacking
import BlkSwitch.Spec.HostPreempt

/-! The caravan of a queue as a buffer with limits. Every append of the host and of the target is
made behind the test for room, so the counters of a queue count its entries and the arrays hold
them, whatever the socket answers and however long a flush is put off. -/

namespace BlkSwitch.Host

open SendQueue Relation

def Kvec.isPage (k : Kvec) : Bool :=
  match k.base with
  | .pdu _ _ => false
  | .page _ _ => true

/-- The limits of `i10_host_is_caravan_full`. Entries have as many places; `caravan_mapped` has more
than `aggr`, as it is allocated with the size of a `struct page` for that of a pointer. -/
def caravanLimits (aggr : ℕ) : Packing.Limits Kvec where
  size := Kvec.len
  isPage := Kvec.isPage
  bytes := I10_CARAVAN_CAPACITY
  entries := aggr * 2
  pages := aggr
  items := 1

def SendQueue.packed (q : SendQueue) : Packing.Buffer Kvec :=
  ⟨q.caravanIovs, q.caravanLen, q.caravanMapped.length, 0⟩

/-- From one queue to the other the caravan was filled, each time with room, and emptied. -/
def Packs (aggr : ℕ) (q q' : SendQueue) : Prop :=
  ReflTransGen (Packing.Step (caravanLimits aggr)) q.packed q'.packed

section Path

variable {c : Config} {aggr t : ℕ} {q q' : SendQueue}

theorem room_iff : Packing.Room (caravanLimits aggr) q.packed ↔
    q.i10HostIsCaravanFull aggr = false := by
  simp only [i10HostIsCaravanFull, ge_iff_le, Bool.or_eq_false_iff, decide_eq_false_iff_not, not_le]
  exact ⟨fun h => ⟨⟨h.bytes, h.entries⟩, h.pages⟩, fun h => ⟨h.1.1, h.1.2, h.2, Nat.one_pos⟩⟩

theorem packed_append (aggr : ℕ) (q : SendQueue) (k : Kvec) :
    (q.append k).packed = q.packed.put (caravanLimits aggr) k false := by
  obtain ⟨base, len⟩ := k
  cases base <;> simp [SendQueue.append, packed, Packing.Buffer.put, caravanLimits, Kvec.isPage]

theorem packs_same (h : q'.packed = q.packed) : Packs aggr q q' := by
  unfold Packs
  rw [h]

theorem packs_append (k : Kvec) (h : q.i10HostIsCaravanFull aggr = false) :
    Packs aggr q (q.append k) := by
  unfold Packs
  rw [packed_append aggr]
  exact .single (.put k false (room_iff.2 h))

theorem kernelSend_packed (q : SendQueue) (b : List Byte) :
    (q.kernelSend b).2.packed = q.packed := by
  unfold SendQueue.kernelSend
  split
  · rfl
  · rfl
  · dsimp only
    split_ifs <;> rfl

theorem packs_path (aggr t : ℕ) : PathRel aggr t (Packs aggr) where
  refl _ := .refl
  trans h h' := h.trans h'
  modify _ _ := packs_same rfl
  hash _ _ := packs_same rfl
  mark _ := packs_same rfl
  done _ := packs_same rfl
  socket q b := packs_same (kernelSend_packed q b)
  append _ k h := packs_append k h

theorem packs_sent (q : SendQueue) : Packs aggr q (caravanSent q) := .single (.clear _)

theorem trySendRest_packs (c : Config) (aggr : ℕ) (legacy flush nospace : Bool) (q : SendQueue) :
    Packs aggr q (trySendRest c aggr legacy flush nospace q).2 := by
  have hsend : Packs aggr q (q.kernelSend q.caravanBytes).2 := packs_same (kernelSend_packed q _)
  exact trySendRest_rel (fun t _ => packs_path aggr t) .refl (packs_same rfl) hsend
    (hsend.trans (packs_sent _))
    (kernelSend_reqs q _).2 legacy flush nospace

theorem fromMap_packs (legacy : Bool) (a : PendingAppend)
    (h : q.i10HostIsCaravanFull I10_MAX_AGGREGATION_SIZE = false) :
    Packs I10_MAX_AGGREGATION_SIZE q (fromMap c legacy a q).2 := by
  have hR := packs_path I10_MAX_AGGREGATION_SIZE a.t
  have hput : Packs I10_MAX_AGGREGATION_SIZE q (q.append a.kvec) := packs_append a.kvec h
  have hsent := hput.trans
    (hR.dataSentUpdate (c := c) (a.kvec.bytes (q.append a.kvec).reqs) a.kvec.len (q.append a.kvec))
  have hstage : ∀ p : ℤ × SendQueue, Packs I10_MAX_AGGREGATION_SIZE q p.2 →
    Packs I10_MAX_AGGREGATION_SIZE q
      (if p.1 ≤ 0 then p else stage a.t .ddgst (nvmeTcpTrySendDdgst a.t) Prod.mk p.1 p.2).2 := by
    intro p hp
    split_ifs
    · exact hp
    · exact hp.trans (hR.stage hR.ddgst (fun _ _ => hR.refl _) _ _)
  unfold fromMap
  dsimp only
  refine hstage _ ?_
  split_ifs
  · exact hput
  · exact hsent.trans (hR.dataDone _)
  · exact hsent.trans (hR.dataLoop legacy _ _)

theorem untilMap_packs {q : NvmeTcpQueue} {p : PendingAppend × SendQueue}
    (h : untilMap c q = some p) :
    Packs I10_MAX_AGGREGATION_SIZE q.toSendQueue p.2 ∧
      p.2.i10HostIsCaravanFull I10_MAX_AGGREGATION_SIZE = false := by
  have hflush : Packs I10_MAX_AGGREGATION_SIZE q.toSendQueue
      (if q.sendNow then (fun p => (p.1, caravanSent p.2)) (q.kernelSend q.caravanBytes)
        else (1, q.toSendQueue)).2 := by
    split_ifs
    · exact (packs_same (kernelSend_packed _ _)).trans (packs_sent _)
    · exact .refl
  unfold untilMap at h
  dsimp only at h
  generalize (if q.sendNow then (fun p => (p.1, caravanSent p.2)) (q.kernelSend q.caravanBytes)
    else (1, q.toSendQueue)) = f at h hflush
  split at h
  · cases h
  · rename_i t hreq
    have hR := packs_path I10_MAX_AGGREGATION_SIZE t
    have hh2c : ∀ ret q₁, Packs I10_MAX_AGGREGATION_SIZE q₁ (stage t .h2cPdu
        (nvmeTcpTrySendDataPdu c I10_MAX_AGGREGATION_SIZE (i10HostLegacyPath c q) t) Prod.mk ret
          q₁).2 :=
      hR.stage (hR.dataPdu _) fun _ _ => hR.refl _
    split_ifs at h with hroom
    cases h
    exact ⟨hflush.trans (hR.stage (hR.cmdPdu _) hh2c 1 f.2), hroom.2.2.2.2⟩

end Path

section Steps

variable {c : Config} {s s' : HostState}

theorem dequeue_packed (c : Config) (q : NvmeTcpQueue) :
    (nvmeTcpTrySendDequeue c q).2.packed = q.packed := by
  obtain ⟨t, -, heq⟩ | ⟨t, rest, -, -, heq⟩ | ⟨-, -, -, -, heq⟩ | ⟨-, -, -, heq⟩ :=
    trySendDequeue_cases c q <;>
    rw [heq] <;> rfl

theorem submit_packed (s : HostState) (t : ℕ) (r : NvmeTcpRequest) (pdu : List Byte) :
    (submit c s t r pdu).q.packed = s.q.packed := by
  rw [submit_q, (queueRequestLocked_fields c t _).1]
  rfl

/-- Nobody but the sender touches the caravan. -/
theorem hostStep_packed {e : HostEvent} (hstep : hostStep c s e = some s')
    (hsender : (ReuseEvent.host e).sender = none) : s'.q.packed = s.q.packed := by
  cases e with
  | queueRq t rq =>
    simp only [hostStep, Option.ite_none_right_eq_some, Option.some.injEq] at hstep
    obtain ⟨-, rfl⟩ := hstep
    exact submit_packed s t _ _
  | handleR2t t pdu =>
    simp only [hostStep, Option.ite_none_right_eq_some] at hstep
    obtain ⟨-, hstep⟩ := hstep
    split_ifs at hstep
    · obtain rfl := Option.some_inj.1 hstep
      exact submit_packed s t _ _
    · obtain rfl := Option.some_inj.1 hstep
      rfl
  | requestUnlocked i =>
    simp only [hostStep] at hstep
    cases hcall : s.calls[i]? with
    | none => simp [hcall] at hstep
    | some noDelay =>
      simp only [hcall, Option.some.injEq] at hstep
      obtain rfl := hstep
      rcases queueRequestUnlocked_eq noDelay s.q with ⟨heq, hf⟩ | ⟨heq, hf⟩ <;>
        simp only [heq, hf] <;> rfl
  | doorbellTimeout =>
    simp only [hostStep, Option.ite_none_right_eq_some, Option.some.injEq] at hstep
    obtain ⟨-, rfl⟩ := hstep
    rfl
  | dataReady | writeSpace =>
    obtain rfl := Option.some_inj.1 hstep
    rfl
  | workStart l =>
    simp only [hostStep, Option.ite_none_right_eq_some, Option.some.injEq] at hstep
    obtain ⟨-, rfl⟩ := hstep
    rfl
  | sendDequeue l =>
    simp only [hostStep, Option.ite_none_right_eq_some, Option.some.injEq] at hstep
    obtain ⟨-, rfl⟩ := hstep
    exact dequeue_packed c s.q
  | sendRest l nospace replies => cases hsender
  | tryRecv l got expired =>
    simp only [hostStep] at hstep
    split at hstep
    · split_ifs at hstep <;> (obtain rfl := Option.some_inj.1 hstep; rfl)
    · cases hstep

theorem reuseStep_packed {e : ReuseEvent} (hstep : reuseStep c s e = some s')
    (hsender : e.sender = none) :
    s'.q.packed = s.q.packed := by
  cases e with
  | queueRq t rq =>
    simp only [reuseStep, Option.ite_none_right_eq_some, Option.some.injEq] at hstep
    obtain ⟨-, rfl⟩ := hstep
    exact submit_packed s t _ _
  | handleR2t t pdu =>
    simp only [reuseStep, Option.ite_none_right_eq_some] at hstep
    obtain ⟨-, hstep⟩ := hstep
    split_ifs at hstep
    · obtain rfl := Option.some_inj.1 hstep
      exact submit_packed s t _ _
    · obtain rfl := Option.some_inj.1 hstep
      rfl
  | recvData t r =>
    simp only [reuseStep, Option.ite_none_right_eq_some, Option.some.injEq] at hstep
    obtain ⟨-, rfl⟩ := hstep
    rfl
  | host e => exact hostStep_packed hstep hsender

theorem sendFailed_packed (s : HostState) (l : Lane) (result : ℤ) :
    (sendFailed s l result).q.packed = s.q.packed := by
  unfold sendFailed
  dsimp only
  split_ifs <;> rfl

theorem sendRest_packs {l : Lane} {nospace : Bool} {replies : List SockReply}
    (hstep : hostStep c s (.sendRest l nospace replies) = some s') :
    Packs I10_MAX_AGGREGATION_SIZE s.q.toSendQueue s'.q.toSendQueue := by
  simp only [hostStep, Option.ite_none_right_eq_some, Option.some.injEq] at hstep
  obtain ⟨-, rfl⟩ := hstep
  have hrest := trySendRest_packs c I10_MAX_AGGREGATION_SIZE
    (i10HostLegacyPath c { s.q with replies := replies })
    s.q.sendNow nospace { s.q.toSendQueue with replies := replies }
  split_ifs
  · exact hrest.trans (packs_same (sendFailed_packed _ l _))
  · exact hrest

end Steps

section Preempt

variable {c : Config} {s s' : PreemptState}

/-- Behind the dequeue a worker goes on only when no other one is stopped there. -/
def OneSender (s : PreemptState) : PreemptEvent → Prop
  | .run _ e => e.sender.isSome → s.AllMoving
  | .mapStart _ _ _ => s.AllMoving
  | .mapEnd _ _ _ => True

instance (s : PreemptState) (e : PreemptEvent) : Decidable (OneSender s e) :=
  match e with
  | .run _ e => inferInstanceAs (Decidable (e.sender.isSome → s.AllMoving))
  | .mapStart _ _ _ => inferInstanceAs (Decidable s.AllMoving)
  | .mapEnd _ _ _ => inferInstanceAs (Decidable True)

/-- A worker that is stopped has room for its append, and is the only one. -/
structure Stopped (s : PreemptState) : Prop where
  room : ∀ l a, s.held l = some a →
    Packing.Room (caravanLimits I10_MAX_AGGREGATION_SIZE) s.host.q.packed
  one : ∀ l l' a a', s.held l = some a → s.held l' = some a' → l = l'

theorem PreemptState.AllMoving.held (h : s.AllMoving) (l : Lane) : s.held l = none := by
  cases l with
  | thru => exact h.1
  | lat => exact h.2

theorem PreemptState.AllMoving.stopped (h : s.AllMoving) : Stopped s := by
  refine ⟨fun l a ha => ?_, fun l l' a a' ha => ?_⟩ <;> simp [h.held l] at ha

theorem preemptStep_packs {e : PreemptEvent} (h : Stopped s) (hok : OneSender s e)
    (hstep : preemptStep c s e = some s') :
    Packs I10_MAX_AGGREGATION_SIZE s.host.q.toSendQueue s'.host.q.toSendQueue ∧ Stopped s' := by
  cases e with
  | run cpus e =>
    simp only [preemptStep, Option.ite_none_right_eq_some, Option.map_eq_some_iff] at hstep
    obtain ⟨-, host, hhost, rfl⟩ := hstep
    cases hsender : e.sender with
    | none =>
      have hsame := reuseStep_packed hhost hsender
      exact ⟨packs_same hsame, fun l a ha => hsame ▸ h.room l a ha, h.one⟩
    | some l =>
      have hmoving : s.AllMoving := hok (by simp [hsender])
      refine ⟨?_, PreemptState.AllMoving.stopped hmoving⟩
      cases e with
      | queueRq | handleR2t | recvData => cases hsender
      | host e =>
        cases e with
        | sendRest l nospace replies => exact sendRest_packs hhost
        | _ => cases hsender
  | mapStart cpus l replies =>
    simp only [preemptStep, Option.ite_none_right_eq_some, Option.map_eq_some_iff] at hstep
    obtain ⟨-, p, hp, rfl⟩ := hstep
    obtain ⟨hpacks, hroom⟩ := untilMap_packs hp
    have hnone : s.AllMoving := hok
    have hheld : ∀ l' a, Function.update s.held l (some p.1) l' = some a → l' = l := by
      intro l' a ha
      by_contra hne
      rw [Function.update_of_ne hne, hnone.held] at ha
      cases ha
    exact ⟨hpacks, fun _ _ _ => room_iff.2 hroom, fun l₁ l₂ a₁ a₂ h₁ h₂ =>
      (hheld l₁ a₁ h₁).trans (hheld l₂ a₂ h₂).symm⟩
  | mapEnd cpus l replies =>
    simp only [preemptStep] at hstep
    cases hl : s.held l with
    | none => simp [hl] at hstep
    | some a =>
      simp only [hl, Option.some.injEq] at hstep
      obtain rfl := hstep
      have hroom : { s.host.q.toSendQueue with replies := replies }.i10HostIsCaravanFull
        I10_MAX_AGGREGATION_SIZE =
          false := room_iff.1 (h.room l a hl)
      have hpacks := fromMap_packs (c := withCpus c cpus)
        (i10HostLegacyPath (withCpus c cpus) s.host.q) a hroom
      have hnone : ∀ l', Function.update s.held l none l' = none := by
        intro l'
        by_cases hl' : l' = l
        · rw [hl', Function.update_self]
        · rw [Function.update_of_ne hl']
          by_contra hne
          obtain ⟨a', ha'⟩ := Option.ne_none_iff_exists'.1 hne
          exact hl' (h.one l' l a' a ha' hl)
      refine ⟨?_, PreemptState.AllMoving.stopped ⟨hnone _, hnone _⟩⟩
      split_ifs
      · exact hpacks.trans (packs_same (sendFailed_packed _ l _))
      · exact hpacks

end Preempt

/-- The representation of a caravan: its counters count its entries, and it has at most 64 of them
and at most 32 pages. -/
structure CaravanRep (q : SendQueue) : Prop where
  len : q.caravanLen = (q.caravanIovs.map Kvec.len).sum
  iovs : q.caravanIovs.length ≤ 64
  mapped : q.caravanMapped.length = q.caravanIovs.countP Kvec.isPage
  pages : q.caravanMapped.length ≤ 32
  last : ∀ k ∈ q.caravanIovs.getLast?, q.caravanLen < 65536 + k.len

theorem caravanRep_of_rep {q : SendQueue}
    (h : Packing.Rep (caravanLimits I10_MAX_AGGREGATION_SIZE) q.packed) :
    CaravanRep q :=
  ⟨h.len_eq, h.entries_le, h.pages_eq, h.pages_le, h.last_lt⟩

def scattered : List BioVec := List.replicate 32 ⟨List.replicate 16 0⟩

theorem scattered_backed : ∀ b ∈ ([⟨1, scattered, 0, 512⟩] : List Bio), b.Backed := by
  simp only [List.mem_singleton, forall_eq]
  exact ⟨by decide, by decide, by decide, by decide +kernel, by decide +kernel⟩

def scatteredWrite : Rq :=
  bioRq true 1 32 [⟨1, scattered, 0, 512⟩] 2 ⟨by simp, scattered_backed⟩ (by decide)

/-- A queue that was one for latency when its first request came: both its workers are at work, and
`io_work` is about to map the first page of a write. -/
def twoAtWork : List PreemptEvent :=
  [.run 2 (.queueRq 0 sampleRead), .run 2 (.host (.requestUnlocked 0)),
    .run 4 (.queueRq 2 scatteredWrite), .run 4 (.host (.requestUnlocked 0)),
    .run 4 (.host .doorbellTimeout), .run 4 (.host (.workStart .lat)),
    .run 4 (.host (.workStart .thru)), .run 4 (.host (.sendDequeue .thru)),
    .run 4 (.host (.sendRest .thru false [])), .run 4 (.host (.tryRecv .thru false false)),
    .run 4 (.host (.sendDequeue .thru)), .run 4 (.host (.sendDequeue .lat)), .mapStart 4 .thru []]

end BlkSwitch.Host

namespace BlkSwitch.Target

/-- The representation of a caravan: its counters count its entries, and the arrays of 48 entries,
16 pages and 16 commands hold them. -/
structure CaravanRep (q : NvmetTcpQueue) : Prop where
  len : q.caravanLen = (q.caravanIovs.map Kvec.len).sum
  iovs : q.caravanIovs.length ≤ 48
  mapped : q.nrCaravanMapped = q.caravanIovs.countP Kvec.isPage
  pages : q.nrCaravanMapped ≤ 16
  cmds : q.caravanCmds.length ≤ 16
  last : ∀ k ∈ q.caravanIovs.getLast?, q.caravanLen < 65536 + k.len

theorem caravanRep_of_rep {q : NvmetTcpQueue} (h : Packing.Rep caravanLimits q.packed) :
    CaravanRep q :=
  ⟨h.len_eq, h.entries_le, h.pages_eq, h.pages_le, h.items_le, h.last_lt⟩

end BlkSwitch.Target

namespace BlkSwitch

open Runs

end BlkSwitch
