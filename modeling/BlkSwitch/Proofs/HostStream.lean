import BlkSwitch.Lib.Pipe
import BlkSwitch.Proofs.HostDoorbell
import BlkSwitch.Sanity.HostLegacy
import BlkSwitch.Sanity.HostPdu

/-! The caravan path of the host is a pipe for PDUs: what has been given to the socket,
followed by the caravan, what is left of `queue->request` and the PDUs of `send_list`, is the
concatenation of the PDUs of all submitted requests, whenever the worker runs and whenever it
finds no space. -/

namespace BlkSwitch.Host

open SendQueue

/-- What a queue holds of the stream, oldest byte first. -/
def heldBytes (c : Config) (q : NvmeTcpQueue) : List Byte :=
  q.caravanBytes ++ requestRest c q.toSendQueue ++ q.sendList.flatMap fun t =>
    remainder c (q.reqs t)

/-- A host queue as a pipe of PDUs. -/
def hostView (c : Config) : Pipes.View HostState Byte :=
  ⟨fun s => s.submitted, fun s => s.q.sent, fun s => heldBytes c s.q⟩

/-- A step puts in a PDU of the announced length, or moves a piece along. -/
def Moves (c : Config) (s s' : HostState) : Prop :=
  (∃ m, m.length = plenOf m ∧ (hostView c).Submits m s s') ∨ (hostView c).Emits s s'

structure Streams (q : NvmeTcpQueue) : Prop where
  sound : ∀ t, Sound (q.reqs t)
  active : ∀ t, q.request = some t →
    if (q.reqs t).state = .data then Exact (q.reqs t) else NotIn q.toSendQueue t
  waiting : ∀ t ∈ q.sendList, NotIn q.toSendQueue t

/-- A conforming target sends R2Ts for writes only, and asks for something. -/
def Conforming (s : HostState) : HostEvent → Prop
  | .handleR2t t pdu => pdu.second ≠ 0 ∧ (s.q.reqs t).rq.write = true
  | _ => True

/-- The socket takes the whole caravan whenever it reported space. -/
def TakesCaravan (_ : HostState) : HostEvent → Prop
  | .sendRest _ _ replies => replies = []
  | _ => True

/-- No bio of a write ends inside a `bio_vec` unless it is the last. -/
def WholeWrites (_ : HostState) : HostEvent → Prop
  | .queueRq _ rq => rq.write = true → rq.Whole
  | _ => True

variable {c : Config}

/-! Submission. -/

section Replace

variable {q : NvmeTcpQueue} {t : ℕ} (hu : Unused q t) (r : NvmeTcpRequest)
include hu

theorem caravanBytes_replace : (q.modifyReq t fun _ => r).caravanBytes = q.caravanBytes := by
  refine caravanBytes_same ⟨rfl, rfl, rfl⟩ fun u => ?_
  by_cases hut : u = t
  · exact .inr (hut ▸ hu.2.2)
  · exact .inl (by rw [modifyReq_reqs_of_ne t q.toSendQueue hut fun _ => r])

theorem request_replace {u : ℕ} (hreq : q.request = some u) :
    (q.modifyReq t fun _ => r).reqs u = q.reqs u :=
  modifyReq_reqs_of_ne t q.toSendQueue (fun he => hu.2.1 (he ▸ hreq)) fun _ => r

theorem waiting_replace {u : ℕ} (hmem : u ∈ q.sendList) :
    (q.modifyReq t fun _ => r).reqs u = q.reqs u :=
  modifyReq_reqs_of_ne t q.toSendQueue (fun he => hu.1 (he ▸ hmem)) fun _ => r

theorem requestRest_replace :
    requestRest c (q.modifyReq t fun _ => r) = requestRest c q.toSendQueue := by
  have hsame : (q.modifyReq t fun _ => r).request = q.request := rfl
  unfold requestRest
  rw [hsame]
  cases hq : q.request with
  | none => rfl
  | some u => simp only [request_replace hu r hq]

/-- Nothing that is held refers to an unused request. -/
theorem heldBytes_replace :
    heldBytes c { q with toSendQueue := q.modifyReq t fun _ => r } = heldBytes c q := by
  have hwait : (q.sendList.flatMap fun u => remainder c ((q.modifyReq t fun _ => r).reqs u)) =
      q.sendList.flatMap fun u => remainder c (q.reqs u) :=
    List.flatMap_congr fun u hmem => by rw [waiting_replace hu r hmem]
  unfold heldBytes
  rw [caravanBytes_replace hu r, requestRest_replace hu r, hwait]

end Replace

theorem Streams.replace {q : NvmeTcpQueue} (h : Streams q) {t : ℕ} (hu : Unused q t)
    {r : NvmeTcpRequest} (hr : Sound r) :
    Streams { q with toSendQueue := q.modifyReq t fun _ => r } := by
  obtain ⟨hlist, hreq, -⟩ := hu
  have hother : ∀ u, u ≠ t → (q.modifyReq t fun _ => r).reqs u = q.reqs u := fun u hne =>
    modifyReq_reqs_of_ne t q.toSendQueue hne fun _ => r
  refine ⟨?_, ?_, h.waiting⟩
  · intro u
    by_cases hut : u = t
    · rw [hut]
      change Sound ((q.modifyReq t fun _ => r).reqs t)
      rwa [modifyReq_reqs_self]
    · exact hother u hut ▸ h.sound u
  · intro u hu
    have hut : u ≠ t := fun he => hreq (he ▸ hu)
    exact hother u hut ▸ h.active u hu

theorem submit_submits {s : HostState} {t : ℕ} (hu : Unused s.q t) {r : NvmeTcpRequest}
    {pdu : List Byte} (hpdu : remainder c r = pdu) :
    (hostView c).Submits pdu s (submit c s t r pdu) := by
  set q₀ : NvmeTcpQueue := { s.q with toSendQueue := s.q.modifyReq t fun _ => r }
  obtain ⟨hsq, hl, -, -⟩ := queueRequestLocked_fields c t q₀
  have hq : (submit c s t r pdu).q = (nvmeTcpQueueRequestLocked c t q₀).2 := rfl
  refine ⟨rfl, ?_, ?_⟩
  · change (submit c s t r pdu).q.sent = s.q.sent
    rw [hq, hsq]
    rfl
  · have hheld := heldBytes_replace (c := c) hu r
    change heldBytes c (submit c s t r pdu).q = heldBytes c s.q ++ pdu
    rw [← hheld, hq, heldBytes, hsq, hl, List.flatMap_append, ← List.append_assoc]
    have hself : q₀.reqs t = r := modifyReq_reqs_self t s.q.toSendQueue fun _ => r
    simp only [List.flatMap_singleton, hself, hpdu]
    rfl

theorem Streams.submit {s : HostState} (h : Streams s.q) {t : ℕ} (hu : Unused s.q t)
    {r : NvmeTcpRequest} (hr : Sound r) (pdu : List Byte) : Streams (submit c s t r pdu).q := by
  set q₀ : NvmeTcpQueue := { s.q with toSendQueue := s.q.modifyReq t fun _ => r }
  obtain ⟨hsq, hl, -, -⟩ := queueRequestLocked_fields c t q₀
  have hq : (Host.submit c s t r pdu).q = (nvmeTcpQueueRequestLocked c t q₀).2 := rfl
  have hrep : Streams q₀ := h.replace hu hr
  refine ⟨?_, ?_, ?_⟩
  · rw [hq, hsq]; exact hrep.sound
  · rw [hq, hsq]; exact hrep.active
  · intro u hmem
    rw [hq, hl] at hmem
    rw [hq, hsq]
    rcases List.mem_append.1 hmem with hmem | hmem
    · exact h.waiting u hmem
    · rw [List.mem_singleton.1 hmem]
      exact hu.2.2

/-! The worker. -/

theorem dequeue_held (c : Config) (q : NvmeTcpQueue) :
    (nvmeTcpTrySendDequeue c q).2.sent = q.sent ∧
      heldBytes c (nvmeTcpTrySendDequeue c q).2 = heldBytes c q := by
  obtain ⟨t, -, heq⟩ | ⟨t, rest, hreq, hlist, heq⟩ | ⟨-, -, -, -, heq⟩ | ⟨-, -, -, heq⟩ :=
    trySendDequeue_cases c q <;> rw [heq]
  · exact ⟨rfl, rfl⟩
  · refine ⟨rfl, ?_⟩
    simp only [heldBytes, requestRest, hreq, hlist, List.flatMap_cons, List.append_nil,
      List.append_assoc]
    rfl
  · exact ⟨rfl, rfl⟩
  · exact ⟨rfl, rfl⟩

theorem Streams.dequeue {q : NvmeTcpQueue} (h : Streams q)
    (hw : ∀ t ∈ q.sendList, (q.reqs t).state ≠ .data) :
    Streams (nvmeTcpTrySendDequeue c q).2 := by
  obtain ⟨t, -, heq⟩ | ⟨t, rest, hreq, hlist, heq⟩ | ⟨-, -, -, -, heq⟩ | ⟨-, -, -, heq⟩ :=
    trySendDequeue_cases c q <;> rw [heq]
  · exact h
  · refine ⟨h.sound, ?_, fun u hu => h.waiting u (by rw [hlist]; exact List.mem_cons_of_mem _ hu)⟩
    intro u hu
    obtain rfl : t = u := by simpa using hu
    have hmem : t ∈ q.sendList := by simp [hlist]
    change if (q.reqs t).state = .data then _ else _
    rw [if_neg (hw t hmem)]
    exact h.waiting t hmem
  · exact ⟨h.sound, h.active, h.waiting⟩
  · exact h

theorem flushIf_bytes (q : SendQueue) (flush : Bool) :
    ∃ x, (q.flushIf flush).sent = q.sent ++ x ∧
      q.caravanBytes = x ++ (q.flushIf flush).caravanBytes := by
  cases flush with
  | false => exact ⟨[], by simp [SendQueue.flushIf], rfl⟩
  | true => exact ⟨q.caravanBytes,
    rfl, by simp [SendQueue.flushIf, SendQueue.flushed, caravanSent, SendQueue.caravanBytes]⟩

theorem NotIn.flushIf {q : SendQueue} {t : ℕ} (h : NotIn q t) (flush : Bool) :
    NotIn (q.flushIf flush) t := by
  cases flush with
  | false => exact h
  | true => exact fun k hk => absurd hk (by simp [SendQueue.flushIf, SendQueue.flushed, caravanSent])

theorem notIn_of_steps {aggr t u : ℕ} {q q' : SendQueue} (hu : u ≠ t)
    (h : Relation.ReflTransGen (SendStep c aggr t) q q') (hn : NotIn q u) : NotIn q' u := by
  induction h with
  | refl => exact hn
  | tail _ hstep ih =>
    intro k hk off hbase
    rcases hstep.entry with ⟨-, hsame⟩ | ⟨k', hsame, hk'⟩
    · exact ih k (by rwa [← hsame.iovs]) off hbase
    · rw [hsame.iovs] at hk
      rcases List.mem_append.1 hk with hk | hk
      · exact ih k hk off hbase
      · rw [List.mem_singleton.1 hk] at hbase
        rcases hk' with rfl | rfl | ⟨-, rfl⟩
        · exact hu (IovBase.pdu.inj hbase).1.symm
        · exact hu (IovBase.pdu.inj hbase).1.symm
        · simp [curKvec] at hbase

theorem Streams.flowing {q : NvmeTcpQueue} (hs : Streams q) {t : ℕ} (hreq : q.request = some t)
    {flush : Bool} :
    Flowing t (q.flushIf flush) := by
  refine ⟨by simpa using hs.sound t, fun _ => ?_⟩
  have := hs.active t hreq
  rw [flushIf_reqs]
  split_ifs at this ⊢ with hdata
  · exact this
  · exact this.flushIf _

theorem rest_emits (hc : Thru c) (hd : c.dataDigest = false) {q : NvmeTcpQueue} (h : QueueOk c q)
    (hs : Streams q) (hrep : q.replies = []) (nospace : Bool) :
    Streams (nvmeTcpTrySendRest c nospace q).2 ∧
      ∃ x, (nvmeTcpTrySendRest c nospace q).2.sent = q.sent ++ x ∧
        heldBytes c q = x ++ heldBytes c (nvmeTcpTrySendRest c nospace q).2 := by
  obtain ⟨x, hsent, hcar⟩ := flushIf_bytes q.toSendQueue q.sendNow
  obtain ⟨-, -, heq⟩ | ⟨hreq, heq⟩ | ⟨t, q', hreq, heq, hsteps⟩ :=
    trySendRest_cases hc h hrep nospace <;>
    rw [heq]
  · exact ⟨⟨hs.sound, hs.active, hs.waiting⟩, [], by simp, rfl⟩
  · refine ⟨⟨?_, ?_, fun u hu => (hs.waiting u hu).flushIf _⟩, x, hsent, ?_⟩
    · simpa using hs.sound
    · intro u hu
      exact absurd (hreq.symm.trans (by simpa using hu)) (by simp)
    · simp [heldBytes, hcar, requestRest, hreq]
  · obtain ⟨hr, hmem⟩ := h.active t hreq
    have hflow : Flowing t (q.flushIf q.sendNow) := hs.flowing hreq
    obtain ⟨hflows, hflow', hwork⟩ := steps_flow hd (by simpa using hr) hflow hsteps
    have hframe := frame_of_steps hsteps.to_reflTransGen
    have hother : ∀ u, u ≠ t → q'.reqs u = q.reqs u := fun u hu => by simpa using hframe.others u hu
    refine ⟨⟨?_, ?_, ?_⟩, x, hflows.sent.trans hsent, ?_⟩
    · intro u
      by_cases hut : u = t
      · rw [hut]; exact hflow'.1
      · exact (hother u hut) ▸ hs.sound u
    · intro u hu
      have hut : u = t := by
        rcases hwork with ⟨hsome, -⟩ | ⟨hnone, -⟩
        · exact Option.some_inj.1 (hu.symm.trans hsome)
        · exact absurd (hnone.symm.trans hu) (by simp)
      rw [hut] at hu ⊢
      exact hflow'.2 hu
    · intro u hu
      have hut : u ≠ t := fun he => hmem (he ▸ hu)
      exact notIn_of_steps hut hsteps.to_reflTransGen ((hs.waiting u hu).flushIf _)
    · have hwait : (q.sendList.flatMap fun u => remainder c (q'.reqs u)) =
          q.sendList.flatMap fun u => remainder c (q.reqs u) := by
        refine List.flatMap_congr fun u hu => ?_
        have hut : u ≠ t := fun he => hmem (he ▸ hu)
        rw [hother u hut]
      have hrest : requestRest c (q.flushIf q.sendNow) = requestRest c q.toSendQueue := by
        simp [requestRest]
      have hbytes := hflows.bytes
      rw [hrest] at hbytes
      unfold heldBytes
      simp only [hwait]
      rw [hbytes, hcar]
      simp only [List.append_assoc]

/-! Every step. -/

theorem sound_setupCmdPdu {rq : Rq} (hw : rq.write = true → rq.Whole) (r : NvmeTcpRequest) :
    Sound (nvmeTcpSetupCmdPdu c rq r) :=
  ⟨fun h => absurd rfl h, hw, fun h0 => absurd h0 (lt_irrefl 0)⟩

theorem sound_setupH2c {r : NvmeTcpRequest} (h : Sound r) (hw : r.rq.write = true)
    (pdu : NvmeTcpR2tPdu) :
    Sound { (nvmeTcpSetupH2cDataPdu c r pdu).2 with state := .h2cPdu, offset := 0 } := by
  unfold nvmeTcpSetupH2cDataPdu
  dsimp only
  split_ifs <;>
    exact ⟨fun _ => hw, h.whole, fun h0 hlt => let ⟨h1, h2, h3⟩ := h.mid h0 hlt; ⟨h1, h2, h3⟩⟩

theorem sound_setupH2c_refused {r : NvmeTcpRequest} (h : Sound r) {pdu : NvmeTcpR2tPdu}
    (hok : (nvmeTcpSetupH2cDataPdu c r pdu).1 = false) :
    Sound (nvmeTcpSetupH2cDataPdu c r pdu).2 := by
  unfold nvmeTcpSetupH2cDataPdu at hok ⊢
  dsimp only at hok ⊢
  split_ifs at hok ⊢ <;>
    exact ⟨h.write, h.whole, fun h0 hlt => let ⟨h1, h2, h3⟩ := h.mid h0 hlt; ⟨h1, h2, h3⟩⟩

/-- What a step other than the sending itself can do to the stream: take a request with its PDU,
refuse an R2T, touch the timer or the socket's flag, or dequeue. -/
theorem hostStep_stream (hd : c.dataDigest = false) {act : NvmeTcpRequest → Prop} {s s' : HostState}
    {e : HostEvent} (hl : ListOk c act s.q.toSendQueue s.q.sendList) (h : Streams s.q)
    (hconf : Conforming s e) (hwhole : WholeWrites s e)
    (hne : ∀ l nospace replies, e ≠ .sendRest l nospace replies)
    (hstep : hostStep c s e = some s') :
    (∃ t r pdu, Unused s.q t ∧ Sound r ∧ remainder c r = pdu ∧ pdu.length = plenOf pdu ∧
      s' = submit c s t r pdu) ∨
    s'.submitted = s.submitted ∧
      ((∃ t r, Unused s.q t ∧ Sound r ∧
      s'.q = { s.q with toSendQueue := s.q.modifyReq t fun _ => r }) ∨
        (∃ d n b, s'.q = { s.q with doorbellTimer := d, timerSet := n, sockNospace := b }) ∨
        s'.q = (nvmeTcpTrySendDequeue c s.q).2) := by
  cases e with
  | queueRq t rq =>
    simp only [hostStep, Option.ite_none_right_eq_some, Option.some.injEq] at hstep
    obtain ⟨hu, rfl⟩ := hstep
    exact .inl ⟨t, _, _, hu, sound_setupCmdPdu hwhole _, remainder_setupCmdPdu hd rq _,
      submittedCmd_plen rq _, rfl⟩
  | handleR2t t pdu =>
    simp only [hostStep, Option.ite_none_right_eq_some] at hstep
    obtain ⟨hu, hstep⟩ := hstep
    split_ifs at hstep with hacc
    · obtain rfl := Option.some_inj.1 hstep
      exact .inl ⟨t, _, _, hu, sound_setupH2c (h.sound t) hconf.2 pdu, remainder_setupH2c hd hacc,
        submittedH2c_plen (hl.good t) hacc hconf.1, rfl⟩
    · obtain rfl := Option.some_inj.1 hstep
      exact .inr ⟨rfl, .inl
        ⟨t, _, hu, sound_setupH2c_refused (h.sound t) (by simpa using hacc), rfl⟩⟩
  | requestUnlocked i =>
    simp only [hostStep] at hstep
    cases hcall : s.calls[i]? with
    | none => simp [hcall] at hstep
    | some noDelay =>
      simp only [hcall, Option.some.injEq] at hstep
      obtain rfl := hstep
      refine .inr ?_
      rcases queueRequestUnlocked_eq noDelay s.q with ⟨heq, hf⟩ | ⟨heq, hf⟩ <;> simp only [heq, hf]
      · exact ⟨rfl, .inr (.inl ⟨s.q.doorbellTimer, s.q.timerSet, s.q.sockNospace, rfl⟩)⟩
      · exact ⟨rfl, .inr (.inl ⟨false, 0, s.q.sockNospace, rfl⟩)⟩
  | doorbellTimeout =>
    simp only [hostStep, Option.ite_none_right_eq_some, Option.some.injEq] at hstep
    obtain ⟨-, rfl⟩ := hstep
    exact .inr ⟨rfl, .inr (.inl ⟨false, 0, s.q.sockNospace, rfl⟩)⟩
  | dataReady =>
    obtain rfl := Option.some_inj.1 hstep
    exact .inr ⟨rfl, .inr (.inl ⟨s.q.doorbellTimer, s.q.timerSet, s.q.sockNospace, rfl⟩)⟩
  | writeSpace =>
    obtain rfl := Option.some_inj.1 hstep
    exact .inr ⟨rfl, .inr (.inl ⟨s.q.doorbellTimer, s.q.timerSet, false, rfl⟩)⟩
  | workStart l =>
    simp only [hostStep, Option.ite_none_right_eq_some, Option.some.injEq] at hstep
    obtain ⟨-, rfl⟩ := hstep
    exact .inr ⟨rfl, .inr (.inl ⟨s.q.doorbellTimer, s.q.timerSet, s.q.sockNospace, rfl⟩)⟩
  | sendDequeue l =>
    simp only [hostStep, Option.ite_none_right_eq_some, Option.some.injEq] at hstep
    obtain ⟨-, rfl⟩ := hstep
    exact .inr ⟨rfl, .inr (.inr rfl)⟩
  | sendRest l nospace replies => exact absurd rfl (hne l nospace replies)
  | tryRecv l got expired =>
    simp only [hostStep] at hstep
    split at hstep
    · split_ifs at hstep <;>
        (obtain rfl := Option.some_inj.1 hstep
         exact .inr ⟨rfl, .inr (.inl ⟨s.q.doorbellTimer, s.q.timerSet, s.q.sockNospace, rfl⟩)⟩)
    · cases hstep

/-- Everything but the sending itself: a submission puts in a PDU of the announced length,
the rest moves nothing. -/
theorem stream_step (hd : c.dataDigest = false) {act : NvmeTcpRequest → Prop} {s s' : HostState}
    {e : HostEvent} (hl : ListOk c act s.q.toSendQueue s.q.sendList) (h : Streams s.q)
    (hconf : Conforming s e) (hwhole : WholeWrites s e)
    (hne : ∀ l nospace replies, e ≠ .sendRest l nospace replies)
    (hstep : hostStep c s e = some s') :
    Streams s'.q ∧ Moves c s s' := by
  obtain ⟨t, r, pdu, hu, hr, hpdu, hplen, rfl⟩ | ⟨hsub,
      ⟨t, r, hu, hr, heq⟩ | ⟨d, n, b, heq⟩ | heq⟩ :=
    hostStep_stream hd hl h hconf hwhole hne hstep
  · exact ⟨h.submit hu hr _, .inl ⟨pdu, hplen, submit_submits hu hpdu⟩⟩
  · exact ⟨heq ▸ h.replace hu hr, .inr (.of_eq hsub (congrArg (·.sent) heq)
      ((congrArg (heldBytes c) heq).trans (heldBytes_replace hu r)))⟩
  · refine ⟨heq ▸ ⟨h.sound, h.active, h.waiting⟩, .inr (.of_eq hsub (congrArg (·.sent) heq) ?_)⟩
    change heldBytes c s'.q = heldBytes c s.q
    rw [heq]
    rfl
  · obtain ⟨hsent, hheld⟩ := dequeue_held c s.q
    exact ⟨heq ▸ h.dequeue fun t ht => (hl.waiting t ht).2, .inr (.of_eq hsub
      ((congrArg (·.sent) heq).trans hsent) ((congrArg (heldBytes c) heq).trans hheld))⟩

theorem Streams.init (c : Config) : Streams (hostSystem c).init.q := by
  have hsound : Sound (blankRequest c) :=
    ⟨fun h => absurd rfl h, fun h => absurd h (by simp [blankRequest, blankRq]),
      fun h0 => absurd h0 (lt_irrefl 0)⟩
  exact ⟨fun _ => hsound, by simp [hostSystem, blankQueue], by simp [hostSystem, blankQueue]⟩

/-- Runs all of whose steps move the stream: the queue is a pipe, and every PDU in it has the
length it announces. -/
theorem stream_of_moves {ok : HostState → HostEvent → Prop} {I : HostState → Prop}
    (h0 : I (hostSystem c).init)
    (hs : ∀ s e s', I s → ok s e → hostStep c s e = some s' → I s' ∧ Moves c s s')
    {es : List HostEvent} {s : HostState} (hrun : (hostSystem c).RunIn ok es s) :
    s.q.sent ++ heldBytes c s.q = s.submitted.flatten ∧ ∀ p ∈ s.submitted, p.length = plenOf p := by
  constructor
  · obtain ⟨p, -, hshow⟩ :=
        Pipes.View.refines (v := hostView c) h0 ⟨rfl, rfl, rfl⟩ (fun s e s' hI hok hstep => by
      obtain ⟨hI', hmove⟩ := hs s e s' hI hok hstep
      rcases hmove with ⟨m, -, hsub⟩ | hemit
      · exact ⟨hI', .inl ⟨m, hsub⟩⟩
      · exact ⟨hI', .inr hemit⟩) hrun
    exact hshow.stream
  · refine (hrun.invariant (I := fun s => I s ∧ ∀ p ∈ s.submitted, p.length = plenOf p)
      ⟨h0, by simp [hostSystem]⟩ ?_).2
    rintro s e s' ⟨hI, hlen⟩ hok hstep
    obtain ⟨hI', hmove⟩ := hs s e s' hI hok hstep
    refine ⟨hI', fun p hp => ?_⟩
    rcases hmove with ⟨m, hm, hsub, -⟩ | ⟨hsame, -⟩
    · rw [show s'.submitted = s.submitted ++ [m] from hsub] at hp
      rcases List.mem_append.1 hp with hp | hp
      · exact hlen p hp
      · rwa [List.mem_singleton.1 hp]
    · exact hlen p (by rwa [show s'.submitted = s.submitted from hsame] at hp)

/-- The caravan path moves the stream. -/
theorem caravan_moves (hc : Thru c) (hd : c.dataDigest = false) {s s' : HostState} {e : HostEvent}
    (h : QueueOk c s.q ∧ Streams s.q) (hok : Conforming s e ∧ TakesCaravan s e ∧ WholeWrites s e)
    (hstep : hostStep c s e = some s') : (QueueOk c s'.q ∧ Streams s'.q) ∧ Moves c s s' := by
  obtain ⟨hq, hs⟩ := h
  obtain ⟨hconf, htakes, hwhole⟩ := hok
  have hsmooth : Smooth s e := by
    cases e with
    | sendRest l nospace replies => exact htakes
    | handleR2t t pdu => exact hconf.1
    | _ => trivial
  have hq' := queueOk_step hc hq hsmooth hstep
  by_cases hrest : ∃ l nospace replies, e = .sendRest l nospace replies
  · obtain ⟨l, nospace, replies, rfl⟩ := hrest
    obtain rfl : replies = [] := htakes
    have hq₀ : QueueOk c { s.q with replies := [] } := hq.withSocket _ _
    have hs₀ : Streams { s.q with replies := [] } := ⟨hs.sound, hs.active, hs.waiting⟩
    obtain ⟨hs', x, hsent, hheld⟩ := rest_emits hc hd hq₀ hs₀ rfl nospace
    simp only [hostStep, Option.ite_none_right_eq_some, Option.some.injEq] at hstep
    obtain ⟨-, rfl⟩ := hstep
    rw [if_neg (sendRest_nonneg hc hq₀ rfl nospace).not_gt] at hq' ⊢
    exact ⟨⟨hq', hs'⟩, .inr ⟨rfl, x, hsent, hheld⟩⟩
  · obtain ⟨hs', hmove⟩ := stream_step hd hq.toListOk hs hconf hwhole
      (fun l nospace replies he => hrest ⟨l, nospace, replies, he⟩) hstep
    exact ⟨⟨hq', hs'⟩, hmove⟩

/-! The legacy path. -/

structure LegacyOk (c : Config) (q : NvmeTcpQueue) : Prop extends
    ListOk c (LegacyReady c) q.toSendQueue q.sendList where
  path : q.sendList ≠ [] ∨ q.request ≠ none → i10HostLegacyPath c q = true
  empty : q.caravanIovs = [] ∧ q.caravanLen = 0 ∧ q.sendNow = false

/-- Sends may stop anywhere, or be told to come back. -/
def PoliteSocket (_ : HostState) : HostEvent → Prop
  | .sendRest _ _ replies => Polite replies
  | _ => True

theorem LegacyQueue.locked (hc : LegacyQueue c) (t : ℕ) (q : NvmeTcpQueue) :
    i10HostLegacyPath c (nvmeTcpQueueRequestLocked c t q).2 = true := by
  have hp := (queueRequestLocked_fields c t q).2.2.1
  unfold i10HostLegacyPath i10HostIsLatency
  rw [hp]
  rcases hc with h | h | h
  · simp [h]
  · simp [h]
  · simp [h]

theorem LegacyOk.rest (hd : c.dataDigest = false) {q : NvmeTcpQueue} (h : LegacyOk c q)
    (hs : Streams q) (hrep : Polite q.replies) (nospace : Bool) :
    0 ≤ (nvmeTcpTrySendRest c nospace q).1 ∧ LegacyOk c (nvmeTcpTrySendRest c nospace q).2 ∧
      Streams (nvmeTcpTrySendRest c nospace q).2 ∧
      (q.replies = [] → (nvmeTcpTrySendRest c nospace q).2.request = none) ∧
      ∃ x, (nvmeTcpTrySendRest c nospace q).2.sent = q.sent ++ x ∧
        heldBytes c q = x ++ heldBytes c (nvmeTcpTrySendRest c nospace q).2 := by
  obtain ⟨hiovs, hlen, hnow⟩ := h.empty
  cases hreq : q.request with
  | none =>
    have heq : nvmeTcpTrySendRest c nospace q = (0, q) := by
      simp [nvmeTcpTrySendRest, trySendRest, hnow, hreq]
    rw [heq]
    exact ⟨le_rfl, h, hs, fun _ => hreq, [], by simp, rfl⟩
  | some t =>
    have hpath := h.path (.inr (by simp [hreq]))
    obtain ⟨hr, hmem⟩ := h.active t hreq
    have hin : LegacyIn c t q.toSendQueue := by
      refine ⟨hreq, hr, hs.sound t, fun hdata => ?_, hrep⟩
      have := hs.active t hreq
      rwa [if_pos hdata] at this
    obtain ⟨ret, q', heq, hret, hend, hsends⟩ :=
      @trySendReq_legacy c I10_MAX_AGGREGATION_SIZE t q.toSendQueue hd hin
    have heq' : nvmeTcpTrySendRest c nospace q = (ret, { q with toSendQueue := q' }) := by
      simp [nvmeTcpTrySendRest, trySendRest, hnow, hreq, hpath, heq]
    have hiovs' : q'.caravanIovs = [] := hsends.iovs.trans hiovs
    have hnot : ∀ u, NotIn q' u := fun u k hk => absurd hk (by simp [hiovs'])
    obtain ⟨x, hsent, hrest⟩ := hsends.stream
    rw [heq']
    refine ⟨hret, ⟨h.toListOk.called hreq hsends.others ?_ ?_, fun _ => ?_,
      hiovs', hsends.len.trans hlen, hsends.sendNow.trans hnow⟩, ⟨?_, ?_, fun u _ => hnot u⟩, ?_, x,
      hsent, ?_⟩
    · rcases hend with ⟨-, hin'⟩ | hdone
      · exact hin'.ready.1
      · exact hdone.good
    · rcases hend with ⟨-, hin'⟩ | hdone
      · exact .inl ⟨hin'.request, hin'.ready⟩
      · exact .inr hdone.request
    · exact hpath
    · intro u
      by_cases hut : u = t
      · rw [hut]
        rcases hend with ⟨-, hin'⟩ | hdone
        · exact hin'.sound
        · exact hdone.sound
      · exact (hsends.others u hut) ▸ hs.sound u
    · intro u hu
      rcases hend with ⟨-, hin'⟩ | hdone
      · obtain rfl : t = u := Option.some_inj.1 (hin'.request.symm.trans hu)
        split_ifs with hdata
        · exact hin'.exact hdata
        · exact hnot t
      · exact absurd (hdone.request.symm.trans hu) (by simp)
    · intro hnil
      rcases hend with ⟨hcut, -⟩ | hdone
      · exact absurd hnil hcut
      · exact hdone.request
    · have hwait : (q.sendList.flatMap fun u => remainder c (q'.reqs u)) =
          q.sendList.flatMap fun u => remainder c (q.reqs u) := by
        refine List.flatMap_congr fun u hu => ?_
        have hut : u ≠ t := fun he => hmem (he ▸ hu)
        rw [hsends.others u hut]
      simp [heldBytes, SendQueue.caravanBytes, hiovs, hiovs', hwait, hrest]

theorem legacy_moves (hc : LegacyQueue c) (hd : c.dataDigest = false) {s s' : HostState}
    {e : HostEvent} (h : LegacyOk c s.q ∧ Streams s.q)
    (hok : Conforming s e ∧ PoliteSocket s e ∧ WholeWrites s e) (hstep : hostStep c s e = some s') :
    (LegacyOk c s'.q ∧ Streams s'.q) ∧ Moves c s s' := by
  obtain ⟨hq, hs⟩ := h
  obtain ⟨hconf, hpolite, hwhole⟩ := hok
  by_cases hrest : ∃ l nospace replies, e = .sendRest l nospace replies
  · obtain ⟨l, nospace, replies, rfl⟩ := hrest
    have hq₀ : LegacyOk c { s.q with replies := replies } :=
      ⟨hq.toListOk.of_eq rfl rfl rfl, hq.path, hq.empty⟩
    have hs₀ : Streams { s.q with replies := replies } := ⟨hs.sound, hs.active, hs.waiting⟩
    obtain ⟨hret, hq', hs', -, x, hsent, hheld⟩ := hq₀.rest hd hs₀ hpolite nospace
    simp only [hostStep, Option.ite_none_right_eq_some, Option.some.injEq] at hstep
    obtain ⟨-, rfl⟩ := hstep
    rw [if_neg hret.not_gt]
    exact ⟨⟨hq', hs'⟩, .inr ⟨rfl, x, hsent, hheld⟩⟩
  · have hne : ∀ l nospace replies, e ≠ .sendRest l nospace replies :=
      fun l nospace replies he => hrest ⟨l, nospace, replies, he⟩
    have hsmooth : Smooth s e := by
      cases e with
      | sendRest l nospace replies => exact absurd rfl (hne l nospace replies)
      | handleR2t t pdu => exact hconf.1
      | _ => trivial
    obtain ⟨hs', hmove⟩ := stream_step hd hq.toListOk hs hconf hwhole hne hstep
    refine ⟨⟨?_, hs'⟩, hmove⟩
    obtain ⟨t, r, hu, hr, hst, heq⟩ | ⟨t, r, hu, hr, heq⟩ | ⟨d, n, b, heq⟩ | heq :=
      hostStep_queue hq.good hsmooth hne hstep <;> rw [heq]
    · refine ⟨hq.toListOk.locked hu hr hst, fun _ => hc.locked t _, ?_⟩
      rw [(queueRequestLocked_fields c t _).1]
      exact hq.empty
    · exact ⟨hq.toListOk.replace hu hr, hq.path, hq.empty⟩
    · exact ⟨hq.toListOk.of_eq rfl rfl rfl, hq.path, hq.empty⟩
    · have hlist := hq.toListOk.dequeue fun _ hr => hr.legacy
      obtain ⟨t, -, heq⟩ | ⟨t, rest, -, hl, heq⟩ | ⟨-, -, -, hlen, -⟩ | ⟨-, -, -, heq⟩ :=
        trySendDequeue_cases c s.q
      · rw [heq]; exact hq
      · rw [heq] at hlist ⊢
        exact ⟨hlist, fun _ => hq.path (.inl (by simp [hl])), hq.empty⟩
      · exact absurd hq.empty.2.1 hlen
      · rw [heq]; exact hq

theorem LegacyOk.init (c : Config) : LegacyOk c (hostSystem c).init.q := by
  have hq := (queueOk_init c).toListOk
  exact ⟨⟨hq.good, hq.nodup, by simp [hostSystem, blankQueue],
    hq.waiting⟩, by simp [hostSystem, blankQueue], rfl, rfl, rfl⟩

instance (s : HostState) : (e : HostEvent) → Decidable (Conforming s e)
  | .handleR2t _ _ => inferInstanceAs (Decidable (_ ∧ _))
  | .queueRq _ _ | .requestUnlocked _ | .doorbellTimeout | .dataReady | .writeSpace | .workStart _
  | .sendDequeue _ | .sendRest _ _ _ | .tryRecv _ _ _ => .isTrue trivial
instance (s : HostState) : (e : HostEvent) → Decidable (TakesCaravan s e)
  | .sendRest _ _ _ => inferInstanceAs (Decidable (_ = _))
  | .queueRq _ _ | .handleR2t _ _ | .requestUnlocked _ | .doorbellTimeout | .dataReady | .writeSpace
  | .workStart _ | .sendDequeue _ | .tryRecv _ _ _ => .isTrue trivial
instance (b : Bio) : Decidable b.Whole := by unfold Bio.Whole; infer_instance
instance (rq : Rq) : Decidable rq.Whole := by unfold Rq.Whole; infer_instance
instance (s : HostState) : (e : HostEvent) → Decidable (WholeWrites s e)
  | .queueRq _ _ => inferInstanceAs (Decidable (_ → _))
  | .handleR2t _ _ | .requestUnlocked _ | .doorbellTimeout | .dataReady | .writeSpace | .workStart _
  | .sendDequeue _ | .sendRest _ _ _ | .tryRecv _ _ _ => .isTrue trivial

/-- What the socket got and what the queue holds are the PDUs in the order of submission, each as
long as it announces; a legacy queue that was handed the same PDUs carries the same stream. -/
theorem caravan_stream (hc : Thru c) (hd : c.dataDigest = false) {es : List HostEvent}
    {s : HostState} (hrun : (hostSystem c).RunIn
      (fun s e => Conforming s e ∧ TakesCaravan s e ∧ WholeWrites s e) es s) :
    s.q.sent ++ heldBytes c s.q = s.submitted.flatten ∧ (∀ p ∈ s.submitted, p.length = plenOf p) ∧
      ∀ (c' : Config) (es' : List HostEvent) (s' : HostState), LegacyQueue c' →
      c'.dataDigest = false →
        (hostSystem c').RunIn (fun s e => Conforming s e ∧ PoliteSocket s e ∧ WholeWrites s e) es'
          s' →
        s'.submitted = s.submitted →
          s'.q.sent ++ heldBytes c' s'.q = s.q.sent ++ heldBytes c s.q := by
  obtain ⟨hstream, hplen⟩ := stream_of_moves ⟨queueOk_init c, Streams.init c⟩
    (fun s e s' => @caravan_moves c hc hd s s' e) hrun
  refine ⟨hstream, hplen, fun c' es' s' hc' hd' hrun' hsame => ?_⟩
  obtain ⟨hstream', -⟩ := stream_of_moves ⟨LegacyOk.init c', Streams.init c'⟩
    (fun s e s' => @legacy_moves c' hc' hd' s s' e) hrun'
  rw [hstream, hstream', hsame]

def legacyConfig : Config := { sampleConfig with i10DelayedDoorbellUs := 0 }

instance (s : HostState) : (e : HostEvent) → Decidable (PoliteSocket s e)
  | .sendRest _ _ _ => inferInstanceAs (Decidable (Polite _))
  | .queueRq _ _ | .handleR2t _ _ | .requestUnlocked _ | .doorbellTimeout | .dataReady | .writeSpace
  | .workStart _ | .sendDequeue _ | .tryRecv _ _ _ => .isTrue trivial

/-- A write half in the caravan behind a refused flush, and on the legacy path cut after 10
bytes of its header and then after 100 bytes of its data. -/
theorem caravan_stream_write :
    ∃ s s' : HostState, s.submitted ≠ [] ∧
      s.q.sent ++ heldBytes sampleConfig s.q = s.submitted.flatten ∧
      s'.q.sent ++ heldBytes legacyConfig s'.q = s.q.sent ++ heldBytes sampleConfig s.q := by
  obtain ⟨s, hrun, hsub⟩ : ∃ s, (hostSystem sampleConfig).RunIn
      (fun s e => Conforming s e ∧ TakesCaravan s e ∧ WholeWrites s e)
      [.queueRq 0 sampleWrite, .requestUnlocked 0, .queueRq 1 sampleFlush, .dataReady,
        .workStart .thru, .sendDequeue .thru, .sendRest .thru false [], .tryRecv .thru false false,
        .sendDequeue .thru, .sendRest .thru false [], .tryRecv .thru false false,
        .sendDequeue .thru, .sendRest .thru true []] s ∧
      s.submitted = [submittedCmd sampleConfig sampleWrite
        (nvmeTcpSetupCmdPdu sampleConfig sampleWrite (blankRequest sampleConfig)),
        submittedCmd sampleConfig sampleFlush
          (nvmeTcpSetupCmdPdu sampleConfig sampleFlush (blankRequest sampleConfig))] :=
    Runs.System.exists_runIn_of_execIn (fun s : HostState => s.submitted = _) (by decide +kernel)
  obtain ⟨s', hrun', hsub'⟩ : ∃ s, (hostSystem legacyConfig).RunIn
      (fun s e => Conforming s e ∧ PoliteSocket s e ∧ WholeWrites s e)
      [.queueRq 0 sampleWrite, .requestUnlocked 0, .queueRq 1 sampleFlush, .workStart .thru,
        .sendDequeue .thru, .sendRest .thru false [.ret 10], .tryRecv .thru true false,
        .sendDequeue .thru, .sendRest .thru false [.all, .ret 100, .ret (-EAGAIN)]] s ∧
      s.submitted = [submittedCmd sampleConfig sampleWrite
        (nvmeTcpSetupCmdPdu sampleConfig sampleWrite (blankRequest sampleConfig)),
        submittedCmd sampleConfig sampleFlush
          (nvmeTcpSetupCmdPdu sampleConfig sampleFlush (blankRequest sampleConfig))] :=
    Runs.System.exists_runIn_of_execIn (fun s : HostState => s.submitted = _) (by decide +kernel)
  obtain ⟨hstream, -, hlegacy⟩ := caravan_stream sampleConfig_thru rfl hrun
  exact ⟨s, s', by simp [hsub], hstream,
    hlegacy legacyConfig _ s' (.inr (.inl (by decide))) rfl hrun' (hsub'.trans hsub.symm)⟩

/-! A bio that ends inside a `bio_vec`. -/

def halfPage : BioVec := ⟨List.replicate 512 1 ++ List.replicate 512 2⟩
def nextPage : BioVec := ⟨List.replicate 512 3⟩

theorem halfPage_len : halfPage.data.length = 1024 :=
  List.length_append.trans (by rw [List.length_replicate, List.length_replicate])

theorem nextPage_len : nextPage.data.length = 512 := List.length_replicate

theorem splitBio_backed : ∀ b ∈ ([⟨1, [halfPage], 0, 512⟩, ⟨1, [nextPage], 0, 512⟩] : List Bio),
    b.Backed := by
  have h1 : halfPage.data ≠ [] := List.ne_nil_of_length_pos (by rw [halfPage_len]; decide)
  have h2 : nextPage.data ≠ [] := List.ne_nil_of_length_pos (by rw [nextPage_len]; decide)
  intro b hb
  rcases List.mem_cons.1 hb with rfl | hb
  · exact ⟨by simp, by simpa using h1, by simp [BioVec.len, halfPage_len],
      by simp [halfPage_len], by simp⟩
  · rw [List.mem_singleton.1 hb]
    exact ⟨by simp, by simpa using h2, by simp [BioVec.len, nextPage_len],
      by simp [nextPage_len], by simp⟩

/-- A write of two sectors: the first half of one page, then another page. -/
def splitWrite : Rq :=
  bioRq true 1 2 [⟨1, [halfPage], 0, 512⟩, ⟨1, [nextPage], 0, 512⟩] 0 ⟨by simp, splitBio_backed⟩
    (by decide)

/-- The second half of the first page goes out in place of the second page. -/
theorem caravan_stream_lost_by_split_bio :
    Thru sampleConfig ∧ sampleConfig.dataDigest = false ∧
      ∃ s, (hostSystem sampleConfig).RunIn (fun s e => Conforming s e ∧ TakesCaravan s e)
          [.queueRq 0 splitWrite, .requestUnlocked 0, .dataReady, .workStart .thru,
            .sendDequeue .thru, .sendRest .thru false []] s ∧
        s.q.sent ++ heldBytes sampleConfig s.q ≠ s.submitted.flatten :=
  ⟨sampleConfig_thru, rfl, Runs.System.exists_runIn_of_execIn
    (fun s : HostState => s.q.sent ++ heldBytes sampleConfig s.q ≠ s.submitted.flatten)
      (by decide +kernel)⟩

end BlkSwitch.Host
