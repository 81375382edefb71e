import BlkSwitch.Sanity.TargetTurn

/-! The bytes the target's send path has in its hands when there is no data digest: the caravan,
the rest of the command the worker has, and all of the commands queued behind it. A queue that
does not aggregate has no caravan, and gives its bytes to the socket in pieces of any size. -/

namespace BlkSwitch.Target

open NvmetTcpQueue Relation

section Pages

variable (sg : SgList)

theorem PAGE_SIZE_pos : 0 < PAGE_SIZE := by decide

theorem SgList.take_entry (j : ℕ) :
    (sg.data.drop (PAGE_SIZE * j)).take (sg.entryLen j) ++
      (((sg.sgNext j).map fun j' => sg.data.drop (PAGE_SIZE * j')).getD []) = sg.data.drop
      (PAGE_SIZE * j) := by
  have hn : sg.nents = (sg.data.length + PAGE_SIZE - 1) / PAGE_SIZE := rfl
  unfold SgList.sgNext SgList.entryLen
  split_ifs with h
  · have hfull : PAGE_SIZE * (j + 1) ≤ sg.data.length := by
      have h2 : (j + 2) * PAGE_SIZE ≤ sg.data.length + PAGE_SIZE - 1 := by
        rw [← Nat.le_div_iff_mul_le PAGE_SIZE_pos, ← hn]
        omega
      have := PAGE_SIZE_pos
      nlinarith [h2, Nat.sub_add_cancel (show 1 ≤ sg.data.length + PAGE_SIZE by omega)]
    have hmul : PAGE_SIZE * (j + 1) = PAGE_SIZE * j + PAGE_SIZE := Nat.mul_succ _ _
    rw [min_eq_left (by omega), Option.map_some, Option.getD_some, hmul]
    exact Bytes.drop_take_append_drop _ _ _
  · have hlast : sg.data.length ≤ PAGE_SIZE * j + PAGE_SIZE := by
      have h2 : sg.data.length + PAGE_SIZE - 1 < (j + 2) * PAGE_SIZE := by
        rw [← Nat.div_lt_iff_lt_mul PAGE_SIZE_pos, ← hn]
        omega
      have := PAGE_SIZE_pos
      nlinarith [h2, Nat.sub_add_cancel (show 1 ≤ sg.data.length + PAGE_SIZE by omega)]
    rw [Option.map_none, Option.getD_none, List.append_nil, List.take_of_length_le]
    rw [List.length_drop]
    omega

theorem SgList.sgNext_lt {j j' : ℕ} (h : sg.sgNext j = some j') :
    PAGE_SIZE * j' < sg.data.length := by
  unfold SgList.sgNext at h
  split_ifs at h with hj
  cases h
  have h2 : (j + 2) * PAGE_SIZE ≤ sg.data.length + PAGE_SIZE - 1 := by
    rw [← Nat.le_div_iff_mul_le PAGE_SIZE_pos]
    exact hj
  have := PAGE_SIZE_pos
  nlinarith [h2, Nat.sub_add_cancel (show 1 ≤ sg.data.length + PAGE_SIZE by omega)]

theorem SgList.take_piece {j o n : ℕ} (hn : o + n ≤ sg.entryLen j) :
    (sg.data.drop (PAGE_SIZE * j + o)).take n ++
      (if o + n = sg.entryLen j then
        ((sg.sgNext j).map fun j' => sg.data.drop (PAGE_SIZE * j')).getD []
        else sg.data.drop (PAGE_SIZE * j + (o + n))) = sg.data.drop (PAGE_SIZE * j + o) := by
  split_ifs with hlast
  · -- the piece is the rest of the entry
    have hentry := congrArg (List.drop o) (sg.take_entry j)
    have hlen : o ≤ ((sg.data.drop (PAGE_SIZE * j)).take (sg.entryLen j)).length := by
      simp only [List.length_take, List.length_drop, SgList.entryLen] at hn ⊢
      omega
    rw [List.drop_append_of_le_length hlen, List.drop_take, List.drop_drop] at hentry
    rwa [← hlast, Nat.add_sub_cancel_left] at hentry
  · rw [← Nat.add_assoc]
    exact Bytes.drop_take_append_drop _ _ _

end Pages

section Rest

variable (c : Config)

/-- What is left to be sent of a command, going by its state. -/
def rest (cmd : NvmetTcpCmd) : List Byte :=
  match cmd.state with
  | .dataPdu => cmd.dataPdu ++ (cmd.sgData ++ rspWire c cmd)
  | .data => ((cmd.curSg.map fun j => cmd.sgData.drop (PAGE_SIZE * j)).getD []) ++ rspWire c cmd
  | .r2t => cmd.r2tPdu
  | .response => cmd.rspPdu
  | .ddgst => []

/-- What follows the data of a read: its response, unless the data PDU stands for it. -/
def dataTail (cmd : NvmetTcpCmd) : List Byte := if c.sqhdDisabled then [] else rspWire c cmd

def owedPdus (i : CmdId) (cmd : NvmetTcpCmd) : List Byte :=
  if cmd.needDataOut then
    (c2hDataPdu c cmd).encode ++ hdgstOf c (c2hDataPdu c cmd).encode ++ cmd.sgData ++ dataTail c cmd
  else if cmd.needDataIn then (r2tPdu c i cmd).encode ++ hdgstOf c (r2tPdu c i cmd).encode
  else rspWire c cmd

def dataLeft (cmd : NvmetTcpCmd) : List Byte :=
  (cmd.curSg.map fun j => cmd.sgData.drop (PAGE_SIZE * j + cmd.offset)).getD []

def behindHdr (cmd : NvmetTcpCmd) : List Byte :=
  match cmd.state with
  | .dataPdu => cmd.sgData ++ dataTail c cmd
  | _ => []

/-- What a command still sends, going by its state and its offset. -/
def owes (cmd : NvmetTcpCmd) : List Byte :=
  match headerBuf cmd.state with
  | some buf => (buf.of cmd).drop cmd.offset ++ behindHdr c cmd
  | none => dataLeft cmd ++ dataTail c cmd

/-- A command the worker has, between two steps. -/
def Sendable (cmd : NvmetTcpCmd) : Prop :=
  (aggregates c = true → cmd.offset = 0) ∧
    match cmd.state with
    | .dataPdu => cmd.dataPdu.length = 24 + nvmetTcpHdgstLen c ∧
      cmd.offset < 24 + nvmetTcpHdgstLen c ∧
        cmd.curSg = some 0 ∧ 0 < cmd.sgData.length
    | .data => ∀ j, cmd.curSg = some j → cmd.offset < PAGE_SIZE ∧
      PAGE_SIZE * j + cmd.offset < cmd.sgData.length
    | .r2t => cmd.r2tPdu.length = 24 + nvmetTcpHdgstLen c ∧ cmd.offset < 24 + nvmetTcpHdgstLen c
    | .response => cmd.rspPdu = rspWire c cmd ∧ cmd.offset < 24 + nvmetTcpHdgstLen c
    | .ddgst => False

variable {c}

theorem hdgstOf_length (b : List Byte) : (hdgstOf c b).length = nvmetTcpHdgstLen c := by
  unfold hdgstOf nvmetTcpHdgstLen
  split_ifs
  · exact c.crc_length b
  · rfl

theorem rspWire_length (cmd : NvmetTcpCmd) : (rspWire c cmd).length = 24 + nvmetTcpHdgstLen c := by
  simp only [rspWire, NvmeCompletion.encode, List.length_append, NvmeTcpHdr.encode_length,
    Bytes.le_length, hdgstOf_length]

theorem owes_header {cmd : NvmetTcpCmd} (buf : Buffer) (hbuf : headerBuf cmd.state = some buf) :
    owes c cmd = (buf.of cmd).drop cmd.offset ++ behindHdr c cmd := by
  simp [owes, hbuf]

theorem owes_data {cmd : NvmetTcpCmd} (hst : cmd.state = .data) :
    owes c cmd = dataLeft cmd ++ dataTail c cmd := by
  simp [owes, hst, headerBuf]

theorem Sendable.header {cmd : NvmetTcpCmd} (h : Sendable c cmd) {buf : Buffer}
    (hbuf : headerBuf cmd.state = some buf) :
    (buf.of cmd).length = 24 + nvmetTcpHdgstLen c ∧ cmd.offset < 24 + nvmetTcpHdgstLen c := by
  obtain ⟨-, h⟩ := h
  cases hst : cmd.state <;> simp only [hst, headerBuf, Option.some.injEq, reduceCtorEq] at h hbuf
    <;> subst hbuf
  · exact ⟨h.1, h.2.1⟩
  · exact h
  · exact ⟨(congrArg List.length h.1).trans (rspWire_length cmd), h.2⟩

/-- With a response for every read and whole entries, this is what is left going by the state. -/
theorem owes_eq_rest {cmd : NvmetTcpCmd} (hq : c.sqhdDisabled = false) (h : Sendable c cmd)
    (ha : aggregates c = true) : owes c cmd = rest c cmd := by
  obtain ⟨h0, hst⟩ := h
  cases hs : cmd.state <;> simp only [hs] at hst <;>
    simp [owes, rest, hs, headerBuf, behindHdr, dataLeft, dataTail, hq, h0 ha, Buffer.of]

theorem owedPdus_eq (hq : c.sqhdDisabled = false) (i : CmdId) (cmd : NvmetTcpCmd) :
    owedPdus c i cmd = responsePdus c i cmd := by
  simp [owedPdus, responsePdus, dataTail, hq]

theorem setupFirstPdu_owes (i : CmdId) {cmd : NvmetTcpCmd} (h : Prepared cmd) :
    owes c (setupFirstPdu c i cmd) = owedPdus c i cmd ∧ Sendable c (setupFirstPdu c i cmd) := by
  unfold setupFirstPdu owedPdus
  split_ifs with hout hin
  · obtain ⟨hlen, hcur⟩ := h hout
    have hpos : 0 < cmd.req.transferLen := by
      simp only [NvmetTcpCmd.needDataOut, Bool.and_eq_true, decide_eq_true_eq] at hout
      exact hout.1.2
    refine ⟨?_, fun _ => rfl, ?_, ?_, hcur, ?_⟩
    · rw [owes_header .dataPdu rfl]
      simp [nvmetSetupC2hDataPdu, behindHdr, Buffer.of, NvmetTcpCmd.sgData, dataTail, rspWire]
    · simp [nvmetSetupC2hDataPdu, hdgstOf_length]
    · exact Nat.lt_of_lt_of_le (by decide : 0 < 24) (Nat.le_add_right _ _)
    · change 0 < cmd.sgData.length
      omega
  · refine ⟨?_, fun _ => rfl, ?_, ?_⟩
    · rw [owes_header .r2tPdu rfl]
      simp [nvmetSetupR2tPdu, behindHdr, Buffer.of]
    · simp [nvmetSetupR2tPdu, hdgstOf_length]
    · exact Nat.lt_of_lt_of_le (by decide : 0 < 24) (Nat.le_add_right _ _)
  · refine ⟨?_, fun _ => rfl, rfl, ?_⟩
    · rw [owes_header .rspPdu rfl]
      simp [nvmetSetupResponsePdu, behindHdr, Buffer.of, NvmetTcpCmd.rspPdu, rspWire]
    · exact Nat.lt_of_lt_of_le (by decide : 0 < 24) (Nat.le_add_right _ _)

end Rest

/-- Everything the send path has in its hands, next byte first. -/
def sndRest (c : Config) (q : NvmetTcpQueue) : List Byte :=
  (q.sndCmd.map fun i => rest c (q.cmds i)).getD []

def sndOwes (c : Config) (q : NvmetTcpQueue) : List Byte :=
  (q.sndCmd.map fun i => owes c (q.cmds i)).getD []

def backlog (q : NvmetTcpQueue) : List CmdId := q.respSendList ++ q.respList.reverse

def inHand (c : Config) (q : NvmetTcpQueue) : List Byte :=
  q.caravanBytes ++ (sndOwes c q ++ (backlog q).flatMap fun i => owedPdus c i (q.cmds i))

/-- What holds of the send path between two steps. -/
structure SendOk (c : Config) (q : NvmetTcpQueue) : Prop where
  len : q.caravanLen = (q.caravanIovs.map Kvec.len).sum
  pos : ∀ k ∈ q.caravanIovs, 0 < k.len
  direct : aggregates c = false → q.caravanIovs = []
  listLen : q.sendListLen = q.respSendList.length
  nodup : (backlog q).Nodup
  waits : ∀ i ∈ backlog q, Prepared (q.cmds i) ∧ q.sndCmd ≠ some i ∧ ∀ k ∈ q.caravanIovs, k.cmd ≠ i
  snd : ∀ i, q.sndCmd = some i → Sendable c (q.cmds i)
  /-- the buffers still to be filled are not in the caravan yet -/
  apart : ∀ i, q.sndCmd = some i → ∀ k ∈ q.caravanIovs, k.cmd = i →
    k.buf ≠ .rspPdu ∧ ((q.cmds i).state = .data ∨ (q.cmds i).state = .response)

section Caravan

variable {c : Config} {q q' : NvmetTcpQueue}

theorem caravanBytes_append {k : List Kvec} (hiovs : q'.caravanIovs = q.caravanIovs ++ k)
    (hsame : ∀ k ∈ q'.caravanIovs, k.buf.of (q'.cmds k.cmd) = k.buf.of (q.cmds k.cmd)) :
    q'.caravanBytes = q.caravanBytes ++ k.flatMap (Kvec.bytes q.cmds) := by
  have hbytes : ∀ k ∈ q'.caravanIovs, Kvec.bytes q'.cmds k = Kvec.bytes q.cmds k := by
    intro k hk
    simp only [Kvec.bytes, hsame k hk]
  unfold caravanBytes
  rw [List.flatMap_congr hbytes, hiovs, List.flatMap_append]

theorem caravanBytes_congr (hiovs : q'.caravanIovs = q.caravanIovs)
    (hsame : ∀ k ∈ q.caravanIovs, q'.cmds k.cmd = q.cmds k.cmd) :
    q'.caravanBytes = q.caravanBytes := by
  have h := caravanBytes_append (k := [])
    (by simpa using hiovs) fun k hk => by rw [hsame k (hiovs ▸ hk)]
  simpa using h

theorem flatMap_backlog_congr (hb : backlog q' = backlog q)
    (hc : ∀ i ∈ backlog q, q'.cmds i = q.cmds i) :
    ((backlog q').flatMap fun i => owedPdus c i (q'.cmds i)) =
      (backlog q).flatMap fun i => owedPdus c i (q.cmds i) := by
  rw [hb]
  exact List.flatMap_congr fun i hi => by rw [hc i hi]

/-- `ks` went into the caravan and `out` to the socket. Without aggregation there is no caravan. -/
structure Hands (c : Config) (i : CmdId) (ks : List Kvec) (out : List Byte) (q q' : NvmetTcpQueue) :
    Prop where
  iovs : q'.caravanIovs = q.caravanIovs ++ ks
  len : q'.caravanLen = q.caravanLen + (ks.map Kvec.len).sum
  entry : ∀ k ∈ ks, 0 < k.len ∧ k.cmd = i
  sent : q'.sent = q.sent ++ out
  direct : aggregates c = false → ks = []
  first : out = [] ∨ q'.caravanIovs = []
  replies : aggregates c = true → q'.replies = q.replies

structure Advances (c : Config) (i : CmdId) (ks : List Kvec) (out : List Byte)
    (q q' : NvmetTcpQueue) : Prop extends
    Hands c i ks out q q' where
  same : ∀ k ∈ q'.caravanIovs, k.cmd = i → k.buf.of (q'.cmds i) = k.buf.of (q.cmds i)
  rest : ks.flatMap (Kvec.bytes q.cmds) ++ out ++ sndOwes c q' = sndOwes c q
  keep : q'.sndCmd = none ∨ q'.sndCmd = some i ∧ Sendable c (q'.cmds i) ∧
    ∀ k ∈ q'.caravanIovs, k.cmd = i →
      k.buf ≠ .rspPdu ∧ ((q'.cmds i).state = .data ∨ (q'.cmds i).state = .response)

variable {i : CmdId} {ks : List Kvec} {out : List Byte}

theorem hands_nothing (hiovs : q'.caravanIovs = q.caravanIovs) (hlen : q'.caravanLen = q.caravanLen)
    (hsent : q'.sent = q.sent) (hrep : aggregates c = true → q'.replies = q.replies) :
    Hands c i [] [] q q' :=
  ⟨by simpa using hiovs, by simpa using hlen, by simp, by simpa using hsent, fun _ => rfl, .inl rfl,
    hrep⟩

theorem hands_direct (h : SendOk c q) (ha : aggregates c = false) (b : List Byte)
    (rs : List SockReply) :
    Hands c i [] b q (q.heard b rs) :=
  ⟨by simp [heard], by simp [heard], by simp, rfl, fun _ => rfl, .inr (h.direct ha),
    fun ht => absurd (ha.symm.trans ht) Bool.false_ne_true⟩

theorem Hands.congr {q₂ : NvmetTcpQueue} (h : Hands c i ks out q q')
    (hiovs : q₂.caravanIovs = q'.caravanIovs) (hlen : q₂.caravanLen = q'.caravanLen)
    (hsent : q₂.sent = q'.sent) (hrep : q₂.replies = q'.replies) :
    Hands c i ks out q q₂ :=
  ⟨hiovs.trans h.iovs, hlen.trans h.len, h.entry, hsent.trans h.sent, h.direct,
    h.first.imp id hiovs.trans, fun ha => hrep.trans (h.replies ha)⟩

theorem Hands.modify (h : Hands c i ks out q q') (f : NvmetTcpCmd → NvmetTcpCmd) :
    Hands c i ks out q (q'.modifyCmd i f) :=
  h.congr rfl rfl rfl rfl

theorem Emitted.hands {k : Kvec} {b : List Byte} {n : ℕ} (h : SendOk c q)
    (he : Emitted c k b q n q') (hi : k.cmd = i) (hpos : 0 < k.len)
    (hk : aggregates c = true → k.bytes q.cmds = b) :
    ∃ ks out, Hands c i ks out q q' ∧
      (∀ k' ∈ ks, k' = k) ∧ ks.flatMap (Kvec.bytes q.cmds) ++ out = b.take n := by
  cases he with
  | caravan ha hf =>
    have hnd : aggregates c = false → [k] = [] :=
      fun hn => absurd (hn.symm.trans ha) Bool.false_ne_true
    refine ⟨[k], [], ⟨rfl, by simp [append], ?_, by simp [append], hnd, .inl rfl,
      fun _ => rfl⟩, by simp, ?_⟩
    · intro k' hk'
      rw [List.mem_singleton.1 hk']
      exact ⟨hpos, hi⟩
    · have hlen : b.length ≤ k.len := by
        rw [← hk ha, Kvec.bytes, List.length_take]
        exact min_le_left _ _
      simp [hk ha, List.take_of_length_le hlen]
  | socket ha n _ rs => exact ⟨[], b.take n, hands_direct h ha _ rs, by simp, by simp⟩

theorem hdrOffer_eq {cmd : NvmetTcpCmd} {buf : Buffer}
    (hlen : (buf.of cmd).length = 24 + nvmetTcpHdgstLen c) :
    hdrOffer c buf cmd = (buf.of cmd).drop cmd.offset := by
  rw [hdrOffer, List.take_of_length_le]
  rw [List.length_drop, hlen, hdrLeft]

theorem Emitted.hands_header {buf : Buffer} {n : ℕ} (h : SendOk c q) (hsnd : q.sndCmd = some i)
    (hbuf : headerBuf (q.cmds i).state = some buf)
    (he : Emitted c (hdrKvec c i buf (q.cmds i)) (hdrOffer c buf (q.cmds i)) q n q')
    (hn : hdrLeft c (q.cmds i) ≤ n) :
    ∃ ks out, Hands c i ks out q q' ∧ (∀ k ∈ ks, k.buf = buf) ∧
      ks.flatMap (Kvec.bytes q.cmds) ++ out = (buf.of (q.cmds i)).drop (q.cmds i).offset := by
  obtain ⟨hlen, hoff⟩ := (h.snd i hsnd).header hbuf
  have hpos : 0 < (hdrKvec c i buf (q.cmds i)).len := by
    change 0 < hdrLeft c (q.cmds i)
    rw [hdrLeft]
    omega
  obtain ⟨ks, out, hh, hks, hbytes⟩ := he.hands h rfl hpos fun ha => by
    have h0 := (h.snd i hsnd).1 ha
    simp [Kvec.bytes, hdrKvec, hdrOff, hdrOffer, h0]
  refine ⟨ks, out, hh, fun k hk => by rw [hks k hk]; rfl, ?_⟩
  rw [hbytes, hdrOffer_eq hlen, List.take_of_length_le]
  rw [List.length_drop, hlen]
  exact hn

theorem Frame.backlog (h : Frame i q q') : Target.backlog q' = Target.backlog q := by
  obtain ⟨hr, hs, -⟩ := h.lists
  rw [Target.backlog, Target.backlog, hr, hs]

theorem SendOk.ne_of_mem (h : SendOk c q) (hsnd : q.sndCmd = some i) {j : CmdId}
    (hj : j ∈ backlog q) : j ≠ i := by
  rintro rfl
  exact (h.waits j hj).2.1 hsnd

theorem SendOk.advance (h : SendOk c q) (hsnd : q.sndCmd = some i) (hf : Frame i q q')
    (ha : Advances c i ks out q q') : SendOk c q' := by
  have hother : ∀ j ∈ backlog q', j ≠ i ∧ j ∈ backlog q := by
    intro j hj
    rw [hf.backlog] at hj
    exact ⟨h.ne_of_mem hsnd hj, hj⟩
  have hsnd' : ∀ j, q'.sndCmd = some j → j = i ∧ q'.sndCmd = some i := by
    intro j hj
    rcases ha.keep with hk | ⟨hk, -⟩
    · rw [hk] at hj
      cases hj
    · rw [hk] at hj ⊢
      exact ⟨(Option.some.inj hj).symm, rfl⟩
  have hmem : ∀ k ∈ q'.caravanIovs, k ∈ q.caravanIovs ∨ 0 < k.len ∧ k.cmd = i := by
    intro k hk
    rw [ha.iovs] at hk
    exact (List.mem_append.1 hk).imp id (ha.entry k)
  refine ⟨?_, ?_, ?_, ?_, ?_, ?_, ?_, ?_⟩
  · rw [ha.len, ha.iovs, h.len, List.map_append, List.sum_append]
  · intro k hk
    exact (hmem k hk).elim (h.pos k) And.left
  · intro hn
    rw [ha.iovs, h.direct hn, ha.direct hn]
    rfl
  · rw [hf.lists.2.2.1, hf.lists.2.1, h.listLen]
  · rw [hf.backlog]
    exact h.nodup
  · intro j hj
    obtain ⟨hne, hjq⟩ := hother j hj
    obtain ⟨hprep, -, hk⟩ := h.waits j hjq
    refine ⟨?_, fun hs => hne (hsnd' j hs).1, ?_⟩
    · rwa [hf.cmds j hne]
    · intro k hkq
      rcases hmem k hkq with hkq | ⟨-, hki⟩
      · exact hk k hkq
      · rw [hki]
        exact hne.symm
  · intro j hj
    obtain ⟨rfl, hs⟩ := hsnd' j hj
    rcases ha.keep with hn | ⟨-, hok, -⟩
    · rw [hn] at hs
      cases hs
    · exact hok
  · intro j hj
    obtain ⟨rfl, hs⟩ := hsnd' j hj
    rcases ha.keep with hn | ⟨-, -, hok⟩
    · rw [hn] at hs
      cases hs
    · exact hok

/-- What goes into the caravan or to the socket is what was next to be sent. -/
theorem Advances.inHand (h : SendOk c q) (hsnd : q.sndCmd = some i) (hf : Frame i q q')
    (ha : Advances c i ks out q q') : Target.inHand c q = out ++ Target.inHand c q' := by
  have hbuf : ∀ k ∈ q'.caravanIovs, k.buf.of (q'.cmds k.cmd) = k.buf.of (q.cmds k.cmd) := by
    intro k hk
    by_cases hki : k.cmd = i
    · rw [hki]
      exact ha.same k hk hki
    · rw [hf.cmds _ hki]
  have hback := flatMap_backlog_congr (c := c) hf.backlog fun j hj =>
    hf.cmds j (h.ne_of_mem hsnd hj)
  simp only [Target.inHand]
  rw [caravanBytes_append ha.iovs hbuf, hback, ← ha.rest]
  rcases ha.first with rfl | hnil
  · simp only [List.nil_append, List.append_nil, List.append_assoc]
  · -- nothing can have been in the caravan, so the bytes did not overtake any
    rw [ha.iovs, List.append_eq_nil_iff] at hnil
    obtain ⟨hq, rfl⟩ := hnil
    simp [caravanBytes, hq]

end Caravan

section Steps

variable {c : Config} {q q' : NvmetTcpQueue} {i : CmdId}

theorem SendOk.state_of_mem (h : SendOk c q) (hsnd : q.sndCmd = some i) {k : Kvec}
    (hk : k ∈ q.caravanIovs) (hki : k.cmd = i) : (q.cmds i).state = .data ∨
      (q.cmds i).state = .response :=
  (h.apart i hsnd k hk hki).2

theorem sndRest_some (hsnd : q.sndCmd = some i) :
    sndRest c q = rest c (q.cmds i) := by simp [sndRest, hsnd]

theorem sndRest_none (hsnd : q.sndCmd = none) : sndRest c q = [] := by simp [sndRest, hsnd]

theorem sndOwes_some (hsnd : q.sndCmd = some i) :
    sndOwes c q = owes c (q.cmds i) := by simp [sndOwes, hsnd]

theorem sndOwes_none (hsnd : q.sndCmd = none) : sndOwes c q = [] := by simp [sndOwes, hsnd]

theorem letGo_send (i : CmdId) (q : NvmetTcpQueue) :
    let q' := (nvmetTcpPutCmd { q with sndCmd := none } i).sglFree i
    q'.cmds = q.cmds ∧ q'.caravanIovs = q.caravanIovs ∧ q'.caravanLen = q.caravanLen ∧
      q'.sent = q.sent ∧ q'.replies = q.replies ∧ q'.sndCmd = none := by
  unfold nvmetTcpPutCmd sglFree
  split_ifs <;> split <;> simp

theorem responseDone_send (i : CmdId) (q : NvmetTcpQueue) :
    (responseDone i q).cmds = q.cmds ∧ (responseDone i q).caravanIovs = q.caravanIovs ∧
      (responseDone i q).caravanLen = q.caravanLen ∧ (responseDone i q).sent = q.sent ∧
      (responseDone i q).replies = q.replies ∧ (responseDone i q).sndCmd = none := by
  unfold responseDone nvmetTcpPutCmd sglFree
  split_ifs <;> split <;> simp

theorem Hands.mem {ks : List Kvec} {out : List Byte} (h : Hands c i ks out q q') {k : Kvec}
    (hk : k ∈ q'.caravanIovs) : k ∈ q.caravanIovs ∨ k ∈ ks := by
  rw [h.iovs] at hk
  exact List.mem_append.1 hk

theorem advances_dataPdu (h : SendOk c q) (hsnd : q.sndCmd = some i)
    (hst : (q.cmds i).state = .dataPdu) {n : ℕ}
    (he : Emitted c (hdrKvec c i .dataPdu (q.cmds i)) (hdrOffer c .dataPdu (q.cmds i)) q n q')
    (hn : hdrLeft c (q.cmds i) ≤ n) :
    ∃ ks out, Advances c i ks out q (dataPduDone i (q'.modifyCmd i (skip n))) := by
  have hbuf : headerBuf (q.cmds i).state = some .dataPdu := by rw [hst]; rfl
  obtain ⟨ks, out, hh, hks, hbytes⟩ := he.hands_header h hsnd hbuf hn
  obtain ⟨-, hs⟩ := h.snd i hsnd
  simp only [hst] at hs
  obtain ⟨-, -, hcur, hpos⟩ := hs
  have hcmd : (dataPduDone i (q'.modifyCmd i (skip n))).cmds i =
      { q.cmds i with state := .data, offset := 0 } := by
    simp [dataPduDone, skip, he.cmds]
  have hsnd' : (dataPduDone i (q'.modifyCmd i (skip n))).sndCmd = some i := (he.sndCmd c).trans hsnd
  refine ⟨ks, out, hh.congr rfl rfl rfl rfl, ?_, ?_, .inr ⟨hsnd', ?_, ?_⟩⟩
  · intro k _ _
    rw [hcmd]
    cases k.buf <;> rfl
  · rw [sndOwes_some hsnd', sndOwes_some hsnd, hcmd, owes_header _ hbuf, hbytes, owes_data rfl]
    simp [behindHdr, hst, dataLeft, hcur, NvmetTcpCmd.sgData, dataTail, rspWire]
  · rw [hcmd]
    refine ⟨fun _ => rfl, ?_⟩
    intro j hj
    obtain rfl : 0 = j := Option.some.inj (hcur.symm.trans hj)
    exact ⟨PAGE_SIZE_pos, by simpa [NvmetTcpCmd.sgData] using hpos⟩
  · intro k hk hki
    rw [hcmd]
    rcases hh.mem hk with hk | hk
    · have := h.state_of_mem hsnd hk hki
      simp [hst] at this
    · exact ⟨by simp [hks k hk], .inl rfl⟩

theorem dataAdvance_left {sg : SgList} {j n : ℕ} {cmd : NvmetTcpCmd} (hsg : cmd.req.sg = some sg)
    (hj : cmd.curSg = some j) (hn : cmd.offset + n ≤ sg.entryLen j) :
    (pageOffer sg j cmd).take n ++ dataLeft (dataAdvance sg j n cmd) = dataLeft cmd := by
  have hdata : cmd.sgData = sg.data := by simp [NvmetTcpCmd.sgData, hsg]
  have htake : (pageOffer sg j cmd).take n =
      (sg.data.drop (PAGE_SIZE * j + cmd.offset)).take n := by
    rw [pageOffer, List.take_take, min_eq_left (by omega)]
  have hleft : dataLeft cmd = sg.data.drop
    (PAGE_SIZE * j + cmd.offset) := by simp [dataLeft, hj, hdata]
  have hnext : dataLeft (dataAdvance sg j n cmd) =
      if cmd.offset + n = sg.entryLen j then
        ((sg.sgNext j).map fun j' => sg.data.drop (PAGE_SIZE * j')).getD []
      else sg.data.drop (PAGE_SIZE * j + (cmd.offset + n)) := by
    simp only [dataAdvance]
    split_ifs with hlast <;> simp [dataLeft, NvmetTcpCmd.sgData, hsg, hj]
  rw [htake, hleft, hnext]
  exact sg.take_piece hn

theorem entryLen_pos {sg : SgList} {j o : ℕ} (ho : o < PAGE_SIZE)
    (hlt : PAGE_SIZE * j + o < sg.data.length) :
    o < sg.entryLen j := by
  unfold SgList.entryLen
  omega

theorem advances_page (h : SendOk c q) (hsnd : q.sndCmd = some i) (hst : (q.cmds i).state = .data)
    {j n : ℕ} {sg : SgList} (hj : (q.cmds i).curSg = some j) (hsg : (q.cmds i).req.sg = some sg)
    (he : Emitted c (pageKvec i sg j (q.cmds i)) (pageOffer sg j (q.cmds i)) q n q') :
    ∃ ks out, Advances c i ks out q (q'.modifyCmd i (dataAdvance sg j n)) := by
  obtain ⟨h0, hs⟩ := h.snd i hsnd
  simp only [hst] at hs
  have hdata : (q.cmds i).sgData = sg.data := by simp [NvmetTcpCmd.sgData, hsg]
  obtain ⟨hpage, hlt⟩ := hs j hj
  rw [hdata] at hlt
  have hentry := entryLen_pos hpage hlt
  obtain ⟨ks, out, hh, hks, hbytes⟩ := he.hands h rfl (by simpa [pageKvec] using hentry) fun _ => by
    simp [Kvec.bytes, pageKvec, pageOffer, Buffer.of, hdata]
  have hn : (q.cmds i).offset + n ≤ sg.entryLen j := by
    cases he with
    | caravan => simp only [pageKvec]; omega
    | socket _ _ _ _ hle =>
      simp only [pageOffer, List.length_take] at hle
      omega
  have hcmd : (q'.modifyCmd i (dataAdvance sg j n)).cmds i = dataAdvance sg j n (q.cmds i) := by
    rw [modifyCmd_cmds_self, he.cmds c]
  have hsnd' : (q'.modifyCmd i (dataAdvance sg j n)).sndCmd = some i := (he.sndCmd c).trans hsnd
  have hst' : (dataAdvance sg j n (q.cmds i)).state = .data := by rw [dataAdvance_state, hst]
  refine ⟨ks, out, hh.congr rfl rfl rfl rfl, ?_, ?_, .inr ⟨hsnd', ?_, ?_⟩⟩
  · intro k _ _
    rw [hcmd, dataAdvance]
    cases k.buf <;> split_ifs <;> rfl
  · rw [sndOwes_some hsnd', sndOwes_some hsnd, hcmd, owes_data hst, owes_data hst', hbytes,
      ← List.append_assoc, dataAdvance_left hsg hj hn]
    simp only [dataTail, rspWire, dataAdvance]
    split_ifs <;> rfl
  · rw [hcmd]
    refine ⟨fun ha => ?_, ?_⟩
    · -- with aggregation the entry is taken whole
      obtain rfl : n = sg.entryLen j := by
        cases he with
        | caravan => simp [pageKvec, h0 ha]
        | socket hn => rw [ha] at hn; cases hn
      simp [dataAdvance, h0 ha]
    · rw [hst']
      intro j' hj'
      simp only [dataAdvance] at hj' ⊢
      split_ifs at hj' ⊢ with hlast
      · have hnext := sg.sgNext_lt hj'
        exact ⟨PAGE_SIZE_pos, by simpa [NvmetTcpCmd.sgData, hsg] using hnext⟩
      · obtain rfl : j = j' := Option.some.inj (hj.symm.trans hj')
        have hlen : (q.cmds i).offset + n < sg.entryLen j := by omega
        simp only [SgList.entryLen] at hlen
        simp only [NvmetTcpCmd.sgData, hsg, Option.map_some, Option.getD_some]
        omega
  · intro k hk hki
    rw [hcmd]
    refine ⟨?_, .inl hst'⟩
    rcases hh.mem hk with hk | hk
    · exact (h.apart i hsnd k hk hki).1
    · simp [hks k hk, pageKvec]

theorem advances_dataDone (hd : c.dataDigest = false) (h : SendOk c q) (hsnd : q.sndCmd = some i)
    (hst : (q.cmds i).state = .data) (hend : (q.cmds i).curSg = none ∨ (q.cmds i).req.sg = none) :
    Advances c i [] [] q (dataDone c i q) := by
  obtain ⟨-, hs⟩ := h.snd i hsnd
  simp only [hst] at hs
  have hcur : (q.cmds i).curSg = none := by
    rcases hend with hend | hend
    · exact hend
    · cases hj : (q.cmds i).curSg with
      | none => rfl
      | some j =>
        have hlt := (hs j hj).2
        simp [NvmetTcpCmd.sgData, hend] at hlt
  have howes : owes c (q.cmds i) = dataTail c (q.cmds i) := by
    rw [owes_data hst]
    simp [dataLeft, hcur]
  cases hq : c.sqhdDisabled with
  | true =>
    have hrun : dataDone c i q = (nvmetTcpPutCmd { q with sndCmd := none } i).sglFree i := by
      simp [dataDone, hd, hq]
    rw [hrun]
    obtain ⟨hcmds, hiovs, hlen, hsent, hrep, hnone⟩ := letGo_send i q
    refine ⟨hands_nothing hiovs hlen hsent fun _ => hrep, ?_, ?_, .inl hnone⟩
    · intro k _ _
      rw [hcmds]
    · rw [sndOwes_none hnone, sndOwes_some hsnd, howes]
      simp [dataTail, hq]
  | false =>
    have hrun : dataDone c i q = q.modifyCmd i
      (nvmetSetupResponsePdu c) := by simp [dataDone, hd, hq]
    have hsnd' : (q.modifyCmd i (nvmetSetupResponsePdu c)).sndCmd = some i := hsnd
    rw [hrun]
    refine ⟨hands_nothing rfl rfl rfl fun _ => rfl, ?_, ?_, .inr ⟨hsnd', ?_, ?_⟩⟩
    · intro k hk hki
      have hbuf := (h.apart i hsnd k hk hki).1
      cases hb : k.buf with
      | rspPdu => exact absurd hb hbuf
      | dataPdu | r2tPdu | page => simp [Buffer.of, nvmetSetupResponsePdu, NvmetTcpCmd.sgData]
    · rw [sndOwes_some hsnd', sndOwes_some hsnd, howes, modifyCmd_cmds_self,
        owes_header .rspPdu rfl]
      simp [dataTail, hq, behindHdr, Buffer.of, nvmetSetupResponsePdu, NvmetTcpCmd.rspPdu, rspWire]
    · rw [modifyCmd_cmds_self]
      exact ⟨fun _ => rfl, rfl, Nat.lt_of_lt_of_le (by decide : 0 < 24) (Nat.le_add_right _ _)⟩
    · intro k hk hki
      rw [modifyCmd_cmds_self]
      exact ⟨(h.apart i hsnd k hk hki).1, .inr rfl⟩

theorem advances_last {ks : List Kvec} {out : List Byte} {buf : Buffer} (hsnd : q.sndCmd = some i)
    (hbuf : headerBuf (q.cmds i).state = some buf) (hlast : (q.cmds i).state ≠ .dataPdu)
    (hh : Hands c i ks out q q')
    (hbytes : ks.flatMap (Kvec.bytes q.cmds) ++ out = (buf.of (q.cmds i)).drop (q.cmds i).offset)
    (hnone : q'.sndCmd = none) (hcmd : ∃ n, q'.cmds i = skip n (q.cmds i)) :
    Advances c i ks out q q' := by
  obtain ⟨n, hcmd⟩ := hcmd
  refine ⟨hh, ?_, ?_, .inl hnone⟩
  · intro k _ _
    rw [hcmd]
    cases k.buf <;> rfl
  · rw [sndOwes_none hnone, sndOwes_some hsnd, owes_header _ hbuf, hbytes]
    cases hst : (q.cmds i).state <;> simp_all [behindHdr]

theorem advances_part (h : SendOk c q) (hsnd : q.sndCmd = some i) (ha : aggregates c = false)
    {n : ℕ} (rs : List SockReply) {buf : Buffer} (hbuf : headerBuf (q.cmds i).state = some buf)
    (hn : n < hdrLeft c (q.cmds i)) :
    Advances c i [] ((hdrOffer c buf (q.cmds i)).take n) q
      ((q.heard ((hdrOffer c buf (q.cmds i)).take n) rs).modifyCmd i (skip n)) := by
  obtain ⟨hlen, hoff⟩ := (h.snd i hsnd).header hbuf
  have hsnd' : ((q.heard ((hdrOffer c buf (q.cmds i)).take n) rs).modifyCmd i (skip n)).sndCmd =
    some i := hsnd
  have hnil := h.direct ha
  have hbuf' : headerBuf (skip n (q.cmds i)).state = some buf := hbuf
  have hof : buf.of (skip n (q.cmds i)) = buf.of (q.cmds i) := by cases buf <;> rfl
  have hbehind : behindHdr c (skip n (q.cmds i)) = behindHdr c (q.cmds i) := rfl
  rw [hdrLeft] at hn
  refine ⟨(hands_direct h ha _ rs).modify _, ?_, ?_, .inr ⟨hsnd', ?_, ?_⟩⟩
  · intro k hk
    change k ∈ q.caravanIovs at hk
    simp [hnil] at hk
  · rw [sndOwes_some hsnd', sndOwes_some hsnd, modifyCmd_cmds_self, heard_cmds, owes_header _ hbuf,
      owes_header _ hbuf', hof, hbehind, hdrOffer_eq hlen]
    simp only [List.flatMap_nil, List.nil_append, skip]
    rw [← List.append_assoc, Bytes.drop_take_append_drop]
  · rw [modifyCmd_cmds_self, heard_cmds]
    obtain ⟨-, hs⟩ := h.snd i hsnd
    have hoff' : (skip n (q.cmds i)).offset < 24 + nvmetTcpHdgstLen c := by
      simp only [skip]
      omega
    refine ⟨fun ht => absurd (ha.symm.trans ht) Bool.false_ne_true, ?_⟩
    cases hst : (q.cmds i).state <;> simp only [hst, headerBuf, reduceCtorEq] at hs hbuf <;>
      simp only [skip, hst]
    · exact ⟨hs.1, hoff', hs.2.2⟩
    · exact ⟨hs.1, hoff'⟩
    · exact ⟨hs.1, hoff'⟩
  · intro k hk
    change k ∈ q.caravanIovs at hk
    simp [hnil] at hk

theorem advances_mark (h : SendOk c q) (hsnd : q.sndCmd = some i) : Advances c i [] [] q q.mark :=
  ⟨hands_nothing rfl rfl rfl fun _ => rfl, fun _ _ _ => rfl, rfl,
    .inr ⟨hsnd, h.snd i hsnd, h.apart i hsnd⟩⟩

/-- Every step keeps the send path in order, and every byte in its hands or on the socket. -/
theorem SendOk.sends (hd : c.dataDigest = false) (h : SendOk c q) (hs : Sends c i q q') :
    ∃ ks out, Advances c i ks out q q' := by
  obtain ⟨hsnd, hstep⟩ := hs
  obtain ⟨h0, hok⟩ := h.snd i hsnd
  cases hstep with
  | full => exact ⟨[], [], advances_mark h hsnd⟩
  | refused hw rs =>
    rcases hw with hn | hst
    · refine ⟨[], [], hands_nothing rfl rfl (by simp [heard]) fun ht => ?_, fun _ _ _ => rfl, rfl,
        .inr ⟨hsnd, h.snd i hsnd, h.apart i hsnd⟩⟩
      rw [hn] at ht
      cases ht
    · simp [hst] at hok
  | emptyHdr _ ha _ hz =>
    simp only [hdrLeft, h0 ha] at hz
    omega
  | emptyPage j sg _ hst hj hsg hz =>
    simp only [hst] at hok
    obtain ⟨hpage, hlt⟩ := hok j hj
    have hentry : (q.cmds i).offset < sg.entryLen j :=
      entryLen_pos hpage (by simpa [NvmetTcpCmd.sgData, hsg] using hlt)
    omega
  | part ha b n rs hbuf hb hn =>
    subst hb
    exact ⟨_, _, advances_part h hsnd ha rs hbuf hn⟩
  | dataPdu hst he hb hn =>
    subst hb
    exact advances_dataPdu h hsnd hst he hn
  | page hst hj hsg _ he hb =>
    subst hb
    exact advances_page h hsnd hst hj hsg he
  | dataDone hst hend => exact ⟨_, _, advances_dataDone hd h hsnd hst hend⟩
  | ddgst hst | ddgstLast hst => simp [hst] at hok
  | @r2t hst b n q₁ he hb hn =>
    subst hb
    have hbuf : headerBuf (q.cmds i).state = some .r2tPdu := by rw [hst]; rfl
    obtain ⟨ks, out, hh, -, hbytes⟩ := he.hands_header h hsnd hbuf hn
    refine ⟨ks, out, advances_last hsnd hbuf (by simp [hst]) (hh.congr rfl rfl rfl rfl) hbytes rfl
      ⟨n, ?_⟩⟩
    change (q₁.modifyCmd i (skip n)).cmds i = _
    rw [modifyCmd_cmds_self, he.cmds c]
  | response hst ha hf =>
    have hbuf : headerBuf (q.cmds i).state = some .rspPdu := by rw [hst]; rfl
    have he : Emitted c (hdrKvec c i .rspPdu (q.cmds i)) (hdrOffer c .rspPdu (q.cmds i)) q _ _ :=
      .caravan ha hf
    obtain ⟨ks, out, hh, -, hbytes⟩ := he.hands_header h hsnd hbuf le_rfl
    refine ⟨ks, out, advances_last hsnd hbuf (by simp [hst]) (hh.congr rfl rfl rfl rfl) hbytes rfl
      ⟨hdrLeft c (q.cmds i), ?_⟩⟩
    exact modifyCmd_cmds_self _ _ _
  | responseLast hst ha b n rs hb hn =>
    subst hb
    have hbuf : headerBuf (q.cmds i).state = some .rspPdu := by rw [hst]; rfl
    obtain ⟨hlen, -⟩ := (h.snd i hsnd).header hbuf
    obtain ⟨hcmds, hiovs, hclen, hsent, hrep, hnone⟩ :=
      responseDone_send i ((q.heard ((hdrOffer c .rspPdu (q.cmds i)).take n) rs).modifyCmd i
        (skip n))
    refine ⟨[], _, advances_last hsnd hbuf (by simp [hst])
      ((hands_direct h ha _ rs).congr hiovs hclen hsent hrep) ?_ hnone ⟨n, ?_⟩⟩
    · rw [hdrOffer_eq hlen, List.take_of_length_le]
      · rfl
      · rw [List.length_drop, hlen]
        exact hn
    · rw [hcmds, modifyCmd_cmds_self, heard_cmds]

end Steps

end BlkSwitch.Target
