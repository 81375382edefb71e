import BlkSwitch.Spec.TargetQueue

/-! The send path of the target, cut into the single things it can do to the queue: find the
caravan full or the socket unwilling, hand over a header or a piece of data, and let go of the
command. What a whole call does is a sequence of these. -/

namespace BlkSwitch.Target

open NvmetTcpQueue Relation

namespace NvmetTcpQueue

variable (q : NvmetTcpQueue)

def heard (b : List Byte) (rs : List SockReply) : NvmetTcpQueue :=
  { q with sent := q.sent ++ b, replies := rs }

variable (i : CmdId) (f : NvmetTcpCmd → NvmetTcpCmd)

@[simp] theorem modifyCmd_cmds_self : (q.modifyCmd i f).cmds i = f (q.cmds i) := by simp [modifyCmd]

theorem modifyCmd_cmds_of_ne {j : CmdId} (h : j ≠ i) : (q.modifyCmd i f).cmds j = q.cmds j := by
  simp [modifyCmd, h]

@[simp] theorem append_cmds (k : Kvec) : (q.append k).cmds = q.cmds := rfl

@[simp] theorem heard_cmds (b : List Byte) (rs : List SockReply) : (q.heard b rs).cmds = q.cmds :=
  rfl

theorem putCmd_cmds : (q.nvmetTcpPutCmd i).cmds = q.cmds := by
  unfold nvmetTcpPutCmd
  split_ifs <;> rfl

theorem sglFree_cmds : (q.sglFree i).cmds = q.cmds := by
  unfold sglFree
  split <;> rfl

theorem kernelSend_cases (b : List Byte) :
    (∃ r : ℤ, r ≤ 0 ∧ ∃ rs, q.kernelSend b = (r, q.heard [] rs)) ∨
      ∃ n : ℕ, (0 < n ∧ n ≤ b.length) ∧
        ∃ rs, q.kernelSend b = ((n : ℤ), q.heard (b.take n) rs) := by
  have hpiece : ∀ (n : ℕ) (rs : List SockReply), n ≤ b.length →
    q.kernelSend b = ((n : ℤ), q.heard (b.take n) rs) →
      (∃ r : ℤ, r ≤ 0 ∧ ∃ rs, q.kernelSend b = (r, q.heard [] rs)) ∨
        ∃ n : ℕ, (0 < n ∧ n ≤ b.length) ∧
          ∃ rs, q.kernelSend b = ((n : ℤ), q.heard (b.take n) rs) := by
    intro n rs hle h
    rcases Nat.eq_zero_or_pos n with rfl | hn
    · exact .inl ⟨0, le_rfl, rs, by simpa using h⟩
    · exact .inr ⟨n, ⟨hn, hle⟩, rs, h⟩
  cases hr : q.replies with
  | nil => exact hpiece b.length [] le_rfl (by simp [kernelSend, heard, hr])
  | cons r rs =>
    cases r with
    | all => exact hpiece b.length rs le_rfl (by simp [kernelSend, heard, hr])
    | ret r =>
      by_cases hle : r ≤ 0
      · exact .inl ⟨r, hle, rs, by simp [kernelSend, heard, hr, hle]⟩
      · exact hpiece (min r.toNat b.length) rs (min_le_right _ _)
          (by simp [kernelSend, heard, hr, hle])

theorem kernelSend_heard (b : List Byte) : ∃ b' rs, (q.kernelSend b).2 = q.heard b' rs := by
  rcases q.kernelSend_cases b with ⟨r, -, rs, h⟩ | ⟨n, -, rs, h⟩
  · exact ⟨[], rs, by rw [h]⟩
  · exact ⟨b.take n, rs, by rw [h]⟩

end NvmetTcpQueue

/-- An entry went into the caravan, or `n` bytes of it to the socket. -/
inductive Emitted (c : Config) (k : Kvec) (b : List Byte) (q : NvmetTcpQueue) : ℕ → NvmetTcpQueue →
    Prop
  | caravan (ha : aggregates c = true) (hf : q.i10TargetIsCaravanFull = false) :
      Emitted c k b q k.len (q.append k)
  | socket (ha : aggregates c = false) (n : ℕ) (hn : 0 < n) (rs : List SockReply)
    (hle : n ≤ b.length) :
      Emitted c k b q n (q.heard (b.take n) rs)

theorem emit_cases (c : Config) (k : Kvec) (b : List Byte) (q : NvmetTcpQueue) :
    aggregates c = true ∧ q.emit c k b = (none, q.mark) ∨
      (∃ n q₁, Emitted c k b q n q₁ ∧ q.emit c k b = (some (n : ℤ), q₁)) ∨
      aggregates c = false ∧ ∃ r : ℤ, r ≤ 0 ∧ ∃ rs, q.emit c k b = (some r, q.heard [] rs) := by
  cases ha : aggregates c with
  | true =>
    cases hf : q.i10TargetIsCaravanFull with
    | true => exact .inl ⟨rfl, by simp [emit, ha, hf, mark]⟩
    | false => exact .inr (.inl ⟨k.len, q.append k, .caravan ha hf, by simp [emit, ha, hf]⟩)
  | false =>
    rcases q.kernelSend_cases b with ⟨r, hr, rs, h⟩ | ⟨n, ⟨hn, hle⟩, rs, h⟩
    · exact .inr (.inr ⟨rfl, r, hr, rs, by simp [emit, ha, h]⟩)
    · exact .inr (.inl ⟨n, _, .socket ha n hn rs hle, by simp [emit, ha, h]⟩)

def hdrKvec (c : Config) (i : CmdId) (buf : Buffer) (cmd : NvmetTcpCmd) : Kvec :=
  ⟨i, buf, hdrOff cmd, hdrLeft c cmd⟩

def pageKvec (i : CmdId) (sg : SgList) (j : ℕ) (cmd : NvmetTcpCmd) : Kvec :=
  ⟨i, .page sg.id, PAGE_SIZE * j + cmd.offset, sg.entryLen j - cmd.offset⟩

def hdrOffer (c : Config) (buf : Buffer) (cmd : NvmetTcpCmd) : List Byte :=
  ((buf.of cmd).drop cmd.offset).take (hdrLeft c cmd)

def pageOffer (sg : SgList) (j : ℕ) (cmd : NvmetTcpCmd) : List Byte :=
  (sg.data.drop (PAGE_SIZE * j + cmd.offset)).take (sg.entryLen j - cmd.offset)

def headerBuf : SendState → Option Buffer
  | .dataPdu => some .dataPdu
  | .r2t => some .r2tPdu
  | .response => some .rspPdu
  | .data | .ddgst => none

/-- The single things a call does with command `i`, as long as it has it. -/
inductive SendStep (c : Config) (i : CmdId) (q : NvmetTcpQueue) : NvmetTcpQueue → Prop
  | full (ha : aggregates c = true) : SendStep c i q q.mark
  | refused (hw : aggregates c = false ∨ (q.cmds i).state = .ddgst) (rs : List SockReply) :
      SendStep c i q (q.heard [] rs)
  /-- an entry of no bytes -/
  | emptyHdr (buf : Buffer) (ha : aggregates c = true) (hb : ∀ g, buf ≠ .page g)
    (h0 : hdrLeft c (q.cmds i) = 0) :
      SendStep c i q (q.append (hdrKvec c i buf (q.cmds i)))
  | emptyPage (j : ℕ) (sg : SgList) (ha : aggregates c = true) (hst : (q.cmds i).state = .data)
      (hj : (q.cmds i).curSg = some j) (hsg : (q.cmds i).req.sg = some sg)
      (h0 : sg.entryLen j - (q.cmds i).offset = 0) :
    SendStep c i q (q.append (pageKvec i sg j (q.cmds i)))
  | part (ha : aggregates c = false) (b : List Byte) (n : ℕ) (rs : List SockReply) {buf : Buffer}
      (hbuf : headerBuf (q.cmds i).state = some buf) (hb : b = (hdrOffer c buf (q.cmds i)).take n)
      (hn : n < hdrLeft c (q.cmds i)) : SendStep c i q ((q.heard b rs).modifyCmd i (skip n))
  | dataPdu (hst : (q.cmds i).state = .dataPdu) {b : List Byte} {n : ℕ} {q₁ : NvmetTcpQueue}
      (he : Emitted c (hdrKvec c i .dataPdu (q.cmds i)) b q n q₁)
    (hb : b = hdrOffer c .dataPdu (q.cmds i))
      (hn : hdrLeft c (q.cmds i) ≤ n) : SendStep c i q (dataPduDone i (q₁.modifyCmd i (skip n)))
  | page (hst : (q.cmds i).state = .data) {j : ℕ} {sg : SgList} (hj : (q.cmds i).curSg = some j)
      (hsg : (q.cmds i).req.sg = some sg) {b : List Byte} {n : ℕ} {q₁ : NvmetTcpQueue} (hn : 0 < n)
      (he : Emitted c (pageKvec i sg j (q.cmds i)) b q n q₁) (hb : b = pageOffer sg j (q.cmds i)) :
      SendStep c i q (q₁.modifyCmd i (dataAdvance sg j n))
  | dataDone (hst : (q.cmds i).state = .data)
    (hend : (q.cmds i).curSg = none ∨ (q.cmds i).req.sg = none) :
      SendStep c i q (dataDone c i q)
  | ddgst (hst : (q.cmds i).state = .ddgst) (b : List Byte) (rs : List SockReply)
    (hs : c.sqhdDisabled = false) :
      SendStep c i q ((q.heard b rs).modifyCmd i (nvmetSetupResponsePdu c))
  | ddgstLast (hst : (q.cmds i).state = .ddgst) (b : List Byte) (n : ℕ) (rs : List SockReply)
      (hs : c.sqhdDisabled = true) :
      SendStep c i q (nvmetTcpPutCmd { (q.heard b rs).modifyCmd i (skip n) with sndCmd := none } i)
  | r2t (hst : (q.cmds i).state = .r2t) {b : List Byte} {n : ℕ} {q₁ : NvmetTcpQueue}
      (he : Emitted c (hdrKvec c i .r2tPdu (q.cmds i)) b q n q₁)
        (hb : b = hdrOffer c .r2tPdu (q.cmds i))
      (hn : hdrLeft c (q.cmds i) ≤ n) : SendStep c i q (r2tDone i (q₁.modifyCmd i (skip n)))
  | response (hst : (q.cmds i).state = .response) (ha : aggregates c = true)
      (hf : q.i10TargetIsCaravanFull = false) :
      SendStep c i q ({ q.append (hdrKvec c i .rspPdu (q.cmds i)) with
        caravanCmds := q.caravanCmds ++ [i], sndCmd := none }.modifyCmd i
          (skip (hdrLeft c (q.cmds i))))
  | responseLast (hst : (q.cmds i).state = .response) (ha : aggregates c = false) (b : List Byte)
    (n : ℕ)
      (rs : List SockReply) (hb : b = (hdrOffer c .rspPdu (q.cmds i)).take n)
        (hn : hdrLeft c (q.cmds i) ≤ n) :
      SendStep c i q (responseDone i ((q.heard b rs).modifyCmd i (skip n)))

/-- A step of the command the worker has. -/
def Sends (c : Config) (i : CmdId) (q q' : NvmetTcpQueue) : Prop :=
  q.sndCmd = some i ∧ SendStep c i q q'

/-- What a send function does to a command in its state: steps, and it keeps the command or
leaves it in that state. -/
def StageOk (c : Config) (i : CmdId) (st : SendState) (f : NvmetTcpQueue → ℤ × NvmetTcpQueue) :
    Prop :=
  ∀ q : NvmetTcpQueue, q.sndCmd = some i → (q.cmds i).state = st →
    ReflTransGen (Sends c i) q (f q).2 ∧ (((f q).2.cmds i).state = st ∨ (f q).2.sndCmd = some i)

section Stages

variable (c : Config) (i : CmdId)

theorem Emitted.sndCmd {k : Kvec} {b : List Byte} {q q₁ : NvmetTcpQueue} {n : ℕ}
    (h : Emitted c k b q n q₁) :
    q₁.sndCmd = q.sndCmd := by
  cases h <;> rfl

theorem Emitted.cmds {k : Kvec} {b : List Byte} {q q₁ : NvmetTcpQueue} {n : ℕ}
    (h : Emitted c k b q n q₁) :
    q₁.cmds = q.cmds := by
  cases h <;> rfl

theorem Emitted.waiting {k : Kvec} {b : List Byte} {q q₁ : NvmetTcpQueue} {n : ℕ}
    (h : Emitted c k b q n q₁) :
    q₁.waiting = q.waiting := by
  cases h <;> rfl

theorem Emitted.part {buf : Buffer} {q q₁ : NvmetTcpQueue} {n : ℕ}
    (hbuf : headerBuf (q.cmds i).state = some buf)
    (h : Emitted c (hdrKvec c i buf (q.cmds i)) (hdrOffer c buf (q.cmds i)) q n q₁)
    (hn : n < hdrLeft c (q.cmds i)) : SendStep c i q (q₁.modifyCmd i (skip n)) := by
  cases h with
  | caravan => exact absurd hn (lt_irrefl _)
  | socket ha n _ rs => exact .part ha _ n rs hbuf rfl hn

theorem Emitted.empty {k : Kvec} {b : List Byte} {q q₁ : NvmetTcpQueue} {n : ℕ}
    (h : Emitted c k b q n q₁) (hn : n = 0) : aggregates c = true ∧ k.len = 0 ∧
      q₁ = q.append k := by
  cases h with
  | caravan ha => exact ⟨ha, hn, rfl⟩
  | socket _ _ hpos => omega

theorem modifyCmd_modifyCmd (q : NvmetTcpQueue) (f g : NvmetTcpCmd → NvmetTcpCmd) :
    (q.modifyCmd i f).modifyCmd i g = q.modifyCmd i fun cmd => g (f cmd) := by
  simp [modifyCmd]

theorem trySendHdr_steps {buf : Buffer} (done : NvmetTcpQueue → NvmetTcpQueue) (q : NvmetTcpQueue)
    (hbuf : headerBuf (q.cmds i).state = some buf)
    (hdone : ∀ n q₁, Emitted c (hdrKvec c i buf (q.cmds i)) (hdrOffer c buf (q.cmds i)) q n q₁ →
      hdrLeft c (q.cmds i) ≤ n → SendStep c i q (done (q₁.modifyCmd i (skip n)))) :
    SendStep c i q (trySendHdr c i buf done q).2 ∧
      ((trySendHdr c i buf done q).2.sndCmd = q.sndCmd ∨
        ∃ (q₁ : NvmetTcpQueue) (n : ℕ), q₁.cmds = q.cmds ∧ q₁.sndCmd = q.sndCmd ∧
          (trySendHdr c i buf done q).2 = done (q₁.modifyCmd i (skip n))) := by
  have hpage : ∀ g, buf ≠ .page g := by
    rintro g rfl
    cases hst : (q.cmds i).state <;> simp [hst, headerBuf] at hbuf
  rcases emit_cases c (hdrKvec c i buf (q.cmds i)) (hdrOffer c buf (q.cmds i)) q with
    ⟨ha, he⟩ | ⟨n, q₁, hem, he⟩ | ⟨ha, r, hr, rs, he⟩
  · unfold hdrKvec hdrOffer at he
    simp only [trySendHdr, he]
    exact ⟨.full ha, .inl rfl⟩
  · unfold hdrKvec hdrOffer at he
    simp only [trySendHdr, he, Int.toNat_natCast, Nat.cast_nonpos]
    split_ifs with h0 hn
    · obtain ⟨ha, hk0, rfl⟩ := hem.empty c h0
      exact ⟨.emptyHdr buf ha hpage hk0, .inl rfl⟩
    · exact ⟨hem.part c i hbuf (by omega), .inl (hem.sndCmd c)⟩
    · exact ⟨hdone n q₁ hem (by omega), .inr ⟨q₁, n, hem.cmds c, hem.sndCmd c, rfl⟩⟩
  · unfold hdrKvec hdrOffer at he
    simp only [trySendHdr, he, hr, ↓reduceIte]
    exact ⟨.refused (.inl ha) rs, .inl rfl⟩

theorem nvmetTrySendDataPdu_ok : StageOk c i .dataPdu (nvmetTrySendDataPdu c i) := by
  intro q hsnd hst
  unfold nvmetTrySendDataPdu
  obtain ⟨hs, hend⟩ := trySendHdr_steps c i (dataPduDone i) q (by rw [hst]; rfl) fun _ _ he hn =>
    .dataPdu hst he rfl hn
  refine ⟨.single ⟨hsnd, hs⟩, .inr ?_⟩
  rcases hend with h | ⟨q₁, n, -, hsnd₁, h⟩
  · rw [h, hsnd]
  · rw [h]
    exact hsnd₁.trans hsnd

theorem nvmetTrySendR2t_ok : StageOk c i .r2t (nvmetTrySendR2t c i) := by
  intro q hsnd hst
  unfold nvmetTrySendR2t
  obtain ⟨hs, hend⟩ :=
    trySendHdr_steps c i (r2tDone i) q (by rw [hst]; rfl) fun _ _ he hn => .r2t hst he rfl hn
  refine ⟨.single ⟨hsnd, hs⟩, ?_⟩
  rcases hend with h | ⟨q₁, n, hcmds, -, h⟩
  · exact .inr (h.trans hsnd)
  · left
    rw [h]
    simpa [r2tDone, hcmds, skip] using hst

theorem nvmetTrySendResponse_ok : StageOk c i .response (nvmetTrySendResponse c i) := by
  intro q hsnd hst
  cases ha : aggregates c with
  | true =>
    cases hf : q.i10TargetIsCaravanFull with
    | true =>
      have hrun : (nvmetTrySendResponse c i q).2 = q.mark := by simp [nvmetTrySendResponse, ha, hf]
      rw [hrun]
      exact ⟨.single ⟨hsnd, .full ha⟩, .inr hsnd⟩
    | false =>
      simp only [nvmetTrySendResponse, ha, hf, ↓reduceIte]
      exact ⟨.single ⟨hsnd, .response hst ha hf⟩, .inl (by simpa [skip] using hst)⟩
  | false =>
    have hdone : ∀ n q₁,
      Emitted c (hdrKvec c i .rspPdu (q.cmds i)) (hdrOffer c .rspPdu (q.cmds i)) q n q₁ →
        hdrLeft c (q.cmds i) ≤ n → SendStep c i q (responseDone i (q₁.modifyCmd i (skip n))) := by
      intro n q₁ he hn
      cases he with
      | caravan ha' => rw [ha] at ha'; cases ha'
      | socket _ _ _ rs => exact .responseLast hst ha _ n rs rfl hn
    have hrun : nvmetTrySendResponse c i q = trySendHdr c i .rspPdu (responseDone i) q := by
      simp [nvmetTrySendResponse, ha]
    rw [hrun]
    obtain ⟨hs, hend⟩ := trySendHdr_steps c i (responseDone i) q (by rw [hst]; rfl) hdone
    refine ⟨.single ⟨hsnd, hs⟩, ?_⟩
    rcases hend with h | ⟨q₁, n, hcmds, -, h⟩
    · exact .inr (h.trans hsnd)
    · left
      rw [h, responseDone, putCmd_cmds]
      change (((q₁.modifyCmd i (skip n)).sglFree i).cmds i).state = _
      rw [sglFree_cmds, modifyCmd_cmds_self, hcmds]
      exact hst

theorem dataAdvance_state (sg : SgList) (j n : ℕ) (cmd : NvmetTcpCmd) :
    (dataAdvance sg j n cmd).state = cmd.state := by
  simp only [dataAdvance]
  split_ifs <;> rfl

theorem sglFree_sndCmd (q : NvmetTcpQueue) : (q.sglFree i).sndCmd = q.sndCmd := by
  unfold sglFree
  split <;> rfl

/-- With the data out, the command is kept for its digest or its response, or let go. -/
theorem dataDone_keeps {q : NvmetTcpQueue} (hsnd : q.sndCmd = some i)
    (hst : (q.cmds i).state = .data) :
    ((dataDone c i q).cmds i).state = .data ∨ (dataDone c i q).sndCmd = some i := by
  unfold dataDone
  cases c.dataDigest <;> cases c.sqhdDisabled <;>
    simp only [Bool.false_eq_true, ↓reduceIte, sglFree_sndCmd, sglFree_cmds, putCmd_cmds] <;>
    first | exact .inr hsnd | exact .inl hst

theorem trySendDataLoop_end (fuel : ℕ) {q : NvmetTcpQueue}
    (h : (q.cmds i).curSg = none ∨ (q.cmds i).req.sg = none) :
    trySendDataLoop c i (fuel + 1) q = (1, dataDone c i q) := by
  unfold trySendDataLoop
  rcases h with h | h
  · simp [h]
  · cases hj : (q.cmds i).curSg <;> simp [h]

def pageEmit (sg : SgList) (j : ℕ) (q : NvmetTcpQueue) : Option ℤ × NvmetTcpQueue :=
  q.emit c (pageKvec i sg j (q.cmds i)) (pageOffer sg j (q.cmds i))

theorem trySendDataLoop_full (fuel : ℕ) {q q₁ : NvmetTcpQueue} {j : ℕ} {sg : SgList}
    (hj : (q.cmds i).curSg = some j) (hsg : (q.cmds i).req.sg = some sg)
    (he : pageEmit c i sg j q = (none, q₁)) : trySendDataLoop c i (fuel + 1) q = (1, q₁) := by
  unfold pageEmit pageKvec pageOffer at he
  simp only [trySendDataLoop, hj, hsg, he]

theorem trySendDataLoop_page (fuel : ℕ) {q q₁ : NvmetTcpQueue} {j : ℕ} {sg : SgList} {ret : ℤ}
    (hj : (q.cmds i).curSg = some j) (hsg : (q.cmds i).req.sg = some sg)
    (he : pageEmit c i sg j q = (some ret, q₁)) :
    trySendDataLoop c i (fuel + 1) q =
      if ret ≤ 0 then (ret, q₁)
      else trySendDataLoop c i fuel (q₁.modifyCmd i (dataAdvance sg j ret.toNat)) := by
  unfold pageEmit pageKvec pageOffer at he
  simp only [trySendDataLoop, hj, hsg, he]

theorem trySendDataLoop_steps (fuel : ℕ) {q : NvmetTcpQueue} (hsnd : q.sndCmd = some i)
    (hst : (q.cmds i).state = .data) :
    ReflTransGen (Sends c i) q (trySendDataLoop c i fuel q).2 ∧
      (((trySendDataLoop c i fuel q).2.cmds i).state = .data ∨
        (trySendDataLoop c i fuel q).2.sndCmd = some i) := by
  induction fuel generalizing q with
  | zero => exact ⟨.refl, .inl hst⟩
  | succ fuel ih =>
    have hend : (q.cmds i).curSg = none ∨ (q.cmds i).req.sg = none →
        ReflTransGen (Sends c i) q (trySendDataLoop c i (fuel + 1) q).2 ∧
          (((trySendDataLoop c i (fuel + 1) q).2.cmds i).state = .data ∨
            (trySendDataLoop c i (fuel + 1) q).2.sndCmd = some i) := by
      intro h
      rw [trySendDataLoop_end c i fuel h]
      exact ⟨.single ⟨hsnd, .dataDone hst h⟩, dataDone_keeps c i hsnd hst⟩
    cases hj : (q.cmds i).curSg with
    | none => exact hend (.inl hj)
    | some j =>
      cases hsg : (q.cmds i).req.sg with
      | none => exact hend (.inr hsg)
      | some sg =>
        rcases emit_cases c (pageKvec i sg j (q.cmds i)) (pageOffer sg j (q.cmds i)) q with
          ⟨ha, he⟩ | ⟨n, q₁, hem, he⟩ | ⟨ha, r, hr, rs, he⟩
        · rw [trySendDataLoop_full c i fuel hj hsg he]
          exact ⟨.single ⟨hsnd, .full ha⟩, .inr hsnd⟩
        · rw [trySendDataLoop_page c i fuel hj hsg he, Int.toNat_natCast]
          simp only [Nat.cast_nonpos]
          split_ifs with h0
          · obtain ⟨ha, hk0, rfl⟩ := hem.empty c h0
            exact ⟨.single ⟨hsnd, .emptyPage j sg ha hst hj hsg hk0⟩, .inr hsnd⟩
          · -- a piece is out: the rest of the loop starts from there
            have hstep : Sends c i q (q₁.modifyCmd i (dataAdvance sg j n)) :=
              ⟨hsnd, .page hst hj hsg (Nat.pos_of_ne_zero h0) hem rfl⟩
            obtain ⟨hrest, hkeep⟩ :=
              @ih (q₁.modifyCmd i (dataAdvance sg j n)) ((hem.sndCmd c).trans hsnd)
              (by rw [modifyCmd_cmds_self, dataAdvance_state, hem.cmds c, hst])
            exact ⟨.head hstep hrest, hkeep⟩
        · rw [trySendDataLoop_page c i fuel hj hsg he, if_pos hr]
          exact ⟨.single ⟨hsnd, .refused (.inl ha) rs⟩, .inr hsnd⟩

theorem nvmetTrySendData_ok : StageOk c i .data (nvmetTrySendData c i) := by
  intro q hsnd hst
  exact trySendDataLoop_steps c i _ hsnd hst

theorem nvmetTrySendDdgst_ok : StageOk c i .ddgst (nvmetTrySendDdgst c i) := by
  intro q hsnd hst
  rcases q.kernelSend_cases (((q.cmds i).expDdgst.drop (4 * (q.cmds i).offset)).take
      (NVME_TCP_DIGEST_LENGTH - (q.cmds i).offset)) with ⟨r, hr, rs, h⟩ | ⟨n, ⟨hn, -⟩, rs, h⟩
  · simp only [nvmetTrySendDdgst, h, hr, ↓reduceIte]
    exact ⟨.single ⟨hsnd, .refused (.inr hst) rs⟩, .inr hsnd⟩
  · have hpos : ¬ (n : ℤ) ≤ 0 := by omega
    cases hs : c.sqhdDisabled with
    | true =>
      simp only [nvmetTrySendDdgst, h, hpos, hs, ↓reduceIte, Int.toNat_natCast]
      refine ⟨.single ⟨hsnd, .ddgstLast hst _ n rs hs⟩, .inl ?_⟩
      rw [putCmd_cmds]
      simpa [skip] using hst
    | false =>
      simp only [nvmetTrySendDdgst, h, hpos, hs, ↓reduceIte, Int.toNat_natCast, Bool.false_eq_true,
        modifyCmd_modifyCmd]
      exact ⟨.single ⟨hsnd, .ddgst hst _ rs hs⟩, .inr hsnd⟩

/-- A command that has been let go stays in the state of a stage that is behind. -/
def Behind (past : List SendState) (i : CmdId) (q : NvmetTcpQueue) : Prop :=
  q.sndCmd = some i ∨ (q.cmds i).state ∈ past

theorem stage_steps {st : SendState} {f : NvmetTcpQueue → ℤ × NvmetTcpQueue}
    {next : ℤ → NvmetTcpQueue → ℤ × NvmetTcpQueue} {past : List SendState} (hf : StageOk c i st f)
    (hst : st ∉ past)
    (hnext : ∀ ret q, Behind (st :: past) i q → ReflTransGen (Sends c i) q (next ret q).2)
    (ret : ℤ) {q : NvmetTcpQueue} (hq : Behind past i q) :
    ReflTransGen (Sends c i) q (stage i st f next ret q).2 := by
  unfold stage
  by_cases h : (q.cmds i).state = st
  · have hsnd : q.sndCmd = some i := by
      rcases hq with hq | hq
      · exact hq
      · exact absurd (h ▸ hq) hst
    obtain ⟨hrun, hkeep⟩ := hf q hsnd h
    simp only [h, ↓reduceIte]
    split_ifs
    · exact hrun
    · refine hrun.trans (hnext _ _ ?_)
      rcases hkeep with hkeep | hkeep
      · exact .inr (by simp [hkeep])
      · exact .inl hkeep
  · simp only [h, ↓reduceIte]
    refine hnext _ _ ?_
    rcases hq with hq | hq
    · exact .inl hq
    · exact .inr (by simp [hq])

/-- A call of `nvmet_tcp_try_send_one` behind its fetch is a sequence of steps. -/
theorem trySendCmd_steps {q : NvmetTcpQueue} (hsnd : q.sndCmd = some i) :
    ReflTransGen (Sends c i) q (trySendCmd c i q).2 := by
  unfold trySendCmd
  have hq : Behind [] i q := .inl hsnd
  refine stage_steps c i (nvmetTrySendDataPdu_ok c i) (by simp) ?_ _ hq
  intro ret q hq
  refine stage_steps c i (nvmetTrySendData_ok c i) (by simp) ?_ _ hq
  intro ret q hq
  refine stage_steps c i (nvmetTrySendDdgst_ok c i) (by simp) ?_ _ hq
  intro ret q hq
  refine stage_steps c i (nvmetTrySendR2t_ok c i) (by simp) ?_ _ hq
  intro ret q hq
  refine stage_steps c i (nvmetTrySendResponse_ok c i) (by simp) ?_ _ hq
  intro ret q hq
  exact .refl

end Stages

section Frame

/-- What the send path leaves alone: every other command, the request and the receive state of its
own, and all of the queue that is not the send path's. -/
structure Frame (i : CmdId) (q q' : NvmetTcpQueue) : Prop where
  cmds : ∀ j, j ≠ i → q'.cmds j = q.cmds j
  req : (q'.cmds i).req = (q.cmds i).req
  recv : (q'.cmds i).rbytesDone = (q.cmds i).rbytesDone ∧ (q'.cmds i).pduLen = (q.cmds i).pduLen ∧
    (q'.cmds i).recvMsg = (q.cmds i).recvMsg ∧ (q'.cmds i).initFailed = (q.cmds i).initFailed ∧
    (q'.cmds i).recvDdgst = (q.cmds i).recvDdgst
  lists : q'.respList = q.respList ∧ q'.respSendList = q.respSendList ∧
    q'.sendListLen = q.sendListLen ∧ q'.executing = q.executing
  rcv : q'.offset = q.offset ∧ q'.left = q.left ∧ q'.rcvState = q.rcvState ∧ q'.cmd = q.cmd ∧
    q'.pdu = q.pdu ∧ q'.fatal = q.fatal
  logs : q'.sglAllocs = q.sglAllocs ∧ q'.received = q.received ∧ q'.executed = q.executed ∧
    q'.queued = q.queued

variable {c : Config} {i : CmdId} {q q' : NvmetTcpQueue}

theorem Frame.refl : Frame i q q := ⟨fun _ _ => rfl, rfl, by simp, by simp, by simp, by simp⟩

theorem Frame.trans {q'' : NvmetTcpQueue} (h : Frame i q q') (h' : Frame i q' q'') :
    Frame i q q'' := by
  obtain ⟨hc, hr, ⟨r1, r2, r3, r4, r5⟩, ⟨l1, l2, l3, l4⟩, ⟨v1, v2, v3, v4, v5, v6⟩,
    ⟨g1, g2, g3, g4⟩⟩ := h
  obtain ⟨hc', hr', hrecv', hlists', hrcv', hlogs'⟩ := h'
  refine ⟨fun j hj => (hc' j hj).trans (hc j hj), hr'.trans hr, ?_, ?_, ?_, ?_⟩
  · rwa [r1, r2, r3, r4, r5] at hrecv'
  · rwa [l1, l2, l3, l4] at hlists'
  · rwa [v1, v2, v3, v4, v5, v6] at hrcv'
  · rwa [g1, g2, g3, g4] at hlogs'

theorem frame_modifyCmd {f : NvmetTcpCmd → NvmetTcpCmd} (hr : (f (q.cmds i)).req = (q.cmds i).req)
    (hf : (f (q.cmds i)).rbytesDone = (q.cmds i).rbytesDone ∧
      (f (q.cmds i)).pduLen = (q.cmds i).pduLen ∧ (f (q.cmds i)).recvMsg = (q.cmds i).recvMsg ∧
      (f (q.cmds i)).initFailed = (q.cmds i).initFailed ∧
      (f (q.cmds i)).recvDdgst = (q.cmds i).recvDdgst) : Frame i q (q.modifyCmd i f) := by
  refine ⟨fun j hj => modifyCmd_cmds_of_ne q i f hj, ?_,
    ?_, by simp [modifyCmd], by simp [modifyCmd], by simp [modifyCmd]⟩
  · rw [modifyCmd_cmds_self, hr]
  · rwa [modifyCmd_cmds_self]

theorem frame_skip (n : ℕ) : Frame i q (q.modifyCmd i (skip n)) :=
  frame_modifyCmd rfl (by simp [skip])

theorem frame_setupResponse : Frame i q (q.modifyCmd i (nvmetSetupResponsePdu c)) :=
  frame_modifyCmd rfl (by simp [nvmetSetupResponsePdu])

theorem frame_sglFree : Frame i q (q.sglFree i) := by
  unfold sglFree
  split
  · exact ⟨fun _ _ => rfl, rfl, by simp, by simp, by simp, by simp⟩
  · exact .refl

theorem frame_putCmd : Frame i q (q.nvmetTcpPutCmd i) := by
  unfold nvmetTcpPutCmd
  split_ifs
  · exact .refl
  · exact ⟨fun _ _ => rfl, rfl, by simp, by simp, by simp, by simp⟩

theorem frame_letGo : Frame i q (nvmetTcpPutCmd { q with sndCmd := none } i) := by
  have hnone : Frame i q { q with sndCmd := none } :=
    ⟨fun _ _ => rfl, rfl, by simp, by simp, by simp, by simp⟩
  exact hnone.trans frame_putCmd

theorem Emitted.frame {k : Kvec} {b : List Byte} {n : ℕ} (h : Emitted c k b q n q') :
    Frame i q q' := by
  cases h <;> exact ⟨fun _ _ => rfl, rfl, by simp [append, heard], by simp [append, heard],
    by simp [append, heard], by simp [append, heard]⟩

theorem frame_heard (b : List Byte) (rs : List SockReply) : Frame i q (q.heard b rs) :=
  ⟨fun _ _ => rfl, rfl, by simp, by simp [heard], by simp [heard], by simp [heard]⟩

theorem frame_dataDone : Frame i q (dataDone c i q) := by
  have hddgst : Frame i q (q.modifyCmd i fun cmd => { cmd with state := .ddgst, offset := 0 }) :=
    frame_modifyCmd rfl (by simp)
  unfold dataDone
  cases c.dataDigest <;> cases c.sqhdDisabled <;> simp only [Bool.false_eq_true, ↓reduceIte]
  · exact frame_setupResponse
  · exact frame_letGo.trans frame_sglFree
  · exact hddgst
  · exact hddgst.trans frame_sglFree

theorem SendStep.frame (h : SendStep c i q q') : Frame i q q' := by
  cases h with
  | full => exact ⟨fun _ _ => rfl,
    rfl, by simp [mark], by simp [mark], by simp [mark], by simp [mark]⟩
  | refused _ rs => exact frame_heard _ rs
  | emptyHdr | emptyPage =>
    exact ⟨fun _ _ => rfl,
      rfl, by simp [append], by simp [append], by simp [append], by simp [append]⟩
  | part _ b n rs => exact (frame_heard b rs).trans (frame_skip n)
  | dataPdu _ he => exact he.frame.trans ((frame_skip _).trans (frame_modifyCmd rfl (by simp)))
  | page _ _ _ _ he =>
    refine he.frame.trans (frame_modifyCmd ?_ ?_)
    all_goals simp only [dataAdvance]; split_ifs <;> simp
  | dataDone => exact frame_dataDone
  | ddgst _ b rs => exact (frame_heard b rs).trans frame_setupResponse
  | ddgstLast _ b n rs => exact ((frame_heard b rs).trans (frame_skip n)).trans frame_letGo
  | r2t _ he =>
    exact (he.frame.trans (frame_skip _)).trans
      ⟨fun _ _ => rfl, rfl, by simp [r2tDone], by simp [r2tDone], by simp [r2tDone],
        by simp [r2tDone]⟩
  | response =>
    refine Frame.trans ?_ (frame_skip _)
    exact ⟨fun _ _ => rfl,
      rfl, by simp [append], by simp [append], by simp [append], by simp [append]⟩
  | responseLast _ _ b n rs =>
    exact ((frame_heard b rs).trans (frame_skip n)).trans (frame_sglFree.trans frame_letGo)

end Frame

end BlkSwitch.Target
