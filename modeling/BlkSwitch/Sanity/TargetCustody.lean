import BlkSwitch.Lib.Custody
import BlkSwitch.Sanity.TargetTurn

/-! Who has each command of a target queue and its list of pages. The places a command can be in
are read as the held items of a ledger, `free_list` as its free ones, and the lists of pages as
the resources; what the functions of the queue do are operations of the ledger. -/

namespace BlkSwitch.Target

open NvmetTcpQueue Relation Custody

/-- The command being received. One whose request has failed is not counted here: the response
has it already. -/
def receiving (q : NvmetTcpQueue) : List CmdId :=
  match q.rcvState with
  | .data | .ddgst => q.cmd.toList.filter fun i => !(q.cmds i).initFailed
  | .pdu | .err => []

def held (q : NvmetTcpQueue) : List CmdId :=
  receiving q ++ q.waiting ++ q.executing ++ q.respList ++ q.respSendList ++ q.sndCmd.toList ++
    q.caravanCmds

def sgId (cmd : NvmetTcpCmd) : Option ℕ := cmd.req.sg.map SgList.id

/-- The list of pages a command will have freed. With no response to come, the list goes before
the data digest does. -/
def owned (c : Config) (q : NvmetTcpQueue) (i : CmdId) : Option ℕ :=
  if c.sqhdDisabled = true ∧ q.sndCmd = some i ∧ (q.cmds i).state = .ddgst then none
  else sgId (q.cmds i)

def pool (c : Config) : List CmdId := .connect :: slots c

theorem pool_nodup (c : Config) : (pool c).Nodup := by
  refine List.nodup_cons.2 ⟨by simp [slots], ?_⟩
  exact List.nodup_range.map fun a b h => by simpa using h

/-- How a queue is read as a ledger, while a function of it has the commands `t` in its hands. -/
structure Reads (c : Config) (t : List CmdId) (q : NvmetTcpQueue) (L : Ledger CmdId (pool c)) :
    Prop where
  free : L.free = q.freeList
  places : L.held.Perm (t ++ held q)
  owns : ∀ i ∈ t ++ held q, L.owns i = owned c q i
  retired : ∀ i ∈ L.retired, i = .connect
  next : L.next = q.sglAllocs
  released : L.released = q.sglFreed

/-- Whatever ledger the first queue shows, the second shows one that is reached from it. -/
def Moves (c : Config) (t : List CmdId) (q : NvmetTcpQueue) (t' : List CmdId) (q' : NvmetTcpQueue) :
    Prop :=
  ∀ L, Reads c t q L → ∃ L', ReflTransGen Ledger.Step L L' ∧ Reads c t' q' L'

section Moves

variable {c : Config} {t t' : List CmdId} {q q' : NvmetTcpQueue} {i : CmdId}

theorem Moves.refl : Moves c t q t q := fun L hL => ⟨L, .refl, hL⟩

theorem Moves.trans {t'' : List CmdId} {q'' : NvmetTcpQueue} (h : Moves c t q t' q')
    (h' : Moves c t' q' t'' q'') :
    Moves c t q t'' q'' := by
  intro L hL
  obtain ⟨L', hs, hL'⟩ := h L hL
  obtain ⟨L'', hs', hL''⟩ := h' L' hL'
  exact ⟨L'', hs.trans hs', hL''⟩

theorem Reads.nodup {L : Ledger CmdId (pool c)} (h : Reads c t q L) :
    (q.freeList ++ (t ++ held q)).Nodup := by
  have hnd := (List.nodup_append.1 L.nodup_all).1
  rw [h.free] at hnd
  exact (h.places.append_left _).nodup_iff.1 hnd

theorem moves_places (hf : q'.freeList = q.freeList) (hp : (t' ++ held q').Perm (t ++ held q))
    (ho : ∀ i ∈ t ++ held q, owned c q' i = owned c q i) (ha : q'.sglAllocs = q.sglAllocs)
    (hr : q'.sglFreed = q.sglFreed) : Moves c t q t' q' := by
  intro L hL
  have hheld : (t' ++ held q').Perm L.held := hp.trans hL.places.symm
  have hsame : ∀ i ∈ L.held, owned c q' i = L.owns i := fun i hi => by
    have hi' := hL.places.subset hi
    rw [hL.owns i hi', ho i hi']
  refine ⟨L.rearrange (t' ++ held q') (owned c q') hheld hsame,
    .single (.rearrange L _ _ hheld hsame), ?_⟩
  exact ⟨hL.free.trans hf.symm, .refl _, fun _ _ => rfl, hL.retired, hL.next.trans ha.symm,
    hL.released.trans hr.symm⟩

theorem moves_take {rest : List CmdId} (hfree : q.freeList = i :: rest) (hf : q'.freeList = rest)
    (hp : (t' ++ held q').Perm (i :: (t ++ held q))) (hi : owned c q' i = none)
    (ho : ∀ j ∈ t ++ held q, owned c q' j = owned c q j) (ha : q'.sglAllocs = q.sglAllocs)
    (hr : q'.sglFreed = q.sglFreed) : Moves c t q t' q' := by
  intro L hL
  have hLf : L.free = i :: rest := hL.free.trans hfree
  have hsame : ∀ j ∈ L.held, owned c q' j = L.owns j := fun j hj => by
    have hj' := hL.places.subset hj
    rw [hL.owns j hj', ho j hj']
  refine ⟨L.take i rest (owned c q') hLf hi hsame, .single (.take L i rest _ hLf hi hsame), ?_⟩
  exact ⟨hf.symm, (hL.places.cons i).trans hp.symm, fun _ _ => rfl, hL.retired,
    hL.next.trans ha.symm, hL.released.trans hr.symm⟩

theorem moves_release (hi : i ∈ t ++ held q) (hf : q'.freeList = q.freeList)
    (hp : (t' ++ held q').Perm (t ++ held q)) (hn : owned c q' i = none)
    (ho : ∀ j ∈ t ++ held q, j ≠ i → owned c q' j = owned c q j) (ha : q'.sglAllocs = q.sglAllocs)
    (hr : q'.sglFreed = q.sglFreed ++ (owned c q i).toList) : Moves c t q t' q' := by
  intro L hL
  have hiL : i ∈ L.held := hL.places.symm.subset hi
  have hsame : ∀ j ∈ L.held, j ≠ i → owned c q' j = L.owns j := fun j hj hji => by
    have hj' := hL.places.subset hj
    rw [hL.owns j hj', ho j hj' hji]
  refine ⟨L.release i (owned c q') hiL hn hsame, .single (.release L i _ hiL hn hsame), ?_⟩
  refine ⟨hL.free.trans hf.symm, hL.places.trans hp.symm, fun _ _ => rfl, hL.retired,
    hL.next.trans ha.symm, ?_⟩
  change L.released ++ (L.owns i).toList = _
  rw [hL.released, hL.owns i hi, hr]

theorem moves_acquire (hi : i ∈ t ++ held q) (hnone : owned c q i = none)
    (hf : q'.freeList = q.freeList) (hp : (t' ++ held q').Perm (t ++ held q))
    (hs : owned c q' i = some q.sglAllocs)
    (ho : ∀ j ∈ t ++ held q, j ≠ i → owned c q' j = owned c q j)
    (ha : q'.sglAllocs = q.sglAllocs + 1) (hr : q'.sglFreed = q.sglFreed) : Moves c t q t' q' := by
  intro L hL
  have hiL : i ∈ L.held := hL.places.symm.subset hi
  have hLn : L.owns i = none := by rw [hL.owns i hi, hnone]
  have hLs : owned c q' i = some L.next := by rw [hs, hL.next]
  have hsame : ∀ j ∈ L.held, j ≠ i → owned c q' j = L.owns j := fun j hj hji => by
    have hj' := hL.places.subset hj
    rw [hL.owns j hj', ho j hj' hji]
  refine ⟨L.acquire i (owned c q') hiL hLn hLs hsame, .single (.acquire L i _ hiL hLn hLs hsame),
    ?_⟩
  refine ⟨hL.free.trans hf.symm, hL.places.trans hp.symm, fun _ _ => rfl, hL.retired, ?_,
    hL.released.trans hr.symm⟩
  change L.next + 1 = _
  rw [hL.next, ha]

/-- A command frees what it has and is put back. The connect command is in no list. -/
theorem moves_putCmd (hp : (t ++ held q).Perm (i :: (t' ++ held q')))
    (hf : q'.freeList = if i = .connect then q.freeList else q.freeList ++ [i])
    (ho : ∀ j ∈ t' ++ held q', owned c q' j = owned c q j) (ha : q'.sglAllocs = q.sglAllocs)
    (hr : q'.sglFreed = q.sglFreed ++ (owned c q i).toList) : Moves c t q t' q' := by
  intro L hL
  have hi : i ∈ t ++ held q := hp.symm.subset (by simp)
  have hLp : L.held.Perm (i :: (t' ++ held q')) := hL.places.trans hp
  have howns : ∀ j ∈ t' ++ held q', L.owns j = owned c q' j := fun j hj => by
    rw [ho j hj, hL.owns j (hp.symm.subset (List.mem_cons_of_mem _ hj))]
  have hrel : L.released ++ (L.owns i).toList = q'.sglFreed := by rw [hL.released, hL.owns i hi, hr]
  by_cases hc : i = .connect
  · rw [if_pos hc] at hf
    refine ⟨L.retire i (t' ++ held q') hLp, .single (.retire L i _ hLp), ?_⟩
    refine ⟨hL.free.trans hf.symm, .refl _, howns, ?_, hL.next.trans ha.symm, hrel⟩
    intro j hj
    rcases List.mem_cons.1 hj with rfl | hj
    · exact hc
    · exact hL.retired j hj
  · rw [if_neg hc] at hf
    refine ⟨L.putBack i (t' ++ held q') hLp, .single (.putBack L i _ hLp), ?_⟩
    refine ⟨?_, .refl _, howns, hL.retired, hL.next.trans ha.symm, hrel⟩
    change L.free ++ [i] = _
    rw [hL.free, hf]

theorem moves_of_nodup (h : (q.freeList ++ (t ++ held q)).Nodup → Moves c t q t' q') :
    Moves c t q t' q' :=
  fun L hL => h hL.nodup L hL

end Moves

section Owned

variable {c : Config} {q q' : NvmetTcpQueue} {i : CmdId}

theorem owned_of_not_sending (h : q.sndCmd ≠ some i) :
    owned c q i = sgId (q.cmds i) := by simp [owned, h]

theorem owned_of_state (h : (q.cmds i).state ≠ .ddgst) :
    owned c q i = sgId (q.cmds i) := by simp [owned, h]

theorem Frame.receiving (h : Frame i q q') : Target.receiving q' = Target.receiving q := by
  have hflag : ∀ j, (q'.cmds j).initFailed = (q.cmds j).initFailed := by
    intro j
    by_cases hj : j = i
    · rw [hj]
      exact h.recv.2.2.2.1
    · rw [h.cmds j hj]
  obtain ⟨-, -, hstate, hcmd, -⟩ := h.rcv
  simp only [Target.receiving, hstate, hcmd, hflag]

theorem Frame.sgId (h : Frame i q q') (j : CmdId) :
    Target.sgId (q'.cmds j) = Target.sgId (q.cmds j) := by
  by_cases hj : j = i
  · rw [hj, Target.sgId, Target.sgId, h.req]
  · rw [h.cmds j hj]

/-- What the commands other than the worker's own, and the worker's own away from its digest, own
is their list. -/
theorem Frame.owned (h : Frame i q q') (hsnd : q.sndCmd = some i)
    (hsnd' : q'.sndCmd = none ∨ q'.sndCmd = some i)
    (hst : c.sqhdDisabled = true → (q.cmds i).state ≠ .ddgst)
    (hst' : c.sqhdDisabled = true → q'.sndCmd = some i → (q'.cmds i).state ≠ .ddgst) (j : CmdId) :
    Target.owned c q' j = Target.owned c q j := by
  have hold : Target.owned c q j = Target.sgId (q.cmds j) := by
    unfold Target.owned
    rw [if_neg]
    rintro ⟨hs, hj, hd⟩
    rw [hsnd] at hj
    obtain rfl := Option.some.inj hj
    exact hst hs hd
  have hnew : Target.owned c q' j = Target.sgId (q'.cmds j) := by
    unfold Target.owned
    rw [if_neg]
    rintro ⟨hs, hj, hd⟩
    rcases hsnd' with hn | hn
    · rw [hn] at hj
      cases hj
    · rw [hn] at hj
      obtain rfl := Option.some.inj hj
      exact hst' hs hn hd
  rw [hold, hnew, h.sgId]

theorem Frame.owned_same (h : Frame i q q') (hs : q'.sndCmd = q.sndCmd)
    (hst : (q'.cmds i).state = (q.cmds i).state) (j : CmdId) :
    Target.owned c q' j = Target.owned c q j := by
  have hstate : (q'.cmds j).state = (q.cmds j).state := by
    by_cases hj : j = i
    · rw [hj, hst]
    · rw [h.cmds j hj]
  simp only [Target.owned, hs, hstate, h.sgId]

theorem sglFree_sglFreed (q : NvmetTcpQueue) (i : CmdId) :
    (q.sglFree i).sglFreed = q.sglFreed ++ (sgId (q.cmds i)).toList := by
  unfold sglFree sgId
  cases h : (q.cmds i).req.sg <;> simp

theorem sglFree_freeList (q : NvmetTcpQueue) (i : CmdId) : (q.sglFree i).freeList = q.freeList := by
  unfold sglFree
  split <;> rfl

theorem putCmd_freeList (q : NvmetTcpQueue) (i : CmdId) :
    (q.nvmetTcpPutCmd i).freeList = if i = .connect then q.freeList else q.freeList ++ [i] := by
  unfold nvmetTcpPutCmd
  split_ifs <;> rfl

theorem putCmd_sglFreed (q : NvmetTcpQueue) (i : CmdId) :
    (q.nvmetTcpPutCmd i).sglFreed = q.sglFreed := by
  unfold nvmetTcpPutCmd
  split_ifs <;> rfl

theorem sglFree_places (q : NvmetTcpQueue) (i : CmdId) : (q.sglFree i).waiting = q.waiting ∧
    (q.sglFree i).sndCmd = q.sndCmd ∧ (q.sglFree i).caravanCmds = q.caravanCmds := by
  unfold sglFree
  split <;> exact ⟨rfl, rfl, rfl⟩

theorem putCmd_places (q : NvmetTcpQueue) (i : CmdId) : (q.nvmetTcpPutCmd i).waiting = q.waiting ∧
    (q.nvmetTcpPutCmd i).sndCmd = q.sndCmd ∧ (q.nvmetTcpPutCmd i).caravanCmds = q.caravanCmds := by
  unfold nvmetTcpPutCmd
  split_ifs <;> exact ⟨rfl, rfl, rfl⟩

end Owned

section Send

variable {c : Config} {q q' : NvmetTcpQueue} {i : CmdId}

theorem Frame.held (hf : Frame i q q') (hw : q'.waiting = q.waiting) (hs : q'.sndCmd = q.sndCmd)
    (hc : q'.caravanCmds = q.caravanCmds) : Target.held q' = Target.held q := by
  simp only [Target.held, hf.receiving, hw, hs, hc, hf.lists.1, hf.lists.2.1, hf.lists.2.2.2]

theorem moves_keep (hf : Frame i q q') (hw : q'.waiting = q.waiting) (hs : q'.sndCmd = q.sndCmd)
    (hc : q'.caravanCmds = q.caravanCmds) (hfree : q'.freeList = q.freeList)
    (hr : q'.sglFreed = q.sglFreed) (ho : ∀ j, owned c q' j = owned c q j) :
    Moves c [] q [] q' := by
  refine moves_places hfree ?_ (fun j _ => ho j) hf.logs.1 hr
  rw [hf.held hw hs hc]

theorem moves_letGo (hsnd : q.sndCmd = some i) (hf : Frame i q q') (hw : q'.waiting = q.waiting)
    (hs : q'.sndCmd = none) (hc : q'.caravanCmds = q.caravanCmds)
    (hfree : q'.freeList = if i = .connect then q.freeList else q.freeList ++ [i])
    (hr : q'.sglFreed = q.sglFreed ++ (owned c q i).toList) : Moves c [] q [] q' := by
  refine moves_of_nodup fun hnd => ?_
  have hperm : ([] ++ held q).Perm (i :: ([] ++ held q')) := by
    rw [List.perm_iff_count]
    intro a
    simp only [held, hf.receiving, hw, hs, hsnd, hc, hf.lists.1, hf.lists.2.1, hf.lists.2.2.2,
      List.nil_append, List.count_append, List.count_cons, Option.toList_some, Option.toList_none,
      List.count_nil]
    omega
  refine moves_putCmd hperm hfree ?_ hf.logs.1 hr
  intro j hj
  have hne : j ≠ i := by
    rintro rfl
    exact (List.nodup_cons.1 (hperm.nodup_iff.1 (List.nodup_append.1 hnd).2.1)).1 hj
  rw [owned_of_not_sending (by simp [hs]), owned_of_not_sending (by simpa [hsnd] using hne.symm),
    hf.sgId]

theorem Emitted.places {k : Kvec} {b : List Byte} {n : ℕ} (h : Emitted c k b q n q') :
    q'.caravanCmds = q.caravanCmds ∧ q'.freeList = q.freeList ∧ q'.sglFreed = q.sglFreed := by
  cases h <;> exact ⟨rfl, rfl, rfl⟩

/-- The data is out: with a digest or a response to come the command stays, otherwise it goes. -/
theorem moves_dataDone (hsnd : q.sndCmd = some i) (hst : (q.cmds i).state = .data) :
    Moves c [] q [] (dataDone c i q) := by
  have hf : Frame i q (dataDone c i q) := frame_dataDone
  have hown : owned c q i = sgId (q.cmds i) := owned_of_state (by simp [hst])
  cases hd : c.dataDigest <;> cases hs : c.sqhdDisabled
  · have hrun : dataDone c i q = q.modifyCmd i
      (nvmetSetupResponsePdu c) := by simp [dataDone, hd, hs]
    rw [hrun] at hf ⊢
    refine moves_keep hf rfl rfl rfl rfl rfl ?_
    exact hf.owned hsnd (.inr hsnd) (by simp [hs]) (by simp [hs])
  · have hrun : dataDone c i q =
      (nvmetTcpPutCmd { q with sndCmd := none } i).sglFree i := by simp [dataDone, hd, hs]
    rw [hrun] at hf ⊢
    obtain ⟨hw, hn, hc⟩ := sglFree_places (nvmetTcpPutCmd { q with sndCmd := none } i) i
    obtain ⟨hw', hn', hc'⟩ := putCmd_places { q with sndCmd := none } i
    refine moves_letGo hsnd hf (hw.trans hw') (hn.trans hn') (hc.trans hc') ?_ ?_
    · rw [sglFree_freeList, putCmd_freeList]
    · rw [sglFree_sglFreed, putCmd_sglFreed, putCmd_cmds, hown]
  · have hrun : dataDone c i q = q.modifyCmd i fun cmd =>
        { cmd with state := .ddgst, offset := 0 } := by
      simp [dataDone, hd, hs]
    rw [hrun] at hf ⊢
    refine moves_keep hf rfl rfl rfl rfl rfl ?_
    exact hf.owned hsnd (.inr hsnd) (by simp [hs]) (by simp [hs])
  · have hrun : dataDone c i q =
        (q.modifyCmd i fun cmd => { cmd with state := .ddgst, offset := 0 }).sglFree i := by
      simp [dataDone, hd, hs]
    rw [hrun] at hf ⊢
    obtain ⟨hw, hn, hc⟩ :=
      sglFree_places (q.modifyCmd i fun cmd => { cmd with state := .ddgst, offset := 0 }) i
    have hi : i ∈ [] ++ held q := by simp [held, hsnd]
    have hsnd' : ((q.modifyCmd i fun cmd => { cmd with state := .ddgst, offset := 0 }).sglFree
        i).sndCmd = some i :=
      hn.trans hsnd
    refine moves_release hi (sglFree_freeList _ _) ?_ ?_ ?_ hf.logs.1 ?_
    · rw [hf.held hw hn hc]
    · simp [owned, hs, hsnd', sglFree_cmds]
    · intro j _ hj
      have hne : some i ≠ some j := fun h => hj (Option.some.inj h).symm
      rw [owned_of_not_sending (by rw [hsnd']; exact hne),
        owned_of_not_sending (by rw [hsnd]; exact hne), hf.sgId]
    · rw [sglFree_sglFreed, hown]
      simp [modifyCmd, sgId]

theorem SendStep.moves (hsnd : q.sndCmd = some i) (h : SendStep c i q q') : Moves c [] q [] q' := by
  have hf := h.frame
  cases h with
  | full => exact moves_keep hf rfl rfl rfl rfl rfl (hf.owned_same rfl rfl)
  | refused => exact moves_keep hf rfl rfl rfl rfl rfl (hf.owned_same rfl rfl)
  | emptyHdr => exact moves_keep hf rfl rfl rfl rfl rfl (hf.owned_same rfl rfl)
  | emptyPage => exact moves_keep hf rfl rfl rfl rfl rfl (hf.owned_same rfl rfl)
  | part _ b n rs =>
    exact moves_keep hf rfl rfl rfl rfl rfl (hf.owned_same rfl (by simp [skip]))
  | dataPdu hst he =>
    obtain ⟨hc, hfree, hr⟩ := he.places
    refine moves_keep hf (he.waiting c) (he.sndCmd c) hc hfree hr ?_
    refine hf.owned hsnd (.inr ((he.sndCmd c).trans hsnd)) (by simp [hst]) ?_
    simp [dataPduDone]
  | page hst _ _ _ he =>
    obtain ⟨hc, hfree, hr⟩ := he.places
    refine moves_keep hf (he.waiting c) (he.sndCmd c) hc hfree hr (hf.owned_same (he.sndCmd c) ?_)
    rw [modifyCmd_cmds_self, dataAdvance_state, he.cmds c]
  | dataDone hst => exact moves_dataDone hsnd hst
  | ddgst hst b rs hs =>
    refine moves_keep hf rfl rfl rfl rfl rfl ?_
    exact hf.owned hsnd (.inr hsnd) (by simp [hs]) (by simp [hs])
  | ddgstLast hst b n rs hs =>
    obtain ⟨hw, hn, hc⟩ :=
      putCmd_places { (q.heard b rs).modifyCmd i (skip n) with sndCmd := none } i
    refine moves_letGo hsnd hf hw hn hc (putCmd_freeList _ _) ?_
    rw [putCmd_sglFreed]
    simp [owned, hs, hsnd, hst, heard, modifyCmd]
  | r2t hst he =>
    obtain ⟨hc, hfree, hr⟩ := he.places
    refine moves_places hfree ?_ (fun j _ => ?_) hf.logs.1 hr
    · rw [List.perm_iff_count]
      intro a
      simp only [held, hf.receiving, hf.lists.1, hf.lists.2.1, hf.lists.2.2.2]
      simp only [r2tDone, modifyCmd, he.waiting c, hc, hsnd, List.nil_append, List.count_append,
        List.count_cons, Option.toList_some, Option.toList_none, List.count_nil]
      omega
    · exact hf.owned hsnd (.inl rfl) (by simp [hst]) (by simp [r2tDone]) j
  | response hst =>
    refine moves_places rfl ?_ (fun j _ => ?_) hf.logs.1 rfl
    · rw [List.perm_iff_count]
      intro a
      simp only [held, hf.receiving, hf.lists.1, hf.lists.2.1, hf.lists.2.2.2]
      simp only [modifyCmd, append, hsnd, List.nil_append, List.count_append, List.count_cons,
        Option.toList_some, Option.toList_none, List.count_nil]
      omega
    · exact hf.owned hsnd (.inl rfl) (by simp [hst]) (by simp [modifyCmd]) j
  | responseLast hst _ b n rs =>
    have hown : owned c q i = sgId (q.cmds i) := owned_of_state (by simp [hst])
    obtain ⟨hw, hn, hc⟩ := sglFree_places ((q.heard b rs).modifyCmd i (skip n)) i
    obtain ⟨hw', hn', hc'⟩ :=
      putCmd_places { ((q.heard b rs).modifyCmd i (skip n)).sglFree i with sndCmd := none } i
    refine moves_letGo hsnd hf (hw'.trans hw) hn' (hc'.trans hc) ?_ ?_
    · rw [responseDone, putCmd_freeList]
      simp only [sglFree_freeList]
      rfl
    · rw [responseDone, putCmd_sglFreed]
      change (((q.heard b rs).modifyCmd i (skip n)).sglFree i).sglFreed = _
      rw [sglFree_sglFreed, hown, modifyCmd_cmds_self]
      rfl

theorem setupFirstPdu_state (cmd : NvmetTcpCmd) : (setupFirstPdu c i cmd).state ≠ .ddgst := by
  unfold setupFirstPdu
  split_ifs <;> simp [nvmetSetupC2hDataPdu, nvmetSetupR2tPdu, nvmetSetupResponsePdu]

theorem setupFirstPdu_req (cmd : NvmetTcpCmd) : (setupFirstPdu c i cmd).req = cmd.req := by
  unfold setupFirstPdu
  split_ifs <;> rfl

theorem setupFirstPdu_recv (cmd : NvmetTcpCmd) :
    (setupFirstPdu c i cmd).rbytesDone = cmd.rbytesDone ∧
      (setupFirstPdu c i cmd).pduLen = cmd.pduLen ∧ (setupFirstPdu c i cmd).recvMsg = cmd.recvMsg ∧
    (setupFirstPdu c i cmd).initFailed = cmd.initFailed ∧
      (setupFirstPdu c i cmd).recvDdgst = cmd.recvDdgst := by
  unfold setupFirstPdu
  split_ifs <;> exact ⟨rfl, rfl, rfl, rfl, rfl⟩

theorem fetched_cmds_req (sl rl : List CmdId) (len : ℤ) (j : CmdId) :
    ((fetched c i sl rl len q).cmds j).req = (q.cmds j).req ∧
      ((fetched c i sl rl len q).cmds j).initFailed = (q.cmds j).initFailed := by
  by_cases hj : j = i
  · subst hj
    simp [fetched, setupFirstPdu_req, setupFirstPdu_recv]
  · rw [fetched, modifyCmd_cmds_of_ne _ _ _ hj]
    exact ⟨rfl, rfl⟩

theorem receiving_congr (hs : q'.rcvState = q.rcvState) (hc : q'.cmd = q.cmd)
    (hf : ∀ j, (q'.cmds j).initFailed = (q.cmds j).initFailed) : receiving q' = receiving q := by
  simp only [receiving, hs, hc, hf]

theorem Fetches.moves {sl rl : List CmdId} {len : ℤ} (hf : Fetches q i sl rl len) :
    Moves c [] q [] (fetched c i sl rl len q) := by
  have hrecv : receiving (fetched c i sl rl len q) = receiving q :=
    receiving_congr rfl rfl fun j => (fetched_cmds_req sl rl len j).2
  refine moves_places rfl ?_ ?_ rfl rfl
  · rw [List.perm_iff_count]
    intro a
    have horder := congrArg (List.count a) hf.order
    simp only [List.count_append, List.count_cons, List.count_reverse] at horder
    simp only [held, hrecv]
    simp only [fetched, modifyCmd, hf.idle, List.nil_append, List.count_append, List.count_cons,
      Option.toList_some, Option.toList_none, List.count_nil]
    omega
  · intro j _
    have hsg : sgId ((fetched c i sl rl len q).cmds j) = sgId (q.cmds j) := by
      rw [sgId, sgId, (fetched_cmds_req sl rl len j).1]
    rw [owned_of_not_sending (q := q) (by simp [hf.idle]), ← hsg]
    by_cases hj : j = i
    · subst hj
      refine owned_of_state ?_
      rw [fetched, modifyCmd_cmds_self]
      exact setupFirstPdu_state _
    · exact owned_of_not_sending fun h => hj (Option.some.inj h).symm

theorem moves_freeCaravan (l : List CmdId) (q : NvmetTcpQueue) (hl : q.caravanCmds = l) :
    Moves c [] q []
      { q with
        caravanCmds := []
        freeList := q.freeList ++ l.filter (· ≠ .connect)
        sglFreed := q.sglFreed ++ l.filterMap fun i => sgId (q.cmds i) } := by
  induction l generalizing q with
  | nil =>
    refine moves_places (by simp) ?_ (fun _ _ => rfl) rfl (by simp)
    simp [held, hl, receiving]
  | cons i l ih =>
    refine moves_of_nodup fun hnd => ?_
    have hperm : ([] ++ held q).Perm (i :: ([] ++ held { q with caravanCmds := l })) := by
      rw [List.perm_iff_count]
      intro a
      simp only [held, hl, receiving, List.nil_append, List.count_append, List.count_cons]
      omega
    have hsnd : q.sndCmd ≠ some i := by
      intro hs
      refine (List.nodup_cons.1 (hperm.nodup_iff.1 (List.nodup_append.1 hnd).2.1)).1 ?_
      simp [held, hs]
    have hone : Moves c [] q []
        { q with
          caravanCmds := l
          freeList := if i = .connect then q.freeList else q.freeList ++ [i]
          sglFreed := q.sglFreed ++ (sgId (q.cmds i)).toList } := by
      refine moves_putCmd hperm rfl (fun _ _ => rfl) rfl ?_
      rw [owned_of_not_sending hsnd]
    refine hone.trans ?_
    have hrest := ih
      { q with
        caravanCmds := l
        freeList := if i = .connect then q.freeList else q.freeList ++ [i]
        sglFreed := q.sglFreed ++ (sgId (q.cmds i)).toList } rfl
    have hfree : (if i = .connect then q.freeList else q.freeList ++ [i]) ++ l.filter
      (· ≠ .connect) =
        q.freeList ++ (i :: l).filter (· ≠ .connect) := by
      split_ifs with hi <;> simp [hi]
    have hfreed : q.sglFreed ++ (sgId (q.cmds i)).toList ++ l.filterMap (fun i => sgId (q.cmds i)) =
        q.sglFreed ++ (i :: l).filterMap fun i => sgId (q.cmds i) := by
      rw [filterMap_cons_eq, List.append_assoc]
    simp only [hfree, hfreed] at hrest
    exact hrest

theorem moves_flush : Moves c [] q [] (caravanSent (q.kernelSend q.caravanBytes).2) := by
  have hheard : ∃ b rs, (q.kernelSend q.caravanBytes).2 = q.heard b rs := by
    rcases q.kernelSend_cases q.caravanBytes with ⟨r, -, rs, h⟩ | ⟨n, -, rs, h⟩
    · exact ⟨[], rs, by rw [h]⟩
    · exact ⟨_, rs, by rw [h]⟩
  obtain ⟨b, rs, hq⟩ := hheard
  rw [hq, caravanSent, freeCaravanCmds_eq]
  have hkeep : Moves c [] q [] (q.heard b rs) := moves_places rfl (.refl _) (fun _ _ => rfl) rfl rfl
  refine hkeep.trans ((moves_freeCaravan _ (q.heard b rs) rfl).trans ?_)
  exact moves_places rfl (.refl _) (fun _ _ => rfl) rfl rfl

end Send

end BlkSwitch.Target
