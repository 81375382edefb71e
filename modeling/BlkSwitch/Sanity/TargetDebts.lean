import BlkSwitch.Sanity.TargetFrames

/-! The commands of a target queue whose data is still to come. The slot of each of them is known
with the command and the data it will be executed with; all others have what they need. -/

namespace BlkSwitch.Target

open Bytes NvmetTcpQueue Custody

/-- A command and the data it is executed with. -/
abbrev Job := NvmeCommand × List Byte

/-- A write with part of its data in; its pages were zero. -/
structure Owes (job : Job) (cmd : NvmetTcpCmd) : Prop where
  same : cmd.req.cmd = job.1
  write : job.1.nvmeIsWrite = true
  status : cmd.req.cqe.status = 0
  len : cmd.req.transferLen = job.2.length
  more : cmd.rbytesDone < job.2.length
  flag : cmd.initFailed = false
  iov : cmd.recvMsg.hasIov = true
  stored : ∃ id, Stored id job.2 (List.replicate job.2.length 0) cmd

/-- Where a command is whose data is to come: it is being received, the R2T is out, or it is to be
sent. -/
def Due (q : NvmetTcpQueue) (i : CmdId) : Prop :=
  i ∈ receiving q ++ q.waiting ++ q.respList ++ q.respSendList ∨ q.sndCmd = some i ∧
    (q.cmds i).state = .r2t

/-- These are the commands whose data is to come, with what it is. -/
structure DebtsOk (c : Config) (debts : List (CmdId × Job)) (q : NvmetTcpQueue) : Prop where
  ids : (debts.map Prod.fst).Nodup
  slots : ∀ d ∈ debts, d.1 ∈ slots c
  owes : ∀ d ∈ debts, Owes d.2 (q.cmds d.1)
  fresh : ∀ d ∈ debts, q.cmd ≠ some d.1 → (q.cmds d.1).rbytesDone = 0
  due : ∀ d ∈ debts, Due q d.1
  all : ∀ i ∈ held q, (q.cmds i).hasDataIn = true → i ∈ debts.map Prod.fst
  asks : ∀ i, i ∈ q.waiting ∨ q.sndCmd = some i ∧ (q.cmds i).state = .r2t → i ∈ debts.map Prod.fst
  free : CmdId.connect ∉ q.freeList

variable {c : Config} {L₀ : Ledger CmdId (pool c)} {debts : List (CmdId × Job)} {job : Job}
    {q q' : NvmetTcpQueue}
  {i : CmdId}

section Basic

theorem Due.held (h : Due q i) : i ∈ held q := by
  rcases h with h | ⟨h, -⟩
  · simp only [List.mem_append] at h
    simp only [Target.held, List.mem_append]
    grind
  · simp [Target.held, h]

theorem Owes.needDataIn {cmd : NvmetTcpCmd} (h : Owes job cmd) : cmd.needDataIn = true := by
  simp [NvmetTcpCmd.needDataIn, NvmetTcpCmd.hasDataIn, h.same, h.write, h.status, h.len, h.more]

theorem Owes.congr {cmd cmd' : NvmetTcpCmd} (h : Owes job cmd) (hr : cmd'.req = cmd.req)
    (hb : cmd'.rbytesDone = cmd.rbytesDone) (hf : cmd'.initFailed = cmd.initFailed)
    (hv : cmd'.recvMsg.hasIov = cmd.recvMsg.hasIov) : Owes job cmd' := by
  obtain ⟨id, hst⟩ := h.stored
  refine ⟨by rw [hr, h.same], h.write, by rw [hr, h.status], by rw [hr, h.len],
    by rw [hb]; exact h.more, hf.trans h.flag, hv.trans h.iov, id, ?_⟩
  rw [Stored, hr, hb]
  exact hst

theorem Kept.nodup (h : Kept c L₀ q) : (q.freeList ++ held q).Nodup := by
  obtain ⟨L, -, hL⟩ := h.ledger
  simpa using hL.nodup

theorem Kept.free_mem_pool (h : Kept c L₀ q) (hi : i ∈ q.freeList) : i ∈ pool c := by
  obtain ⟨L, -, hL⟩ := h.ledger
  rw [← hL.free] at hi
  exact L.items.subset (by simp [hi])

theorem mem_of_mem_ids (hi : i ∈ debts.map Prod.fst) : ∃ job, (i, job) ∈ debts := by
  obtain ⟨⟨j, job⟩, hd, rfl⟩ := List.mem_map.1 hi
  exact ⟨job, hd⟩

theorem DebtsOk.not_mem_of_not_held (h : DebtsOk c debts q) (hi : i ∉ held q) :
    i ∉ debts.map Prod.fst := by
  intro hmem
  obtain ⟨job, hd⟩ := mem_of_mem_ids hmem
  exact hi (h.due _ hd).held

theorem DebtsOk.eq_of_mem (h : DebtsOk c debts q) {job' : Job} (hd : (i, job) ∈ debts)
    (hd' : (i, job') ∈ debts) :
    job = job' := by
  have hinj := List.inj_on_of_nodup_map h.ids hd hd' rfl
  exact congrArg Prod.snd hinj

theorem DebtsOk.not_executing (hk : Kept c L₀ q) (h : DebtsOk c debts q) (hi : i ∈ q.executing) :
    i ∉ debts.map Prod.fst := by
  intro hmem
  obtain ⟨job, hd⟩ := mem_of_mem_ids hmem
  have hnd := (List.nodup_append.1 hk.nodup).2.1
  have hcount := List.nodup_iff_count_le_one.1 hnd i
  have hex : 1 ≤ q.executing.count i := List.one_le_count_iff.2 hi
  simp only [held, List.count_append] at hcount
  rcases h.due _ hd with hdue | ⟨hsnd, -⟩
  · have hone := List.one_le_count_iff.2 hdue
    simp only [List.count_append] at hone
    omega
  · simp only [hsnd, Option.toList_some, List.count_singleton_self] at hcount
    omega

end Basic

section Take

/-- The receive path is between two PDUs and takes a free slot: its command has all it needs, or is
now owed its data. -/
theorem DebtsOk.take (hk : Kept c L₀ q) (h : DebtsOk c debts q) (hs : q.rcvState = .pdu)
    (hi : i ∈ q.freeList) (q' : NvmetTcpQueue) (new : List (CmdId × Job))
    (hc : ∀ j, j ≠ i → q'.cmds j = q.cmds j) (hl : q'.waiting = q.waiting ∧ q'.sndCmd = q.sndCmd)
    (hresp : ∀ j ∈ q.respList ++ q.respSendList, j ∈ q'.respList ++ q'.respSendList)
    (hheld : ∀ j ∈ held q', j = i ∨ j ∈ held q) (hfree : q'.freeList ⊆ q.freeList)
    (hnew : new = [] ∧ (q'.cmds i).hasDataIn = false ∨
      ∃ job, new = [(i, job)] ∧ Owes job (q'.cmds i) ∧ (q'.cmds i).rbytesDone = 0 ∧ Due q' i) :
    DebtsOk c (debts ++ new) q' := by
  have hnot : i ∉ held q := hk.not_held_of_free hi
  have hids := h.not_mem_of_not_held hnot
  have hne : ∀ d ∈ debts, d.1 ≠ i := fun d hd he => hids (he ▸ List.mem_map_of_mem hd)
  have hidle : q.cmd = none := hk.recv.idle hs
  have hslot : i ∈ Target.slots c := by
    rcases List.mem_cons.1 (hk.free_mem_pool hi) with rfl | hslot
    · exact absurd hi h.free
    · exact hslot
  have hmem : ∀ d ∈ debts ++ new, d ∈ debts ∨
      d.1 = i ∧ Owes d.2 (q'.cmds i) ∧ (q'.cmds i).rbytesDone = 0 ∧ Due q' i := by
    intro d hd
    rcases List.mem_append.1 hd with hd | hd
    · exact .inl hd
    · rcases hnew with ⟨rfl, -⟩ | ⟨job, rfl, hrest⟩
      · cases hd
      · obtain rfl := List.mem_singleton.1 hd
        exact .inr ⟨rfl, hrest⟩
  have hsub : ∀ j ∈ debts.map Prod.fst, j ∈ (debts ++ new).map Prod.fst := fun j hj => by simp [hj]
  refine ⟨?_, ?_, ?_, ?_, ?_, ?_, ?_, fun hin => h.free (hfree hin)⟩
  · rcases hnew with ⟨rfl, -⟩ | ⟨job, rfl, -⟩
    · simpa using h.ids
    · rw [List.map_append]
      exact List.nodup_append.2 ⟨h.ids, by simp, fun a ha b hb => by
        obtain rfl : b = i := by simpa using hb
        exact fun he => hids (he ▸ ha)⟩
  · intro d hd
    rcases hmem d hd with hd | ⟨rfl, -⟩
    · exact h.slots d hd
    · exact hslot
  · intro d hd
    rcases hmem d hd with hd | ⟨he, ho, -⟩
    · rw [hc _ (hne d hd)]
      exact h.owes d hd
    · rw [he]
      exact ho
  · intro d hd _
    rcases hmem d hd with hd | ⟨he, -, hb, -⟩
    · rw [hc _ (hne d hd)]
      exact h.fresh d hd (by simp [hidle])
    · rw [he, hb]
  · intro d hd
    rcases hmem d hd with hd | ⟨he, -, -, hdue⟩
    · rcases h.due d hd with hin | ⟨hsnd, hst⟩
      · left
        rw [receiving_of_pdu hs] at hin
        simp only [List.nil_append, List.append_assoc, List.mem_append] at hin ⊢
        rw [hl.1]
        have := hresp d.1
        simp only [List.mem_append] at this
        grind
      · right
        rw [hl.2, hc _ (hne d hd)]
        exact ⟨hsnd, hst⟩
    · rw [he]
      exact hdue
  · intro j hj hdata
    by_cases hji : j = i
    · subst hji
      rcases hnew with ⟨-, hno⟩ | ⟨job, rfl, -⟩
      · rw [hno] at hdata
        cases hdata
      · simp
    · rw [hc j hji] at hdata
      exact hsub j (h.all j ((hheld j hj).resolve_left hji) hdata)
  · intro j hj
    have hji : j ≠ i := by
      rintro rfl
      rw [hl.1, hl.2] at hj
      refine hnot ?_
      rcases hj with hj | ⟨hj, -⟩ <;> simp [held, hj]
    rw [hl.1, hl.2, hc j hji] at hj
    exact hsub j (h.asks j hj)

end Take

section Data

theorem DebtsOk.h2c (hk : Kept c L₀ q) (h : DebtsOk c debts q) (hs : q.rcvState = .pdu)
    (hd : (i, job) ∈ debts) (hi : i ∈ q.waiting) (n : ℕ) :
    DebtsOk c debts
      ({ q with cmd := some i, rcvState := .data, waiting := q.waiting.erase i }.modifyCmd i
        (startH2c n)) := by
  have hidle : q.cmd = none := hk.recv.idle hs
  have hflag : (q.cmds i).initFailed = false := (h.owes _ hd).flag
  have hrecv : receiving
      ({ q with cmd := some i, rcvState := .data, waiting := q.waiting.erase i }.modifyCmd i
        (startH2c n)) = [i] := by
    simp [receiving, modifyCmd, startH2c, nvmetTcpMapPduIovec, hflag]
  have hsame : ∀ j, ((q.modifyCmd i (startH2c n)).cmds j).req = (q.cmds j).req ∧
      ((q.modifyCmd i (startH2c n)).cmds j).rbytesDone = (q.cmds j).rbytesDone ∧
      ((q.modifyCmd i (startH2c n)).cmds j).initFailed = (q.cmds j).initFailed ∧
      ((q.modifyCmd i (startH2c n)).cmds j).state = (q.cmds j).state ∧
      ((q.modifyCmd i (startH2c n)).cmds j).recvMsg.hasIov = (q.cmds j).recvMsg.hasIov := by
    intro j
    by_cases hj : j = i
    · rw [hj, modifyCmd_cmds_self]
      exact ⟨rfl, rfl, rfl, rfl, rfl⟩
    · rw [modifyCmd_cmds_of_ne _ _ _ hj]
      exact ⟨rfl, rfl, rfl, rfl, rfl⟩
  refine ⟨h.ids, h.slots, ?_, ?_, ?_, ?_, ?_, h.free⟩
  · intro d hd
    exact (h.owes d hd).congr (hsame _).1 (hsame _).2.1 (hsame _).2.2.1 (hsame _).2.2.2.2
  · intro d hd _
    exact (hsame _).2.1.trans (h.fresh d hd (by simp [hidle]))
  · intro d hd
    by_cases hdi : d.1 = i
    · exact .inl (by simp [hrecv, hdi])
    · rcases h.due d hd with hin | ⟨hsnd, hst⟩
      · left
        rw [receiving_of_pdu hs] at hin
        simp only [List.nil_append, List.append_assoc, List.mem_append] at hin ⊢
        exact .inr (hin.imp (List.mem_erase_of_ne hdi).2 id)
      · exact .inr ⟨hsnd, (hsame _).2.2.2.1.trans hst⟩
  · intro j hj hdata
    refine h.all j ?_ ?_
    · simp only [held, hrecv] at hj
      simp only [modifyCmd, List.append_assoc, List.mem_append, List.mem_singleton] at hj
      simp only [held, List.append_assoc, List.mem_append]
      rcases hj with rfl | hj | hj
      · exact .inr (.inl hi)
      · exact .inr (.inl (List.mem_of_mem_erase hj))
      · exact .inr (.inr hj)
    · have hreq := (hsame j).1
      have hbytes := (hsame j).2.1
      unfold NvmetTcpCmd.hasDataIn at hdata ⊢
      rw [← hreq, ← hbytes]
      exact hdata
  · rintro j (hj | ⟨hj, hst⟩)
    · exact h.asks j (.inl (List.mem_of_mem_erase hj))
    · exact h.asks j (.inr ⟨hj, (hsame j).2.2.2.1.symm.trans hst⟩)

theorem DebtsOk.body (h : DebtsOk c debts q) (hd : (i, job) ∈ debts) (hi : q.cmd = some i)
    {f : NvmetTcpCmd → NvmetTcpCmd} (ho : Owes job (f (q.cmds i)))
    (hst : (f (q.cmds i)).state = (q.cmds i).state) :
    DebtsOk c debts (q.modifyCmd i f) := by
  have hflags : ∀ j, ((q.modifyCmd i f).cmds j).initFailed = (q.cmds j).initFailed := by
    intro j
    by_cases hj : j = i
    · rw [hj, modifyCmd_cmds_self, ho.flag, (h.owes _ hd).flag]
    · rw [modifyCmd_cmds_of_ne _ _ _ hj]
  have hstate : ∀ j, ((q.modifyCmd i f).cmds j).state = (q.cmds j).state := by
    intro j
    by_cases hj : j = i
    · rw [hj, modifyCmd_cmds_self, hst]
    · rw [modifyCmd_cmds_of_ne _ _ _ hj]
  have hrecv : receiving (q.modifyCmd i f) = receiving q := receiving_congr rfl rfl hflags
  refine ⟨h.ids, h.slots, ?_, ?_, ?_, ?_, ?_, h.free⟩
  · intro d hd'
    by_cases hdi : d.1 = i
    · obtain ⟨j, job'⟩ := d
      obtain rfl : j = i := hdi
      rw [h.eq_of_mem hd' hd, modifyCmd_cmds_self]
      exact ho
    · rw [modifyCmd_cmds_of_ne _ _ _ hdi]
      exact h.owes d hd'
  · intro d hd' hcmd
    have hdi : d.1 ≠ i := fun he => hcmd (he ▸ hi)
    rw [modifyCmd_cmds_of_ne _ _ _ hdi]
    exact h.fresh d hd' hcmd
  · intro d hd'
    rcases h.due d hd' with hin | ⟨hsnd, hr2t⟩
    · left
      rw [hrecv]
      exact hin
    · exact .inr ⟨hsnd, (hstate _).trans hr2t⟩
  · intro j hj hdata
    by_cases hji : j = i
    · exact List.mem_map.2 ⟨_, hd, hji.symm⟩
    · rw [modifyCmd_cmds_of_ne _ _ _ hji] at hdata
      refine h.all j ?_ hdata
      have hheld : held (q.modifyCmd i f) = held q := by
        simp only [held, hrecv]
        rfl
      rwa [← hheld]
  · intro j hj
    rw [hstate] at hj
    exact h.asks j hj

theorem DebtsOk.settle (hk : Kept c L₀ q) (h : DebtsOk c debts q) (hd : (i, job) ∈ debts)
    (hs : q.rcvState = .data) (hi : q.cmd = some i) {f : NvmetTcpCmd → NvmetTcpCmd}
    (hdata : (f (q.cmds i)).hasDataIn = false) :
    DebtsOk c (debts.erase (i, job))
    (nvmetPrepareReceivePdu (nvmetReqExecute i (q.modifyCmd i f))) := by
  have hrecv : receiving q = [i] := by simp [receiving, hs, hi, (h.owes _ hd).flag]
  have hnd := (List.nodup_append.1 hk.nodup).2.1
  have hone := List.nodup_iff_count_le_one.1 hnd i
  simp only [held, hrecv, List.count_append, List.count_singleton_self] at hone
  have hwait : i ∉ q.waiting := fun hin => by
    have := List.one_le_count_iff.2 hin
    omega
  have hsnd : q.sndCmd ≠ some i := fun hin => by
    simp only [hin, Option.toList_some, List.count_singleton_self] at hone
    omega
  have hlist : debts.Nodup := List.Nodup.of_map _ h.ids
  have hmem : ∀ d ∈ debts.erase (i, job), d ∈ debts ∧ d.1 ≠ i := by
    intro d hd'
    obtain ⟨hne, hin⟩ := hlist.mem_erase_iff.1 hd'
    refine ⟨hin, fun he => hne ?_⟩
    obtain ⟨j, job'⟩ := d
    obtain rfl : j = i := he
    rw [h.eq_of_mem hin hd]
  have hids : ∀ j, j ≠ i → j ∈ debts.map Prod.fst → j ∈ (debts.erase (i, job)).map Prod.fst := by
    intro j hj hin
    obtain ⟨job', hd'⟩ := mem_of_mem_ids hin
    exact List.mem_map.2 ⟨_, hlist.mem_erase_iff.2 ⟨fun he => hj (congrArg Prod.fst he), hd'⟩, rfl⟩
  have hcmds : ∀ j, j ≠ i →
      (nvmetPrepareReceivePdu (nvmetReqExecute i (q.modifyCmd i f))).cmds j = q.cmds j :=
    fun j hj => modifyCmd_cmds_of_ne q i f hj
  refine ⟨h.ids.sublist (List.erase_sublist.map _), fun d hd' => h.slots d (hmem d hd').1, ?_, ?_,
    ?_, ?_, ?_, h.free⟩
  · intro d hd'
    rw [hcmds _ (hmem d hd').2]
    exact h.owes d (hmem d hd').1
  · intro d hd' _
    rw [hcmds _ (hmem d hd').2]
    refine h.fresh d (hmem d hd').1 ?_
    rw [hi]
    exact fun he => (hmem d hd').2 (Option.some.inj he).symm
  · intro d hd'
    obtain ⟨hin, hne⟩ := hmem d hd'
    rcases h.due d hin with hplace | ⟨hsnd', hst⟩
    · left
      rw [hrecv] at hplace
      simp only [List.append_assoc, List.mem_append, List.mem_singleton] at hplace ⊢
      exact .inr (hplace.resolve_left hne)
    · exact .inr ⟨hsnd', by rwa [hcmds _ hne]⟩
  · intro j hj hin
    by_cases hji : j = i
    · rw [hji] at hin
      simp only [nvmetPrepareReceivePdu, nvmetReqExecute, modifyCmd_cmds_self, hdata] at hin
      cases hin
    · rw [hcmds j hji] at hin
      refine hids j hji (h.all j ?_ hin)
      simp only [held, receiving, nvmetPrepareReceivePdu, nvmetReqExecute, List.append_assoc,
        List.mem_append, List.mem_singleton, hji, false_or, List.not_mem_nil] at hj ⊢
      exact .inr hj
  · rintro j (hj | ⟨hj, hst⟩)
    · exact hids j (fun he => hwait (he ▸ hj)) (h.asks j (.inl hj))
    · have hji : j ≠ i := fun he => hsnd (he ▸ hj)
      rw [hcmds j hji] at hst
      exact hids j hji (h.asks j (.inr ⟨hj, hst⟩))

end Data

section Others

theorem DebtsOk.completes (hk : Kept c L₀ q) (h : DebtsOk c debts q) {cqe : NvmeCompletion}
    {data : List Byte} (hc : backendCompletes c i cqe data q = some q') : DebtsOk c debts q' := by
  obtain ⟨hi, rfl⟩ := backendCompletes_some hc
  have hids := h.not_executing hk hi
  have hne : ∀ d ∈ debts, d.1 ≠ i := fun d hd he => hids (he ▸ List.mem_map_of_mem hd)
  have hset : CmdOnly i q (q.modifyCmd i (completed cqe data)) := cmdOnly_modifyCmd ⟨rfl, rfl⟩
  have hcmds : ∀ j, j ≠ i → (nvmetTcpQueueResponse c i
      { q.modifyCmd i (completed cqe data) with executing := q.executing.erase i }).cmds j =
        q.cmds j :=
    fun j hj => modifyCmd_cmds_of_ne q i (completed cqe data) hj
  refine ⟨h.ids, h.slots, ?_, ?_, ?_, ?_, ?_, h.free⟩
  · intro d hd
    rw [hcmds _ (hne d hd)]
    exact h.owes d hd
  · intro d hd hcmd
    rw [hcmds _ (hne d hd)]
    exact h.fresh d hd hcmd
  · intro d hd
    rcases h.due d hd with hin | ⟨hsnd, hst⟩
    · left
      have hrecv : receiving (nvmetTcpQueueResponse c i
          { q.modifyCmd i (completed cqe data) with executing := q.executing.erase i }) =
            receiving q :=
        receiving_congr rfl rfl hset.initFailed
      rw [hrecv]
      simp only [nvmetTcpQueueResponse, modifyCmd, List.append_assoc, List.mem_append,
        List.mem_cons] at hin ⊢
      grind
    · exact .inr ⟨hsnd, by rwa [hcmds _ (hne d hd)]⟩
  · intro j hj hdata
    have hheld : j ∈ held q := by
      have hrecv : receiving (nvmetTcpQueueResponse c i
          { q.modifyCmd i (completed cqe data) with executing := q.executing.erase i }) =
            receiving q :=
        receiving_congr rfl rfl hset.initFailed
      simp only [held, hrecv] at hj
      simp only [nvmetTcpQueueResponse, modifyCmd, List.append_assoc, List.mem_append,
        List.mem_cons] at hj
      simp only [held, List.append_assoc, List.mem_append]
      have := List.mem_of_mem_erase (a := j) (b := i) (l := q.executing)
      have : j = i → j ∈ q.executing := fun he => he ▸ hi
      grind
    refine h.all j hheld ?_
    by_cases hji : j = i
    · rw [hji] at hdata ⊢
      simpa [nvmetTcpQueueResponse, completed, NvmetTcpCmd.hasDataIn,
        NvmetTcpCmd.setSgData] using hdata
    · rwa [hcmds j hji] at hdata
  · rintro j (hj | ⟨hj, hst⟩)
    · exact h.asks j (.inl hj)
    · refine h.asks j (.inr ⟨hj, ?_⟩)
      rw [← hst]
      exact (hset.state j).symm

end Others

section Send

structure SendQuiet (q q' : NvmetTcpQueue) : Prop where
  cmds : ∀ j, (q'.cmds j).req = (q.cmds j).req ∧ (q'.cmds j).rbytesDone = (q.cmds j).rbytesDone ∧
    (q'.cmds j).recvMsg = (q.cmds j).recvMsg ∧ (q'.cmds j).initFailed = (q.cmds j).initFailed
  rcv : q'.rcvState = q.rcvState ∧ q'.offset = q.offset ∧ q'.left = q.left ∧ q'.pdu = q.pdu
  cmd : q'.cmd = q.cmd
  logs : q'.received = q.received ∧ q'.executed = q.executed

theorem SendQuiet.refl : SendQuiet q q := ⟨fun _ => by simp, by simp, rfl, by simp⟩

theorem SendQuiet.trans {q'' : NvmetTcpQueue} (h : SendQuiet q q') (h' : SendQuiet q' q'') :
    SendQuiet q q'' := by
  refine ⟨fun j => ?_, ?_, h'.cmd.trans h.cmd, h'.logs.1.trans h.logs.1, h'.logs.2.trans h.logs.2⟩
  · obtain ⟨a1, a2, a3, a4⟩ := h.cmds j
    obtain ⟨b1, b2, b3, b4⟩ := h'.cmds j
    exact ⟨b1.trans a1, b2.trans a2, b3.trans a3, b4.trans a4⟩
  · obtain ⟨a1, a2, a3, a4⟩ := h.rcv
    obtain ⟨b1, b2, b3, b4⟩ := h'.rcv
    exact ⟨b1.trans a1, b2.trans a2, b3.trans a3, b4.trans a4⟩

theorem Frame.quiet (h : Frame i q q') : SendQuiet q q' := by
  obtain ⟨h1, h2, h3, h4, h5, -⟩ := h.rcv
  refine ⟨fun j => ?_, ⟨h3, h1, h2, h5⟩, h4, h.logs.2.1, h.logs.2.2.1⟩
  by_cases hj : j = i
  · rw [hj]
    exact ⟨h.req, h.recv.1, h.recv.2.2.1, h.recv.2.2.2.1⟩
  · rw [h.cmds j hj]
    exact ⟨rfl, rfl, rfl, rfl⟩

theorem quiet_fetched (sl rl : List CmdId) (len : ℤ) : SendQuiet q (fetched c i sl rl len q) := by
  refine ⟨fun j => ?_, ⟨rfl, rfl, rfl, rfl⟩, rfl, rfl, rfl⟩
  by_cases hj : j = i
  · rw [hj, fetched, modifyCmd_cmds_self]
    unfold setupFirstPdu
    split_ifs <;> exact ⟨rfl, rfl, rfl, rfl⟩
  · rw [fetched, modifyCmd_cmds_of_ne _ _ _ hj]
    exact ⟨rfl, rfl, rfl, rfl⟩

theorem quiet_flushed : SendQuiet q (caravanSent (q.kernelSend q.caravanBytes).2) := by
  obtain ⟨b, rs, hq⟩ := q.kernelSend_heard q.caravanBytes
  rw [hq, caravanSent, freeCaravanCmds_eq]
  exact ⟨fun _ => ⟨rfl, rfl, rfl, rfl⟩, ⟨rfl, rfl, rfl, rfl⟩, rfl, rfl, rfl⟩

theorem SendStep.r2t_stays (h : SendStep c i q q') (hsnd : q.sndCmd = some i)
    (hst : (q.cmds i).state = .r2t) :
    q'.sndCmd = some i ∧ (q'.cmds i).state = .r2t ∨ i ∈ q'.waiting := by
  cases h with
  | full | refused | emptyHdr => exact .inl ⟨hsnd, hst⟩
  | part => exact .inl ⟨hsnd, by simpa [skip] using hst⟩
  | emptyPage j sg ha h' | dataPdu h' | page h' | dataDone h' | ddgst h' | ddgstLast h'
  | response h' | responseLast h' =>
    rw [hst] at h'
    cases h'
  | r2t hst he =>
    right
    simp [r2tDone]

theorem Sends.asked (h : Sends c i q q') {j : CmdId}
    (hj : j ∈ q'.waiting ∨ q'.sndCmd = some j ∧ (q'.cmds j).state = .r2t) :
    j ∈ q.waiting ∨ q.sndCmd = some j ∧ (q.cmds j).state = .r2t := by
  rcases hj with hj | ⟨hj, hst⟩
  · rcases h.2.waiting with hw | ⟨hr2t, hw⟩ <;> rw [hw] at hj
    · exact .inl hj
    · rcases List.mem_append.1 hj with hj | hj
      · exact .inl hj
      · obtain rfl := List.mem_singleton.1 hj
        exact .inr ⟨h.1, hr2t⟩
  · obtain rfl : i = j := by
      rcases h.sndCmd with hn | hn <;> rw [hn] at hj
      · cases hj
      · exact Option.some.inj hj
    obtain ⟨hsnd, h⟩ := h
    refine .inr ⟨hsnd, ?_⟩
    cases h with
    | full | refused | emptyHdr | emptyPage => exact hst
    | part => simpa [skip] using hst
    | dataPdu h' he => simp [dataPduDone] at hst
    | page h' _ _ _ he =>
      rw [modifyCmd_cmds_self, he.cmds] at hst
      rw [← hst]
      unfold dataAdvance
      dsimp only
      split_ifs <;> rfl
    | dataDone h' =>
      exfalso
      unfold Target.dataDone at hst hj
      cases hdd : c.dataDigest <;> cases hsq : c.sqhdDisabled <;>
        simp only [hdd, hsq, Bool.false_eq_true, ↓reduceIte, sglFree_cmds, modifyCmd_cmds_self,
          (sglFree_places _ _).2.1,
          (putCmd_places _ _).2.1, nvmetSetupResponsePdu, reduceCtorEq] at hst hj
    | ddgst => simp [nvmetSetupResponsePdu] at hst
    | ddgstLast | responseLast =>
      exfalso
      first | rw [(putCmd_places _ _).2.1] at hj | rw [responseDone, (putCmd_places _ _).2.1] at hj
      cases hj
    | r2t => cases hj
    | response => cases hj

theorem SendStep.caravanCmds (h : SendStep c i q q') :
    q'.caravanCmds = q.caravanCmds ∨ q'.caravanCmds = q.caravanCmds ++ [i] := by
  cases h with
  | full | refused | emptyHdr | emptyPage | part | ddgst => exact .inl rfl
  | dataPdu _ he | r2t _ he => exact .inl he.places.1
  | page _ _ _ _ he => exact .inl he.places.1
  | dataDone =>
    left
    unfold Target.dataDone
    cases c.dataDigest <;> cases c.sqhdDisabled <;>
      simp only [Bool.false_eq_true, ↓reduceIte, (sglFree_places _ _).2.2,
        (putCmd_places _ _).2.2] <;> rfl
  | ddgstLast => exact .inl (putCmd_places _ _).2.2
  | response => exact .inr rfl
  | responseLast =>
    left
    rw [responseDone, (putCmd_places _ _).2.2]
    exact (sglFree_places _ _).2.2

theorem mem_putCmd {j : CmdId} (hj : j ∈ (q.nvmetTcpPutCmd i).freeList) : j ∈ q.freeList ∨
    j ≠ .connect := by
  unfold nvmetTcpPutCmd at hj
  split_ifs at hj with hi
  · exact .inl hj
  · rcases List.mem_append.1 hj with hj | hj
    · exact .inl hj
    · exact .inr (by rwa [List.mem_singleton.1 hj])

theorem SendStep.connect (h : SendStep c i q q') (hfree : CmdId.connect ∉ q.freeList) :
    CmdId.connect ∉ q'.freeList := by
  have hput : ∀ q₁ : NvmetTcpQueue, q₁.freeList = q.freeList →
      CmdId.connect ∉ (q₁.nvmetTcpPutCmd i).freeList := by
    intro q₁ heq hin
    rcases mem_putCmd hin with hin | hne
    · exact hfree (heq ▸ hin)
    · exact hne rfl
  cases h with
  | full | refused | emptyHdr | emptyPage | part | ddgst | response => exact hfree
  | dataPdu _ he | r2t _ he => exact he.places.2.1 ▸ hfree
  | page _ _ _ _ he => exact he.places.2.1 ▸ hfree
  | dataDone =>
    unfold Target.dataDone
    cases c.dataDigest <;> cases c.sqhdDisabled <;>
      simp only [Bool.false_eq_true, ↓reduceIte, sglFree_freeList]
    · exact hfree
    · exact hput _ rfl
    · exact hfree
    · exact hfree
  | ddgstLast => exact hput _ rfl
  | responseLast => exact hput _ (sglFree_freeList _ _)

theorem Sends.held_subset (h : Sends c i q q') : held q' ⊆ held q := by
  have hq := h.2.frame
  have hrecv : receiving q' = receiving q := receiving_congr hq.rcv.2.2.1 hq.rcv.2.2.2.1 hq.flag
  obtain ⟨hr, hs, -, he⟩ := hq.lists
  intro j hj
  have hsend : j = i → j ∈ held q := by
    rintro rfl
    simp [held, h.1]
  have hsnd : j ∈ q'.sndCmd.toList → j = i := by
    rcases h.sndCmd with hn | hn <;> simp [hn]
  have hcar : j ∈ q'.caravanCmds → j ∈ q.caravanCmds ∨ j = i := by
    rcases h.2.caravanCmds with hn | hn <;> rw [hn]
    · exact .inl
    · simp
  have hwait : j ∈ q'.waiting → j ∈ q.waiting ∨ j = i := by
    rcases h.2.waiting with hn | ⟨-, hn⟩ <;> rw [hn]
    · exact .inl
    · simp
  by_cases hji : j = i
  · exact hsend hji
  · simp only [held, hrecv, hr, hs, he, List.append_assoc, List.mem_append] at hj ⊢
    grind

theorem DebtsOk.quiet (h : DebtsOk c debts q) (hq : SendQuiet q q') (hdue : ∀ d ∈ debts, Due q' d.1)
    (hheld : held q' ⊆ held q)
    (hasked : ∀ i, i ∈ q'.waiting ∨ q'.sndCmd = some i ∧ (q'.cmds i).state = .r2t →
      i ∈ q.waiting ∨ q.sndCmd = some i ∧ (q.cmds i).state = .r2t ∨ i ∈ debts.map Prod.fst)
    (hfree : CmdId.connect ∉ q'.freeList) : DebtsOk c debts q' := by
  refine ⟨h.ids, h.slots, ?_, ?_, hdue, ?_, ?_, hfree⟩
  · intro d hd
    obtain ⟨h1, h2, h3, h4⟩ := hq.cmds d.1
    exact (h.owes d hd).congr h1 h2 h4 (congrArg RecvMsg.hasIov h3)
  · intro d hd hcmd
    rw [(hq.cmds d.1).2.1]
    exact h.fresh d hd (hq.cmd ▸ hcmd)
  · intro j hj hdata
    obtain ⟨h1, h2, -, -⟩ := hq.cmds j
    refine h.all j (hheld hj) ?_
    unfold NvmetTcpCmd.hasDataIn at hdata ⊢
    rwa [← h1, ← h2]
  · intro j hj
    rcases hasked j hj with hin | hin | hin
    · exact h.asks j (.inl hin)
    · exact h.asks j (.inr hin)
    · exact hin

theorem DebtsOk.fetched {sl rl : List CmdId} {len : ℤ} (h : DebtsOk c debts q)
    (hf : Fetches q i sl rl len) :
    DebtsOk c debts (fetched c i sl rl len q) := by
  have hquiet : SendQuiet q (Target.fetched c i sl rl len q) := quiet_fetched sl rl len
  have hrecv : receiving (Target.fetched c i sl rl len q) = receiving q :=
    receiving_congr rfl rfl fun j => (hquiet.cmds j).2.2.2
  have horder : ∀ j, j ∈ q.respList ++ q.respSendList ↔ j = i ∨ j ∈ rl ++ sl := by
    intro j
    have hmem : j ∈ q.respSendList ++ q.respList.reverse ↔
      j ∈ i :: (sl ++ rl.reverse) := by rw [hf.order]
    simp only [List.mem_append, List.mem_reverse, List.mem_cons] at hmem ⊢
    grind
  refine h.quiet hquiet ?_ ?_ ?_ h.free
  · intro d hd
    rcases h.due d hd with hin | ⟨hsnd, -⟩
    · by_cases hdi : d.1 = i
      · -- the command that is taken is sent an R2T
        right
        have ho := h.owes d hd
        have hout : (q.cmds i).needDataOut = false := by
          rw [← hdi]
          exact needDataOut_of_write (by rw [ho.same, ho.write])
        have hneed : (q.cmds i).needDataIn = true := hdi ▸ ho.needDataIn
        refine ⟨congrArg some hdi.symm, ?_⟩
        rw [hdi, Target.fetched, modifyCmd_cmds_self, setupFirstPdu, if_neg (by simp [hout]),
          if_pos hneed]
        rfl
      · left
        have hold := (horder d.1).1
        rw [hrecv]
        simp only [List.append_assoc, List.mem_append] at hin hold ⊢
        simp only [Target.fetched, modifyCmd]
        grind
    · rw [hf.idle] at hsnd
      cases hsnd
  · intro j hj
    have hold := (horder j).2
    simp only [held, hrecv] at hj
    simp only [Target.fetched, modifyCmd, Option.toList_some, List.append_assoc, List.mem_append,
      List.mem_singleton] at hj
    simp only [held, List.append_assoc, List.mem_append] at hold ⊢
    grind
  · rintro j (hj | ⟨hj, hst⟩)
    · exact .inl hj
    · -- an R2T is built for a command whose data is to come
      obtain rfl : i = j := Option.some.inj hj
      refine .inr (.inr (h.all i ?_ ?_))
      · have := (horder i).2 (.inl rfl)
        simp only [held, List.append_assoc, List.mem_append] at this ⊢
        grind
      · rw [Target.fetched, modifyCmd_cmds_self, setupFirstPdu] at hst
        split_ifs at hst with hout hneed
        · cases hst
        · exact (Bool.and_eq_true_iff.1 hneed).1
        · cases hst

theorem DebtsOk.sends (h : DebtsOk c debts q) (hs : Sends c i q q') : DebtsOk c debts q' := by
  have hf := hs.2.frame
  have hrecv : receiving q' = receiving q := receiving_congr hf.rcv.2.2.1 hf.rcv.2.2.2.1 hf.flag
  refine h.quiet hf.quiet ?_ hs.held_subset ?_ (hs.2.connect h.free)
  · intro d hd
    rcases h.due d hd with hin | ⟨hsnd, hst⟩
    · left
      obtain ⟨hr, hsl, -⟩ := hf.lists
      rw [hrecv, hr, hsl]
      have hwait : d.1 ∈ q.waiting → d.1 ∈ q'.waiting := by
        rcases hs.2.waiting with hn | ⟨-, hn⟩ <;> rw [hn]
        · exact id
        · exact List.mem_append_left _
      simp only [List.append_assoc, List.mem_append] at hin ⊢
      grind
    · obtain hdi : i = d.1 := Option.some.inj (hs.1.symm.trans hsnd)
      rw [← hdi] at hst ⊢
      rcases hs.2.r2t_stays hs.1 hst with hstay | hwait
      · exact .inr hstay
      · exact .inl (by simp [hwait])
  · intro j hj
    rcases hs.asked hj with hj | hj
    · exact .inl hj
    · exact .inr (.inl hj)

theorem DebtsOk.flushed (h : DebtsOk c debts q) :
    DebtsOk c debts (caravanSent (q.kernelSend q.caravanBytes).2) := by
  have hquiet : SendQuiet q (caravanSent (q.kernelSend q.caravanBytes).2) := quiet_flushed
  obtain ⟨b, rs, hq⟩ := q.kernelSend_heard q.caravanBytes
  rw [hq, caravanSent, freeCaravanCmds_eq] at hquiet ⊢
  refine h.quiet hquiet h.due ?_ (fun j hj => hj.imp id .inl) ?_
  · intro j hj
    simp only [held, List.append_assoc, List.mem_append] at hj ⊢
    have hrecv : j ∈ receiving q → j ∈ receiving q := id
    simp only [receiving] at hj hrecv ⊢
    tauto
  · intro hin
    simp only [List.mem_append, List.mem_filter] at hin
    rcases hin with hin | ⟨-, hin⟩
    · exact h.free hin
    · simp at hin

/-- A turn of the send path: R2Ts go out, to commands that are owed their data. -/
theorem DebtsOk.turn (h : DebtsOk c debts q) (last nospace : Bool) :
    DebtsOk c debts (trySendTurn c last nospace q).2 ∧
      SendQuiet q (trySendTurn c last nospace q).2 ∧
      q.waiting <+: (trySendTurn c last nospace q).2.waiting := by
  refine trySendTurn_invariant
    (I := fun q' => DebtsOk c debts q' ∧ SendQuiet q q' ∧ q.waiting <+: q'.waiting)
    ?_ ?_ ?_ ?_ last nospace ⟨h, .refl, List.prefix_rfl⟩
  · rintro q i sl rl len ⟨h, hq, hw⟩ hf
    exact ⟨h.fetched hf, hq.trans (quiet_fetched sl rl len), hw⟩
  · rintro i q q' ⟨h, hq, hw⟩ hs
    refine ⟨h.sends hs, hq.trans hs.2.frame.quiet, hw.trans ?_⟩
    rcases hs.2.waiting with hn | ⟨-, hn⟩ <;> rw [hn]
    exact List.prefix_append _ _
  · rintro q ⟨h, hq, hw⟩
    refine ⟨h.flushed, hq.trans quiet_flushed, hw.trans ?_⟩
    obtain ⟨b, rs, heq⟩ := q.kernelSend_heard q.caravanBytes
    rw [heq, caravanSent, freeCaravanCmds_eq]
    exact List.prefix_rfl
  · rintro q ⟨h, hq, hw⟩
    refine ⟨?_, hq.trans ⟨fun _ => ⟨rfl, rfl, rfl, rfl⟩, ⟨rfl, rfl, rfl, rfl⟩, rfl, rfl, rfl⟩, hw⟩
    exact ⟨h.ids, h.slots, h.owes, h.fresh, h.due, h.all, h.asks, h.free⟩

end Send

end BlkSwitch.Target
