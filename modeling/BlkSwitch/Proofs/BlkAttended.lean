import BlkSwitch.Sanity.BlkHomes

/-! A dispatch list with requests on it is never forgotten: the hardware queue is stopped or
quiesced, or someone is on the way to run it. -/

namespace BlkSwitch.Blk

open MqState

/-- Why the dispatch list of a hardware queue will be looked at. -/
inductive Attended (s : MqState) (h : ℕ) : Prop
  /-- `blk_mq_start_hw_queue` and `blk_mq_unquiesce_queue` run the queue -/
  | stopped (hf : (s.flags h).stopped = true)
  | quiesced (hq : s.quiesced = true)
  | runWork (hf : (s.flags h).runWork = true)
  /-- a run has not come to the list yet -/
  | running (hf : 0 < (s.flags h).running)
  /-- the next request that is freed runs the queue, or the next tag -/
  | restart (hf : (s.flags h).restart = true)
  | waiting (hf : (s.flags h).waiting = true)
  | called (async : Bool) (hm : (h, async) ∈ s.toRun)
  /-- `blk_mq_requeue_work` ends with a run of all queues -/
  | requeuing (hr : s.requeueActive = true)
  | rerun (w : ℕ) (call : DispatchCall) (hc : s.calls w = some call) (hpc : call.pc = .rerun)
    (hh : call.hctx = h)

structure FlagsLe (f g : HctxFlags) : Prop where
  stopped : f.stopped = true → g.stopped = true
  runWork : f.runWork = true → g.runWork = true
  running : f.running ≤ g.running
  restart : f.restart = true → g.restart = true
  waiting : f.waiting = true → g.waiting = true

theorem FlagsLe.refl (f : HctxFlags) : FlagsLe f f := ⟨id, id, le_rfl, id, id⟩

/-- A reason that a queue had, it still has. -/
structure Watches (h : ℕ) (s s' : MqState) : Prop where
  flags : FlagsLe (s.flags h) (s'.flags h)
  quiesced : s.quiesced = true → s'.quiesced = true
  toRun : ∀ async, (h, async) ∈ s.toRun → (h, async) ∈ s'.toRun
  requeue : s.requeueActive = true → s'.requeueActive = true
  calls : ∀ w call, s.calls w = some call → call.pc = .rerun → call.hctx = h →
    s'.calls w = some call

section Watches

variable {c : MqConfig} {s s' s'' : MqState} {r h w x : ℕ}

@[simp] theorem updateDispatchBusy_calls (busy : Bool) :
    (s.updateDispatchBusy c h busy).calls = s.calls := by
  unfold updateDispatchBusy
  split_ifs <;> rfl

@[simp] theorem delayRunHwQueue_calls (async here : Bool) :
    (s.delayRunHwQueue c async here h).calls = s.calls := by
  unfold delayRunHwQueue
  split_ifs <;> rfl

@[simp] theorem markTagWait_calls (again : Option ℕ) :
    (s.markTagWait c again r).2.calls = s.calls := by
  unfold markTagWait
  dsimp only
  split_ifs <;> rfl

theorem Watches.refl (s : MqState) : Watches x s s :=
  ⟨.refl _, id, fun _ => id, id, fun _ _ h _ _ => h⟩

theorem Watches.trans (h : Watches x s s') (h' : Watches x s' s'') : Watches x s s'' where
  flags :=
    ⟨h'.flags.stopped ∘ h.flags.stopped, h'.flags.runWork ∘ h.flags.runWork,
      h.flags.running.trans h'.flags.running, h'.flags.restart ∘ h.flags.restart,
      h'.flags.waiting ∘ h.flags.waiting⟩
  quiesced := h'.quiesced ∘ h.quiesced
  toRun := fun async hp => h'.toRun async (h.toRun async hp)
  requeue := h'.requeue ∘ h.requeue
  calls := fun w call hc hpc hh => h'.calls w call (h.calls w call hc hpc hh) hpc hh

theorem Attended.mono (hw : Watches h s s') (ha : Attended s h) : Attended s' h := by
  cases ha with
  | stopped hf => exact .stopped (hw.flags.stopped hf)
  | quiesced hq => exact .quiesced (hw.quiesced hq)
  | runWork hf => exact .runWork (hw.flags.runWork hf)
  | running hf => exact .running (lt_of_lt_of_le hf hw.flags.running)
  | restart hf => exact .restart (hw.flags.restart hf)
  | waiting hf => exact .waiting (hw.flags.waiting hf)
  | called async hm => exact .called async (hw.toRun async hm)
  | requeuing hr => exact .requeuing (hw.requeue hr)
  | rerun w call hc hpc hh => exact .rerun w call (hw.calls w call hc hpc hh) hpc hh

theorem watches_setFlags_ne {f : HctxFlags → HctxFlags} (hx : x ≠ h) :
    Watches x s (s.setFlags h f) := by
  refine ⟨?_, id, fun _ => id, id, fun _ _ h _ _ => h⟩
  simp only [setFlags, Function.update_of_ne hx]
  exact .refl _

theorem setFlags_flags (f : HctxFlags → HctxFlags) : (s.setFlags h f).flags h = f (s.flags h) :=
  Function.update_self ..

theorem watches_setFlags {f : HctxFlags → HctxFlags} (hf : FlagsLe (s.flags h) (f (s.flags h))) :
    Watches x s (s.setFlags h f) := by
  by_cases hx : x = h
  · subst hx
    refine ⟨?_, id, fun _ => id, id, fun _ _ h _ _ => h⟩
    rw [setFlags_flags]
    exact hf
  · exact watches_setFlags_ne hx

theorem watches_withLists (s : MqState) (f : MqLists → MqLists) : Watches x s (s.withLists f) :=
  ⟨.refl _, id, fun _ => id, id, fun _ _ h _ _ => h⟩

theorem watches_runLater (s : MqState) (h : ℕ) (async : Bool) : Watches x s (s.runLater h async) :=
  ⟨.refl _, id, fun _ hp => List.mem_append_left _ hp, id, fun _ _ h _ _ => h⟩

theorem attended_runLater (s : MqState) (h : ℕ) (async : Bool) : Attended (s.runLater h async) h :=
  .called async (List.mem_append_right _ (List.mem_singleton.2 rfl))

theorem watches_onTags (c : MqConfig) (s : MqState)
    (f : TagRequest → TagState → TagRequest × TagState) (r : ℕ) :
    Watches x s (s.onTags c f r) :=
  ⟨.refl _, id, fun _ => id, id, fun _ _ h _ _ => h⟩

theorem watches_updateDispatchBusy (c : MqConfig) (s : MqState) (h : ℕ) (busy : Bool) :
    Watches x s (s.updateDispatchBusy c h busy) := by
  unfold updateDispatchBusy
  split_ifs
  · exact .refl s
  · exact watches_setFlags ⟨id, id, le_rfl, id, id⟩

theorem watches_delayRun (c : MqConfig) (s : MqState) (async here : Bool) (h : ℕ) :
    Watches x s (s.delayRunHwQueue c async here h) := by
  unfold delayRunHwQueue
  split_ifs
  · exact .refl s
  · exact watches_setFlags ⟨id, id, Nat.le_succ _, id, id⟩
  · exact watches_setFlags ⟨id, fun _ => rfl, le_rfl, id, id⟩

/-- A run of a queue that has something on its dispatch list comes about, or has a reason not to. -/
theorem attended_runHwQueue (c : MqConfig) (async here work : Bool)
    (hne : s.lists.dispatch h ≠ []) :
    Attended (s.blkMqRunHwQueue c async here work h) h := by
  have hpending : s.hasPending work h = true := by simp [hasPending, hne]
  unfold blkMqRunHwQueue
  rw [hpending]
  cases hq : s.quiesced with
  | true => exact .quiesced hq
  | false =>
    rw [if_pos (by rfl)]
    unfold delayRunHwQueue
    split_ifs with hstop
    · exact .stopped hstop
    · refine .running ?_
      rw [setFlags_flags]
      exact Nat.succ_pos _
    · refine .runWork ?_
      rw [setFlags_flags]

theorem watches_runHwQueue (c : MqConfig) (s : MqState) (async here work : Bool) (h : ℕ) :
    Watches x s (s.blkMqRunHwQueue c async here work h) := by
  unfold blkMqRunHwQueue
  split_ifs
  · exact watches_delayRun c s async here h
  · exact .refl s

/-- Waiting for a tag adds a reason, and takes back only what it has added. -/
theorem watches_markTagWait (c : MqConfig) (s : MqState) (again : Option ℕ) (r : ℕ) :
    Watches x s (s.markTagWait c again r).2 := by
  unfold markTagWait
  dsimp only
  split_ifs with hshared hwait htag
  · exact (watches_setFlags ⟨id, id, le_rfl, fun _ => rfl, id⟩).trans (watches_onTags c _ _ _)
  · exact .refl s
  · refine ⟨?_, id, fun _ => id, id, fun _ _ h _ _ => h⟩
    by_cases hx : x = s.hctxOf r
    · subst hx
      refine ⟨?_, ?_, ?_, ?_, fun hw => absurd hw hwait⟩
      all_goals simp [setFlags, getDriverTag, onTags, setRq]
    · simp only [setFlags, getDriverTag, onTags, setRq, Function.update_of_ne hx]
      exact .refl _
  · exact (watches_setFlags ⟨id, id, le_rfl, id, fun _ => rfl⟩).trans (watches_onTags c _ _ _)

@[simp] theorem setCall_calls (new : Option DispatchCall) :
    (setCall w new s).calls = Function.update s.calls w new := rfl

theorem watches_setCall {new : Option DispatchCall}
    (hold : ∀ call, s.calls w = some call → call.pc = .rerun → call.hctx ≠ x) :
    Watches x s (setCall w new s) := by
  refine ⟨.refl _, id, fun _ => id, id, fun y call hc hpc hh => ?_⟩
  have hy : y ≠ w := by
    rintro rfl
    exact hold call hc hpc hh
  simp only [setCall, Function.update_of_ne hy]
  exact hc

end Watches

/-- Only requests and lists have changed, and no dispatch list. -/
structure Plain (s s' : MqState) : Prop where
  flags : s'.flags = s.flags
  quiesced : s'.quiesced = s.quiesced
  toRun : s'.toRun = s.toRun
  requeue : s'.requeueActive = s.requeueActive
  calls : s'.calls = s.calls
  dispatch : s'.lists.dispatch = s.lists.dispatch
  home : s'.home = s.home

section Plain

variable {c : MqConfig} {s s' s'' : MqState} {r w : ℕ} {rest : List ℕ}

theorem Plain.trans (h : Plain s s') (h' : Plain s' s'') : Plain s s'' :=
  ⟨h'.flags.trans h.flags, h'.quiesced.trans h.quiesced, h'.toRun.trans h.toRun,
    h'.requeue.trans h.requeue, h'.calls.trans h.calls, h'.dispatch.trans h.dispatch,
    h'.home.trans h.home⟩

theorem Plain.watches (h : Plain s s') (x : ℕ) : Watches x s s' :=
  ⟨by rw [h.flags]; exact .refl _, fun hq => h.quiesced.trans hq, fun p hp => by rwa [h.toRun],
    fun hr => h.requeue.trans hr, fun x call hc _ _ => by rwa [h.calls]⟩

theorem plain_getDriverTag (c : MqConfig) (s : MqState) (got : Option ℕ) (r : ℕ) :
    Plain s (s.getDriverTag c got r) :=
  ⟨rfl, rfl, rfl, rfl, rfl, rfl, (aside_getDriverTag c s got r).home⟩

theorem plain_putDriverTag (c : MqConfig) (s : MqState) (r : ℕ) : Plain s (s.putDriverTag c r) :=
  ⟨rfl, rfl, rfl, rfl, rfl, rfl, (aside_putDriverTag c s r).home⟩

theorem plain_requeueRequest (c : MqConfig) (s : MqState) (r : ℕ) :
    Plain s (s.requeueRequest c r) :=
  ⟨rfl, rfl, rfl, rfl, rfl, rfl, (aside_requeueRequest c s r).home⟩

theorem plain_start (s : MqState) (started : Bool) (r : ℕ) :
    Plain s (if started then s.blkMqStartRequest r else s) := by
  have haside := aside_start s started r
  split_ifs at haside ⊢
  · exact ⟨rfl, rfl, rfl, rfl, rfl, rfl, haside.home⟩
  · exact ⟨rfl, rfl, rfl, rfl, rfl, rfl, haside.home⟩

theorem plain_end (c : MqConfig) (s : MqState) (r : ℕ) : Plain s (s.blkMqEndRequest c r) :=
  ⟨rfl, rfl, rfl, rfl, rfl, rfl, (aside_end c s r).home⟩


theorem plain_withLists {f : MqLists → MqLists} (hf : (f s.lists).dispatch = s.lists.dispatch) :
    Plain s (s.withLists f) := ⟨rfl, rfl, rfl, rfl, rfl, hf, rfl⟩

theorem plain_toDriver (s : MqState) (r : ℕ) : Plain s (s.toDriver r) :=
  ⟨rfl, rfl, rfl, rfl, rfl, rfl, rfl⟩

theorem plain_offCall (w r : ℕ) (rest : List ℕ) (s : MqState) : Plain s (offCall w r rest s) :=
  ⟨rfl, rfl, rfl, rfl, rfl, rfl, rfl⟩

theorem plain_tagNext (c : MqConfig) (s : MqState) (got : Option ℕ) (rest : List ℕ) :
    Plain s (tagNext c got rest s) := by
  cases rest with
  | nil => exact ⟨rfl, rfl, rfl, rfl, rfl, rfl, rfl⟩
  | cons nxt _ => exact plain_getDriverTag c s got nxt

theorem plain_untagNext (c : MqConfig) (s : MqState) (rest : List ℕ) :
    Plain s (untagNext c rest s) := by
  cases rest with
  | nil => exact ⟨rfl, rfl, rfl, rfl, rfl, rfl, rfl⟩
  | cons nxt _ => exact plain_putDriverTag c s nxt

theorem plain_requeueList (s : MqState) (atHead kick : Bool) (r : ℕ) :
    Plain s (s.addToRequeueList r atHead kick) := by
  have hhome := (aside_requeueList s r atHead kick).home
  cases atHead <;> exact ⟨rfl, rfl, rfl, rfl, rfl, rfl, hhome⟩

end Plain

/-- Hardware queues are those of the device, and a dispatch list that has something on it will be
looked at. -/
structure Cared (c : MqConfig) (s : MqState) : Prop where
  rqs : ∀ r, s.hctxOf r < c.nrHwQueues
  calls : ∀ w call, s.calls w = some call → call.hctx < c.nrHwQueues
  range : ∀ h, s.lists.dispatch h ≠ [] → h < c.nrHwQueues
  attended : ∀ h, s.lists.dispatch h ≠ [] → Attended s h

section Cared

variable {c : MqConfig} {s s' : MqState} {r h w : ℕ} {rest : List ℕ}

theorem Cared.at_ (hs : Cared c s) (hh : s'.lists.dispatch h ≠ [] → h < c.nrHwQueues)
    (hhome : s'.home = s.home)
    (hcalls : ∀ w call, s'.calls w = some call → call.hctx < c.nrHwQueues)
    (hw : ∀ x, x ≠ h → Watches x s s') (hd : ∀ x, x ≠ h → s'.lists.dispatch x = s.lists.dispatch x)
    (ha : s'.lists.dispatch h ≠ [] → Attended s' h) : Cared c s' where
  rqs := fun r => hctxOf_of_home hhome r ▸ hs.rqs r
  calls := hcalls
  range := by
    intro x hne
    by_cases hx : x = h
    · subst hx
      exact hh hne
    · rw [hd x hx] at hne
      exact hs.range x hne
  attended := by
    intro x hne
    by_cases hx : x = h
    · subst hx
      exact ha hne
    · rw [hd x hx] at hne
      exact (hs.attended x hne).mono (hw x hx)

theorem Cared.same (hs : Cared c s) (hhome : s'.home = s.home) (hcalls : s'.calls = s.calls)
    (hd : ∀ x, s'.lists.dispatch x ≠ [] → s.lists.dispatch x ≠ []) (hw : ∀ x, Watches x s s') :
    Cared c s' where
  rqs := fun r => hctxOf_of_home hhome r ▸ hs.rqs r
  calls := by rw [hcalls]; exact hs.calls
  range := fun x hne => hs.range x (hd x hne)
  attended := fun x hne => (hs.attended x (hd x hne)).mono (hw x)

theorem Cared.plain (hs : Cared c s) (hp : Plain s s') : Cared c s' :=
  hs.same hp.home hp.calls (fun x hne => by rwa [← hp.dispatch]) hp.watches

theorem Cared.setCall (hs : Cared c s) (new : Option DispatchCall)
    (hold : ∀ call, s.calls w = some call → call.pc ≠ .rerun)
    (hnew : ∀ call ∈ new, call.hctx < c.nrHwQueues) :
    Cared c (setCall w new s) where
  rqs := hs.rqs
  calls := by
    intro y call hc
    by_cases hy : y = w
    · subst hy
      rw [setCall_calls, Function.update_self] at hc
      exact hnew call hc
    · rw [setCall_calls, Function.update_of_ne hy] at hc
      exact hs.calls y call hc
  range := hs.range
  attended := fun x hne =>
    (hs.attended x hne).mono (watches_setCall fun call hc hpc => absurd hpc (hold call hc))

theorem Cared.updateDispatchBusy (hs : Cared c s) (h : ℕ) (busy : Bool) :
    Cared c (s.updateDispatchBusy c h busy) := by
  refine hs.same (aside_updateDispatchBusy c s h busy).home (updateDispatchBusy_calls busy)
    (fun x hne => ?_)
    fun x => watches_updateDispatchBusy c s h busy
  rwa [updateDispatchBusy_lists] at hne

theorem Cared.runLater (hs : Cared c s) (h : ℕ) (async : Bool) : Cared c (s.runLater h async) :=
  hs.same rfl rfl (fun _ => id) fun _ => watches_runLater s h async

theorem Cared.bypassInsert (hs : Cared c s) (atHead runQueue : Bool)
    (hrun : runQueue = true ∨ Attended s (s.hctxOf r)) :
    Cared c (s.bypassInsert r atHead runQueue) := by
  have hdispatch := congrArg MqLists.dispatch (bypassInsert_lists (s := s) (r := r) atHead runQueue)
  have hwatch : ∀ x, Watches x s (s.bypassInsert r atHead runQueue) := by
    intro x
    cases runQueue with
    | true => exact ⟨.refl _, id, fun _ hp => List.mem_append_left _ hp, id, fun _ _ h _ _ => h⟩
    | false => exact ⟨.refl _, id, fun _ => id, id, fun _ _ h _ _ => h⟩
  refine hs.at_ (fun _ => hs.rqs r) (aside_bypass s r atHead runQueue).home ?_ (fun x _ => hwatch x)
    (fun x hx => ?_) fun _ => ?_
  · cases runQueue <;> exact hs.calls
  · rw [hdispatch]
    exact Function.update_of_ne hx _ _
  · rcases hrun with rfl | ha
    · exact attended_runLater _ _ _
    · exact ha.mono (hwatch _)

section Dispatch

theorem Cared.dispatchIssue (hs : Cared c s) (env : DispatchEnv) {call : DispatchCall}
    (hcall : call.hctx < c.nrHwQueues) (hold : ∀ call, s.calls w = some call → call.pc ≠ .rerun) :
    Cared c (dispatchIssue c env w r rest call s) := by
  have hset : ∀ {s₁ : MqState} (new : DispatchCall), new.hctx = call.hctx → Plain s s₁ →
      Cared c (Blk.setCall w (some new) s₁) := by
    intro s₁ new hnew h₁
    refine (hs.plain h₁).setCall _ (fun call hc => hold call (h₁.calls ▸ hc)) fun call' hc => ?_
    cases hc
    rwa [hnew]
  have hnext := (plain_tagNext c s env.nextTag rest).trans (plain_start _ env.started r)
  unfold Blk.dispatchIssue
  dsimp only
  cases env.ret with
  | resource | devResource =>
    exact hset _ rfl (hnext.trans ((plain_untagNext c _ rest).trans (plain_requeueRequest c _ r)))
  | ioerr => exact hset _ rfl (hnext.trans ((plain_offCall w r rest _).trans (plain_end c _ r)))
  | ok => exact hset _ rfl (hnext.trans ((plain_offCall w r rest _).trans (plain_toDriver _ r)))

theorem Cared.dispatchTurn (hs : Cared c s) (env : DispatchEnv) (call : DispatchCall)
    (hold : ∀ call, s.calls w = some call → call.pc ≠ .rerun) :
    Cared c (dispatchTurn c env w r rest call s) := by
  have htag := hs.plain (plain_getDriverTag c s env.tag r)
  unfold Blk.dispatchTurn
  dsimp only
  split_ifs
  · refine (hs.plain (plain_putDriverTag c s r)).setCall _ hold fun call' hc => ?_
    cases hc
    exact hs.rqs r
  · exact htag.dispatchIssue env (hs.rqs r) hold
  · have hwait : Cared c ((s.getDriverTag c env.tag r).markTagWait c env.tagAgain r).2 := by
      refine htag.same (aside_markTagWait c _ _ _).home (markTagWait_calls _)
        (fun x hne => ?_) fun x => watches_markTagWait c _ _ _
      rwa [markTagWait_lists] at hne
    have hcalls : ((s.getDriverTag c env.tag r).markTagWait c env.tagAgain r).2.calls = s.calls :=
      markTagWait_calls _
    rcases hres : (s.getDriverTag c env.tag r).markTagWait c env.tagAgain r with ⟨_ | _, s₁⟩
    all_goals rw [hres] at hwait hcalls
    · refine hwait.setCall _ (fun call hc => hold call (hcalls ▸ hc)) fun call' hc => ?_
      cases hc
      exact hs.rqs r
    · exact hwait.dispatchIssue env (hs.rqs r) fun call hc => hold call (hcalls ▸ hc)

theorem Cared.dispatchOut (hs : Cared c s) {call : DispatchCall} (hcall : s.calls w = some call)
    (hpc : call.pc = .out) :
    Cared c (dispatchOut c w call s) := by
  have hold : ∀ call', s.calls w = some call' → call'.pc ≠ .rerun := by
    intro call' hc
    rw [hcall] at hc
    cases hc
    simp [hpc]
  unfold Blk.dispatchOut
  dsimp only
  generalize hs₁ : s.setFlags call.hctx _ = s₁
  have hcalls : s₁.calls = s.calls := hs₁ ▸ rfl
  have hcount : Cared c s₁ := by
    subst hs₁
    exact hs.same rfl rfl (fun _ => id) fun x => watches_setFlags ⟨id, id, le_rfl, id, id⟩
  split_ifs
  · refine (hcount.updateDispatchBusy _ _).setCall _
      (fun call' hc => hold call' ?_) fun _ hc => by cases hc
    rwa [updateDispatchBusy_calls, hcalls] at hc
  · refine hcount.at_ (fun _ => hs.calls w call hcall) rfl (fun y call' hc => ?_) (fun x _ => ?_)
      (fun x hx => ?_) fun _ => ?_
    · by_cases hy : y = w
      · subst hy
        rw [setCall_calls, Function.update_self] at hc
        cases hc
        exact hs.calls y call hcall
      · rw [setCall_calls, Function.update_of_ne hy] at hc
        exact hcount.calls y call' hc
    · exact (watches_withLists s₁ _).trans
        (watches_setCall fun call' hc hpc' => absurd hpc' (hold call' (hcalls ▸ hc)))
    · exact Function.update_of_ne hx _ _
    · exact .rerun w _ (Function.update_self ..) rfl rfl

/-- The call that has put requests back runs the queue, unless a request that will be freed does. -/
theorem Cared.dispatchRerun (hs : Cared c s) {call : DispatchCall} (hcall : s.calls w = some call) :
    Cared c (dispatchRerun c w call s) := by
  have hsplit : ∃ s₁ : MqState,
    Blk.dispatchRerun c w call s = Blk.setCall w none (s₁.updateDispatchBusy c call.hctx true) ∧
      s₁.calls = s.calls ∧ s₁.home = s.home ∧ (∀ x, Watches x s s₁) ∧
      ((s₁.flags call.hctx).restart = true ∨ (call.hctx, true) ∈ s₁.toRun) := by
    unfold Blk.dispatchRerun
    dsimp only
    split_ifs with hlater hres
    · exact ⟨_, rfl, rfl, rfl, fun x => watches_runLater s _ _,
        .inr (List.mem_append_right _ (List.mem_singleton.2 rfl))⟩
    · have hw := fun x => watches_delayRun (x := x) c s true false call.hctx
      have hrestart : (s.flags call.hctx).restart =
        true := by simpa using fun hf => hlater (.inl hf)
      exact ⟨_, rfl, delayRunHwQueue_calls _ _, (aside_delayRun c s _ _ _).home, hw,
        .inl ((hw _).flags.restart hrestart)⟩
    · have hrestart : (s.flags call.hctx).restart =
        true := by simpa using fun hf => hlater (.inl hf)
      exact ⟨_, rfl, rfl, rfl, fun x => .refl s, .inl hrestart⟩
  obtain ⟨s₁, heq, hcalls, hhome, hw, hwhy⟩ := hsplit
  have hbusy := fun x => watches_updateDispatchBusy (x := x) c s₁ call.hctx true
  have hcalls' := (updateDispatchBusy_calls (c := c) (h := call.hctx) true).trans hcalls
  refine hs.at_ (fun _ => hs.calls w call hcall) ?_ (fun y call' hc => ?_) (fun x hx => ?_)
    (fun x _ => ?_) fun _ => ?_
  · rw [heq]
    exact (aside_updateDispatchBusy c s₁ _ _).home.trans hhome
  · rw [heq, setCall_calls, hcalls'] at hc
    by_cases hy : y = w
    · subst hy
      simp at hc
    · rw [Function.update_of_ne hy] at hc
      exact hs.calls y call' hc
  · rw [heq]
    refine ((hw x).trans (hbusy x)).trans (watches_setCall fun call' hc _ hh => hx ?_)
    rw [hcalls', hcall] at hc
    cases hc
    exact hh.symm
  · rw [dispatchRerun_lists]
  · rw [heq]
    rcases hwhy with hrestart | hcalled
    · exact .restart ((hbusy _).flags.restart hrestart)
    · exact .called true ((hbusy _).toRun true hcalled)

end Dispatch

section Issue

theorem Cared.insertUnless (hs : Cared c s) (bypass : Bool) (r : ℕ) :
    Cared c (insertUnless bypass r s).2 := by
  unfold Blk.insertUnless
  split_ifs
  · exact hs
  · exact hs.bypassInsert false true (.inl rfl)

theorem Cared.issueDirectly (hs : Cared c s) (env : IssueEnv) (r : ℕ) :
    Cared c (issueDirectly c env r s).2 := by
  have hstart := hs.plain (plain_start s env.started r)
  unfold Blk.issueDirectly
  dsimp only
  cases env.ret with
  | ok => exact (hstart.updateDispatchBusy _ false).plain (plain_toDriver _ r)
  | resource | devResource =>
    exact (hstart.updateDispatchBusy _ true).plain (plain_requeueRequest c _ r)
  | ioerr => exact hstart.updateDispatchBusy _ false

/-- A queue that takes a request without a run is one that is run when it is started. -/
theorem Cared.tryIssue (hs : Cared c s) (env : IssueEnv) (bypass : Bool) (r : ℕ) :
    Cared c (tryIssue c env bypass r s).2 := by
  have htag := hs.plain (plain_getDriverTag c s env.tag r)
  unfold Blk.tryIssue
  dsimp only
  split_ifs with hstop
  · refine hs.bypassInsert false false (.inr ?_)
    rcases hstop with hf | hq
    · exact .stopped hf
    · exact .quiesced hq
  · exact hs.insertUnless bypass r
  · exact hs.insertUnless bypass r
  · exact htag.issueDirectly env r
  · exact htag.insertUnless bypass r

theorem Cared.tryIssueDirectly (hs : Cared c s) (env : IssueEnv) (r : ℕ) :
    Cared c (blkMqTryIssueDirectly c env r s) := by
  have htry := hs.tryIssue env false r
  unfold blkMqTryIssueDirectly
  rcases hres : Blk.tryIssue c env false r s with ⟨st, s₁⟩
  rw [hres] at htry
  cases st with
  | ok => exact htry
  | resource | devResource => exact htry.bypassInsert false true (.inl rfl)
  | ioerr => exact htry.plain (plain_end c s₁ r)

theorem Cared.giveBack (hs : Cared c s) (w r : ℕ) (rest : List ℕ) :
    Cared c (giveBack w (s.hctxOf r) rest (s.bypassInsert r false rest.isEmpty)) := by
  cases rest with
  | nil => exact hs.bypassInsert false true (.inl rfl)
  | cons r' rest =>
    have hrun := attended_runLater s (s.hctxOf r) false
    have hput : Cared c ((s.runLater (s.hctxOf r) false).bypassInsert r false false) :=
      (hs.runLater _ false).bypassInsert false false (.inr hrun)
    exact hput.plain ⟨rfl, rfl, rfl, rfl, rfl, rfl, rfl⟩

theorem Cared.issueTurn (hs : Cared c s) (env : IssueEnv) (w r : ℕ) (rest : List ℕ) :
    Cared c (issueTurn c env w r rest s) := by
  have hoff : Plain s ((s.withLists
      fun l => { l with issues := Function.update l.issues w rest }).toHeld r) :=
    ⟨rfl, rfl, rfl, rfl, rfl, rfl, rfl⟩
  have htry := (hs.plain hoff).tryIssue env true r
  have hctx := hctxOf_of_home ((aside_tryIssue (c := c) env true _ r).home.trans hoff.home) r
  unfold Blk.issueTurn
  dsimp only
  rcases hres : Blk.tryIssue c env true r _ with ⟨st, s₁⟩
  rw [hres] at htry hctx
  cases st with
  | ok => exact htry
  | resource | devResource =>
    dsimp only at hctx ⊢
    rw [← hctx]
    exact htry.giveBack w r rest
  | ioerr => exact htry.plain (plain_end c s₁ r)

end Issue

section Requeue

theorem Cared.requeueTurn (hs : Cared c s) (hactive : s.requeueActive = true) (r : ℕ)
    (rest : List ℕ) :
    Cared c (requeueTurn r rest s) := by
  have hbarrier : Aside s (s.setRq r fun rq => { rq with softbarrier := false }) :=
    aside_setRq (fun _ => rfl) fun _ => rfl
  have hplain : Plain s (((s.setRq r fun rq => { rq with softbarrier := false }).withLists fun l =>
      { l with requeuing := rest }).toHeld r) := ⟨rfl, rfl, rfl, rfl, rfl, rfl, hbarrier.home⟩
  have hoff := hs.plain hplain
  unfold Blk.requeueTurn
  dsimp only
  split_ifs
  · exact hoff.bypassInsert false false (.inr (.requeuing hactive))
  · exact hoff

/-- All queues that are not stopped are run, so the reason that ends was not needed. -/
theorem Cared.runHwQueues (hs : Cared c s) (async : Bool) (hhome : s'.home = s.home)
    (hcalls : s'.calls = s.calls) (hd : s'.lists.dispatch = s.lists.dispatch) :
    Cared c (s'.blkMqRunHwQueues c async) where
  rqs := fun r => hctxOf_of_home hhome r ▸ hs.rqs r
  calls := by
    intro w call hc
    exact hs.calls w call (hcalls ▸ hc)
  range := by
    intro h hne
    exact hs.range h (hd ▸ hne)
  attended := by
    intro h hne
    have hh : h < c.nrHwQueues := hs.range h (hd ▸ hne)
    by_cases hstop : (s'.flags h).stopped = true
    · exact .stopped hstop
    · have hin : h ∈ (List.range c.nrHwQueues).filter fun h => !(s'.flags h).stopped := by
        simp [hh, hstop]
      exact .called async (List.mem_append_right _ (List.mem_map_of_mem hin))

end Requeue

end Cared

/-! What a step does. -/

section Steps

variable {c : MqConfig} {s s' : MqState} {h : ℕ}

/-- Who puts a request on a dispatch list has the queue run, or is `blk_mq_requeue_work`, which does
so at its end. -/
def AsksForRun (s : MqState) : MqEvent → Prop
  | .ctx (.bypassInsert _ _ runQueue) => runQueue = true ∨ s.requeueActive = true
  | _ => True

instance : ∀ (s : MqState) (e : MqEvent), Decidable (AsksForRun s e)
  | _, .getRequest .. | _, .call _ | _, .driver _ | _, .run _ => .isTrue trivial
  | _, .ctx (.insertRequest ..) | _, .ctx (.insertRequests ..) | _, .ctx (.flushBusyCtx ..)
  | _, .ctx (.dispatchRqFromCtx ..) | _, .ctx (.notifyDead ..) => .isTrue trivial
  | s, .ctx (.bypassInsert _ _ runQueue) =>
    inferInstanceAs (Decidable (runQueue = true ∨ s.requeueActive = true))

theorem ctxStep_cared {e : CtxEvent} (hs : Cared c s) (hok : AsksForRun s (.ctx e))
    (hstep : ctxStep c s e = some s') :
    Cared c s' := by
  cases e with
  | insertRequest r atHead =>
    simp only [ctxStep] at hstep
    split_ifs at hstep
    cases hstep
    exact hs.plain (plain_withLists rfl)
  | insertRequests h cpu l =>
    simp only [ctxStep] at hstep
    split_ifs at hstep
    cases hstep
    exact hs.plain (plain_withLists rfl)
  | bypassInsert r atHead runQueue =>
    simp only [ctxStep] at hstep
    split_ifs at hstep
    cases hstep
    exact hs.bypassInsert _ _ (hok.imp id .requeuing)
  | flushBusyCtx h bit =>
    obtain ⟨cpu, -, rfl⟩ := Option.map_eq_some_iff.1 hstep
    exact hs.plain (plain_withLists rfl)
  | dispatchRqFromCtx h bit =>
    obtain ⟨cpu, -, rfl⟩ := Option.map_eq_some_iff.1 hstep
    split
    · exact hs
    · exact hs.plain (plain_withLists rfl)
  | notifyDead h cpu =>
    simp only [ctxStep] at hstep
    split_ifs at hstep with hh
    cases hstep
    unfold notifyDead
    dsimp only
    split_ifs
    · exact hs
    · refine hs.at_ (h := h) (fun _ => hh) rfl hs.calls (fun x _ => ?_) (fun x hx => ?_) fun _ =>
        attended_runLater _ _ _
      · exact (watches_withLists s _).trans (watches_runLater _ h true)
      · exact Function.update_of_ne hx _ _

theorem callStep_cared {e : CallEvent} (hs : Cared c s) (hstep : callStep c s e = some s') :
    Cared c s' := by
  cases e with
  | dispatchStart w l gotBudget =>
    simp only [callStep] at hstep
    split_ifs at hstep with hl
    cases hstep
    refine (hs.plain (plain_withLists rfl)).setCall _ (fun call hc => ?_) fun call hc => ?_
    · have hnone : s.calls w = some call := hc
      rw [hl.1] at hnone
      cases hnone
    · cases hc
      exact hs.rqs _
  | dispatchTurn w env =>
    simp only [callStep] at hstep
    split at hstep
    · next call _ _ hcall _ =>
      split_ifs at hstep with hpc
      cases hstep
      refine hs.dispatchTurn env call fun call' hc => ?_
      rw [hcall] at hc
      cases hc
      simp [hpc]
    · cases hstep
  | dispatchOut w =>
    simp only [callStep] at hstep
    split at hstep
    · next hcall =>
      split_ifs at hstep with hpc
      cases hstep
      exact hs.dispatchOut hcall hpc
    · cases hstep
  | dispatchRerun w =>
    simp only [callStep] at hstep
    split at hstep
    · next hcall =>
      split_ifs at hstep
      cases hstep
      exact hs.dispatchRerun hcall
    · cases hstep
  | tryIssueDirectly r env =>
    simp only [callStep] at hstep
    split_ifs at hstep
    cases hstep
    exact hs.tryIssueDirectly env r
  | issueStart w l =>
    simp only [callStep] at hstep
    split_ifs at hstep
    cases hstep
    exact hs.plain (plain_withLists rfl)
  | issueTurn w env =>
    simp only [callStep] at hstep
    split at hstep
    · cases hstep
      exact hs.issueTurn env w _ _
    · cases hstep

theorem driverStep_cared {e : DriverEvent} (hs : Cared c s) (hstep : driverStep c s e = some s') :
    Cared c s' := by
  have hoff : ∀ r, Cared c (offDriver s r) := fun r => hs.plain ⟨rfl, rfl, rfl, rfl, rfl, rfl, rfl⟩
  cases e with
  | complete r =>
    simp only [driverStep] at hstep
    split_ifs at hstep
    cases hstep
    have hdone : Aside s (s.setRq r fun rq => { rq with state := .complete }) :=
      aside_setRq (fun _ => rfl) fun _ => rfl
    exact hs.plain ⟨rfl, rfl, rfl, rfl, rfl, rfl, hdone.home⟩
  | endRequest r =>
    simp only [driverStep] at hstep
    split_ifs at hstep
    cases hstep
    exact (hoff r).plain (plain_end c _ r)
  | requeue r kick =>
    simp only [driverStep] at hstep
    split_ifs at hstep
    cases hstep
    exact (hoff r).plain ((plain_requeueRequest c _ r).trans (plain_requeueList _ true kick r))
  | addToRequeueList r atHead kick =>
    simp only [driverStep] at hstep
    split_ifs at hstep
    cases hstep
    exact hs.plain (plain_requeueList s atHead kick r)
  | requeueTake =>
    simp only [driverStep] at hstep
    split_ifs at hstep
    cases hstep
    exact hs.same rfl rfl (fun _ => id) fun _ =>
      ⟨.refl _, id, fun _ => id, fun _ => rfl, fun _ _ hc _ _ => hc⟩
  | requeueTurn =>
    simp only [driverStep] at hstep
    split at hstep
    · split_ifs at hstep with hactive
      cases hstep
      exact hs.requeueTurn hactive _ _
    · cases hstep
  | requeueDone =>
    simp only [driverStep] at hstep
    split_ifs at hstep
    cases hstep
    exact hs.runHwQueues false rfl rfl rfl

theorem Cared.setFlags (hs : Cared c s) {f : HctxFlags → HctxFlags}
    (ha : s.lists.dispatch h ≠ [] → Attended (s.setFlags h f) h) : Cared c (s.setFlags h f) :=
  hs.at_ (hs.range h) rfl hs.calls (fun _ hx => watches_setFlags_ne hx) (fun _ _ => rfl) ha

theorem Cared.setFlags_runLater (hs : Cared c s) (f : HctxFlags → HctxFlags) (async : Bool) :
    Cared c ((s.setFlags h f).runLater h async) :=
  hs.at_ (h := h) (hs.range h) rfl hs.calls
    (fun _ hx => (watches_setFlags_ne hx).trans (watches_runLater _ h async))
    (fun _ _ => rfl) fun _ => attended_runLater _ h async

theorem Cared.run (hs : Cared c s) {k : ℕ} {p : ℕ × Bool} (hk : s.toRun[k]? = some p)
    (here work : Bool) :
    Cared c ({ s with toRun := s.toRun.eraseIdx k }.blkMqRunHwQueue c p.2 here work p.1) := by
  have hlists := runHwQueue_lists c { s with toRun := s.toRun.eraseIdx k } p.1 p.2 here work
  refine hs.at_ (h := p.1) ?_ ?_ ?_ (fun x hx => ?_) (fun x _ => by rw [hlists]) fun hne => ?_
  · rw [hlists]
    exact hs.range p.1
  · exact (aside_runHwQueue c _ p.2 here work p.1).home
  · intro w call hc
    unfold blkMqRunHwQueue at hc
    split_ifs at hc
    · rw [delayRunHwQueue_calls] at hc
      exact hs.calls w call hc
    · exact hs.calls w call hc
  · have herase : Watches x s { s with toRun := s.toRun.eraseIdx k } := by
      refine ⟨.refl _, id, fun async hm => ?_, id, fun _ _ h _ _ => h⟩
      obtain ⟨i, hi⟩ := List.mem_iff_getElem?.1 hm
      refine List.mem_eraseIdx_iff_getElem?.2 ⟨i, ?_, hi⟩
      rintro rfl
      rw [hk] at hi
      cases hi
      exact hx rfl
    exact herase.trans (watches_runHwQueue c _ _ _ _ _)
  · rw [hlists] at hne
    exact attended_runHwQueue c p.2 here work hne

theorem runStep_cared {e : RunEvent} (hs : Cared c s) (hstep : runStep c s e = some s') :
    Cared c s' := by
  cases e with
  | callRun h async =>
    simp only [runStep] at hstep
    split_ifs at hstep
    cases hstep
    exact hs.runLater h async
  | run k here work =>
    obtain ⟨p, hk, rfl⟩ := Option.map_eq_some_iff.1 hstep
    exact hs.run hk here work
  | runWork h =>
    simp only [runStep] at hstep
    split_ifs at hstep
    cases hstep
    refine hs.setFlags fun _ => ?_
    by_cases hstop : (s.flags h).stopped = true
    · refine .stopped ?_
      rw [setFlags_flags, if_pos hstop]
      exact hstop
    · refine .running ?_
      rw [setFlags_flags, if_neg hstop]
      exact Nat.succ_pos _
  | runTakes h =>
    simp only [runStep] at hstep
    split_ifs at hstep with hrunning hstop
    · cases hstep
      refine hs.setFlags fun _ => ?_
      rcases hstop with hf | hq
      · refine .stopped ?_
        rw [setFlags_flags]
        exact hf
      · exact .quiesced hq
    · cases hstep
      refine hs.at_ (h := h) (fun hne => ?_) rfl hs.calls (fun x hx => ?_)
        (fun x hx => ?_) fun hne => ?_
      · exact absurd (Function.update_self ..) hne
      · exact (watches_setFlags_ne hx).trans (watches_withLists _ _)
      · exact Function.update_of_ne hx _ _
      · exact absurd (Function.update_self ..) hne
  | stopHwQueue h =>
    cases hstep
    refine hs.setFlags fun _ => .stopped ?_
    rw [setFlags_flags]
  | startHwQueue h =>
    cases hstep
    exact hs.setFlags_runLater _ false
  | startStoppedHwQueue h async =>
    simp only [runStep] at hstep
    split_ifs at hstep
    · cases hstep
      exact hs.setFlags_runLater _ async
    · cases hstep
      exact hs
  | quiesce =>
    cases hstep
    exact hs.same rfl rfl (fun _ => id) fun _ =>
      ⟨.refl _, fun _ => rfl, fun _ => id, id, fun _ _ hc _ _ => hc⟩
  | unquiesce =>
    cases hstep
    exact hs.runHwQueues true rfl rfl rfl
  | markRestart h =>
    cases hstep
    exact hs.same rfl rfl (fun _ => id) fun _ => watches_setFlags ⟨id, id, le_rfl, fun _ => rfl, id⟩
  | schedRestart h =>
    simp only [runStep] at hstep
    split_ifs at hstep
    · cases hstep
      exact hs.setFlags_runLater _ true
    · cases hstep
      exact hs
  | dispatchWake h =>
    simp only [runStep] at hstep
    split_ifs at hstep
    cases hstep
    exact hs.setFlags_runLater _ true

theorem mqStep_cared {e : MqEvent} (hs : Cared c s) (hok : AsksForRun s e)
    (hstep : mqStep c s e = some s') :
    Cared c s' := by
  cases e with
  | getRequest mqCtx mqHctx tag dontprep =>
    simp only [mqStep] at hstep
    split_ifs at hstep with hh
    cases hstep
    refine ⟨fun r => ?_, hs.calls, hs.range, fun h hne => (hs.attended h hne).mono ?_⟩
    · by_cases hr : r = s.lists.born
      · subst hr
        simpa [MqState.hctxOf, freshRequest_home] using hh
      · simpa [MqState.hctxOf, Function.update_of_ne hr] using hs.rqs r
    · exact ⟨.refl _, id, fun _ => id, id, fun _ _ hc _ _ => hc⟩
  | ctx e => exact ctxStep_cared hs hok hstep
  | call e => exact callStep_cared hs hstep
  | driver e => exact driverStep_cared hs hstep
  | run e => exact runStep_cared hs hstep

end Steps

/-- A request on a dispatch list does not wait for nothing: the queue is stopped or quiesced,
someone runs it, or someone has left the sign by which the next request that is done will run it. -/
theorem dispatch_list_attended {c : MqConfig} {es : List MqEvent} {s : MqState} {h : ℕ}
    (hrun : (mqSystem c).RunIn AsksForRun es s) (hne : s.lists.dispatch h ≠ []) : Attended s h := by
  have hcared : Cared c s := by
    refine hrun.invariant (I := Cared c) ?_ fun _ _ _ hs hok hstep => mqStep_cared hs hok hstep
    refine ⟨fun _ => c.pos, fun w call hc => ?_, fun h hne => absurd rfl hne,
      fun h hne => absurd rfl hne⟩
    cases hc
  exact hcared.attended h hne

theorem dispatch_list_attended_short :
    ∃ s, (mqSystem oneQueue).RunIn AsksForRun shortOfRoom s ∧ s.lists.dispatch 0 = [1] ∧
      Attended s 0 := by
  obtain ⟨s, hrun, hdispatch⟩ := @Runs.System.exists_runIn_of_execIn _ _ (mqSystem oneQueue)
    AsksForRun _ (fun s => s.lists.dispatch 0 = [1]) _ shortOfRoom (by decide +kernel)
  refine ⟨s, hrun, hdispatch, dispatch_list_attended hrun ?_⟩
  rw [hdispatch]
  exact List.cons_ne_nil _ _

end BlkSwitch.Blk
