import BlkSwitch.Proofs.BlkCustody

/-! The software queue and the hardware queue of a request are settled when it is allocated, and
only the functions that insert and flush requests touch the lists of software queues and the bits
that go with them. -/

namespace BlkSwitch.Blk

open MqState

/-- `mq_ctx` and `mq_hctx` of a request. -/
def MqState.home (s : MqState) (r : ℕ) : RqQueues := ⟨(s.rq r).mqCtx, s.hctxOf r⟩

structure Aside (s s' : MqState) : Prop where
  home : s'.home = s.home
  sw : s'.lists.sw = s.lists.sw

section Functions

variable {c : MqConfig} {s s' s'' : MqState} {r w h : ℕ} {rest : List ℕ}

theorem Aside.refl (s : MqState) : Aside s s := ⟨rfl, rfl⟩

theorem Aside.trans (h : Aside s s') (h' : Aside s' s'') : Aside s s'' :=
  ⟨h'.home.trans h.home, h'.sw.trans h.sw⟩

theorem hctxOf_of_home (h : s'.home = s.home) (r : ℕ) : s'.hctxOf r = s.hctxOf r :=
  congrArg RqQueues.mqHctx (congrFun h r)

theorem aside_setRq {f : MqRequest → MqRequest} (hctx : ∀ rq, (f rq).mqCtx = rq.mqCtx)
    (hhctx : ∀ rq, (f rq).tags.mqHctx = rq.tags.mqHctx) : Aside s (s.setRq r f) := by
  refine ⟨funext fun x => ?_, rfl⟩
  by_cases hx : x = r
  · subst hx
    simp [home, MqState.hctxOf, setRq, hctx, hhctx]
  · simp [home, MqState.hctxOf, setRq, Function.update_of_ne hx]

theorem aside_onTags {f : TagRequest → TagState → TagRequest × TagState}
    (hf : ∀ rq st, (f rq st).1.mqHctx = rq.mqHctx) : Aside s (s.onTags c f r) := by
  refine ⟨funext fun x => ?_, rfl⟩
  by_cases hx : x = r
  · subst hx
    simp [home, MqState.hctxOf, onTags, setRq, hf]
  · simp [home, MqState.hctxOf, onTags, setRq, Function.update_of_ne hx]

theorem aside_getDriverTag (c : MqConfig) (s : MqState) (got : Option ℕ) (r : ℕ) :
    Aside s (s.getDriverTag c got r) := by
  refine aside_onTags fun rq st => ?_
  unfold blkMqGetDriverTag
  cases got with
  | none => split_ifs <;> rfl
  | some tag => split_ifs <;> rfl

theorem aside_putDriverTag (c : MqConfig) (s : MqState) (r : ℕ) : Aside s (s.putDriverTag c r) := by
  refine aside_onTags fun rq st => ?_
  unfold blkMqPutDriverTag Blk.putDriverTag
  split_ifs <;> rfl

theorem aside_start (s : MqState) (started : Bool) (r : ℕ) :
    Aside s (if started then s.blkMqStartRequest r else s) := by
  split_ifs
  · exact aside_setRq (fun _ => rfl) fun _ => rfl
  · exact .refl s

theorem aside_requeueRequest (c : MqConfig) (s : MqState) (r : ℕ) :
    Aside s (s.requeueRequest c r) := by
  refine (aside_putDriverTag c s r).trans (aside_setRq ?_ ?_)
  all_goals
    intro rq
    split_ifs <;> rfl

theorem aside_withLists {f : MqLists → MqLists} (hf : (f s.lists).sw = s.lists.sw) :
    Aside s (s.withLists f) := ⟨rfl, hf⟩

theorem aside_end (c : MqConfig) (s : MqState) (r : ℕ) : Aside s (s.blkMqEndRequest c r) := by
  have hfree : Aside s (s.onTags c blkMqFreeRequest r) := aside_onTags fun _ _ => rfl
  have hidle : Aside (s.onTags c blkMqFreeRequest r)
      ((s.onTags c blkMqFreeRequest r).setRq r fun rq => { rq with state := .idle }) :=
    aside_setRq (fun _ => rfl) fun _ => rfl
  exact (hfree.trans hidle).trans (aside_withLists rfl)

theorem aside_updateDispatchBusy (c : MqConfig) (s : MqState) (h : ℕ) (busy : Bool) :
    Aside s (s.updateDispatchBusy c h busy) := by
  unfold updateDispatchBusy
  split_ifs <;> exact ⟨rfl, rfl⟩

theorem aside_delayRun (c : MqConfig) (s : MqState) (async here : Bool) (h : ℕ) :
    Aside s (s.delayRunHwQueue c async here h) := by
  unfold delayRunHwQueue
  split_ifs <;> exact ⟨rfl, rfl⟩

theorem aside_runHwQueue (c : MqConfig) (s : MqState) (async here work : Bool) (h : ℕ) :
    Aside s (s.blkMqRunHwQueue c async here work h) := by
  unfold blkMqRunHwQueue
  split_ifs
  · exact aside_delayRun c s async here h
  · exact .refl s

theorem aside_markTagWait (c : MqConfig) (s : MqState) (again : Option ℕ) (r : ℕ) :
    Aside s (s.markTagWait c again r).2 := by
  have hflags : ∀ (s : MqState) h f, Aside s (s.setFlags h f) := fun _ _ _ => ⟨rfl, rfl⟩
  unfold markTagWait
  dsimp only
  split_ifs
  · exact (hflags s _ _).trans (aside_getDriverTag c _ again r)
  · exact .refl s
  · dsimp only
    refine .trans ?_ (hflags _ _ _)
    exact (hflags s _ _).trans (aside_getDriverTag c _ again r)
  · exact (hflags s _ _).trans (aside_getDriverTag c _ again r)

theorem aside_bypass (s : MqState) (r : ℕ) (atHead runQueue : Bool) :
    Aside s (s.bypassInsert r atHead runQueue) := by
  cases runQueue <;> exact ⟨rfl, rfl⟩

theorem aside_requeueList (s : MqState) (r : ℕ) (atHead kick : Bool) :
    Aside s (s.addToRequeueList r atHead kick) := by
  cases atHead with
  | true =>
    have hflag : Aside s (s.setRq r fun rq => { rq with softbarrier := true }) :=
      aside_setRq (fun _ => rfl) fun _ => rfl
    exact ⟨hflag.home, rfl⟩
  | false => exact ⟨rfl, rfl⟩

theorem aside_tagNext (c : MqConfig) (s : MqState) (got : Option ℕ) (rest : List ℕ) :
    Aside s (tagNext c got rest s) := by
  cases rest with
  | nil => exact .refl s
  | cons nxt _ => exact aside_getDriverTag c s got nxt

theorem aside_untagNext (c : MqConfig) (s : MqState) (rest : List ℕ) :
    Aside s (untagNext c rest s) := by
  cases rest with
  | nil => exact .refl s
  | cons nxt _ => exact aside_putDriverTag c s nxt

theorem aside_dispatchIssue (env : DispatchEnv) (call : DispatchCall) :
    Aside s (dispatchIssue c env w r rest call s) := by
  have hnext := (aside_tagNext c s env.nextTag rest).trans (aside_start _ env.started r)
  have hoff : ∀ s₁ : MqState, Aside s₁ (offCall w r rest s₁) := fun _ => ⟨rfl, rfl⟩
  have hset : ∀ {s₁ : MqState} new, Aside s s₁ → Aside s (setCall w new s₁) :=
    fun _ h₁ => ⟨h₁.home, h₁.sw⟩
  unfold dispatchIssue
  dsimp only
  cases env.ret with
  | resource | devResource =>
    exact hset _ ((hnext.trans (aside_untagNext c _ rest)).trans (aside_requeueRequest c _ r))
  | ioerr => exact hset _ ((hnext.trans (hoff _)).trans (aside_end c _ r))
  | ok => exact hset _ (hnext.trans ((hoff _).trans ⟨rfl, rfl⟩))

theorem aside_dispatchTurn (env : DispatchEnv) (call : DispatchCall) :
    Aside s (dispatchTurn c env w r rest call s) := by
  have htag := aside_getDriverTag c s env.tag r
  have hset : ∀ {s₁ : MqState} new, Aside s s₁ → Aside s (setCall w new s₁) :=
    fun _ h₁ => ⟨h₁.home, h₁.sw⟩
  unfold dispatchTurn
  dsimp only
  split_ifs
  · exact hset _ (aside_putDriverTag c s r)
  · exact htag.trans (aside_dispatchIssue env _)
  · have hmark := htag.trans (aside_markTagWait c _ env.tagAgain r)
    rcases hres : (s.getDriverTag c env.tag r).markTagWait c env.tagAgain r with ⟨_ | _, s₁⟩
    all_goals rw [hres] at hmark
    · exact hset _ hmark
    · exact hmark.trans (aside_dispatchIssue env _)

theorem aside_dispatchOut (call : DispatchCall) : Aside s (dispatchOut c w call s) := by
  unfold dispatchOut
  dsimp only
  generalize hs₁ : s.setFlags call.hctx _ = s₁
  have hcount : Aside s s₁ := hs₁ ▸ ⟨rfl, rfl⟩
  split_ifs
  · have hbusy := hcount.trans (aside_updateDispatchBusy c s₁ call.hctx false)
    exact ⟨hbusy.home, hbusy.sw⟩
  · exact ⟨hcount.home, hcount.sw⟩

theorem aside_dispatchRerun (call : DispatchCall) : Aside s (dispatchRerun c w call s) := by
  have hend : ∀ {s₁ : MqState}, Aside s s₁ →
      Aside s (setCall w none (s₁.updateDispatchBusy c call.hctx true)) := by
    intro s₁ h₁
    have hbusy := h₁.trans (aside_updateDispatchBusy c s₁ call.hctx true)
    exact ⟨hbusy.home, hbusy.sw⟩
  unfold dispatchRerun
  dsimp only
  split_ifs
  · exact hend ⟨rfl, rfl⟩
  · exact hend (aside_delayRun c s true false call.hctx)
  · exact hend (.refl s)

theorem aside_insertUnless (bypass : Bool) (s : MqState) (r : ℕ) :
    Aside s (insertUnless bypass r s).2 := by
  unfold insertUnless
  split_ifs
  · exact .refl s
  · exact aside_bypass s r false true

theorem aside_issueDirectly (env : IssueEnv) (s : MqState) (r : ℕ) :
    Aside s (issueDirectly c env r s).2 := by
  have hstart := aside_start s env.started r
  unfold issueDirectly
  dsimp only
  generalize (if env.started then s.blkMqStartRequest r else s) = s₁ at hstart ⊢
  have hbusy := fun busy => hstart.trans (aside_updateDispatchBusy c s₁ (s.hctxOf r) busy)
  cases env.ret with
  | ok => exact ⟨(hbusy false).home, (hbusy false).sw⟩
  | resource | devResource => exact (hbusy true).trans (aside_requeueRequest c _ r)
  | ioerr => exact hbusy false

theorem aside_tryIssue (env : IssueEnv) (bypass : Bool) (s : MqState) (r : ℕ) :
    Aside s (tryIssue c env bypass r s).2 := by
  have htag := aside_getDriverTag c s env.tag r
  unfold tryIssue
  dsimp only
  split_ifs
  · exact aside_bypass s r false false
  · exact aside_insertUnless bypass s r
  · exact aside_insertUnless bypass s r
  · exact htag.trans (aside_issueDirectly env _ r)
  · exact htag.trans (aside_insertUnless bypass _ r)

theorem aside_tryIssueDirectly (env : IssueEnv) (s : MqState) (r : ℕ) :
    Aside s (blkMqTryIssueDirectly c env r s) := by
  have htry := aside_tryIssue (c := c) env false s r
  unfold blkMqTryIssueDirectly
  rcases hres : tryIssue c env false r s with ⟨st, s₁⟩
  rw [hres] at htry
  cases st with
  | ok => exact htry
  | resource | devResource => exact htry.trans (aside_bypass s₁ r false true)
  | ioerr => exact htry.trans (aside_end c s₁ r)

theorem aside_issueTurn (env : IssueEnv) (s : MqState) (w r : ℕ) (rest : List ℕ) :
    Aside s (issueTurn c env w r rest s) := by
  have hoff : Aside s ((s.withLists
    fun l => { l with issues := Function.update l.issues w rest }).toHeld r) := ⟨rfl, rfl⟩
  have htry := hoff.trans (aside_tryIssue (c := c) env true _ r)
  unfold issueTurn
  dsimp only
  rcases hres : tryIssue c env true r _ with ⟨st, s₁⟩
  rw [hres] at htry
  cases st with
  | ok => exact htry
  | resource | devResource =>
    have hput := htry.trans (aside_bypass s₁ r false rest.isEmpty)
    dsimp only
    unfold giveBack
    split_ifs
    · exact hput
    · exact ⟨hput.home, hput.sw⟩
  | ioerr => exact htry.trans (aside_end c s₁ r)

theorem aside_requeueTurn (s : MqState) (r : ℕ) (rest : List ℕ) :
    Aside s (requeueTurn r rest s) := by
  have hflag : Aside s (s.setRq r fun rq => { rq with softbarrier := false }) :=
    aside_setRq (fun _ => rfl) fun _ => rfl
  have hoff : Aside s (((s.setRq r fun rq => { rq with softbarrier := false }).withLists fun l =>
      { l with requeuing := rest }).toHeld r) := ⟨hflag.home, rfl⟩
  unfold requeueTurn
  dsimp only
  split_ifs
  · exact hoff.trans (aside_bypass _ r false false)
  · exact hoff

end Functions

section Steps

variable {c : MqConfig} {s s' : MqState}

theorem callStep_aside {e : CallEvent} (hs : callStep c s e = some s') : Aside s s' := by
  cases e with
  | dispatchStart | issueStart =>
    simp only [callStep] at hs
    split_ifs at hs
    cases hs
    exact ⟨rfl, rfl⟩
  | dispatchTurn w env =>
    simp only [callStep] at hs
    split at hs
    · split_ifs at hs
      cases hs
      exact aside_dispatchTurn _ _
    · cases hs
  | dispatchOut w =>
    simp only [callStep] at hs
    split at hs
    · split_ifs at hs
      cases hs
      exact aside_dispatchOut _
    · cases hs
  | dispatchRerun w =>
    simp only [callStep] at hs
    split at hs
    · split_ifs at hs
      cases hs
      exact aside_dispatchRerun _
    · cases hs
  | tryIssueDirectly r env =>
    simp only [callStep] at hs
    split_ifs at hs
    cases hs
    exact aside_tryIssueDirectly env s r
  | issueTurn w env =>
    simp only [callStep] at hs
    split at hs
    · cases hs
      exact aside_issueTurn env s w _ _
    · cases hs

theorem driverStep_aside {e : DriverEvent} (hs : driverStep c s e = some s') : Aside s s' := by
  have hoff : ∀ r, Aside s (offDriver s r) := fun _ => ⟨rfl, rfl⟩
  cases e with
  | complete r =>
    simp only [driverStep] at hs
    split_ifs at hs
    cases hs
    exact aside_setRq (fun _ => rfl) fun _ => rfl
  | endRequest r =>
    simp only [driverStep] at hs
    split_ifs at hs
    cases hs
    exact (hoff r).trans (aside_end c _ r)
  | requeue r kick =>
    simp only [driverStep] at hs
    split_ifs at hs
    cases hs
    exact (hoff r).trans ((aside_requeueRequest c _ r).trans (aside_requeueList _ r true kick))
  | addToRequeueList r atHead kick =>
    simp only [driverStep] at hs
    split_ifs at hs
    cases hs
    exact aside_requeueList s r atHead kick
  | requeueTake | requeueDone =>
    simp only [driverStep] at hs
    split_ifs at hs
    cases hs
    exact ⟨rfl, rfl⟩
  | requeueTurn =>
    simp only [driverStep] at hs
    split at hs
    · split_ifs at hs
      cases hs
      exact aside_requeueTurn s _ _
    · cases hs

theorem runStep_aside {e : RunEvent} (hs : runStep c s e = some s') : Aside s s' := by
  cases e with
  | run k here work =>
    obtain ⟨p, -, rfl⟩ := Option.map_eq_some_iff.1 hs
    have herase : Aside s { s with toRun := s.toRun.eraseIdx k } := ⟨rfl, rfl⟩
    exact herase.trans (aside_runHwQueue c _ _ _ _ _)
  | runTakes h =>
    simp only [runStep] at hs
    split_ifs at hs
    all_goals
      cases hs
      exact ⟨rfl, rfl⟩
  | stopHwQueue | startHwQueue | quiesce | unquiesce | markRestart =>
    cases hs
    exact ⟨rfl, rfl⟩
  | callRun | runWork | startStoppedHwQueue | schedRestart | dispatchWake =>
    simp only [runStep] at hs
    split_ifs at hs <;> cases hs <;> exact ⟨rfl, rfl⟩

/-- An insertion or a flush moves requests; it does not change them. -/
theorem ctxStep_home {e : CtxEvent} (hs : ctxStep c s e = some s') : s'.home = s.home := by
  cases e with
  | insertRequest | insertRequests =>
    simp only [ctxStep] at hs
    split_ifs at hs
    cases hs
    rfl
  | bypassInsert r atHead runQueue =>
    simp only [ctxStep] at hs
    split_ifs at hs
    cases hs
    exact (aside_bypass s r atHead runQueue).home
  | flushBusyCtx h bit =>
    obtain ⟨cpu, -, rfl⟩ := Option.map_eq_some_iff.1 hs
    rfl
  | dispatchRqFromCtx h bit =>
    obtain ⟨cpu, -, rfl⟩ := Option.map_eq_some_iff.1 hs
    split <;> rfl
  | notifyDead h cpu =>
    simp only [ctxStep] at hs
    split_ifs at hs
    cases hs
    unfold notifyDead
    dsimp only
    split_ifs <;> rfl

theorem freshRequest_home (c : MqConfig) (s : MqState) (mqCtx mqHctx tag : ℕ) (dontprep : Bool) :
    (freshRequest c mqCtx mqHctx tag dontprep s).tags.mqHctx = mqHctx := by
  unfold freshRequest blkMqRqCtxInit
  dsimp only
  split_ifs <;> rfl

end Steps

end BlkSwitch.Blk
