import BlkSwitch.Lib.Places
import BlkSwitch.Spec.BlkDispatch

/-! No request of a queue is lost and none is in two places: whatever the order of insertions,
flushes, dispatches, failures, requeues and completions, each is on one list, once. -/

namespace BlkSwitch.Blk

open Places MqState

/-! Most of the functions leave the lists alone. -/

section Lists

variable (c : MqConfig) (s : MqState) (r h w : ℕ)

@[simp] theorem setRq_lists (f : MqRequest → MqRequest) : (s.setRq r f).lists = s.lists := rfl

@[simp] theorem onTags_lists (f : TagRequest → TagState → TagRequest × TagState) :
    (s.onTags c f r).lists = s.lists := rfl

@[simp] theorem getDriverTag_lists (got : Option ℕ) : (s.getDriverTag c got r).lists = s.lists :=
  rfl

@[simp] theorem putDriverTag_lists : (s.putDriverTag c r).lists = s.lists := rfl

@[simp] theorem startRequest_lists : (s.blkMqStartRequest r).lists = s.lists := rfl

@[simp] theorem requeueRequest_lists : (s.requeueRequest c r).lists = s.lists := rfl

@[simp] theorem setFlags_lists (f : HctxFlags → HctxFlags) : (s.setFlags h f).lists = s.lists := rfl

@[simp] theorem runLater_lists (async : Bool) : (s.runLater h async).lists = s.lists := rfl

@[simp] theorem runHwQueues_lists (async : Bool) : (s.blkMqRunHwQueues c async).lists = s.lists :=
  rfl

@[simp] theorem setCall_lists (call : Option DispatchCall) : (setCall w call s).lists = s.lists :=
  rfl

@[simp] theorem withLists_lists (f : MqLists → MqLists) : (s.withLists f).lists = f s.lists := rfl

@[simp] theorem updateDispatchBusy_lists (busy : Bool) :
    (s.updateDispatchBusy c h busy).lists = s.lists := by
  unfold updateDispatchBusy
  split_ifs <;> rfl

@[simp] theorem delayRunHwQueue_lists (async here : Bool) :
    (s.delayRunHwQueue c async here h).lists = s.lists := by
  unfold delayRunHwQueue
  split_ifs <;> rfl

@[simp] theorem runHwQueue_lists (async here work : Bool) :
    (s.blkMqRunHwQueue c async here work h).lists = s.lists := by
  unfold blkMqRunHwQueue
  split_ifs <;> simp

@[simp] theorem markTagWait_lists (again : Option ℕ) :
    (s.markTagWait c again r).2.lists = s.lists := by
  unfold markTagWait
  dsimp only
  split_ifs <;> rfl

@[simp] theorem tagNext_lists (got : Option ℕ) (rest : List ℕ) :
    (tagNext c got rest s).lists = s.lists := by
  cases rest <;> rfl

@[simp] theorem untagNext_lists (rest : List ℕ) : (untagNext c rest s).lists = s.lists := by
  cases rest <;> rfl

end Lists

/-! What one change of the lists moves. -/

section Moves

/-- Requests have moved between places; none is new, and none that was done is taken up again. -/
structure Shift (l l' : MqLists) : Prop where
  born : l'.born = l.born
  ended : l.ended <+: l'.ended
  shifts : Shifts l.on l'.on

theorem Shift.refl (l : MqLists) : Shift l l := ⟨rfl, List.prefix_refl _, .refl⟩

theorem Shift.of_eq {l l' : MqLists} (h : l' = l) : Shift l l' := h ▸ .refl l

theorem Shift.trans {l l' l'' : MqLists} (h : Shift l l') (h' : Shift l' l'') : Shift l l'' :=
  ⟨h'.born.trans h.born, h.ended.trans h'.ended, Relation.ReflTransGen.trans h.shifts h'.shifts⟩

theorem Shift.moved {l l' : MqLists} (src dst : Place) (rs : List ℕ) (hb : l'.born = l.born)
    (he : l.ended <+: l'.ended) (h : Moves src dst rs l.on l'.on) : Shift l l' := ⟨hb, he, h.shifts⟩

variable {c : MqConfig} {s : MqState} {r h w : ℕ} {rest : List ℕ}

theorem shift_toDriver (hr : r ∈ s.lists.held) : Shift s.lists (s.toDriver r).lists := by
  refine .moved .held .driver [r] rfl (List.prefix_refl _)
    ⟨by simp, List.perm_cons_erase hr, List.perm_append_singleton r _, ?_⟩
  intro p h1 h2
  cases p <;> first | rfl | contradiction

theorem shift_end (hr : r ∈ s.lists.held) : Shift s.lists (s.blkMqEndRequest c r).lists := by
  refine .moved .held .ended [r] rfl (List.prefix_append _ _)
    ⟨by simp, List.perm_cons_erase hr, List.perm_append_singleton r _, ?_⟩
  intro p h1 h2
  cases p <;> first | rfl | contradiction

theorem bypassInsert_lists (atHead runQueue : Bool) :
    (s.bypassInsert r atHead runQueue).lists =
      { s.lists with
        held := s.lists.held.erase r
        dispatch := Function.update s.lists.dispatch (s.hctxOf r)
          (if atHead then r :: s.lists.dispatch (s.hctxOf r)
            else s.lists.dispatch (s.hctxOf r) ++ [r]) } := by
  unfold bypassInsert
  dsimp only
  split_ifs <;> rfl

theorem update_of_place {f : ℕ → List ℕ} {x y : ℕ} (mk : ℕ → Place) (hne : mk y ≠ mk x)
    (l : List ℕ) :
    Function.update f x l y = f y := Function.update_of_ne (fun heq => hne (by rw [heq])) _ _

theorem shift_bypass (hr : r ∈ s.lists.held) (atHead runQueue : Bool) :
    Shift s.lists (s.bypassInsert r atHead runQueue).lists := by
  rw [bypassInsert_lists]
  refine .moved .held (.dispatch (s.hctxOf r)) [r] rfl (List.prefix_refl _)
    ⟨by simp, List.perm_cons_erase hr, ?_, ?_⟩
  · simp only [MqLists.on, Function.update_self]
    split_ifs
    · exact .refl _
    · exact List.perm_append_singleton r _
  · intro p h1 h2
    cases p with
    | dispatch h' => exact update_of_place .dispatch h2 _
    | held => exact absurd rfl h1
    | ctx | requeue | requeuing | call | issue | driver | ended => rfl

theorem shift_requeueList (hr : r ∈ s.lists.held) (atHead kick : Bool) :
    Shift s.lists (s.addToRequeueList r atHead kick).lists := by
  have hlists : (s.addToRequeueList r atHead kick).lists =
      { s.lists with
        held := s.lists.held.erase r
        requeue := if atHead then r :: s.lists.requeue else s.lists.requeue ++ [r] } := by
    unfold addToRequeueList
    cases atHead <;> rfl
  rw [hlists]
  refine .moved .held .requeue [r] rfl (List.prefix_refl _)
    ⟨by simp, List.perm_cons_erase hr, ?_, ?_⟩
  · simp only [MqLists.on]
    split_ifs
    · exact .refl _
    · exact List.perm_append_singleton r _
  · intro p h1 h2
    cases p <;> first | rfl | contradiction

theorem shift_offCall (hl : s.lists.calls w = r :: rest) :
    Shift s.lists (offCall w r rest s).lists := by
  refine .moved (.call w) .held [r] rfl (List.prefix_refl _) ⟨by simp, ?_, .refl _, ?_⟩
  · simp [MqLists.on, offCall, toHeld, hl]
  · intro p h1 h2
    cases p with
    | call w' => exact update_of_place .call h1 _
    | held => exact absurd rfl h2
    | ctx | requeue | requeuing | dispatch | issue | driver | ended => rfl

theorem shift_offIssue (hl : s.lists.issues w = r :: rest) :
    Shift s.lists ((s.withLists
      fun l => { l with issues := Function.update l.issues w rest }).toHeld r).lists := by
  refine .moved (.issue w) .held [r] rfl (List.prefix_refl _) ⟨by simp, ?_, .refl _, ?_⟩
  · simp [MqLists.on, toHeld, hl]
  · intro p h1 h2
    cases p with
    | issue w' => exact update_of_place .issue h1 _
    | held => exact absurd rfl h2
    | ctx | requeue | requeuing | dispatch | call | driver | ended => rfl

theorem shift_offDriver (hr : r ∈ s.lists.driver) : Shift s.lists (offDriver s r).lists := by
  refine .moved .driver .held [r] rfl (List.prefix_refl _)
    ⟨by simp, List.perm_cons_erase hr, .refl _, ?_⟩
  intro p h1 h2
  cases p <;> first | rfl | contradiction

theorem heldAll_perm {l : List ℕ} (hl : HeldAll s l) :
    s.lists.held.Perm (l ++ s.lists.held.diff l) := by
  refine (List.subperm_append_diff_self_of_count_le fun x hx => ?_).symm
  rw [List.count_eq_one_of_mem hl.1 hx]
  exact List.one_le_count_iff.2 (hl.2 x hx)

theorem update_twice (f : ℕ → HctxType → List ℕ) (cpu : ℕ) (t : HctxType) (l : List ℕ) (cpu' : ℕ)
    (t' : HctxType) :
    Function.update f cpu (Function.update (f cpu) t l) cpu' t' =
      if cpu' = cpu ∧ t' = t then l else f cpu' t' := by
  by_cases hcpu : cpu' = cpu
  · subst hcpu
    by_cases ht : t' = t
    · simp [ht]
    · simp [ht, Function.update_of_ne]
  · simp [hcpu, Function.update_of_ne]

theorem shift_swInsert (q : SwQueues) (cpu : ℕ) {l : List ℕ} (held : List ℕ)
    (hl : s.lists.held.Perm (l ++ held)) (atHead : Bool) :
    Shift s.lists { s.lists with held := held, sw := swInsert q h cpu l atHead s.lists.sw } := by
  refine .moved .held (.ctx cpu (q.hctx h).type) l rfl (List.prefix_refl _) ⟨by simp, hl, ?_, ?_⟩
  · simp only [MqLists.on, swInsert, update_twice, and_self, if_true]
    split_ifs
    · exact .refl _
    · exact List.perm_append_comm
  · intro p h1 h2
    cases p with
    | ctx cpu' t' =>
      simp only [MqLists.on, swInsert, update_twice]
      rw [if_neg]
      rintro ⟨rfl, rfl⟩
      exact h2 rfl
    | held => exact absurd rfl h1
    | requeue | requeuing | dispatch | issue | call | driver | ended => rfl

theorem shift_swLeave (q : SwQueues) (cpu bit : ℕ) {l left : List ℕ}
    (hl : s.lists.sw.rqLists cpu (q.hctx h).type = l ++ left) :
    Shift s.lists
      { s.lists with held := l ++ s.lists.held, sw := swLeave q h cpu bit left s.lists.sw } := by
  refine .moved (.ctx cpu (q.hctx h).type) .held l rfl (List.prefix_refl _)
    ⟨by simp, ?_, .refl _, ?_⟩
  · simp only [MqLists.on, swLeave, update_twice, and_self, if_true, hl]
    exact .refl _
  · intro p h1 h2
    cases p with
    | ctx cpu' t' =>
      simp only [MqLists.on, swLeave, update_twice]
      rw [if_neg]
      rintro ⟨rfl, rfl⟩
      exact h1 rfl
    | held => exact absurd rfl h2
    | requeue | requeuing | dispatch | issue | call | driver | ended => rfl

theorem shift_takeDispatch : Shift s.lists
    { s.lists with
      held := s.lists.dispatch h ++ s.lists.held
      dispatch := Function.update s.lists.dispatch h [] } := by
  refine .moved (.dispatch h) .held (s.lists.dispatch h) rfl (List.prefix_refl _)
    ⟨by simp, ?_, .refl _, ?_⟩
  · simp [MqLists.on]
  · intro p h1 h2
    cases p with
    | dispatch h' => exact update_of_place .dispatch h1 _
    | held => exact absurd rfl h2
    | ctx | requeue | requeuing | issue | call | driver | ended => rfl

theorem shift_notifyDead (q : SwQueues) (cpu bit : ℕ) : Shift s.lists
    { s.lists with
      sw := swLeave q h cpu bit [] s.lists.sw
      dispatch := Function.update s.lists.dispatch h
        (s.lists.dispatch h ++ s.lists.sw.rqLists cpu (q.hctx h).type) } := by
  refine .moved (.ctx cpu (q.hctx h).type) (.dispatch h)
    (s.lists.sw.rqLists cpu (q.hctx h).type) rfl
    (List.prefix_refl _) ⟨by simp, ?_, ?_, ?_⟩
  · simp [MqLists.on, swLeave]
  · simp only [MqLists.on, Function.update_self]
    exact List.perm_append_comm
  · intro p h1 h2
    cases p with
    | ctx cpu' t' =>
      simp only [MqLists.on, swLeave, update_twice]
      rw [if_neg]
      rintro ⟨rfl, rfl⟩
      exact h1 rfl
    | dispatch h' => exact update_of_place .dispatch h2 _
    | held | requeue | requeuing | issue | call | driver | ended => rfl

theorem shift_dispatchStart {l : List ℕ} (hl : HeldAll s l) (hw : s.lists.calls w = []) :
    Shift s.lists
    { s.lists with held := s.lists.held.diff l, calls := Function.update s.lists.calls w l } := by
  refine .moved .held (.call w) l rfl (List.prefix_refl _) ⟨by simp, heldAll_perm hl, ?_, ?_⟩
  · simp [MqLists.on, hw]
  · intro p h1 h2
    cases p with
    | call w' => exact update_of_place .call h2 _
    | held => exact absurd rfl h1
    | ctx | requeue | requeuing | issue | dispatch | driver | ended => rfl

theorem shift_issueStart {l : List ℕ} (hl : HeldAll s l) (hw : s.lists.issues w = []) :
    Shift s.lists
    { s.lists with held := s.lists.held.diff l, issues := Function.update s.lists.issues w l } := by
  refine .moved .held (.issue w) l rfl (List.prefix_refl _) ⟨by simp, heldAll_perm hl, ?_, ?_⟩
  · simp [MqLists.on, hw]
  · intro p h1 h2
    cases p with
    | issue w' => exact update_of_place .issue h2 _
    | held => exact absurd rfl h1
    | ctx | requeue | requeuing | call | dispatch | driver | ended => rfl

theorem shift_splice : Shift s.lists
    { s.lists with
      calls := Function.update s.lists.calls w []
      dispatch := Function.update s.lists.dispatch h (s.lists.dispatch h ++ s.lists.calls w) } := by
  refine .moved (.call w) (.dispatch h) (s.lists.calls w) rfl (List.prefix_refl _)
    ⟨by simp, ?_, ?_, ?_⟩
  · simp [MqLists.on]
  · simp only [MqLists.on, Function.update_self]
    exact List.perm_append_comm
  · intro p h1 h2
    cases p with
    | call w' => exact update_of_place .call h1 _
    | dispatch h' => exact update_of_place .dispatch h2 _
    | ctx | requeue | requeuing | issue | held | driver | ended => rfl

theorem shift_giveBack (hl : s.lists.issues w = rest) :
    Shift s.lists (giveBack w h rest s).lists := by
  unfold giveBack
  split_ifs
  · exact .refl _
  · refine .moved (.issue w) .held rest rfl (List.prefix_refl _) ⟨by simp, ?_, .refl _, ?_⟩
    · simp [MqLists.on, hl]
    · intro p h1 h2
      cases p with
      | issue w' => exact update_of_place .issue h1 _
      | held => exact absurd rfl h2
      | ctx | requeue | requeuing | call | dispatch | driver | ended => rfl

theorem shift_requeueTake (hl : s.lists.requeuing = []) : Shift s.lists
    { s.lists with requeue := [], requeuing := requeueOrder s.rq s.lists.requeue } := by
  have hperm : (requeueOrder s.rq s.lists.requeue).Perm s.lists.requeue :=
    List.filter_append_perm _ _
  refine .moved .requeue .requeuing (requeueOrder s.rq s.lists.requeue) rfl (List.prefix_refl _)
    ⟨by simp, ?_, ?_, ?_⟩
  · simpa [MqLists.on] using hperm.symm
  · simp [MqLists.on, hl]
  · intro p h1 h2
    cases p <;> first | rfl | contradiction

theorem shift_requeueTurn (hl : s.lists.requeuing = r :: rest) :
    Shift s.lists (requeueTurn r rest s).lists := by
  have hoff : Shift s.lists
      (((s.setRq r fun rq => { rq with softbarrier := false }).withLists fun l =>
      { l with requeuing := rest }).toHeld r).lists := by
    refine .moved .requeuing .held [r] rfl (List.prefix_refl _) ⟨by simp, ?_, .refl _, ?_⟩
    · simp [MqLists.on, toHeld, hl]
    · intro p h1 h2
      cases p <;> first | rfl | contradiction
  unfold requeueTurn
  dsimp only
  split_ifs
  · exact hoff.trans (shift_bypass List.mem_cons_self _ _)
  · exact hoff

end Moves

section Calls

variable {c : MqConfig} {s : MqState} {r h w : ℕ} {rest : List ℕ}

theorem shift_dispatchIssue (env : DispatchEnv) (call : DispatchCall)
    (hl : s.lists.calls w = r :: rest) :
    Shift s.lists (dispatchIssue c env w r rest call s).lists := by
  have hstart : ∀ s : MqState,
      (if env.started then s.blkMqStartRequest r else s).lists = s.lists := by
    intro s
    split_ifs <;> rfl
  have hoff : ∀ s₁ : MqState, s₁.lists = s.lists → Shift s.lists (offCall w r rest s₁).lists := by
    intro s₁ h₁
    rw [← h₁]
    exact shift_offCall (h₁ ▸ hl)
  have hsame : (if env.started then (tagNext c env.nextTag rest s).blkMqStartRequest r
      else tagNext c env.nextTag rest s).lists = s.lists := by rw [hstart, tagNext_lists]
  unfold dispatchIssue
  dsimp only
  cases env.ret with
  | resource | devResource =>
    refine .of_eq ?_
    simp only [setCall_lists, requeueRequest_lists, untagNext_lists, hsame]
  | ioerr => exact (hoff _ hsame).trans (shift_end List.mem_cons_self)
  | ok => exact (hoff _ hsame).trans (shift_toDriver List.mem_cons_self)

theorem shift_dispatchTurn (env : DispatchEnv) (call : DispatchCall)
    (hl : s.lists.calls w = r :: rest) :
    Shift s.lists (dispatchTurn c env w r rest call s).lists := by
  unfold dispatchTurn
  dsimp only
  split_ifs
  · exact .refl _
  · exact shift_dispatchIssue (s := s.getDriverTag c env.tag r) env _ hl
  · have hmark := markTagWait_lists c (s.getDriverTag c env.tag r) r env.tagAgain
    split
    · next s₁ heq =>
      rw [heq] at hmark
      have hsame : s₁.lists = s.lists := hmark
      rw [← hsame]
      exact shift_dispatchIssue env _ (hsame ▸ hl)
    · next s₁ heq =>
      rw [heq] at hmark
      exact .of_eq hmark

theorem shift_dispatchOut (call : DispatchCall) : Shift s.lists (dispatchOut c w call s).lists := by
  unfold dispatchOut
  dsimp only
  split_ifs
  · exact .of_eq (by simp)
  · exact shift_splice

theorem dispatchRerun_lists (call : DispatchCall) : (dispatchRerun c w call s).lists = s.lists := by
  unfold dispatchRerun
  dsimp only
  split_ifs <;> simp

theorem insertUnless_lists (bypass : Bool) (hr : r ∈ s.lists.held) :
    Shift s.lists (insertUnless bypass r s).2.lists ∧
      ((insertUnless bypass r s).1 ≠ .ok → (insertUnless bypass r s).2.lists = s.lists) := by
  unfold insertUnless
  split_ifs
  · exact ⟨.refl _, fun _ => rfl⟩
  · exact ⟨shift_bypass hr _ _, fun hne => absurd rfl hne⟩

theorem issueDirectly_lists (env : IssueEnv) (hr : r ∈ s.lists.held) :
    Shift s.lists (issueDirectly c env r s).2.lists ∧
      ((issueDirectly c env r s).1 ≠ .ok → (issueDirectly c env r s).2.lists = s.lists) := by
  have hstart : (if env.started then s.blkMqStartRequest r else s).lists =
    s.lists := by split_ifs <;> rfl
  unfold issueDirectly
  dsimp only
  generalize (if env.started then s.blkMqStartRequest r else s) = s₁ at hstart ⊢
  cases env.ret with
  | ok =>
    have hbusy := (updateDispatchBusy_lists c s₁ (s.hctxOf r) false).trans hstart
    refine ⟨?_, fun hne => absurd rfl hne⟩
    rw [← hbusy] at hr ⊢
    exact shift_toDriver hr
  | resource | devResource | ioerr =>
    refine ⟨.of_eq ?_, fun _ => ?_⟩
    all_goals simp only [requeueRequest_lists, updateDispatchBusy_lists, hstart]

/-- A request whose issue does not succeed is still in the hand of the caller. -/
theorem tryIssue_lists (env : IssueEnv) (bypass : Bool) (hr : r ∈ s.lists.held) :
    Shift s.lists (tryIssue c env bypass r s).2.lists ∧
      ((tryIssue c env bypass r s).1 ≠ .ok → (tryIssue c env bypass r s).2.lists = s.lists) := by
  unfold tryIssue
  dsimp only
  split_ifs
  · exact ⟨shift_bypass hr _ _, fun hne => absurd rfl hne⟩
  · exact insertUnless_lists bypass hr
  · exact insertUnless_lists bypass hr
  · exact issueDirectly_lists (s := s.getDriverTag c env.tag r) env hr
  · exact insertUnless_lists (s := s.getDriverTag c env.tag r) bypass hr

theorem shift_tryIssueDirectly (env : IssueEnv) (hr : r ∈ s.lists.held) :
    Shift s.lists (blkMqTryIssueDirectly c env r s).lists := by
  obtain ⟨hshift, hsame⟩ := tryIssue_lists (c := c) env false hr
  unfold blkMqTryIssueDirectly
  rcases hres : tryIssue c env false r s with ⟨st, s₁⟩
  rw [hres] at hshift hsame
  cases st with
  | ok => exact hshift
  | resource | devResource | ioerr =>
    have heq : s₁.lists = s.lists := hsame (by simp)
    rw [← heq] at hr ⊢
    first | exact shift_bypass hr _ _ | exact shift_end hr

theorem shift_issueTurn (env : IssueEnv) (hl : s.lists.issues w = r :: rest) :
    Shift s.lists (issueTurn c env w r rest s).lists := by
  have hoff := shift_offIssue hl
  have hheld : r ∈ ((s.withLists
      fun l => { l with issues := Function.update l.issues w rest }).toHeld r).lists.held :=
    List.mem_cons_self
  obtain ⟨hshift, hsame⟩ := tryIssue_lists (c := c) env true hheld
  unfold issueTurn
  dsimp only
  have hleft :
      ((s.withLists fun l => { l with issues := Function.update l.issues w rest }).toHeld
        r).lists.issues w = rest := Function.update_self ..
  generalize
    (s.withLists fun l => { l with issues := Function.update l.issues w rest }).toHeld r = s₀ at *
  rcases hres : tryIssue c env true r s₀ with ⟨st, s₁⟩
  rw [hres] at hshift hsame
  cases st with
  | ok => exact hoff.trans hshift
  | resource | devResource =>
    have heq : s₁.lists = s₀.lists := hsame (by simp)
    have hr : r ∈ s₁.lists.held := heq ▸ hheld
    have hbypass : (s₁.bypassInsert r false rest.isEmpty).lists.issues w = rest := by
      rw [bypassInsert_lists, heq]
      exact hleft
    exact hoff.trans (hshift.trans ((shift_bypass hr _ _).trans (shift_giveBack hbypass)))
  | ioerr =>
    have heq : s₁.lists = s₀.lists := hsame (by simp)
    exact hoff.trans (hshift.trans (shift_end (heq ▸ hheld)))

end Calls

/-! What a step does to the lists. -/

section Steps

variable {c : MqConfig} {s s' : MqState}

theorem ctxStep_shift {e : CtxEvent} (hs : ctxStep c s e = some s') : Shift s.lists s'.lists := by
  cases e with
  | insertRequest r atHead =>
    simp only [ctxStep] at hs
    split_ifs at hs with hr
    cases hs
    exact shift_swInsert c.queues _ _ (List.perm_cons_erase hr) _
  | insertRequests h cpu l =>
    simp only [ctxStep] at hs
    split_ifs at hs with hl
    cases hs
    exact shift_swInsert c.queues _ _ (heldAll_perm hl.1) _
  | bypassInsert r atHead runQueue =>
    simp only [ctxStep] at hs
    split_ifs at hs with hr
    cases hs
    exact shift_bypass hr _ _
  | flushBusyCtx h bit =>
    obtain ⟨cpu, -, rfl⟩ := Option.map_eq_some_iff.1 hs
    exact shift_swLeave c.queues cpu _ (List.append_nil _).symm
  | dispatchRqFromCtx h bit =>
    obtain ⟨cpu, -, rfl⟩ := Option.map_eq_some_iff.1 hs
    split
    · exact .refl _
    · next r rest hl => exact shift_swLeave (l := [r]) c.queues cpu _ hl
  | notifyDead h cpu =>
    simp only [ctxStep] at hs
    split_ifs at hs
    cases hs
    unfold notifyDead
    dsimp only
    split_ifs
    · exact .refl _
    · exact shift_notifyDead c.queues _ _

theorem callStep_shift {e : CallEvent} (hs : callStep c s e = some s') :
    Shift s.lists s'.lists := by
  cases e with
  | dispatchStart w l gotBudget =>
    simp only [callStep] at hs
    split_ifs at hs with hl
    cases hs
    exact shift_dispatchStart hl.2.2.2 hl.2.1
  | dispatchTurn w env =>
    simp only [callStep] at hs
    split at hs
    · next hl =>
      split_ifs at hs
      cases hs
      exact shift_dispatchTurn _ _ hl
    · cases hs
  | dispatchOut w =>
    simp only [callStep] at hs
    split at hs
    · split_ifs at hs
      cases hs
      exact shift_dispatchOut _
    · cases hs
  | dispatchRerun w =>
    simp only [callStep] at hs
    split at hs
    · split_ifs at hs
      cases hs
      exact .of_eq (dispatchRerun_lists _)
    · cases hs
  | tryIssueDirectly r env =>
    simp only [callStep] at hs
    split_ifs at hs with hr
    cases hs
    exact shift_tryIssueDirectly _ hr
  | issueStart w l =>
    simp only [callStep] at hs
    split_ifs at hs with hl
    cases hs
    exact shift_issueStart hl.2 hl.1
  | issueTurn w env =>
    simp only [callStep] at hs
    split at hs
    · next hl =>
      cases hs
      exact shift_issueTurn _ hl
    · cases hs

theorem driverStep_shift {e : DriverEvent} (hs : driverStep c s e = some s') :
    Shift s.lists s'.lists := by
  cases e with
  | complete r =>
    simp only [driverStep] at hs
    split_ifs at hs
    cases hs
    exact .refl _
  | endRequest r =>
    simp only [driverStep] at hs
    split_ifs at hs with hr
    cases hs
    exact (shift_offDriver hr).trans (shift_end List.mem_cons_self)
  | requeue r kick =>
    simp only [driverStep] at hs
    split_ifs at hs with hr
    cases hs
    have hput := shift_requeueList (s := (offDriver s r).requeueRequest c r)
      (r := r) List.mem_cons_self true kick
    exact (shift_offDriver hr).trans hput
  | addToRequeueList r atHead kick =>
    simp only [driverStep] at hs
    split_ifs at hs with hr
    cases hs
    exact shift_requeueList hr _ _
  | requeueTake =>
    simp only [driverStep] at hs
    split_ifs at hs with hl
    cases hs
    exact shift_requeueTake hl.2.2
  | requeueTurn =>
    simp only [driverStep] at hs
    split at hs
    · next hl =>
      split_ifs at hs
      cases hs
      exact shift_requeueTurn hl
    · cases hs
  | requeueDone =>
    simp only [driverStep] at hs
    split_ifs at hs
    cases hs
    exact .refl _

theorem runStep_shift {e : RunEvent} (hs : runStep c s e = some s') : Shift s.lists s'.lists := by
  cases e with
  | run k here work =>
    obtain ⟨p, -, rfl⟩ := Option.map_eq_some_iff.1 hs
    exact .of_eq (by simp)
  | runTakes h =>
    simp only [runStep] at hs
    split_ifs at hs
    · cases hs
      exact .refl _
    · cases hs
      exact shift_takeDispatch
  | stopHwQueue | startHwQueue | quiesce | unquiesce | markRestart =>
    cases hs
    exact .refl _
  | callRun | runWork | startStoppedHwQueue | schedRestart | dispatchWake =>
    simp only [runStep] at hs
    split_ifs at hs <;> cases hs <;> exact .refl _

/-- Only an allocation makes a request. -/
theorem mqStep_shift {e : MqEvent} (hs : mqStep c s e = some s') :
    Shift s.lists s'.lists ∨ s'.lists =
      { s.lists with born := s.lists.born + 1, held := s.lists.born :: s.lists.held } := by
  cases e with
  | getRequest mqCtx mqHctx tag dontprep =>
    simp only [mqStep] at hs
    split_ifs at hs
    cases hs
    exact .inr rfl
  | ctx e => exact .inl (ctxStep_shift hs)
  | call e => exact .inl (callStep_shift hs)
  | driver e => exact .inl (driverStep_shift hs)
  | run e => exact .inl (runStep_shift hs)

def Custody (l : MqLists) : Prop := Exact (fun r => r < l.born) l.on

theorem custody_step {e : MqEvent} (h : Custody s.lists) (hs : mqStep c s e = some s') :
    Custody s'.lists := by
  rcases mqStep_shift hs with hshift | hnew
  · unfold Custody
    rw [hshift.born]
    exact Exact.shifts h hshift.shifts
  · rw [hnew]
    have hent := Exact.enters (f := s.lists.on)
      (g := { s.lists with born := s.lists.born + 1, held := s.lists.born :: s.lists.held }.on)
        (a := s.lists.born) h
      (Nat.lt_irrefl _) .held (.refl _) ?_
    · refine ⟨hent.nodup, hent.once, fun r => ?_⟩
      rw [← hent.all r]
      dsimp only
      omega
    · intro p hp
      cases p <;> first | rfl | contradiction

end Steps

section Runs

variable {c : MqConfig} {es : List MqEvent} {s : MqState}

theorem custody_run (hrun : (mqSystem c).Run es s) : Custody s.lists := by
  have hnil : ∀ p, (mqSystem c).init.lists.on p = [] := fun p => by cases p <;> rfl
  refine hrun.invariant (I := fun s => Custody s.lists) ?_ fun _ _ _ h _ hs => custody_step h hs
  refine ⟨fun p => by rw [hnil]; exact List.nodup_nil, fun {p _ _} ha => ?_, fun r => ?_⟩
  · rw [hnil] at ha
    cases ha
  · constructor
    · intro hr
      exact absurd hr (Nat.not_lt_zero r)
    · rintro ⟨p, hp⟩
      rw [hnil] at hp
      cases hp

theorem ended_step {s' : MqState} {e : MqEvent} (hs : mqStep c s e = some s') :
    s.lists.ended <+: s'.lists.ended := by
  rcases mqStep_shift hs with hshift | hnew
  · exact hshift.ended
  · rw [hnew]

/-- Every request that was ever allocated is in one place, once, and what is done stays done. -/
theorem requests_in_one_place (hrun : (mqSystem c).Run es s) :
    (∀ r, r < s.lists.born ↔ ∃ p, r ∈ s.lists.on p) ∧ (∀ p, (s.lists.on p).Nodup) ∧
      (∀ r p p', r ∈ s.lists.on p → r ∈ s.lists.on p' → p = p') ∧
      ∀ fs s', (mqSystem c).Run (es ++ fs) s' → s.lists.ended <+: s'.lists.ended := by
  have h := custody_run hrun
  refine ⟨h.all, h.nodup, fun r p p' => h.once, fun fs => ?_⟩
  induction fs using List.reverseRecOn with
  | nil =>
    intro s' hrun'
    rw [List.append_nil] at hrun'
    rw [hrun.unique hrun']
  | append_singleton fs e ih =>
    intro s' hrun'
    rw [← List.append_assoc] at hrun'
    obtain ⟨s₁, hrun₁, -, hstep⟩ := hrun'.last
    exact (ih s₁ hrun₁).trans (ended_step hstep)

def oneQueue : MqConfig where
  nrHwQueues := 1
  pos := Nat.one_pos
  queues := ⟨fun _ => ⟨[0], .default, [0]⟩, fun _ => ⟨fun _ => 0, fun _ => 0⟩⟩
  elevator := false
  blocking := false
  tagShared := fun _ => false

/-- Of two requests the driver takes one and has no room for the other. -/
def shortOfRoom : List MqEvent :=
  [.getRequest 0 0 1 false, .getRequest 0 0 2 false, .ctx (.insertRequest 0 false),
    .ctx (.insertRequest 1 false), .ctx (.flushBusyCtx 0 0), .call (.dispatchStart 0 [0, 1] false),
    .call (.dispatchTurn 0 ⟨true, none, none, none, true, .ok⟩),
    .call (.dispatchTurn 0 ⟨true, none, none, none, true, .devResource⟩), .call (.dispatchOut 0),
    .call (.dispatchRerun 0), .driver (.complete 0), .driver (.endRequest 0)]

theorem requests_in_one_place_short :
    ∃ s, (mqSystem oneQueue).Run shortOfRoom s ∧ s.lists.dispatch 0 = [1] ∧ s.lists.ended = [0] ∧
      ∀ r, r < 2 ↔ ∃ p, r ∈ s.lists.on p := by
  obtain ⟨s, hrun, hdispatch, hended, hborn⟩ :=
    @Runs.System.exists_runIn_of_execIn _ _ (mqSystem oneQueue)
    (fun _ _ => True) _ (fun s => s.lists.dispatch 0 = [1] ∧ s.lists.ended = [0] ∧ s.lists.born = 2)
      _ shortOfRoom
    (by decide +kernel)
  refine ⟨s, hrun, hdispatch, hended, ?_⟩
  rw [← hborn]
  exact (requests_in_one_place hrun).1

end Runs

end BlkSwitch.Blk
