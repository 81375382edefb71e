import Mathlib.Logic.Relation
import Mathlib.Tactic

/-! Step systems and their runs. An event is enabled in a state or it is not; a run is a
list of events, each enabled in the state its predecessors left. `RunIn ok` keeps the runs
whose every step meets `ok` in the state before it, so a safety property that needs a
condition on the steps is a property of `RunIn`. -/

namespace Runs

/-- Where runs start and what an event does, when it is enabled. -/
structure System (σ ε : Type*) where
  init : σ
  step : σ → ε → Option σ

namespace System

variable {σ ε τ : Type*} (S : System σ ε)

/-- The state after a list of events, when each of them was enabled in turn. -/
def exec : σ → List ε → Option σ
  | s, [] => some s
  | s, e :: es => (S.step s e).bind fun s' => exec s' es

/-- The same, stopping at the first step that does not meet `ok`. -/
def execIn (ok : σ → ε → Prop) [∀ s e, Decidable (ok s e)] : σ → List ε → Option σ
  | s, [] => some s
  | s, e :: es => if ok s e then (S.step s e).bind fun s' => execIn ok s' es else none

inductive RunIn (ok : σ → ε → Prop) : List ε → σ → Prop
  | nil : RunIn ok [] S.init
  | snoc {es s e s'} : RunIn ok es s → ok s e → S.step s e = some s' → RunIn ok (es ++ [e]) s'

def Run (es : List ε) (s : σ) : Prop := S.RunIn (fun _ _ => True) es s

variable {S}

theorem RunIn.invariant {ok : σ → ε → Prop} {I : σ → Prop} (h0 : I S.init)
    (hs : ∀ s e s', I s → ok s e → S.step s e = some s' → I s')
    {es : List ε} {s : σ} (h : S.RunIn ok es s) : I s := by
  induction h with
  | nil => exact h0
  | snoc _ hok hstep ih => exact hs _ _ _ ih hok hstep

theorem RunIn.mono {ok ok' : σ → ε → Prop} (himp : ∀ s e, ok s e → ok' s e)
    {es : List ε} {s : σ} (h : S.RunIn ok es s) : S.RunIn ok' es s := by
  induction h with
  | nil => exact .nil
  | snoc _ hok hstep ih => exact .snoc ih (himp _ _ hok) hstep

theorem RunIn.last {ok : σ → ε → Prop} {es : List ε} {e : ε} {s' : σ}
    (h : S.RunIn ok (es ++ [e]) s') :
    ∃ s, S.RunIn ok es s ∧ ok s e ∧ S.step s e = some s' := by
  generalize hl : es ++ [e] = l at h
  cases h with
  | nil => simp at hl
  | snoc hrun hok hstep =>
    obtain ⟨rfl, heq⟩ := List.append_inj' hl rfl
    obtain rfl := List.singleton_inj.1 heq
    exact ⟨_, hrun, hok, hstep⟩

theorem RunIn.unique {ok ok' : σ → ε → Prop} {es : List ε} {s s' : σ} (h : S.RunIn ok es s)
    (h' : S.RunIn ok' es s') : s = s' := by
  induction h generalizing s' with
  | nil =>
    generalize hl : ([] : List ε) = l at h'
    cases h' with
    | nil => rfl
    | snoc => simp at hl
  | snoc _ _ hstep ih =>
    obtain ⟨t, ht, -, hstep'⟩ := h'.last
    rw [ih ht, hstep'] at hstep
    exact (Option.some.inj hstep).symm

/-- Runs are good as long as every step meets `ok`, and never again after one that does not. -/
theorem RunIn.good_iff {ok : σ → ε → Prop} {P G B : σ → Prop} (h0 : G S.init) (hP : ∀ s, G s → P s)
    (hnot : ∀ s, B s → ¬ P s) (hkeep : ∀ s e s', G s → ok s e → S.step s e = some s' → G s')
    (hbreak : ∀ s e s', G s → ¬ ok s e → S.step s e = some s' → B s')
    (hstay : ∀ s e s', B s → S.step s e = some s' → B s') {es : List ε} {s : σ} (h : S.Run es s) :
    P s ↔ S.RunIn ok es s := by
  have hmode : S.RunIn ok es s ∧ G s ∨ ¬ S.RunIn ok es s ∧ B s := by
    induction h with
    | nil => exact .inl ⟨.nil, h0⟩
    | @snoc es s e s' hrun _ hstep ih =>
      rcases ih with ⟨hin, hgood⟩ | ⟨hout, hbad⟩
      · by_cases hok : ok s e
        · exact .inl ⟨hin.snoc hok hstep, hkeep _ _ _ hgood hok hstep⟩
        · refine .inr ⟨fun hin' => ?_, hbreak _ _ _ hgood hok hstep⟩
          obtain ⟨t, ht, hok', -⟩ := hin'.last
          exact hok (hin.unique ht ▸ hok')
      · refine .inr ⟨fun hin' => ?_, hstay _ _ _ hbad hstep⟩
        obtain ⟨t, ht, -, -⟩ := hin'.last
        exact hout (RunIn.unique hrun ht ▸ ht)
  rcases hmode with ⟨hin, hgood⟩ | ⟨hout, hbad⟩
  · exact iff_of_true (hP s hgood) hin
  · exact iff_of_false (hnot s hbad) hout

/-- A run of the system read as a run of a more abstract one: every step is matched by
finitely many abstract steps that re-establish the relation. -/
theorem RunIn.simulates {ok : σ → ε → Prop} {R : σ → τ → Prop} {astep : τ → τ → Prop} {t0 : τ}
    (h0 : R S.init t0)
    (hs : ∀ s e s' t, R s t → ok s e → S.step s e = some s' →
      ∃ t', Relation.ReflTransGen astep t t' ∧ R s' t')
    {es : List ε} {s : σ} (h : S.RunIn ok es s) :
    ∃ t, Relation.ReflTransGen astep t0 t ∧ R s t := by
  induction h with
  | nil => exact ⟨t0, .refl, h0⟩
  | snoc _ hok hstep ih =>
    obtain ⟨t, ht, hR⟩ := ih
    obtain ⟨t', ht', hR'⟩ := hs _ _ _ _ hR hok hstep
    exact ⟨t', ht.trans ht', hR'⟩

theorem RunIn.append_execIn {ok : σ → ε → Prop} [∀ s e, Decidable (ok s e)] (fs : List ε) :
    ∀ {es : List ε} {s s' : σ}, S.RunIn ok es s → S.execIn ok s fs = some s' →
      S.RunIn ok (es ++ fs) s' := by
  induction fs with
  | nil =>
    intro es s s' h he
    obtain rfl : s = s' := by simpa [execIn] using he
    simpa using h
  | cons f fs ih =>
    intro es s s' h he
    simp only [execIn] at he
    split_ifs at he with hok
    obtain ⟨t, ht, he⟩ := Option.bind_eq_some_iff.1 he
    simpa using ih (h.snoc hok ht) he

theorem runIn_of_execIn {ok : σ → ε → Prop} [∀ s e, Decidable (ok s e)] {es : List ε} {s : σ}
    (h : S.execIn ok S.init es = some s) : S.RunIn ok es s := by
  simpa using RunIn.append_execIn es .nil h

/-- A run whose last state passes a computed test. -/
theorem exists_runIn_of_execIn {ok : σ → ε → Prop} [∀ s e, Decidable (ok s e)] (P : σ → Prop)
    [DecidablePred P] {es : List ε}
    (h : (S.execIn ok S.init es).any (fun s => decide (P s)) = true) :
    ∃ s, S.RunIn ok es s ∧ P s := by
  obtain ⟨s, hs, hP⟩ := (Option.any_eq_true _ _).1 h
  exact ⟨s, runIn_of_execIn hs, of_decide_eq_true hP⟩

end System
end Runs
