import BlkSwitch.Lib.Runs

/-! A pipe: messages go in whole, their elements come out in order and in pieces of any size.
A system is shown to be a pipe by saying what has gone in, what has come out and what is
held in between, and that every step puts a message in at the back or moves a piece from
the front of what is held to the output. -/

namespace Pipes

/-- What is held is exactly what is left of the messages. -/
structure Pipe (α : Type*) where
  msgs : List (List α)
  out : List α
  held : List α
  law : out ++ held = msgs.flatten

namespace Pipe

variable {α : Type*}

def empty : Pipe α := ⟨[], [], [], rfl⟩

def submit (p : Pipe α) (m : List α) : Pipe α :=
  ⟨p.msgs ++ [m], p.out, p.held ++ m, by rw [← List.append_assoc, p.law]; simp⟩

def emit (p : Pipe α) (n : ℕ) : Pipe α :=
  ⟨p.msgs, p.out ++ p.held.take n, p.held.drop n, by
    rw [List.append_assoc, List.take_append_drop, p.law]⟩

inductive Step : Pipe α → Pipe α → Prop
  | submit (p : Pipe α) (m : List α) : Step p (p.submit m)
  | emit (p : Pipe α) (n : ℕ) : Step p (p.emit n)

end Pipe

/-- How a state is read as a pipe. -/
structure View (σ α : Type*) where
  msgs : σ → List (List α)
  out : σ → List α
  held : σ → List α

namespace View

variable {σ ε α : Type*} (v : View σ α)

def Shows (s : σ) (p : Pipe α) : Prop := p.msgs = v.msgs s ∧ p.out = v.out s ∧ p.held = v.held s

/-- A message goes in. -/
def Submits (m : List α) (s s' : σ) : Prop :=
  v.msgs s' = v.msgs s ++ [m] ∧ v.out s' = v.out s ∧ v.held s' = v.held s ++ m

/-- A piece, possibly empty, comes out. -/
def Emits (s s' : σ) : Prop :=
  v.msgs s' = v.msgs s ∧ ∃ x, v.out s' = v.out s ++ x ∧ v.held s = x ++ v.held s'

variable {v}

theorem Emits.refl (s : σ) : v.Emits s s := ⟨rfl, [], by simp, rfl⟩

theorem Emits.of_eq {s s' : σ} (hm : v.msgs s' = v.msgs s) (ho : v.out s' = v.out s)
    (hh : v.held s' = v.held s) : v.Emits s s' :=
  ⟨hm, [], by simp [ho], by simp [hh]⟩

theorem Emits.trans {s₁ s₂ s₃ : σ} (h : v.Emits s₁ s₂) (h' : v.Emits s₂ s₃) : v.Emits s₁ s₃ := by
  obtain ⟨hm, x, ho, hh⟩ := h
  obtain ⟨hm', x', ho', hh'⟩ := h'
  exact ⟨hm'.trans hm,
    x ++ x', by rw [ho', ho, List.append_assoc], by rw [hh, hh', List.append_assoc]⟩

theorem Submits.step {m : List α} {s s' : σ} (h : v.Submits m s s') {p : Pipe α}
    (hp : v.Shows s p) :
    v.Shows s' (p.submit m) := by
  obtain ⟨hm, ho, hh⟩ := h
  obtain ⟨pm, po, ph⟩ := hp
  exact ⟨by simp [Pipe.submit, pm, hm], by simp [Pipe.submit, po, ho], by simp [Pipe.submit, ph, hh]⟩

theorem Emits.step {s s' : σ} (h : v.Emits s s') {p : Pipe α} (hp : v.Shows s p) :
    ∃ n, v.Shows s' (p.emit n) := by
  obtain ⟨hm, x, ho, hh⟩ := h
  obtain ⟨pm, po, ph⟩ := hp
  refine ⟨x.length, ?_, ?_, ?_⟩
  · simp [Pipe.emit, pm, hm]
  · simp [Pipe.emit, po, ph, hh, ho]
  · simp [Pipe.emit, ph, hh]

/-- A system whose every step submits or emits runs as a pipe. -/
theorem refines {S : Runs.System σ ε} {ok : σ → ε → Prop} {I : σ → Prop} (h0 : I S.init)
    (hv : v.Shows S.init Pipe.empty)
    (hs : ∀ s e s', I s → ok s e → S.step s e = some s' →
      I s' ∧ ((∃ m, v.Submits m s s') ∨ v.Emits s s'))
    {es : List ε} {s : σ} (h : S.RunIn ok es s) :
    ∃ p, Relation.ReflTransGen Pipe.Step Pipe.empty p ∧ v.Shows s p := by
  have hsim : ∀ s e s' p, I s ∧ v.Shows s p → ok s e → S.step s e = some s' →
      ∃ p', Relation.ReflTransGen Pipe.Step p p' ∧ (I s' ∧ v.Shows s' p') := by
    rintro s e s' p ⟨hI, hp⟩ hok hstep
    obtain ⟨hI', hmove⟩ := hs s e s' hI hok hstep
    rcases hmove with ⟨m, hsub⟩ | hemit
    · exact ⟨p.submit m, .single (.submit p m), hI', hsub.step hp⟩
    · obtain ⟨n, hn⟩ := hemit.step hp
      exact ⟨p.emit n, .single (.emit p n), hI', hn⟩
  obtain ⟨p, hp, -, hshow⟩ := h.simulates (R := fun s p => I s ∧ v.Shows s p) ⟨h0, hv⟩ hsim
  exact ⟨p, hp, hshow⟩

theorem Shows.stream {s : σ} {p : Pipe α} (h : v.Shows s p) :
    v.out s ++ v.held s = (v.msgs s).flatten := by
  obtain ⟨hm, ho, hh⟩ := h
  rw [← hm, ← ho, ← hh, p.law]

end View
end Pipes
