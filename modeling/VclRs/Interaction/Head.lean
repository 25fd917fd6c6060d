import VclRs.Interaction.Program

namespace Interaction

namespace Prog

variable {Op : Type} {Reply : Op → Type} {α β : Type}

inductive Head : Prog Op Reply α → (o : Op) → (Reply o → Prog Op Reply α) → Prop
  | call {o : Op} {k : Reply o → Prog Op Reply α} : Head (call o k) o k
  | unroll {k : ℕ → Prog Op Reply α} {o : Op} {k' : Reply o → Prog Op Reply α}
      (n : ℕ) (h : Head (k n) o k') : Head (unroll k) o k'

def expose (fuel : ℕ) : Prog Op Reply α → Option (Σ o, Reply o → Prog Op Reply α)
  | ret _ => none
  | call o k => some ⟨o,k⟩
  | unroll k => (k fuel).expose fuel
  | stall => none

theorem expose_head {fuel : ℕ} {p : Prog Op Reply α} {x : Σ o, Reply o → Prog Op Reply α}
    (h : p.expose fuel = some x) : p.Head x.1 x.2 := by
  induction p with
  | ret a => simp [expose] at h
  | call o k =>
    simp only [expose,Option.some.injEq] at h
    subst h
    exact .call
  | unroll k ih => exact .unroll fuel (ih fuel h)
  | stall => simp [expose] at h

def outcome (fuel : ℕ) : Prog Op Reply α → Option α
  | ret a => some a
  | call _ _ => none
  | unroll k => (k fuel).outcome fuel
  | stall => none

theorem outcome_returns {fuel : ℕ} {p : Prog Op Reply α} {a : α} (h : p.outcome fuel = some a) :
    p.Returns a := by
  induction p with
  | ret b =>
    cases h
    exact .ret a
  | call o k => cases h
  | unroll k ih => exact .unroll fuel (ih fuel h)
  | stall => cases h

theorem head_step {p : Prog Op Reply α} {o : Op} {k : Reply o → Prog Op Reply α} (h : p.Head o k)
    (r : Reply o) : Step p ⟨o,r⟩ (k r) := by
  induction h with
  | call => exact .call r
  | unroll n _ ih => exact .unroll n (ih r)

theorem step_head {p q : Prog Op Reply α} {e : Event Op Reply} (h : Step p e q) :
    ∃ k, p.Head e.op k ∧ q = k e.reply := by
  induction h with
  | call r => exact ⟨_,.call,rfl⟩
  | unroll n _ ih =>
    obtain ⟨k,hk,rfl⟩ := ih
    exact ⟨k,.unroll n hk,rfl⟩

theorem calls_head {C : Op → Prop} {p : Prog Op Reply α} {o : Op} {k : Reply o → Prog Op Reply α}
    (hp : p.Calls C) (h : p.Head o k) : C o ∧ ∀ r, (k r).Calls C := by
  induction h with
  | call => exact hp
  | unroll n _ ih => exact ih (hp n)

def Upholds (P : Event Op Reply → Prog Op Reply α → Prop) : Prog Op Reply α → Prop
  | ret _ => True
  | call o k => ∀ r, P ⟨o,r⟩ (k r) ∧ (k r).Upholds P
  | unroll k => ∀ n, (k n).Upholds P
  | stall => True

variable {P : Event Op Reply → Prog Op Reply α → Prop}

theorem upholds_head {p : Prog Op Reply α} {o : Op} {k : Reply o → Prog Op Reply α}
    (hp : p.Upholds P) (h : p.Head o k) (r : Reply o) : P ⟨o,r⟩ (k r) ∧ (k r).Upholds P := by
  induction h with
  | call => exact hp r
  | unroll n _ ih => exact ih (hp n) r

theorem upholds_step {p q : Prog Op Reply α} {e : Event Op Reply} (hp : p.Upholds P)
    (h : Step p e q) : P e q ∧ q.Upholds P := by
  induction h with
  | call r => exact hp r
  | unroll n _ ih => exact ih (hp n)

theorem upholds_of_calls {C : Op → Prop} (hC : ∀ e q, C e.op → P e q) {p : Prog Op Reply α}
    (hp : p.Calls C) : p.Upholds P := by
  induction p with
  | ret a => trivial
  | call o k ih => exact fun r => ⟨hC ⟨o,r⟩ (k r) hp.1,ih r (hp.2 r)⟩
  | unroll k ih => exact fun n => ih n (hp n)
  | stall => trivial

theorem upholds_mono {P' : Event Op Reply → Prog Op Reply α → Prop}
    (h : ∀ e q, P e q → P' e q) {p : Prog Op Reply α} (hp : p.Upholds P) : p.Upholds P' := by
  induction p with
  | ret a => trivial
  | call o k ih => exact fun r => ⟨h _ _ (hp r).1,ih r (hp r).2⟩
  | unroll k ih => exact fun n => ih n (hp n)
  | stall => trivial

theorem upholds_after {p : Prog Op Reply β} {f : β → Prog Op Reply α}
    (hp : p.Upholds (fun e q => P e (q.bind f))) (hf : ∀ a, (f a).Upholds P) :
    (p.bind f).Upholds P := by
  induction p with
  | ret a => exact hf a
  | call o k ih => exact fun r => ⟨(hp r).1,ih r (hp r).2⟩
  | unroll k ih => exact fun n => ih n (hp n)
  | stall => trivial

theorem upholds_bind {C : Op → Prop} (hC : ∀ e q, C e.op → P e q) {p : Prog Op Reply β}
    {f : β → Prog Op Reply α} (hp : p.Calls C) (hf : ∀ a, (f a).Upholds P) :
    (p.bind f).Upholds P :=
  upholds_after (upholds_of_calls (fun e q => hC e (q.bind f)) hp) hf

theorem upholds_loop {σ : Type} {body : σ → Prog Op Reply (σ ⊕ α)} (I : σ → Prop)
    (h : ∀ s (f : σ ⊕ α → Prog Op Reply α), I s → (∀ s', I s' → (f (.inl s')).Upholds P) →
      (∀ a, f (.inr a) = .ret a) → ((body s).bind f).Upholds P) {s : σ} (hs : I s) :
    (loop body s).Upholds P := by
  intro n
  induction n generalizing s with
  | zero => trivial
  | succ n ih => exact h s _ hs (fun _ hs' => ih hs') (fun _ => rfl)

end Prog

namespace Fallible

variable {Op : Type} {Reply : Op → Type} {α β γ ε σ : Type}

theorem bind_prog {x : Fallible Op Reply ε α} {g : α → Fallible Op Reply ε β}
    {f : Except ε β → Prog Op Reply γ} :
    (x >>= g).prog.bind f = x.prog.bind (fun
      | .ok a => (g a).prog.bind f
      | .error e => f (.error e)) := by
  refine (Prog.bind_assoc _ _ _).trans ?_
  congr 1
  funext r
  cases r <;> rfl

theorem upholds_loop {P : Event Op Reply → Prog Op Reply (Except ε α) → Prop}
    {body : σ → Fallible Op Reply ε (σ ⊕ α)} (I : σ → Prop)
    (h : ∀ s (f : Except ε (σ ⊕ α) → Prog Op Reply (Except ε α)), I s →
      (∀ s', I s' → (f (.ok (.inl s'))).Upholds P) → (∀ a, f (.ok (.inr a)) = .ret (.ok a)) →
      (∀ e, f (.error e) = .ret (.error e)) → ((body s).prog.bind f).Upholds P) {s : σ}
    (hs : I s) : (loop body s).prog.Upholds P := by
  refine Prog.upholds_loop I ?_ hs
  intro s f hs hagain hdone
  rw [Prog.bind_assoc]
  exact h s _ hs hagain (fun a => hdone (.ok a)) (fun e => hdone (.error e))

end Fallible

end Interaction
