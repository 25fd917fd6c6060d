import VclRs.Interaction.Contract

namespace Interaction

namespace Prog

variable {Op : Type} {Reply : Op → Type} {α β : Type}

def Straight : Prog Op Reply α → Prop
  | ret _ => True
  | call _ k => ∀ r, (k r).Straight
  | unroll _ => False
  | stall => False

theorem straight_bind {p : Prog Op Reply α} {f : α → Prog Op Reply β} (hp : p.Straight)
    (hf : ∀ a, (f a).Straight) : (p.bind f).Straight := by
  induction p with
  | ret a => exact hf a
  | call o k ih => exact fun r => ih r (hp r)
  | unroll k => exact hp.elim
  | stall => exact hp.elim

end Prog

namespace Fallible

variable {Op : Type} {Reply : Op → Type} {α β ε : Type} {x y : Fallible Op Reply ε α}

def Straight (x : Fallible Op Reply ε α) : Prop := x.prog.Straight

theorem straight_pure (a : α) : (pure a : Fallible Op Reply ε α).Straight := trivial

theorem straight_fail (e : ε) : (fail e : Fallible Op Reply ε α).Straight := trivial

theorem straight_call (o : Op) : (call o : Fallible Op Reply ε (Reply o)).Straight :=
  fun _ => trivial

theorem straight_handle {f : Except ε α → Fallible Op Reply ε β} (hx : x.Straight)
    (hf : ∀ r, (f r).Straight) : (x.handle f).Straight :=
  Prog.straight_bind hx hf

theorem straight_bind {f : α → Fallible Op Reply ε β} (hx : x.Straight)
    (hf : ∀ a, (f a).Straight) : (x >>= f).Straight := by
  apply straight_handle hx
  intro r
  cases r with
  | ok a => exact hf a
  | error e => exact straight_fail e

theorem straight_ite {c : Prop} [Decidable c] (hx : x.Straight) (hy : y.Straight) :
    (if c then x else y).Straight := by
  by_cases h : c
  · rw [if_pos h]
    exact hx
  · rw [if_neg h]
    exact hy

end Fallible

namespace Contract

variable {Op : Type} {Reply : Op → Type} {α β σ ε ι : Type} (C : Contract Op Reply σ)

def total : Prog Op Reply α → (α → σ → Prop) → σ → Prop
  | .ret a, Q, s => Q a s
  | .call o k, Q, s => ∀ r, C.rely s ⟨o,r⟩ → total (k r) Q (C.next s ⟨o,r⟩)
  | .unroll k, Q, s => ∃ n, total (k n) Q s
  | .stall, _, _ => False

theorem total_mono {p : Prog Op Reply α} {Q Q' : α → σ → Prop} {s : σ} (h : C.total p Q s)
    (hQ : ∀ a s, Q a s → Q' a s) : C.total p Q' s := by
  induction p generalizing s with
  | ret a => exact hQ a s h
  | call o k ih => exact fun r hr => ih r (h r hr)
  | unroll k ih =>
    obtain ⟨n,hn⟩ := h
    exact ⟨n,ih n hn⟩
  | stall => exact h

theorem total_bind {p : Prog Op Reply α} {f : α → Prog Op Reply β} {Q : β → σ → Prop} {s : σ}
    (h : C.total p (fun a => C.total (f a) Q) s) : C.total (p.bind f) Q s := by
  induction p generalizing s with
  | ret a => exact h
  | call o k ih => exact fun r hr => ih r (h r hr)
  | unroll k ih =>
    obtain ⟨n,hn⟩ := h
    exact ⟨n,ih n hn⟩
  | stall => exact h

theorem total_loop {body : ι → Prog Op Reply (ι ⊕ α)} {Q : α → σ → Prop} (I : ι → σ → Prop)
    (V : ι → σ → ℕ)
    (h : ∀ i s, I i s → C.total (body i)
      (fun r s' => r.elim (fun i' => I i' s' ∧ V i' s' < V i s) (Q · s')) s)
    {i : ι} {s : σ} (hi : I i s) : C.total (Prog.loop body i) Q s := by
  have hfuel (n : ℕ) : ∀ i s, I i s → V i s < n → C.total (Prog.iterate body n i) Q s := by
    induction n with
    | zero => exact fun i s _ hlt => absurd hlt (Nat.not_lt_zero _)
    | succ n ih =>
      intro i s hi hlt
      apply C.total_bind
      apply C.total_mono (h i s hi)
      intro r s' hr
      cases r with
      | inl i' => exact ih i' s' hr.1 (by have := hr.2; omega)
      | inr a => exact hr
  exact ⟨V i s + 1,hfuel _ i s hi (Nat.lt_succ_self _)⟩

theorem total_straight {p : Prog Op Reply α} {Q : α → σ → Prop} {s : σ} (hp : p.Straight)
    (h : C.wp p Q s) : C.total p Q s := by
  induction p generalizing s with
  | ret a => exact h
  | call o k ih => exact fun r hr => ih r (hp r) (h r hr).2
  | unroll k => exact hp.elim
  | stall => exact hp.elim

theorem total_run {p : Prog Op Reply α} {Q : α → σ → Prop} {s : σ} (J : σ → Prop)
    (hlive : ∀ s o, J s → ∃ r, C.rely s ⟨o,r⟩ ∧ J (C.next s ⟨o,r⟩)) (hs : J s)
    (h : C.total p Q s) : ∃ tr a, Prog.Run p tr a ∧ C.Relied s tr := by
  induction p generalizing s with
  | ret a => exact ⟨[],a,.ret a,trivial⟩
  | call o k ih =>
    obtain ⟨r,hr,hnext⟩ := hlive s o hs
    obtain ⟨tr,a,hrun,hrel⟩ := ih r hnext (h r hr)
    exact ⟨⟨o,r⟩ :: tr,a,.call r hrun,hr,hrel⟩
  | unroll k ih =>
    obtain ⟨n,hn⟩ := h
    obtain ⟨tr,a,hrun,hrel⟩ := ih n hs hn
    exact ⟨tr,a,.unroll n hrun,hrel⟩
  | stall => exact h.elim

def totally (x : Fallible Op Reply ε α) (Q : α → σ → Prop) (E : ε → σ → Prop) (s : σ) : Prop :=
  C.total x.prog (fun r s => match r with
    | .ok a => Q a s
    | .error e => E e s) s

section Rules

variable {x y : Fallible Op Reply ε α} {Q Q' : α → σ → Prop} {E E' : ε → σ → Prop} {s : σ}

theorem totally_mono (h : C.totally x Q E s) (hQ : ∀ a s, Q a s → Q' a s)
    (hE : ∀ e s, E e s → E' e s) : C.totally x Q' E' s := by
  apply C.total_mono h
  intro r s' hr
  cases r with
  | ok a => exact hQ a s' hr
  | error e => exact hE e s' hr

theorem totally_handle {f : Except ε α → Fallible Op Reply ε β} {Q : β → σ → Prop}
    (h : C.totally x (fun a => C.totally (f (.ok a)) Q E) (fun e => C.totally (f (.error e)) Q E) s) :
    C.totally (x.handle f) Q E s := by
  apply C.total_bind
  apply C.total_mono h
  intro r s' hr
  cases r <;> exact hr

theorem totally_bind {f : α → Fallible Op Reply ε β} {Q : β → σ → Prop}
    (h : C.totally x (fun a => C.totally (f a) Q E) E s) : C.totally (x >>= f) Q E s :=
  C.totally_handle h

theorem totally_loop {body : ι → Fallible Op Reply ε (ι ⊕ α)} (I : ι → σ → Prop) (V : ι → σ → ℕ)
    (h : ∀ i s, I i s → C.totally (body i)
      (fun r s' => r.elim (fun i' => I i' s' ∧ V i' s' < V i s) (Q · s')) E s)
    {i : ι} (hi : I i s) : C.totally (Fallible.loop body i) Q E s := by
  refine C.total_loop I V ?_ hi
  intro i s hs
  apply C.total_bind
  apply C.total_mono (h i s hs)
  intro r s' hr
  match r, hr with
  | .ok (.inl i'), hr => exact hr
  | .ok (.inr a), hr => exact hr
  | .error e, hr => exact hr

end Rules

def sure (x : Fallible Op Reply ε α) (Q : α → σ → Prop) (E : ε → σ → Prop) (s : σ) : Prop :=
  C.wpe x Q E s ∧ C.totally x Q E s

section Sure

variable {x y : Fallible Op Reply ε α} {Q Q' : α → σ → Prop} {E E' : ε → σ → Prop} {s : σ}

theorem sure_mono (h : C.sure x Q E s) (hQ : ∀ a s, Q a s → Q' a s) (hE : ∀ e s, E e s → E' e s) :
    C.sure x Q' E' s :=
  ⟨C.wpe_mono h.1 hQ hE,C.totally_mono h.2 hQ hE⟩

theorem sure_straight (hx : x.Straight) (h : C.wpe x Q E s) : C.sure x Q E s :=
  ⟨h,C.total_straight hx h⟩

theorem sure_bind {f : α → Fallible Op Reply ε β} {Q : β → σ → Prop}
    (h : C.sure x (fun a => C.sure (f a) Q E) E s) : C.sure (x >>= f) Q E s := by
  constructor
  · rw [wpe_bind]
    exact C.wpe_mono h.1 (fun _ _ ha => ha.1) (fun _ _ he => he)
  · apply C.totally_bind
    exact C.totally_mono h.2 (fun _ _ ha => ha.2) (fun _ _ he => he)

theorem sure_ensuring {c : Fallible Op Reply ε Unit}
    (h : C.sure x (fun a => C.sure c (fun _ => Q a) E) (fun e => C.sure c (fun _ => E e) E) s) :
    C.sure (x.ensuring c) Q E s := by
  constructor
  · rw [wpe_ensuring]
    exact C.wpe_mono h.1 (fun _ _ ha => ha.1) (fun _ _ he => he.1)
  · apply C.totally_handle
    apply C.totally_mono h.2
    · intro a s' ha
      exact C.totally_bind ha.2
    · intro e s' he
      exact C.totally_bind he.2

theorem sure_loop {body : ι → Fallible Op Reply ε (ι ⊕ α)} (I : ι → σ → Prop) (V : ι → σ → ℕ)
    (h : ∀ i s, I i s → C.sure (body i)
      (fun r s' => r.elim (fun i' => I i' s' ∧ V i' s' < V i s) (Q · s')) E s)
    {i : ι} (hi : I i s) : C.sure (Fallible.loop body i) Q E s := by
  constructor
  · refine C.wpe_loop I ?_ hi
    intro i s hs
    apply C.wpe_mono (h i s hs).1 _ (fun _ _ he => he)
    intro r s' hr
    cases r with
    | inl i' => exact hr.1
    | inr a => exact hr
  · exact C.totally_loop I V (fun i s hs => (h i s hs).2) hi

theorem sure_run (J : σ → Prop)
    (hlive : ∀ s o, J s → ∃ r, C.rely s ⟨o,r⟩ ∧ J (C.next s ⟨o,r⟩)) (hs : J s)
    (h : C.sure x Q E s) : ∃ tr res, x.Run tr res ∧ C.Relied s tr :=
  C.total_run J hlive hs h.2

end Sure

end Contract

end Interaction
