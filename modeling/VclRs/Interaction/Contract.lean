import VclRs.Interaction.Program

namespace Interaction

structure Contract (Op : Type) (Reply : Op → Type) (σ : Type) where
  rely : σ → Event Op Reply → Prop
  guar : σ → Event Op Reply → Prop
  next : σ → Event Op Reply → σ

namespace Contract

variable {Op : Type} {Reply : Op → Type} {α β σ τ ε ι : Type}
variable (C : Contract Op Reply σ)

def after (s : σ) (tr : List (Event Op Reply)) : σ := tr.foldl C.next s

def Relied : σ → List (Event Op Reply) → Prop
  | _, [] => True
  | s, e :: tr => C.rely s e ∧ Relied (C.next s e) tr

def Kept : σ → List (Event Op Reply) → Prop
  | _, [] => True
  | s, e :: tr => C.guar s e ∧ Kept (C.next s e) tr

instance instDecidableRelied [∀ s e, Decidable (C.rely s e)] : ∀ s tr, Decidable (C.Relied s tr)
  | _, [] => isTrue trivial
  | s, e :: tr =>
    have := instDecidableRelied (C.next s e) tr
    inferInstanceAs (Decidable (C.rely s e ∧ C.Relied (C.next s e) tr))

def wp : Prog Op Reply α → (α → σ → Prop) → σ → Prop
  | .ret a, Q, s => Q a s
  | .call o k, Q, s => ∀ r, C.rely s ⟨o,r⟩ → C.guar s ⟨o,r⟩ ∧ wp (k r) Q (C.next s ⟨o,r⟩)
  | .unroll k, Q, s => ∀ n, wp (k n) Q s
  | .stall, _, _ => True

@[simp] theorem after_nil (s : σ) : C.after s [] = s := rfl

@[simp] theorem after_cons (s : σ) (e : Event Op Reply) (tr : List (Event Op Reply)) :
    C.after s (e :: tr) = C.after (C.next s e) tr := rfl

theorem after_append (s : σ) (tr tr' : List (Event Op Reply)) :
    C.after s (tr ++ tr') = C.after (C.after s tr) tr' := by
  simp [after,List.foldl_append]

theorem kept_append (s : σ) (tr tr' : List (Event Op Reply)) :
    C.Kept s (tr ++ tr') ↔ C.Kept s tr ∧ C.Kept (C.after s tr) tr' := by
  induction tr generalizing s with
  | nil => simp [Kept]
  | cons e tr ih => simp [Kept,ih,and_assoc]

theorem kept_at {s : σ} {pre post : List (Event Op Reply)} {e : Event Op Reply}
    (h : C.Kept s (pre ++ e :: post)) :
    C.guar (C.after s pre) e ∧ C.Kept (C.next (C.after s pre) e) post :=
  ((C.kept_append s pre (e :: post)).mp h).2

theorem relied_of_mem {s : σ} {tr : List (Event Op Reply)} (hC : ∀ s, ∀ e ∈ tr, C.rely s e) :
    C.Relied s tr := by
  induction tr generalizing s with
  | nil => trivial
  | cons e tr ih =>
    have hhead := hC s e (List.mem_cons_self ..)
    exact ⟨hhead,ih (fun s' e' he' => hC s' e' (List.mem_cons_of_mem e he'))⟩

theorem relied_of_forall (hC : ∀ s e, C.rely s e) (s : σ) (tr : List (Event Op Reply)) :
    C.Relied s tr :=
  C.relied_of_mem (fun s e _ => hC s e)

theorem wp_mono {p : Prog Op Reply α} {Q Q' : α → σ → Prop} {s : σ}
    (h : C.wp p Q s) (hQ : ∀ a s, Q a s → Q' a s) : C.wp p Q' s := by
  induction p generalizing s with
  | ret a => exact hQ a s h
  | call o k ih => exact fun r hr => ⟨(h r hr).1,ih r (h r hr).2⟩
  | unroll k ih => exact fun n => ih n (h n)
  | stall => trivial

theorem wp_bind {p : Prog Op Reply α} {f : α → Prog Op Reply β} {Q : β → σ → Prop} {s : σ} :
    C.wp (p.bind f) Q s ↔ C.wp p (fun a => C.wp (f a) Q) s := by
  induction p generalizing s with
  | ret a => rfl
  | call o k ih => simp only [Prog.bind,wp,ih]
  | unroll k ih => simp only [Prog.bind,wp,ih]
  | stall => rfl

theorem wp_loop {body : ι → Prog Op Reply (ι ⊕ α)} {Q : α → σ → Prop} (I : ι → σ → Prop)
    (h : ∀ i s, I i s → C.wp (body i) (fun r s' => r.elim (I · s') (Q · s')) s)
    {i : ι} {s : σ} (hi : I i s) : C.wp (Prog.loop body i) Q s := by
  intro n
  induction n generalizing i s with
  | zero => trivial
  | succ n ih =>
    refine (C.wp_bind).mpr (C.wp_mono (h i s hi) ?_)
    intro r s' hr
    cases r with
    | inl i' => exact ih hr
    | inr a => exact hr

theorem wp_run {p : Prog Op Reply α} {Q : α → σ → Prop} {s : σ} {tr : List (Event Op Reply)}
    {a : α} (h : C.wp p Q s) (hr : Prog.Run p tr a) (hrel : C.Relied s tr) :
    C.Kept s tr ∧ Q a (C.after s tr) := by
  induction hr generalizing s with
  | ret a => exact ⟨trivial,h⟩
  | call r _ ih =>
    obtain ⟨hg,hk⟩ := h r hrel.1
    obtain ⟨hkept,hq⟩ := ih hk hrel.2
    exact ⟨⟨hg,hkept⟩,hq⟩
  | unroll n _ ih => exact ih (h n) hrel

theorem wp_step {p q : Prog Op Reply α} {Q : α → σ → Prop} {s : σ} {e : Event Op Reply}
    (h : C.wp p Q s) (hs : Prog.Step p e q) (hrel : C.rely s e) :
    C.guar s e ∧ C.wp q Q (C.next s e) := by
  induction hs with
  | call r => exact h r hrel
  | unroll n _ ih => exact ih (h n) hrel

theorem wp_returns {p : Prog Op Reply α} {Q : α → σ → Prop} {s : σ} {a : α}
    (h : C.wp p Q s) (hr : Prog.Returns p a) : Q a s := by
  induction hr with
  | ret a => exact h
  | unroll n _ ih => exact ih (h n)

theorem wp_of_forall {p : Prog Op Reply α} {Q : α → σ → Prop} (hC : ∀ s e, C.guar s e)
    (hQ : ∀ a s, Q a s) (s : σ) : C.wp p Q s := by
  induction p generalizing s with
  | ret a => exact hQ a s
  | call o k ih => exact fun r _ => ⟨hC s _,ih r _⟩
  | unroll k ih => exact fun n => ih n s
  | stall => trivial

theorem wp_of_calls {P : Op → Prop} {I : σ → Prop}
    (hI : ∀ s e, I s → P e.op → C.rely s e → C.guar s e ∧ I (C.next s e))
    {p : Prog Op Reply α} (hp : p.Calls P) {s : σ} (hs : I s) : C.wp p (fun _ => I) s := by
  induction p generalizing s with
  | ret a => exact hs
  | call o k ih =>
    intro r hr
    obtain ⟨hg,hn⟩ := hI s ⟨o,r⟩ hs hp.1 hr
    exact ⟨hg,ih r (hp.2 r) hn⟩
  | unroll k ih => exact fun n => ih n (hp n) hs
  | stall => trivial

def pair (D : Contract Op Reply τ) : Contract Op Reply (σ × τ) where
  rely s e := C.rely s.1 e ∧ D.rely s.2 e
  guar s e := C.guar s.1 e ∧ D.guar s.2 e
  next s e := (C.next s.1 e,D.next s.2 e)

theorem wp_pair {D : Contract Op Reply τ} {p : Prog Op Reply α} {Q : α → σ → Prop}
    {R : α → τ → Prop} {s : σ} {t : τ} (h : C.wp p Q s) (h' : D.wp p R t) :
    (C.pair D).wp p (fun a st => Q a st.1 ∧ R a st.2) (s,t) := by
  induction p generalizing s t with
  | ret a => exact ⟨h,h'⟩
  | call o k ih =>
    intro r hr
    obtain ⟨hg,hk⟩ := h r hr.1
    obtain ⟨hg',hk'⟩ := h' r hr.2
    exact ⟨⟨hg,hg'⟩,ih r hk hk'⟩
  | unroll k ih => exact fun n => ih n (h n) (h' n)
  | stall => trivial

theorem pair_after (D : Contract Op Reply τ) (s : σ) (t : τ) (tr : List (Event Op Reply)) :
    (C.pair D).after (s,t) tr = (C.after s tr,D.after t tr) := by
  induction tr generalizing s t with
  | nil => rfl
  | cons e tr ih => exact ih _ _

def wpe (x : Fallible Op Reply ε α) (Q : α → σ → Prop) (E : ε → σ → Prop) (s : σ) : Prop :=
  C.wp x.prog (fun r s => match r with
    | .ok a => Q a s
    | .error e => E e s) s

section Rules

variable {x y : Fallible Op Reply ε α} {Q Q' : α → σ → Prop} {E E' : ε → σ → Prop} {s : σ}

@[simp] theorem wpe_pure {a : α} : C.wpe (pure a : Fallible Op Reply ε α) Q E = Q a := rfl

@[simp] theorem wpe_fail {e : ε} : C.wpe (Fallible.fail e : Fallible Op Reply ε α) Q E = E e := rfl

@[simp] theorem wpe_call {o : Op} {Q : Reply o → σ → Prop} :
    C.wpe (Fallible.call o : Fallible Op Reply ε (Reply o)) Q E =
      fun s => ∀ r, C.rely s ⟨o,r⟩ → C.guar s ⟨o,r⟩ ∧ Q r (C.next s ⟨o,r⟩) := rfl

theorem wpe_mono (h : C.wpe x Q E s) (hQ : ∀ a s, Q a s → Q' a s) (hE : ∀ e s, E e s → E' e s) :
    C.wpe x Q' E' s := by
  refine C.wp_mono h ?_
  intro r s' hr
  cases r with
  | ok a => exact hQ a s' hr
  | error e => exact hE e s' hr

theorem wpe_handle {f : Except ε α → Fallible Op Reply ε β} {Q : β → σ → Prop} :
    C.wpe (x.handle f) Q E =
      C.wpe x (fun a => C.wpe (f (.ok a)) Q E) (fun e => C.wpe (f (.error e)) Q E) := by
  funext s
  simp only [wpe,Fallible.handle,wp_bind,eq_iff_iff]
  constructor <;> intro h <;> refine C.wp_mono h ?_ <;> intro r s' hr <;> cases r <;> exact hr

@[simp] theorem wpe_bind {f : α → Fallible Op Reply ε β} {Q : β → σ → Prop} :
    C.wpe (x >>= f) Q E = C.wpe x (fun a => C.wpe (f a) Q E) E :=
  C.wpe_handle

@[simp] theorem wpe_onFail {c : Fallible Op Reply ε Unit} :
    C.wpe (x.onFail c) Q E = C.wpe x Q (fun e => C.wpe c (fun _ => E e) E) := by
  simp only [Fallible.onFail,wpe_handle,wpe_pure,wpe_bind,wpe_fail]

@[simp] theorem wpe_ensuring {c : Fallible Op Reply ε Unit} :
    C.wpe (x.ensuring c) Q E =
      C.wpe x (fun a => C.wpe c (fun _ => Q a) E) (fun e => C.wpe c (fun _ => E e) E) := by
  simp only [Fallible.ensuring,wpe_handle,wpe_pure,wpe_bind,wpe_fail]

@[simp] theorem wpe_ite {c : Prop} [Decidable c] :
    C.wpe (if c then x else y) Q E = if c then C.wpe x Q E else C.wpe y Q E := by
  by_cases h : c <;> simp [h]

theorem wpe_loop {body : ι → Fallible Op Reply ε (ι ⊕ α)} (I : ι → σ → Prop)
    (h : ∀ i s, I i s → C.wpe (body i) (fun r s' => r.elim (I · s') (Q · s')) E s)
    {i : ι} (hi : I i s) : C.wpe (Fallible.loop body i) Q E s := by
  refine C.wp_loop I ?_ hi
  intro i s hs
  refine (C.wp_bind).mpr (C.wp_mono (h i s hs) ?_)
  intro r s' hr
  match r, hr with
  | .ok (.inl i'), hr => exact hr
  | .ok (.inr a), hr => exact hr
  | .error e, hr => exact hr

theorem wpe_of_calls {P : Op → Prop} {I : σ → Prop}
    (hI : ∀ s e, I s → P e.op → C.rely s e → C.guar s e ∧ I (C.next s e))
    (hx : x.Calls P) (hs : I s) : C.wpe x (fun _ => I) (fun _ => I) s := by
  refine C.wp_mono (C.wp_of_calls hI hx hs) ?_
  intro r s' hr
  cases r <;> exact hr

theorem wpe_of_forall (hC : ∀ s e, C.guar s e) (hQ : ∀ a s, Q a s) (hE : ∀ e s, E e s) (s : σ) :
    C.wpe x Q E s := by
  apply C.wp_of_forall hC
  intro r s'
  cases r with
  | ok a => exact hQ a s'
  | error e => exact hE e s'

theorem wpe_still {P : Op → Prop} (hP : ∀ e, P e.op → C.guar s e ∧ C.next s e = s)
    (hx : x.Calls P) (hQ : ∀ a, Q a s) (hE : ∀ e, E e s) : C.wpe x Q E s := by
  have h : C.wpe x (fun _ => (· = s)) (fun _ => (· = s)) s := by
    refine C.wpe_of_calls ?_ hx rfl
    rintro s' e rfl he -
    exact hP e he
  apply C.wpe_mono h
  · rintro a s' rfl
    exact hQ a
  · rintro e s' rfl
    exact hE e

theorem wpe_call_still {o : Op} {Q : Reply o → σ → Prop}
    (h : ∀ r, C.guar s ⟨o,r⟩ ∧ C.next s ⟨o,r⟩ = s) (hQ : ∀ r, Q r s) :
    C.wpe (Fallible.call o) Q E s := by
  intro r _
  obtain ⟨hg,hn⟩ := h r
  refine ⟨hg,?_⟩
  rw [hn]
  exact hQ r

theorem wpe_ok {tr : List (Event Op Reply)} {a : α} (h : C.wpe x Q E s)
    (hr : x.Run tr (.ok a)) (hrel : C.Relied s tr) : C.Kept s tr ∧ Q a (C.after s tr) := by
  have hw := C.wp_run h hr hrel
  exact hw

theorem wpe_error {tr : List (Event Op Reply)} {e : ε} (h : C.wpe x Q E s)
    (hr : x.Run tr (.error e)) (hrel : C.Relied s tr) : C.Kept s tr ∧ E e (C.after s tr) := by
  have hw := C.wp_run h hr hrel
  exact hw

end Rules

section Always

variable {x y : Fallible Op Reply ε α}

def Always (x : Fallible Op Reply ε α) : Prop :=
  ∀ s, C.wpe x (fun _ _ => True) (fun _ _ => True) s

variable {C}

theorem always_of_calls {P : Op → Prop} (hP : ∀ s e, P e.op → C.guar s e) (hx : x.Calls P) :
    C.Always x := by
  intro s
  exact C.wpe_of_calls (I := fun _ => True) (fun s e _ he _ => ⟨hP s e he,trivial⟩) hx trivial

theorem always_handle {f : Except ε α → Fallible Op Reply ε β} (hx : C.Always x)
    (hf : ∀ r, C.Always (f r)) : C.Always (x.handle f) := by
  intro s
  rw [wpe_handle]
  exact C.wpe_mono (hx s) (fun a s' _ => hf (.ok a) s') (fun e s' _ => hf (.error e) s')

theorem always_bind {f : α → Fallible Op Reply ε β} (hx : C.Always x) (hf : ∀ a, C.Always (f a)) :
    C.Always (x >>= f) := by
  intro s
  rw [wpe_bind]
  exact C.wpe_mono (hx s) (fun a s' _ => hf a s') (fun _ _ h => h)

theorem always_ite {c : Prop} [Decidable c] (hx : C.Always x) (hy : C.Always y) :
    C.Always (if c then x else y) := by
  by_cases h : c
  · rw [if_pos h]
    exact hx
  · rw [if_neg h]
    exact hy

theorem always_onFail {c : Fallible Op Reply ε Unit} (hx : C.Always x) (hc : C.Always c) :
    C.Always (x.onFail c) := by
  intro s
  rw [wpe_onFail]
  exact C.wpe_mono (hx s) (fun _ _ h => h) (fun _ s' _ => hc s')

theorem always_ensuring {c : Fallible Op Reply ε Unit} (hx : C.Always x) (hc : C.Always c) :
    C.Always (x.ensuring c) := by
  intro s
  rw [wpe_ensuring]
  exact C.wpe_mono (hx s) (fun _ s' _ => hc s') (fun _ s' _ => hc s')

theorem always_loop {body : ι → Fallible Op Reply ε (ι ⊕ α)} (h : ∀ i, C.Always (body i)) (i : ι) :
    C.Always (Fallible.loop body i) := by
  intro s
  refine C.wpe_loop (fun _ _ => True) ?_ trivial
  intro i s _
  refine C.wpe_mono (h i s) ?_ (fun _ _ h => h)
  intro r s' _
  cases r <;> trivial

end Always

section Tracing

def tracing (Op : Type) (Reply : Op → Type) : Contract Op Reply (List (Event Op Reply)) where
  rely _ _ := True
  guar _ _ := True
  next tr e := tr ++ [e]

theorem tracing_after (s tr : List (Event Op Reply)) : (tracing Op Reply).after s tr = s ++ tr := by
  induction tr generalizing s with
  | nil => rw [after_nil,List.append_nil]
  | cons e tr ih =>
    rw [after_cons,ih]
    exact List.append_assoc s [e] tr

theorem tracing_run {x : Fallible Op Reply ε α} {Q : Except ε α → List (Event Op Reply) → Prop}
    {tr : List (Event Op Reply)} {r : Except ε α}
    (h : (tracing Op Reply).wpe x (fun a => Q (.ok a)) (fun e => Q (.error e)) [])
    (hr : x.Run tr r) : Q r tr := by
  have hw := (wp_run _ h hr (relied_of_forall _ (fun _ _ => trivial) _ _)).2
  rw [tracing_after,List.nil_append] at hw
  cases r <;> exact hw

end Tracing

end Contract

namespace Fallible

variable {Op : Type} {Reply : Op → Type} {α β ε ι : Type} {P : Op → Prop}
variable {x y : Fallible Op Reply ε α}

theorem calls_pure (a : α) : Calls P (pure a : Fallible Op Reply ε α) := trivial

theorem calls_fail (e : ε) : Calls P (fail e : Fallible Op Reply ε α) := trivial

theorem calls_call {o : Op} (h : P o) : Calls P (call o : Fallible Op Reply ε (Reply o)) :=
  ⟨h,fun _ => trivial⟩

theorem calls_handle {f : Except ε α → Fallible Op Reply ε β}
    (hx : x.Calls P) (hf : ∀ r, (f r).Calls P) : (x.handle f).Calls P :=
  Prog.calls_bind hx hf

theorem calls_bind {f : α → Fallible Op Reply ε β}
    (hx : x.Calls P) (hf : ∀ a, (f a).Calls P) : Calls P (x >>= f) := by
  refine calls_handle hx ?_
  intro r
  cases r with
  | ok a => exact hf a
  | error e => trivial

theorem calls_ite {c : Prop} [Decidable c] (hx : x.Calls P) (hy : y.Calls P) :
    Calls P (if c then x else y) := by
  by_cases h : c
  · simpa [h] using hx
  · simpa [h] using hy

theorem calls_onFail {c : Fallible Op Reply ε Unit} (hx : x.Calls P) (hc : c.Calls P) :
    (x.onFail c).Calls P := by
  refine calls_handle hx ?_
  intro r
  cases r with
  | ok a => exact calls_pure a
  | error e => exact calls_bind hc (fun _ => calls_fail e)

theorem calls_ensuring {c : Fallible Op Reply ε Unit} (hx : x.Calls P) (hc : c.Calls P) :
    (x.ensuring c).Calls P := by
  refine calls_handle hx ?_
  intro r
  cases r with
  | ok a => exact calls_bind hc (fun _ => calls_pure a)
  | error e => exact calls_bind hc (fun _ => calls_fail e)

theorem calls_loop {body : ι → Fallible Op Reply ε (ι ⊕ α)} (h : ∀ i, (body i).Calls P)
    (i : ι) : (loop body i).Calls P := by
  refine Prog.calls_loop ?_ i
  intro i
  exact Prog.calls_bind (h i) (fun _ => trivial)

end Fallible

end Interaction
