import Mathlib.Data.List.Basic

namespace Interaction

inductive Prog (Op : Type) (Reply : Op → Type) (α : Type) where
  | ret (a : α)
  | call (o : Op) (k : Reply o → Prog Op Reply α)
  | unroll (k : ℕ → Prog Op Reply α)
  | stall

structure Event (Op : Type) (Reply : Op → Type) where
  op : Op
  reply : Reply op

variable {Op : Type} {Reply : Op → Type} {α β γ σ ε : Type}

namespace Prog

def bind : Prog Op Reply α → (α → Prog Op Reply β) → Prog Op Reply β
  | ret a, f => f a
  | call o k, f => call o (fun r => (k r).bind f)
  | unroll k, f => unroll (fun n => (k n).bind f)
  | stall, _ => stall

theorem bind_assoc (p : Prog Op Reply α) (f : α → Prog Op Reply β) (g : β → Prog Op Reply γ) :
    (p.bind f).bind g = p.bind (fun a => (f a).bind g) := by
  induction p with
  | ret a => rfl
  | call o k ih => simp only [bind]; congr 1; funext r; exact ih r
  | unroll k ih => simp only [bind]; congr 1; funext n; exact ih n
  | stall => rfl

def iterate (body : σ → Prog Op Reply (σ ⊕ α)) : ℕ → σ → Prog Op Reply α
  | 0, _ => stall
  | n + 1, s => (body s).bind (fun
      | .inl s' => iterate body n s'
      | .inr a => ret a)

def loop (body : σ → Prog Op Reply (σ ⊕ α)) (s : σ) : Prog Op Reply α :=
  unroll (fun n => iterate body n s)

inductive Run : Prog Op Reply α → List (Event Op Reply) → α → Prop
  | ret (a : α) : Run (ret a) [] a
  | call {o : Op} {k : Reply o → Prog Op Reply α} {tr : List (Event Op Reply)} {a : α}
      (r : Reply o) (h : Run (k r) tr a) : Run (call o k) (⟨o,r⟩ :: tr) a
  | unroll {k : ℕ → Prog Op Reply α} {tr : List (Event Op Reply)} {a : α}
      (n : ℕ) (h : Run (k n) tr a) : Run (unroll k) tr a

inductive Step : Prog Op Reply α → Event Op Reply → Prog Op Reply α → Prop
  | call {o : Op} {k : Reply o → Prog Op Reply α} (r : Reply o) : Step (call o k) ⟨o,r⟩ (k r)
  | unroll {k : ℕ → Prog Op Reply α} {e : Event Op Reply} {p : Prog Op Reply α}
      (n : ℕ) (h : Step (k n) e p) : Step (unroll k) e p

inductive Returns : Prog Op Reply α → α → Prop
  | ret (a : α) : Returns (ret a) a
  | unroll {k : ℕ → Prog Op Reply α} {a : α} (n : ℕ) (h : Returns (k n) a) : Returns (unroll k) a

theorem run_step {p : Prog Op Reply α} {tr : List (Event Op Reply)} {a : α} (h : Run p tr a) :
    (tr = [] ∧ Returns p a) ∨ ∃ e q tr', tr = e :: tr' ∧ Step p e q ∧ Run q tr' a := by
  induction h with
  | ret a => exact .inl ⟨rfl,.ret a⟩
  | call r h _ => exact .inr ⟨_,_,_,rfl,.call r,h⟩
  | unroll n _ ih =>
    rcases ih with ⟨rfl,hr⟩ | ⟨e,q,tr',rfl,hs,hr⟩
    · exact .inl ⟨rfl,.unroll n hr⟩
    · exact .inr ⟨e,q,tr',rfl,.unroll n hs,hr⟩

theorem run_bind {p : Prog Op Reply α} {f : α → Prog Op Reply β}
    {tr tr' : List (Event Op Reply)} {a : α} {b : β}
    (h : Run p tr a) (hf : Run (f a) tr' b) : Run (p.bind f) (tr ++ tr') b := by
  induction h with
  | ret a => exact hf
  | call r _ ih => exact .call r (ih hf)
  | unroll n _ ih => exact .unroll n (ih hf)

theorem run_bind_inv {p : Prog Op Reply α} {f : α → Prog Op Reply β}
    {tr : List (Event Op Reply)} {b : β} (h : Run (p.bind f) tr b) :
    ∃ tr₁ tr₂ a, tr = tr₁ ++ tr₂ ∧ Run p tr₁ a ∧ Run (f a) tr₂ b := by
  induction p generalizing tr with
  | ret a => exact ⟨[],tr,a,rfl,.ret a,h⟩
  | call o k ih =>
    cases h with
    | call r h =>
      obtain ⟨tr₁,tr₂,a,rfl,h₁,h₂⟩ := ih r h
      exact ⟨⟨o,r⟩ :: tr₁,tr₂,a,rfl,.call r h₁,h₂⟩
  | unroll k ih =>
    cases h with
    | unroll n h =>
      obtain ⟨tr₁,tr₂,a,rfl,h₁,h₂⟩ := ih n h
      exact ⟨tr₁,tr₂,a,rfl,.unroll n h₁,h₂⟩
  | stall => cases h

def exec (answer : σ → (o : Op) → Reply o × σ) (fuel : ℕ) :
    Prog Op Reply α → σ → Option (α × List (Event Op Reply) × σ)
  | ret a, s => some (a,[],s)
  | call o k, s => (exec answer fuel (k (answer s o).1) (answer s o).2).map
      (fun x => (x.1,⟨o,(answer s o).1⟩ :: x.2.1,x.2.2))
  | unroll k, s => exec answer fuel (k fuel) s
  | stall, _ => none

theorem exec_run (answer : σ → (o : Op) → Reply o × σ) (fuel : ℕ) (p : Prog Op Reply α)
    (s s' : σ) (a : α) (tr : List (Event Op Reply))
    (h : exec answer fuel p s = some (a,tr,s')) : Run p tr a := by
  induction p generalizing s tr with
  | ret b =>
    simp only [exec,Option.some.injEq,Prod.mk.injEq] at h
    obtain ⟨rfl,rfl,rfl⟩ := h
    exact .ret b
  | call o k ih =>
    simp only [exec,Option.map_eq_some_iff] at h
    obtain ⟨⟨b,tr',t⟩,hx,he⟩ := h
    simp only [Prod.mk.injEq] at he
    obtain ⟨rfl,rfl,rfl⟩ := he
    exact .call _ (ih _ _ _ hx)
  | unroll k ih => exact .unroll fuel (ih fuel _ _ h)
  | stall => simp [exec] at h

def Calls (P : Op → Prop) : Prog Op Reply α → Prop
  | ret _ => True
  | call o k => P o ∧ ∀ r, (k r).Calls P
  | unroll k => ∀ n, (k n).Calls P
  | stall => True

theorem calls_bind {P : Op → Prop} {p : Prog Op Reply α} {f : α → Prog Op Reply β}
    (h : p.Calls P) (hf : ∀ a, (f a).Calls P) : (p.bind f).Calls P := by
  induction p with
  | ret a => exact hf a
  | call o k ih => exact ⟨h.1,fun r => ih r (h.2 r)⟩
  | unroll k ih => exact fun n => ih n (h n)
  | stall => trivial

theorem calls_loop {P : Op → Prop} {body : σ → Prog Op Reply (σ ⊕ α)}
    (h : ∀ s, (body s).Calls P) (s : σ) : (loop body s).Calls P := by
  intro n
  induction n generalizing s with
  | zero => trivial
  | succ n ih =>
    refine calls_bind (h s) ?_
    intro r
    cases r with
    | inl s' => exact ih s'
    | inr a => trivial

theorem calls_mono {P P' : Op → Prop} (hP : ∀ o, P o → P' o) {p : Prog Op Reply α}
    (h : p.Calls P) : p.Calls P' := by
  induction p with
  | ret a => trivial
  | call o k ih => exact ⟨hP o h.1,fun r => ih r (h.2 r)⟩
  | unroll k ih => exact fun n => ih n (h n)
  | stall => trivial

theorem calls_of_forall {P : Op → Prop} (hP : ∀ o, P o) (p : Prog Op Reply α) : p.Calls P := by
  induction p with
  | ret a => trivial
  | call o k ih => exact ⟨hP o,ih⟩
  | unroll k ih => exact ih
  | stall => trivial

theorem calls_run {P : Op → Prop} {p : Prog Op Reply α} {tr : List (Event Op Reply)} {a : α}
    (hp : p.Calls P) (h : Run p tr a) : ∀ e ∈ tr, P e.op := by
  induction h with
  | ret a => simp
  | call r _ ih =>
    intro e he
    rcases List.mem_cons.mp he with rfl | he
    · exact hp.1
    · exact ih (hp.2 r) e he
  | unroll n _ ih => exact ih (hp n)

theorem calls_step {P : Op → Prop} {p q : Prog Op Reply α} {e : Event Op Reply}
    (hp : p.Calls P) (h : Step p e q) : P e.op ∧ q.Calls P := by
  induction h with
  | call r => exact ⟨hp.1,hp.2 r⟩
  | unroll n _ ih => exact ih (hp n)

end Prog

structure Fallible (Op : Type) (Reply : Op → Type) (ε α : Type) where
  prog : Prog Op Reply (Except ε α)

namespace Fallible

def handle (x : Fallible Op Reply ε α) (f : Except ε α → Fallible Op Reply ε β) :
    Fallible Op Reply ε β := ⟨x.prog.bind (fun r => (f r).prog)⟩

def fail (e : ε) : Fallible Op Reply ε α := ⟨.ret (.error e)⟩

instance : Monad (Fallible Op Reply ε) where
  pure a := ⟨.ret (.ok a)⟩
  bind x f := x.handle (fun
    | .ok a => f a
    | .error e => fail e)

def call (o : Op) : Fallible Op Reply ε (Reply o) := ⟨.call o (fun r => .ret (.ok r))⟩

def onFail (x : Fallible Op Reply ε α) (cleanup : Fallible Op Reply ε Unit) :
    Fallible Op Reply ε α :=
  x.handle (fun
    | .ok a => pure a
    | .error e => cleanup >>= fun _ => fail e)

def ensuring (x : Fallible Op Reply ε α) (cleanup : Fallible Op Reply ε Unit) :
    Fallible Op Reply ε α :=
  x.handle (fun
    | .ok a => cleanup >>= fun _ => pure a
    | .error e => cleanup >>= fun _ => fail e)

def flip : Except ε (σ ⊕ α) → σ ⊕ Except ε α
  | .ok (.inl s) => .inl s
  | .ok (.inr a) => .inr (.ok a)
  | .error e => .inr (.error e)

def loop (body : σ → Fallible Op Reply ε (σ ⊕ α)) (s : σ) : Fallible Op Reply ε α :=
  ⟨Prog.loop (fun s => (body s).prog.bind (fun r => .ret (flip r))) s⟩

def Calls (P : Op → Prop) (x : Fallible Op Reply ε α) : Prop := x.prog.Calls P

def exec (x : Fallible Op Reply ε α) (env : ℕ → (o : Op) → Reply o) (fuel : ℕ) :
    Option (Except ε α × List (Event Op Reply) × ℕ) :=
  Prog.exec (fun n o => (env n o,n + 1)) fuel x.prog 0

def Run (x : Fallible Op Reply ε α) (tr : List (Event Op Reply)) (r : Except ε α) : Prop :=
  Prog.Run x.prog tr r

theorem bind_assoc {γ : Type} (x : Fallible Op Reply ε α) (f : α → Fallible Op Reply ε β)
    (g : β → Fallible Op Reply ε γ) : (x >>= f) >>= g = x >>= fun a => f a >>= g := by
  refine congrArg Fallible.mk ((Prog.bind_assoc _ _ _).trans ?_)
  congr 1
  funext r
  cases r with
  | ok a => rfl
  | error e => rfl

theorem exec_sat {x : Fallible Op Reply ε α} {P : Except ε α → List (Event Op Reply) → Prop}
    [∀ r tr, Decidable (P r tr)] (env : ℕ → (o : Op) → Reply o) (fuel : ℕ)
    (h : (x.exec env fuel).any (fun y => decide (P y.1 y.2.1)) = true) :
    ∃ r tr, x.Run tr r ∧ P r tr := by
  obtain ⟨⟨r,tr,n⟩,hx,hp⟩ := (Option.any_eq_true _ _).mp h
  exact ⟨r,tr,Prog.exec_run _ _ _ _ _ _ _ hx,of_decide_eq_true hp⟩

def performed (x : Fallible Op Reply ε α) (env : ℕ → (o : Op) → Reply o) (fuel : ℕ) :
    List (Event Op Reply) := ((x.exec env fuel).map (fun y => y.2.1)).getD []

theorem performed_run {x : Fallible Op Reply ε α} {P : Except ε α → Prop} [DecidablePred P]
    (env : ℕ → (o : Op) → Reply o) (fuel : ℕ)
    (h : (x.exec env fuel).any (fun y => decide (P y.1)) = true) :
    ∃ r, x.Run (x.performed env fuel) r ∧ P r := by
  obtain ⟨⟨r,tr,n⟩,hx,hp⟩ := (Option.any_eq_true _ _).mp h
  have hrun := Prog.exec_run _ _ _ _ _ _ _ hx
  refine ⟨r,?_,of_decide_eq_true hp⟩
  rw [performed,hx]
  exact hrun

end Fallible

end Interaction
