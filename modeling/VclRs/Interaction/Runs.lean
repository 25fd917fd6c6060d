import VclRs.Interaction.Head

namespace Interaction

variable {Op : Type} {Reply : Op → Type} {α β ε σ : Type} {tr tr' : List (Event Op Reply)}

theorem Prog.run_ret {p : Prog Op Reply α} {f : α → Prog Op Reply β} {a : α} {b : β}
    (h : p.Run tr a) (hf : f a = .ret b) : (p.bind f).Run tr b := by
  have hrest : (f a).Run [] b := by
    rw [hf]
    exact .ret b
  have hrun := Prog.run_bind h hrest
  rw [List.append_nil] at hrun
  exact hrun

namespace Prog

inductive Path : Prog Op Reply α → List (Event Op Reply) → Prog Op Reply α → Prop
  | nil (p : Prog Op Reply α) : Path p [] p
  | cons {p q r : Prog Op Reply α} {e : Event Op Reply} {tr : List (Event Op Reply)}
      (hs : Step p e q) (h : Path q tr r) : Path p (e :: tr) r

theorem step_call {o : Op} {k : Reply o → Prog Op Reply α} {y : Reply o} {q : Prog Op Reply α}
    (h : k y = q) : Step (call o k) ⟨o,y⟩ q := by
  rw [← h]
  exact .call y

theorem path_append {p r : Prog Op Reply α} (h : Path p (tr ++ tr') r) :
    ∃ q, Path p tr q ∧ Path q tr' r := by
  induction tr generalizing p with
  | nil => exact ⟨p,.nil p,h⟩
  | cons e tr ih =>
    cases h with
    | cons hs h =>
      obtain ⟨q,hq,hr⟩ := ih h
      exact ⟨q,.cons hs hq,hr⟩

theorem upholds_path {P : Event Op Reply → Prog Op Reply α → Prop} {p q : Prog Op Reply α}
    (hp : p.Upholds P) (h : Path p tr q) : q.Upholds P := by
  induction h with
  | nil p => exact hp
  | cons hs _ ih => exact ih (upholds_step hp hs).2

end Prog

namespace Fallible

variable {x : Fallible Op Reply ε α}

theorem run_pure (a : α) : (pure a : Fallible Op Reply ε α).Run [] (.ok a) := .ret _

theorem run_call (o : Op) (r : Reply o) :
    (call o : Fallible Op Reply ε (Reply o)).Run [⟨o,r⟩] (.ok r) := .call r (.ret _)

theorem run_bind {f : α → Fallible Op Reply ε β} {a : α} {r : Except ε β} (h : x.Run tr (.ok a))
    (hf : (f a).Run tr' r) : (x >>= f).Run (tr ++ tr') r :=
  Prog.run_bind h hf

theorem run_bind_error {f : α → Fallible Op Reply ε β} {e : ε} (h : x.Run tr (.error e)) :
    (x >>= f).Run tr (.error e) :=
  Prog.run_ret h rfl

theorem run_bind_cases {f : α → Fallible Op Reply ε β} {r : Except ε β} (h : (x >>= f).Run tr r) :
    (∃ tr₁ tr₂ a, tr = tr₁ ++ tr₂ ∧ x.Run tr₁ (.ok a) ∧ (f a).Run tr₂ r) ∨
      ∃ e, x.Run tr (.error e) ∧ r = .error e := by
  obtain ⟨tr₁,tr₂,a,rfl,hx,hf⟩ := Prog.run_bind_inv h
  cases a with
  | ok a => exact .inl ⟨tr₁,tr₂,a,rfl,hx,hf⟩
  | error e =>
    cases hf with
    | ret =>
      rw [List.append_nil]
      exact .inr ⟨e,hx,rfl⟩

theorem run_call_bind {o : Op} {f : Reply o → Fallible Op Reply ε β} {r : Except ε β}
    (h : (call o >>= f).Run tr r) : ∃ y tr', tr = ⟨o,y⟩ :: tr' ∧ (f y).Run tr' r := by
  cases h with
  | call y hy => exact ⟨y,_,rfl,hy⟩

section Loop

variable {body : σ → Fallible Op Reply ε (σ ⊕ α)} {s s' : σ} {r : Except ε α}

theorem run_again (h : (body s).Run tr (.ok (.inl s'))) (hr : (loop body s').Run tr' r) :
    (loop body s).Run (tr ++ tr') r := by
  cases hr with
  | unroll n hn =>
    have hbody : ((body s).prog.bind (fun r => .ret (flip r))).Run tr (.inl s') := Prog.run_ret h rfl
    exact .unroll (n + 1) (Prog.run_bind hbody hn)

theorem run_last {x : Except ε (σ ⊕ α)} (h : (body s).Run tr x) (hx : flip x = .inr r) :
    (loop body s).Run tr r := by
  have hbody : ((body s).prog.bind (fun r => .ret (flip r))).Run tr (.inr r) :=
    Prog.run_ret h (congrArg Prog.ret hx)
  exact .unroll 1 (Prog.run_ret hbody rfl)

end Loop

end Fallible

end Interaction
