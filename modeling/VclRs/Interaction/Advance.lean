import VclRs.Interaction.Head
import VclRs.Interaction.Pool

namespace Interaction

namespace Prog

variable {Op : Type} {Reply : Op → Type} {α : Type}

def advance (answer : ℕ → (o : Op) → Reply o) (fuel : ℕ) :
    ℕ → ℕ → Prog Op Reply α → List (Event Op Reply) × Prog Op Reply α
  | 0, _, p => ([],p)
  | n + 1, i, p =>
    match p.expose fuel with
    | none => ([],p)
    | some ⟨o,k⟩ =>
      let rest := advance answer fuel n (i + 1) (k (answer i o))
      (⟨o,answer i o⟩ :: rest.1,rest.2)

def finishing {σ : Type} (answer : σ → (o : Op) → Reply o × σ) (fuel : ℕ) (p : Prog Op Reply α)
    (s : σ) : List (Event Op Reply) := ((p.exec answer fuel s).map (fun y => y.2.1)).getD []

end Prog

namespace System

variable {Op : Type} {Reply : Op → Type} {Kind Obj : Type} {S : System Op Reply Kind Obj}
variable {objects objs : Multiset Obj} {tasks : Multiset (Task Op Reply Kind Obj)}
variable {log : List (Record Op Reply Kind)} {k : Kind} {past : List (Event Op Reply)}
variable {q : Prog Op Reply (Multiset Obj)}

theorem reach_advance (answer : ℕ → (o : Op) → Reply o) (fuel n i : ℕ)
    (hadm : S.Admitted k log past (q.advance answer fuel n i).1)
    (h : S.Reach objects ⟨⟨k,past,q⟩ ::ₘ tasks,objs,log⟩) :
    S.Reach objects ⟨⟨k,past ++ (q.advance answer fuel n i).1,(q.advance answer fuel n i).2⟩ ::ₘ tasks,
      objs,log ++ stamps k past (q.advance answer fuel n i).1⟩ := by
  induction n generalizing i q past log with
  | zero =>
    rw [Prog.advance,stamps,List.append_nil,List.append_nil]
    exact h
  | succ n ih =>
    cases hx : q.expose fuel with
    | none =>
      simp only [Prog.advance,hx,stamps,List.append_nil]
      exact h
    | some x =>
      obtain ⟨o,k'⟩ := x
      simp only [Prog.advance,hx] at hadm ⊢
      have hstep := Prog.head_step (Prog.expose_head hx) (answer i o)
      have hrest := ih (i + 1) hadm.2 (h.tail (.act hstep hadm.1))
      rw [List.append_assoc,List.append_assoc] at hrest
      exact hrest

theorem reach_finish {σ : Type} [DecidableEq Obj] (answer : σ → (o : Op) → Reply o × σ) (fuel : ℕ)
    (s : σ) (os : Multiset Obj) (hx : (q.exec answer fuel s).any (fun y => decide (y.1 = os)) = true)
    (hadm : S.Admitted k log past (q.finishing answer fuel s))
    (h : S.Reach objects ⟨⟨k,past,q⟩ ::ₘ tasks,objs,log⟩) :
    S.Reach objects ⟨tasks,os + objs,log ++ stamps k past (q.finishing answer fuel s)⟩ := by
  obtain ⟨⟨a,tr,s'⟩,hexec,ha⟩ := (Option.any_eq_true _ _).mp hx
  obtain rfl : a = os := of_decide_eq_true ha
  have hfinish : q.finishing answer fuel s = tr := by
    rw [Prog.finishing,hexec]
    rfl
  rw [hfinish] at hadm ⊢
  exact reach_run hadm (Prog.exec_run _ _ _ _ _ _ _ hexec) h

end System

end Interaction
