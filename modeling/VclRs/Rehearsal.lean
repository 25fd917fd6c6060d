import VclRs.World
import VclRs.Schedule

namespace VclRs

open Interaction Fallible

abbrev Answers := ℕ → (c : Call) → Reply c

def Job.performed (k : Job) (env : Answers) : List Ev :=
  Fallible.performed (@Api.call host k.api) env 20

section Rehearsal

variable {opens : Api → Prop} {admits : List Entry → Job → Ev → Prop}
instance instDecidableWorld [hd : ∀ log k e, Decidable (admits log k e)] (log : List Entry) (k : Job)
    (e : Ev) : Decidable ((@world host opens admits).admits log k e) := hd log k e

variable {objects before : Multiset (Thread × Obj)} {log : List Entry}

theorem world_call (h : (@world host opens admits).Reach objects ⟨0,before,log⟩) (k : Job)
    (os : Multiset Obj) (rest : Multiset (Thread × Obj)) (env : Answers) (hk : opens k.api)
    (hb : before = k.api.takes.map (Prod.mk k.home) + rest)
    (hl : ∀ o ∈ k.api.lends.map (Prod.mk k.home), o ∈ rest)
    (hadm : (@world host opens admits).Admitted k log [] (k.performed env))
    (hx : (Fallible.exec (@Api.call host k.api) env 20).any
      (fun y => decide (y.1.toOption.getD 0 = os)) = true) :
    (@world host opens admits).Reach objects
      ⟨0,os.map (Prod.mk k.home) + rest,log ++ stamps k [] (k.performed env)⟩ := by
  subst hb
  obtain ⟨res,hrun,rfl⟩ := Fallible.performed_run
    (P := fun res => res.toOption.getD 0 = os) env 20 hx
  exact System.reach_call k hk hl hadm (yielding_run hrun) h

variable {tasks : Multiset (Task Call Reply Job (Thread × Obj))}

theorem world_start (h : (@world host opens admits).Reach objects ⟨tasks,before,log⟩) (k : Job)
    (rest : Multiset (Thread × Obj)) (hk : opens k.api)
    (hb : before = k.api.takes.map (Prod.mk k.home) + rest)
    (hl : ∀ o ∈ k.api.lends.map (Prod.mk k.home), o ∈ rest)
    (hf : ∀ t ∈ tasks, t.kind.api.lends = 0) :
    (@world host opens admits).Reach objects
      ⟨⟨k,[],(@world host opens admits).code k⟩ ::ₘ tasks,rest,log⟩ := by
  subst hb
  have hfree : ∀ t ∈ tasks, ∀ o ∈ k.api.takes.map (Prod.mk k.home),
      o ∉ t.kind.api.lends.map (Prod.mk t.kind.home) := by
    intro t ht o _
    rw [hf t ht]
    exact Multiset.notMem_zero o
  exact h.tail (.start k hk hl hfree)

end Rehearsal

end VclRs
