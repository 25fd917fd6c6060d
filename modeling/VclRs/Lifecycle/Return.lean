import VclRs.Lifecycle.Exclusion

namespace VclRs

open Interaction

inductive InitRun [Platform] (name : List UInt8) : Except Stop VclApp → List Ev → Prop
  | refused : InitRun name (.error (.err (.api "VCL already initialized" (-1))))
      [⟨.initializedSwap true,true⟩]
  | invalid (h : 0 ∈ name) : InitRun name (.error (.err (.api "invalid app name" (-1))))
      [⟨.initializedSwap true,false⟩]
  | failed (h : 0 ∉ name) (rc : Int) (hrc : rc < 0) : InitRun name (.error (.err (fromRc rc)))
      [⟨.initializedSwap true,false⟩,⟨.appCreate name,()⟩,⟨.appCreated,rc⟩,⟨.initializedStore false,()⟩]
  | created (h : 0 ∉ name) (rc : Int) (hrc : ¬rc < 0) : InitRun name (.ok {})
      [⟨.initializedSwap true,false⟩,⟨.appCreate name,()⟩,⟨.appCreated,rc⟩]

section Runs

variable [Platform]

theorem init_run {name : List UInt8} {tr : List Ev} {res : Except Stop VclApp}
    (h : (VclApp.init name).Run tr res) : InitRun name res tr := by
  refine Contract.tracing_run ?_ h
  simp only [VclApp.init,vppcomAppCreate,Contract.wpe_bind,Contract.wpe_call,wpe_rejectIf,
    Contract.wpe_ite,Contract.wpe_pure,wpe_err]
  intro was _
  refine ⟨trivial,?_⟩
  cases was with
  | true => exact .refused
  | false =>
    by_cases hname : 0 ∈ name
    · simp only [Bool.false_eq_true,if_false,hname,if_true]
      exact .invalid hname
    · simp only [Bool.false_eq_true,if_false,hname]
      intro _ _
      refine ⟨trivial,?_⟩
      intro rc _
      refine ⟨trivial,?_⟩
      by_cases hrc : rc < 0
      · rw [if_pos hrc]
        intro _ _
        exact ⟨trivial,.failed hname rc hrc⟩
      · rw [if_neg hrc]
        exact .created hname rc hrc

theorem failed_init_flag {P : Process} {home : Thread} {name : List UInt8} {tr : List Ev} {e : Stop}
    (hrun : (VclApp.init name).Run tr (.error e))
    (hswap : tr.head? = some ⟨.initializedSwap true,P.initialized⟩) (hfree : P.initialized = false) :
    (P.run home tr).initialized = P.initialized ↔ 0 ∉ name := by
  rw [hfree] at hswap ⊢
  cases init_run hrun with
  | refused => simp at hswap
  | invalid h => simp [Process.run,Process.next,h]
  | failed h rc hrc => simp [Process.run,Process.next,h]

theorem init_reaches {name : List UInt8} (hname : 0 ∉ name) (flag : Bool) :
    (∀ tr res, (VclApp.init name).Run tr res → tr.head? = some ⟨.initializedSwap true,flag⟩ →
      ⟨.appCreate name,()⟩ ∈ tr) ↔ flag = false := by
  constructor
  · intro h
    cases flag with
    | false => rfl
    | true =>
      have hrun : (VclApp.init name).Run [⟨.initializedSwap true,true⟩]
          (.error (.err (.api "VCL already initialized" (-1)))) := by
        apply @Prog.Run.call Call Reply _ (.initializedSwap true) _ _ _ true
        exact .ret _
      simpa using h _ _ hrun rfl
  · rintro rfl tr res hrun hswap
    cases init_run hrun with
    | refused => simp at hswap
    | invalid h => exact absurd h hname
    | failed h rc hrc => simp
    | created h rc hrc => simp

theorem idle_flag {meets : Process → Ev → Prop} {log : List AppEntry}
    (h : (lifecycle meets).Reach 0 ⟨0,0,log⟩) :
    (Process.of log).initialized = false ↔ ∀ x ∈ log, forfeiting x = 0 := by
  have htotal : 0 + forfeits log = (Process.of log).initialized.toNat := flag_holders h
  have hsum : forfeits log = 0 ↔ ∀ x ∈ log, forfeiting x = 0 := by
    simp [forfeits,List.sum_eq_zero_iff_forall_eq_nat]
  rw [← hsum,← Bool.toNat_eq_zero]
  omega

theorem flag_returned_iff (p : AppPool) (h : (lifecycle (fun _ _ => True)).Reach 0 p) :
    (∀ (P : Process) (home : Thread) (name : List UInt8) (tr : List Ev) (e : Stop),
      (VclApp.init name).Run tr (.error e) →
      tr.head? = some ⟨.initializedSwap true,P.initialized⟩ → P.initialized = false →
      ((P.run home tr).initialized = P.initialized ↔ 0 ∉ name)) ∧
    (p.tasks = 0 → p.objects = 0 → ∀ name : List UInt8, 0 ∉ name →
      ((∀ tr res, (VclApp.init name).Run tr res →
        tr.head? = some ⟨.initializedSwap true,(Process.of p.log).initialized⟩ →
        ⟨.appCreate name,()⟩ ∈ tr) ↔ ∀ x ∈ p.log, forfeiting x = 0)) := by
  constructor
  · intro P home name tr e hrun hswap hfree
    exact failed_init_flag hrun hswap hfree
  · intro htasks hobjs name hname
    obtain ⟨tasks,objs,log⟩ := p
    cases htasks
    cases hobjs
    rw [init_reaches hname,idle_flag h]

end Runs

def createRefused (_ : ℕ) : (c : Call) → Reply c
  | .appCreated => (-13 : Int)
  | c => obliging c

theorem flag_returned_refused :
    ∃ p : AppPool, (@lifecycle host (fun _ _ => True)).Reach 0 p ∧ p.tasks = 0 ∧ p.objects = 0 ∧
      p.log ≠ [] ∧ ∀ tr res, (@VclApp.init host [97]).Run tr res →
        tr.head? = some ⟨.initializedSwap true,(Process.of p.log).initialized⟩ →
        ⟨.appCreate [97],()⟩ ∈ tr := by
  have hr := lifecycle_call (m := fun _ _ => True) .refl ⟨.init [97],0⟩ 0 0 createRefused rfl
    (by decide +kernel) (by decide +kernel)
  refine ⟨_,hr,rfl,rfl,by decide +kernel,?_⟩
  apply ((@flag_returned_iff host _ hr).2 rfl rfl [97] (by decide)).mpr
  decide +kernel

theorem invalid_name_keeps_flag :
    ∃ log, (@lifecycle host (fun _ _ => True)).Reach 0 ⟨0,0,log⟩ ∧
      (Process.of log).initialized = true ∧
      (@VclApp.init host [97]).Run [⟨.initializedSwap true,(Process.of log).initialized⟩]
        (.error (.err (.api "VCL already initialized" (-1)))) := by
  have hr := lifecycle_call (m := fun _ _ => True) .refl ⟨.init [97,0],0⟩ 0 0
    (fun _ => obliging) rfl (by decide +kernel) (by decide +kernel)
  refine ⟨_,hr,by decide +kernel,?_⟩
  apply @Prog.Run.call Call Reply _ (.initializedSwap true) _ _ _ true
  exact .ret _

end VclRs
