import VclRs.Footprint
import VclRs.Schedule

namespace VclRs

open Interaction Fallible

structure Condition where
  nonblocking : Bool
  registered : Bool
deriving DecidableEq, Repr

def Condition.idle : Condition := ⟨false,false⟩

def Condition.ready : Condition := ⟨true,true⟩

def observe (vep sh : Handle) (s : Condition) : Ev → Condition
  | ⟨.sessionCreate _ nonblocking,rc⟩ => if 0 ≤ rc ∧ handleOf rc = sh then ⟨nonblocking,false⟩ else s
  | ⟨.sessionAccept _,(rc,_)⟩ => if 0 ≤ rc ∧ handleOf rc = sh then .idle else s
  | ⟨.epollCreate,rc⟩ => if 0 ≤ rc ∧ handleOf rc = sh then .idle else s
  | ⟨.sessionClose x,_⟩ => if x = sh then .idle else s
  | ⟨.sessionAttr x (.setFlags flags),(rc,_)⟩ =>
    if x = sh ∧ 0 ≤ rc then ⟨flags &&& oNonblock ≠ 0,s.registered⟩ else s
  | ⟨.epollCtl v .add x _,rc⟩ => if v = vep ∧ x = sh ∧ 0 ≤ rc then ⟨s.nonblocking,true⟩ else s
  | ⟨.epollCtl v .del x _,_⟩ => if v = vep ∧ x = sh then ⟨s.nonblocking,false⟩ else s
  | _ => s

def readiness (vep : Handle) : Contract Call Reply (Handle → Condition) where
  rely _ _ := True
  guar _ _ := True
  next s e := fun sh => observe vep sh (s sh) e

def Keeps : Call → Prop
  | .sessionCreate _ _ => False
  | .sessionAccept _ => False
  | .epollCreate => False
  | .sessionClose _ => False
  | .sessionAttr _ (.setFlags _) => False
  | .epollCtl _ _ _ _ => False
  | _ => True

section Keeping

variable {vep sh : Handle} {c : Call} {s : Handle → Condition} {α : Type}

theorem keeps_next {e : Ev} (h : Keeps e.op) : (readiness vep).next s e = s := by
  obtain ⟨op,reply⟩ := e
  funext x
  cases op
  case sessionAttr y op => cases op <;> first | rfl | exact h.elim
  all_goals first | rfl | exact h.elim

theorem keeps_wpe {x : Vcl α} {Q : α → (Handle → Condition) → Prop}
    {E : Stop → (Handle → Condition) → Prop} (hx : x.Calls Keeps) (hQ : ∀ a, Q a s)
    (hE : ∀ e, E e s) : (readiness vep).wpe x Q E s :=
  (readiness vep).wpe_still (fun _ he => ⟨trivial,keeps_next he⟩) hx hQ hE

theorem created_next {p : Proto} {nonblocking : Bool} {rc : Int} (hrc : 0 ≤ rc) :
    (readiness vep).next s ⟨.sessionCreate p nonblocking,rc⟩ (handleOf rc) = ⟨nonblocking,false⟩ :=
  if_pos ⟨hrc,rfl⟩

theorem registers_keeps (h : Registers c) : Keeps c := by
  cases h <;> trivial

theorem waits_keeps (h : Waits vep sh c) : Keeps c := by
  cases h <;> trivial

abbrev Anyhow : Stop → (Handle → Condition) → Prop := fun _ _ => True

theorem owning_ready {body : Vcl α} {Q : α → (Handle → Condition) → Prop}
    (h : (readiness vep).wpe body Q Anyhow s) : (readiness vep).wpe (owning sh body) Q Anyhow s :=
  owning_unguarded (fun _ _ => trivial) h

theorem spawnBlocking_ready {closure : Vcl α} {Q : α → (Handle → Condition) → Prop}
    (h : (readiness vep).wpe closure Q Anyhow s) :
    (readiness vep).wpe (spawnBlocking closure) Q Anyhow s :=
  spawnBlocking_unguarded (fun _ _ => trivial) (fun _ _ => rfl) (fun _ _ => rfl) h

end Keeping

section Streams

variable [Platform] {vep sh : Handle} {s : Handle → Condition}

theorem bindSource_keeps (source : Option SocketAddr) : (VclStream.bindSource sh source).Calls Keeps := by
  cases source with
  | none => exact calls_pure _
  | some src => exact calls_bind (calls_call trivial) (fun _ => checkRc_calls _)

theorem setNodelay_keeps : (setNodelay sh).Calls Keeps :=
  calls_bind (calls_call trivial) (fun _ => checkRc_calls _)

theorem startConnect_keeps (addr : SocketAddr) : (startConnect sh addr).Calls Keeps := by
  refine calls_bind (calls_attempt (calls_bind (calls_call trivial) (fun _ => checkRc_calls _))) ?_
  intro r
  cases r with
  | ok _ => exact calls_pure _
  | error e => exact calls_ite (calls_pure _) (calls_err _)

theorem createTcp_ready {nonblocking : Bool} {Q : Handle → (Handle → Condition) → Prop}
    (hok : ∀ sh s', s' sh = ⟨nonblocking,false⟩ → Q sh s') :
    (readiness vep).wpe (createTcp nonblocking) Q Anyhow s := by
  simp only [createTcp,checkRc,Contract.wpe_bind,Contract.wpe_call,wpe_rejectIf,Contract.wpe_pure]
  intro (rc : Int) _
  refine ⟨trivial,?_⟩
  split_ifs with hneg
  · trivial
  · exact hok _ _ (created_next (not_lt.mp hneg))

theorem register_ready {r : VclReactor} {Q : Unit → (Handle → Condition) → Prop}
    (hok : ∀ s', s' sh = ⟨(s sh).nonblocking,true⟩ → Q () s') :
    (readiness r.vep).wpe (r.register sh) Q Anyhow s := by
  simp only [VclReactor.register,checkRc,Contract.wpe_bind,Contract.wpe_call,wpe_rejectIf]
  intro (rc : Int) _
  refine ⟨trivial,?_⟩
  split_ifs with hneg
  · trivial
  · exact hok _ (if_pos ⟨rfl,rfl,not_lt.mp hneg⟩)

theorem setNonblocking_ready {Q : Unit → (Handle → Condition) → Prop}
    (hok : ∀ s', s' sh = ⟨true,(s sh).registered⟩ → Q () s') :
    (readiness vep).wpe (setNonblocking sh) Q Anyhow s := by
  simp only [setNonblocking,checkRc,Contract.wpe_bind,Contract.wpe_call,wpe_rejectIf]
  rintro ⟨rc,ep⟩ _
  refine ⟨trivial,?_⟩
  split_ifs with hneg
  · trivial
  · exact hok _ (if_pos ⟨rfl,not_lt.mp hneg⟩)

theorem connectAsync_ready {addr : SocketAddr} {source : Option SocketAddr} {r : VclReactor}
    {timeout : Duration} :
    (readiness r.vep).wpe (VclStream.connectAsync addr source r timeout)
      (fun st s' => st.reactor = r ∧ s' st.handle = .ready) Anyhow s := by
  rw [VclStream.connectAsync,Contract.wpe_bind]
  refine keeps_wpe (Prog.calls_mono (fun _ => registers_keeps) registerWorkerThread_calls) ?_
    (fun _ => trivial)
  intro _
  rw [Contract.wpe_bind]
  apply createTcp_ready
  intro sh s₁ h₁
  apply owning_ready
  simp only [Contract.wpe_bind,Contract.wpe_pure]
  refine keeps_wpe (calls_attempt setNodelay_keeps) ?_ (fun _ => trivial)
  intro _
  refine keeps_wpe (bindSource_keeps source) ?_ (fun _ => trivial)
  intro _
  apply register_ready
  intro s₂ h₂
  rw [h₁] at h₂
  refine keeps_wpe (startConnect_keeps addr) ?_ (fun _ => trivial)
  intro _
  refine keeps_wpe (Prog.calls_mono (fun _ => waits_keeps) (waitWritable_calls timeout)) ?_
    (fun _ => trivial)
  intro _
  exact ⟨trivial,h₂⟩

theorem fromAccepted_ready {r : VclReactor} (hs : (s sh).registered = true) :
    (readiness r.vep).wpe (VclStream.fromAccepted sh r)
      (fun st s' => st.reactor = r ∧ s' st.handle = .ready) Anyhow s := by
  apply owning_ready
  simp only [Contract.wpe_bind,Contract.wpe_pure]
  apply setNonblocking_ready
  intro s' h'
  rw [hs] at h'
  refine keeps_wpe (calls_attempt setNodelay_keeps) ?_ (fun _ => trivial)
  intro _
  exact ⟨trivial,h'⟩

theorem accept_ready {l : VclListener} :
    (readiness l.reactor.vep).wpe l.accept
      (fun x s' => x.1.reactor = l.reactor ∧ s' x.1.handle = .ready) Anyhow s := by
  refine (readiness l.reactor.vep).wpe_loop (fun _ _ => True) ?_ trivial
  intro _ s₀ _
  rw [Contract.wpe_bind]
  refine (readiness l.reactor.vep).wpe_of_forall (fun _ _ => trivial) ?_ (fun _ _ => trivial) s₀
  intro x s₁
  cases x with
  | ok x =>
    obtain ⟨client,peer⟩ := x
    simp only [Contract.wpe_bind]
    apply owning_ready
    apply register_ready
    intro s₂ h₂
    have hreg : (s₂ client).registered = true := by rw [h₂]
    exact fromAccepted_ready hreg
  | error e =>
    simp only [Contract.wpe_ite,Contract.wpe_bind,wpe_err]
    split_ifs with hwb
    · refine (readiness l.reactor.vep).wpe_of_forall (fun _ _ => trivial) ?_ (fun _ _ => trivial) s₁
      intro y s₂
      cases y with
      | ok _ => trivial
      | error e' =>
        simp only [Contract.wpe_ite,Contract.wpe_pure,wpe_err]
        split_ifs <;> trivial
    · trivial

theorem blockingConnect_idle {addr : SocketAddr} :
    (readiness vep).wpe (VclStream.blockingConnect addr) (fun sh s' => s' sh = .idle) Anyhow s := by
  rw [VclStream.blockingConnect,Contract.wpe_bind]
  refine keeps_wpe (Prog.calls_mono (fun _ => registers_keeps) registerWorkerThread_calls) ?_
    (fun _ => trivial)
  intro _
  simp only [checkRc,Contract.wpe_bind,Contract.wpe_call,wpe_rejectIf,Contract.wpe_ite]
  intro (rc : Int) _
  refine ⟨trivial,?_⟩
  split_ifs with hneg
  · trivial
  · intro (rc' : Int) _
    refine ⟨trivial,?_⟩
    split_ifs with hneg'
    · intro _ _
      exact ⟨trivial,trivial⟩
    · rw [Contract.wpe_pure,keeps_next]
      · exact created_next (not_lt.mp hneg)
      · trivial

theorem connect_idle {addr : SocketAddr} {source : Option SocketAddr} {timeout : Duration}
    {r : VclReactor} :
    (readiness r.vep).wpe (VclStream.connect addr source timeout r)
      (fun st s' => st.reactor = r ∧ s' st.handle = .idle) Anyhow s := by
  rw [VclStream.connect,Contract.wpe_bind]
  refine keeps_wpe (Prog.calls_mono (fun _ => registers_keeps) registerWorkerThread_calls) ?_
    (fun _ => trivial)
  intro _
  rw [Contract.wpe_bind]
  apply createTcp_ready
  intro sh s₁ _
  rw [Contract.wpe_bind]
  apply owning_ready
  simp only [Contract.wpe_bind,Contract.wpe_pure]
  refine keeps_wpe (calls_attempt setNodelay_keeps) ?_ (fun _ => trivial)
  intro _
  refine keeps_wpe (bindSource_keeps source) ?_ (fun _ => trivial)
  intro _
  apply spawnBlocking_ready
  apply (readiness r.vep).wpe_mono blockingConnect_idle
  · intro sh' s₂ h₂
    refine keeps_wpe (calls_attempt setNodelay_keeps) ?_ (fun _ => trivial)
    intro _
    exact ⟨trivial,h₂⟩
  · intro _ _ _
    trivial

inductive Construction where
  | connect (addr : SocketAddr) (source : Option SocketAddr) (timeout : Duration) (r : VclReactor)
  | connectAsync (addr : SocketAddr) (source : Option SocketAddr) (r : VclReactor)
      (timeout : Duration)
  | accept (l : VclListener)
deriving DecidableEq, Repr

namespace Construction

def build : Construction → Vcl VclStream
  | .connect addr source timeout r => VclStream.connect addr source timeout r
  | .connectAsync addr source r timeout => VclStream.connectAsync addr source r timeout
  | .accept l => do
    let x ← l.accept
    pure x.1

def reactor : Construction → VclReactor
  | .connect _ _ _ r => r
  | .connectAsync _ _ r _ => r
  | .accept l => l.reactor

def OnTask : Construction → Prop
  | .connect _ _ _ _ => False
  | .connectAsync _ _ _ _ => True
  | .accept _ => True

end Construction

def conditionOf (tr : List Ev) (st : VclStream) : Condition :=
  (readiness st.reactor.vep).after (fun _ => .idle) tr st.handle

theorem condition_iff (c : Construction) (tr : List Ev) (st : VclStream)
    (hrun : c.build.Run tr (.ok st)) :
    ((conditionOf tr st).nonblocking = true ∧ (conditionOf tr st).registered = true) ↔
      c.OnTask := by
  have hrel := (readiness c.reactor.vep).relied_of_forall (fun _ _ => trivial) (fun _ => .idle) tr
  cases c with
  | connect addr source timeout r =>
    have hw := @connect_idle _ (fun _ => .idle) addr source timeout r
    obtain ⟨-,hr,hc⟩ := (readiness r.vep).wpe_ok hw hrun hrel
    rw [conditionOf,hr,hc]
    simp [Condition.idle,Construction.OnTask]
  | connectAsync addr source r timeout =>
    obtain ⟨-,hr,hc⟩ := (readiness r.vep).wpe_ok connectAsync_ready hrun hrel
    rw [conditionOf,hr,hc]
    simp [Condition.ready,Construction.OnTask]
  | accept l =>
    have hw : (readiness l.reactor.vep).wpe (Construction.accept l).build
        (fun st s' => st.reactor = l.reactor ∧ s' st.handle = .ready) Anyhow (fun _ => .idle) := by
      rw [Construction.build,Contract.wpe_bind]
      exact accept_ready
    obtain ⟨-,hr,hc⟩ := (readiness l.reactor.vep).wpe_ok hw hrun hrel
    rw [conditionOf,hr,hc]
    simp [Condition.ready,Construction.OnTask]

end Streams

def streamConnect : Construction := .connect (.new .unspecifiedV4 53) none 5 ⟨9⟩

def streamConnectAsync : Construction := .connectAsync (.new .unspecifiedV4 53) none ⟨9⟩ 5

theorem condition_iff_connectAsync :
    ∃ tr st, (@Construction.build host streamConnectAsync).Run tr (.ok st) ∧
      (conditionOf tr st).nonblocking = true ∧ (conditionOf tr st).registered = true := by
  obtain ⟨res,tr,hrun,hok⟩ := Fallible.exec_sat
    (x := @Construction.build host streamConnectAsync)
    (P := fun res _ => res.toOption.isSome = true) (fun _ => obliging) 10 (by decide +kernel)
  cases res with
  | error e => cases hok
  | ok st => exact ⟨tr,st,hrun,(@condition_iff host streamConnectAsync tr st hrun).mpr trivial⟩

theorem connect_blocking_unregistered :
    ∃ tr st, (@Construction.build host streamConnect).Run tr (.ok st) ∧
      conditionOf tr st = ⟨false,false⟩ := by
  obtain ⟨res,tr,hrun,hok⟩ := Fallible.exec_sat
    (x := @Construction.build host streamConnect)
    (P := fun res tr => res.toOption.any (fun st => conditionOf tr st = ⟨false,false⟩) = true)
    (fun _ => obliging) 10 (by decide +kernel)
  cases res with
  | error e => cases hok
  | ok st => exact ⟨tr,st,hrun,of_decide_eq_true hok⟩

end VclRs
