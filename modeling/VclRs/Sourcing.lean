import VclRs.Readiness

namespace VclRs

open Interaction Fallible

inductive Sourced where
  | unbound
  | bound
  | honoured
deriving DecidableEq, Repr

section Sourcing

variable [Platform]

def sourceStep (src addr : SocketAddr) (sh : Handle) (s : Sourced) : Ev → Sourced
  | ⟨.sessionCreate _ _,rc⟩ => if 0 ≤ rc ∧ handleOf rc = sh then .unbound else s
  | ⟨.sessionAccept _,(rc,_)⟩ => if 0 ≤ rc ∧ handleOf rc = sh then .unbound else s
  | ⟨.epollCreate,rc⟩ => if 0 ≤ rc ∧ handleOf rc = sh then .unbound else s
  | ⟨.sessionBind x ep,rc⟩ =>
    if x = sh ∧ ep = endpointIntoBuf src zeroed ∧ 0 ≤ rc ∧ s = .unbound then .bound else s
  | ⟨.sessionConnect x ep,_⟩ =>
    if x = sh ∧ ep = endpointIntoBuf addr zeroed ∧ s = .bound then .honoured else s
  | _ => s

def sourceOf (src addr : SocketAddr) (tr : List Ev) (sh : Handle) : Sourced :=
  tr.foldl (sourceStep src addr sh) .unbound

def sourcing (src addr : SocketAddr) : Contract Call Reply (Handle → Sourced) where
  rely _ _ := True
  guar _ _ := True
  next s e := fun sh => sourceStep src addr sh (s sh) e

inductive Places : Call → Prop
  | create (p : Proto) (nonblocking : Bool) : Places (.sessionCreate p nonblocking)
  | accept (sh : Handle) : Places (.sessionAccept sh)
  | epoll : Places .epollCreate
  | bind (sh : Handle) (ep : Endpt) : Places (.sessionBind sh ep)
  | connect (sh : Handle) (ep : Endpt) : Places (.sessionConnect sh ep)

inductive Dial where
  | blocking (timeout : Duration)
  | async (timeout : Duration)
deriving DecidableEq, Repr

def Dial.run (d : Dial) (addr src : SocketAddr) (r : VclReactor) : Vcl VclStream :=
  match d with
  | .blocking timeout => VclStream.connect addr (some src) timeout r
  | .async timeout => VclStream.connectAsync addr (some src) r timeout

def Dial.OnTask : Dial → Prop
  | .blocking _ => False
  | .async _ => True

abbrev Sourceless : Stop → (Handle → Sourced) → Prop := fun _ _ => True

variable {src addr : SocketAddr} {sh : Handle} {s : Handle → Sourced}

theorem sourcing_after (src addr : SocketAddr) (tr : List Ev) (s : Handle → Sourced) (sh : Handle) :
    (sourcing src addr).after s tr sh = tr.foldl (sourceStep src addr sh) (s sh) := by
  induction tr generalizing s with
  | nil => rfl
  | cons e tr ih => exact ih _

theorem places_next {e : Ev} (h : ¬ Places e.op) : (sourcing src addr).next s e = s := by
  obtain ⟨op,reply⟩ := e
  funext x
  cases op <;> first
    | rfl
    | exact (h (by constructor)).elim

theorem created_unbound {p : Proto} {nonblocking : Bool} {rc : Int} (hrc : 0 ≤ rc) :
    (sourcing src addr).next s ⟨.sessionCreate p nonblocking,rc⟩ (handleOf rc) = .unbound :=
  if_pos ⟨hrc,rfl⟩

theorem dialled_unbound {ep : Endpt} {rc : Int} (hs : s sh = .unbound) :
    (sourcing src addr).next s ⟨.sessionConnect sh ep,rc⟩ sh = .unbound := by
  refine (if_neg ?_).trans hs
  rintro ⟨_,_,hbound⟩
  cases hs.symm.trans hbound

theorem unplaced_wpe {α : Type} {x : Vcl α} {Q : α → (Handle → Sourced) → Prop}
    (hx : x.Calls (fun c => ¬ Places c)) (hQ : ∀ a, Q a s) :
    (sourcing src addr).wpe x Q Sourceless s :=
  (sourcing src addr).wpe_still (fun _ he => ⟨trivial,places_next he⟩) hx hQ (fun _ => trivial)

omit [Platform] in
theorem registers_unplaced {c : Call} (h : Registers c) : ¬ Places c := by
  cases h <;> rintro ⟨⟩

omit [Platform] in
theorem waits_unplaced {vep : Handle} {c : Call} (h : Waits vep sh c) : ¬ Places c := by
  cases h <;> rintro ⟨⟩

omit [Platform] in
theorem registerWorkerThread_unplaced : registerWorkerThread.Calls (fun c => ¬ Places c) :=
  Prog.calls_mono (fun _ => registers_unplaced) registerWorkerThread_calls

theorem setNodelay_unplaced : (setNodelay sh).Calls (fun c => ¬ Places c) :=
  calls_bind (calls_call (by rintro ⟨⟩)) (fun _ => checkRc_calls _)

theorem createTcp_sourced {nonblocking : Bool} {Q : Handle → (Handle → Sourced) → Prop}
    (hok : ∀ sh s', s' sh = .unbound → Q sh s') :
    (sourcing src addr).wpe (createTcp nonblocking) Q Sourceless s := by
  simp only [createTcp,checkRc,Contract.wpe_bind,Contract.wpe_call,wpe_rejectIf,Contract.wpe_pure]
  intro (rc : Int) _
  refine ⟨trivial,?_⟩
  split_ifs with hneg
  · trivial
  · exact hok _ _ (created_unbound (not_lt.mp hneg))

theorem bind_sourced {Q : Unit → (Handle → Sourced) → Prop} (hs : s sh = .unbound)
    (hok : ∀ s', s' sh = .bound → Q () s') :
    (sourcing src addr).wpe (bind sh src) Q Sourceless s := by
  simp only [bind,checkRc,Contract.wpe_bind,Contract.wpe_call,wpe_rejectIf]
  intro (rc : Int) _
  refine ⟨trivial,?_⟩
  split_ifs with hneg
  · trivial
  · exact hok _ (if_pos ⟨rfl,rfl,not_lt.mp hneg,hs⟩)

theorem startConnect_sourced {Q : Unit → (Handle → Sourced) → Prop} (hs : s sh = .bound)
    (hok : ∀ s', s' sh = .honoured → Q () s') :
    (sourcing src addr).wpe (startConnect sh addr) Q Sourceless s := by
  have hdialled (rc : Int) :
      (sourcing src addr).next s ⟨.sessionConnect sh (endpointIntoBuf addr zeroed),rc⟩ sh = .honoured :=
    if_pos ⟨rfl,rfl,hs⟩
  simp only [startConnect,connect,checkRc,Contract.wpe_bind,wpe_attempt,Contract.wpe_call,
    wpe_rejectIf]
  intro (rc : Int) _
  refine ⟨trivial,?_⟩
  split_ifs with hneg hwb
  · exact hok _ (hdialled rc)
  · trivial
  · exact hok _ (hdialled rc)

theorem connectAsync_sourced {r : VclReactor} {timeout : Duration} :
    (sourcing src addr).wpe (VclStream.connectAsync addr (some src) r timeout)
      (fun st s' => s' st.handle = .honoured) Sourceless s := by
  rw [VclStream.connectAsync,Contract.wpe_bind]
  apply unplaced_wpe registerWorkerThread_unplaced
  intro _
  rw [Contract.wpe_bind]
  apply createTcp_sourced
  intro sh s₁ h₁
  apply owning_unguarded (fun _ _ => trivial)
  simp only [Contract.wpe_bind,Contract.wpe_pure]
  apply unplaced_wpe (calls_attempt setNodelay_unplaced)
  intro _
  apply bind_sourced h₁
  intro s₂ h₂
  apply unplaced_wpe (register_calls (by rintro ⟨⟩))
  intro _
  apply startConnect_sourced h₂
  intro s₃ h₃
  apply unplaced_wpe (Prog.calls_mono (fun _ => waits_unplaced) (waitWritable_calls timeout))
  intro _
  exact h₃

theorem blockingConnect_unsourced :
    (sourcing src addr).wpe (VclStream.blockingConnect addr) (fun sh s' => s' sh = .unbound)
      Sourceless s := by
  rw [VclStream.blockingConnect,Contract.wpe_bind]
  apply unplaced_wpe registerWorkerThread_unplaced
  intro _
  simp only [checkRc,Contract.wpe_bind,Contract.wpe_call,wpe_rejectIf,Contract.wpe_ite]
  intro (rc : Int) _
  refine ⟨trivial,?_⟩
  split_ifs with hneg
  · trivial
  · intro (rc' : Int) _
    refine ⟨trivial,?_⟩
    split_ifs with hneg'
    · intro _ _
      exact ⟨trivial,trivial⟩
    · exact dialled_unbound (created_unbound (not_lt.mp hneg))

theorem connect_unsourced {r : VclReactor} {timeout : Duration} :
    (sourcing src addr).wpe (VclStream.connect addr (some src) timeout r)
      (fun st s' => s' st.handle = .unbound) Sourceless s := by
  rw [VclStream.connect,Contract.wpe_bind]
  apply unplaced_wpe registerWorkerThread_unplaced
  intro _
  rw [Contract.wpe_bind]
  apply createTcp_sourced
  intro sh s₁ h₁
  rw [Contract.wpe_bind]
  apply owning_unguarded (fun _ _ => trivial)
  simp only [Contract.wpe_bind,Contract.wpe_pure]
  apply unplaced_wpe (calls_attempt setNodelay_unplaced)
  intro _
  apply bind_sourced h₁
  intro s₂ _
  apply spawnBlocking_unguarded (fun _ _ => trivial) (fun _ _ => rfl) (fun _ _ => rfl)
  apply (sourcing src addr).wpe_mono blockingConnect_unsourced
  · intro sh' s₃ h₃
    apply unplaced_wpe (calls_attempt setNodelay_unplaced)
    intro _
    exact h₃
  · intro _ _ _
    trivial

theorem source_honoured_iff (d : Dial) (addr src : SocketAddr) (r : VclReactor) (tr : List Ev)
    (st : VclStream) (hrun : (d.run addr src r).Run tr (.ok st)) :
    sourceOf src addr tr st.handle = .honoured ↔ d.OnTask := by
  have hrel := (sourcing src addr).relied_of_forall (fun _ _ => trivial) (fun _ => .unbound) tr
  have hfold := sourcing_after src addr tr (fun _ => .unbound) st.handle
  cases d with
  | blocking timeout =>
    have hw := @connect_unsourced _ src addr (fun _ => .unbound) r timeout
    have hs := ((sourcing src addr).wpe_ok hw hrun hrel).2
    rw [sourceOf,← hfold,hs]
    simp [Dial.OnTask]
  | async timeout =>
    have hs := ((sourcing src addr).wpe_ok connectAsync_sourced hrun hrel).2
    rw [sourceOf,← hfold,hs]
    simp [Dial.OnTask]

end Sourcing

def dialledPeer : SocketAddr := .new .unspecifiedV4 53

def dialledSource : SocketAddr := .new (.v4 (.replicate 4 10)) 40000

theorem source_honoured_iff_async :
    ∃ tr st, (@Dial.run host (.async 5) dialledPeer dialledSource ⟨9⟩).Run tr (.ok st) ∧
      @sourceOf host dialledSource dialledPeer tr st.handle = .honoured := by
  obtain ⟨res,tr,hrun,hok⟩ := Fallible.exec_sat
    (x := @Dial.run host (.async 5) dialledPeer dialledSource ⟨9⟩)
    (P := fun res _ => res.toOption.isSome = true) (fun _ => obliging) 10 (by decide +kernel)
  cases res with
  | error e => cases hok
  | ok st => exact ⟨tr,st,hrun,(@source_honoured_iff host (.async 5) _ _ _ tr st hrun).mpr trivial⟩

theorem blocking_connect_loses_source :
    ∃ tr st, (@Dial.run host (.blocking 5) dialledPeer dialledSource ⟨9⟩).Run tr (.ok st) ∧
      @sourceOf host dialledSource dialledPeer tr st.handle = .unbound := by
  obtain ⟨res,tr,hrun,hok⟩ := Fallible.exec_sat
    (x := @Dial.run host (.blocking 5) dialledPeer dialledSource ⟨9⟩)
    (P := fun res tr => res.toOption.any
      (fun st => @sourceOf host dialledSource dialledPeer tr st.handle = .unbound) = true)
    (fun _ => obliging) 10 (by decide +kernel)
  cases res with
  | error e => cases hok
  | ok st => exact ⟨tr,st,hrun,of_decide_eq_true hok⟩

end VclRs
