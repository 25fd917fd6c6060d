import VclRs.Custody.Terms
import VclRs.Interaction.Marks

namespace VclRs

open Interaction Fallible

inductive Table where
  | waiters
  | interest
deriving DecidableEq, Repr

def Table.mark (vep : Handle) : Table → Call → Mark Handle
  | .waiters, .waitersEntry v sh => if v = vep then .set sh else .keep
  | .waiters, .waitersRemove v sh => if v = vep then .unset sh else .keep
  | .interest, .epollCtl v .add sh _ => if v = vep then .set sh else .keep
  | .interest, .epollCtl v .del sh _ => if v = vep then .unset sh else .keep
  | _, _ => .keep

@[ext] structure Tending where
  owed : Multiset Handle
  marks : Table → Finset Handle
  marked_owed : ∀ T sh, sh ∈ marks T → sh ∈ owed

namespace Tending

def bare (K : Multiset Handle) : Tending := ⟨K,fun _ => ∅,by simp⟩

def full (K : Multiset Handle) : Tending := ⟨K,fun _ => K.toFinset,by simp⟩

def advance (s : Tending) (vep : Handle) (e : Ev) : Tending where
  owed := s.owed - released e + obtained e
  marks T := ((T.mark vep e.op).apply (s.marks T)).filter (· ∈ s.owed - released e + obtained e)
  marked_owed _ _ h := (Finset.mem_filter.mp h).2

end Tending

structure Care where
  vep : Handle
  lent : Handle → Prop
  rely : Ev → Prop

namespace Care

variable (c : Care)

def contract : Contract Call Reply Tending where
  rely _ e := c.rely e ∧ c.vep ∉ obtained e
  guar s e := (∀ sh, released e = {sh} → sh ∈ s.owed ∧ ∀ T, sh ∉ s.marks T) ∧
    ∀ T sh, Table.mark c.vep T e.op = .set sh → sh ∈ s.owed ∨ c.lent sh
  next s e := s.advance c.vep e

def Idle : Call → Prop
  | .sessionCreate _ _ => False
  | .sessionAccept _ => False
  | .epollCreate => False
  | .sessionClose _ => False
  | .waitersEntry _ _ => False
  | .waitersRemove _ _ => False
  | .epollCtl _ _ _ _ => False
  | _ => True

variable {c} {s : Tending} {α : Type} {K : Multiset Handle} {sh : Handle} {e : Ev}
variable {Q : α → Tending → Prop} {E : Stop → Tending → Prop}

theorem idle_keep {op : Call} (h : Idle op) (vep : Handle) (T : Table) : T.mark vep op = .keep := by
  cases T <;> cases op <;> first
    | exact h.elim
    | rfl

theorem unreleased (hr : released e = 0) :
    ∀ sh, released e = {sh} → sh ∈ s.owed ∧ ∀ T, sh ∉ s.marks T := by
  intro sh hsh
  rw [hr] at hsh
  exact absurd hsh.symm (Multiset.singleton_ne_zero sh)

theorem keep_step (hr : released e = 0) (ho : obtained e = 0)
    (hk : ∀ T, Table.mark c.vep T e.op = .keep) :
    c.contract.guar s e ∧ c.contract.next s e = s := by
  have howed : s.owed - released e + obtained e = s.owed := by
    rw [hr,ho,tsub_zero,add_zero]
  constructor
  · refine ⟨unreleased hr,?_⟩
    intro T sh hm
    rw [hk T] at hm
    cases hm
  · apply Tending.ext
    · exact howed
    · funext T
      change (Mark.apply (s.marks T) (T.mark c.vep e.op)).filter (· ∈ _) = s.marks T
      rw [hk T,howed]
      exact Finset.filter_true_of_mem (s.marked_owed T)

theorem idle_step (h : Idle e.op) : c.contract.guar s e ∧ c.contract.next s e = s := by
  have hk : ∀ T, Table.mark c.vep T e.op = .keep := idle_keep h c.vep
  obtain ⟨op,reply⟩ := e
  cases op <;> first
    | exact h.elim
    | exact keep_step rfl rfl hk

theorem next_marks (T : Table) :
    (c.contract.next s e).marks T ⊆ (T.mark c.vep e.op).apply (s.marks T) :=
  Finset.filter_subset _ _

theorem sets_handle {p : Prop} [Decidable p] {x : Handle}
    (h : (if p then Mark.set sh else Mark.keep) = .set x) : sh = x := by
  split_ifs at h
  exact Mark.set.inj h

theorem unsets_handle {p : Prop} [Decidable p] {x : Handle}
    (h : (if p then Mark.unset sh else Mark.keep) = .set x) : False := by
  split_ifs at h

theorem mark_step (hr : released e = 0) (ho : obtained e = 0)
    (hm : ∀ T sh, Table.mark c.vep T e.op = .set sh → sh ∈ s.owed ∨ c.lent sh) :
    c.contract.guar s e ∧ (c.contract.next s e).owed = s.owed := by
  refine ⟨⟨unreleased hr,hm⟩,?_⟩
  change s.owed - released e + obtained e = s.owed
  rw [hr,ho,tsub_zero,add_zero]

theorem opens_step {rc : Int} (hr : released e = 0) (ho : obtained e = handleIf rc)
    (hk : ∀ T, Table.mark c.vep T e.op = .keep) :
    c.contract.guar (.bare K) e ∧
      c.contract.next (.bare K) e = .bare (if rc < 0 then K else handleOf rc ::ₘ K) := by
  constructor
  · refine ⟨unreleased hr,?_⟩
    intro T sh hm
    rw [hk T] at hm
    cases hm
  · apply Tending.ext
    · change K - released e + obtained e = if rc < 0 then K else handleOf rc ::ₘ K
      rw [hr,ho,tsub_zero,handleIf]
      split_ifs with hneg
      · exact add_zero K
      · rw [add_comm,Multiset.singleton_add]
    · funext T
      change (Mark.apply ∅ (T.mark c.vep e.op)).filter (· ∈ _) = ∅
      rw [hk T]
      exact Finset.filter_empty _

theorem idle_wpe {x : Vcl α} (hx : x.Calls Idle) (hQ : ∀ a, Q a s) (hE : ∀ e, E e s) :
    c.contract.wpe x Q E s :=
  c.contract.wpe_still (fun _ => idle_step) hx hQ hE

theorem idle_call {o : Call} {Q : Reply o → Tending → Prop} (ho : Idle o) (hQ : ∀ r, Q r s) :
    c.contract.wpe (ffi o) Q E s :=
  c.contract.wpe_call_still (fun r => idle_step (e := ⟨o,r⟩) ho) hQ

theorem create_wpe {proto : Proto} {nonblocking : Bool} {Q : Int → Tending → Prop}
    (hQ : ∀ rc : Int, Q rc (.bare (if rc < 0 then K else handleOf rc ::ₘ K))) :
    c.contract.wpe (vppcomSessionCreate proto nonblocking) Q E (.bare K) := by
  intro (rc : Int) _
  obtain ⟨hg,hn⟩ : c.contract.guar (.bare K) ⟨.sessionCreate proto nonblocking,rc⟩ ∧
      c.contract.next (.bare K) ⟨.sessionCreate proto nonblocking,rc⟩ =
        .bare (if rc < 0 then K else handleOf rc ::ₘ K) :=
    opens_step rfl rfl (fun T => by cases T <;> rfl)
  refine ⟨hg,?_⟩
  rw [hn]
  exact hQ rc

theorem epollCreate_wpe {Q : Int → Tending → Prop} (herr : ∀ rc : Int, rc < 0 → Q rc (.bare K))
    (hok : ∀ rc : Int, ¬ rc < 0 → handleOf rc ≠ c.vep → Q rc (.bare (handleOf rc ::ₘ K))) :
    c.contract.wpe vppcomEpollCreate Q E (.bare K) := by
  intro (rc : Int) hrely
  obtain ⟨hg,hn⟩ : c.contract.guar (.bare K) ⟨.epollCreate,rc⟩ ∧
      c.contract.next (.bare K) ⟨.epollCreate,rc⟩ =
        .bare (if rc < 0 then K else handleOf rc ::ₘ K) :=
    opens_step rfl rfl (fun T => by cases T <;> rfl)
  refine ⟨hg,?_⟩
  rw [hn]
  by_cases hneg : rc < 0
  · rw [if_pos hneg]
    exact herr rc hneg
  · rw [if_neg hneg]
    apply hok rc hneg
    intro heq
    apply hrely.2
    change c.vep ∈ handleIf rc
    rw [handleIf,if_neg hneg,heq]
    exact Multiset.mem_singleton_self _

theorem close_wpe {Q : Int → Tending → Prop} (hQ : ∀ rc, Q rc (.bare K)) :
    c.contract.wpe (vppcomSessionClose sh) Q E (.bare (sh ::ₘ K)) := by
  intro rc _
  have hn : c.contract.next (.bare (sh ::ₘ K)) ⟨.sessionClose sh,rc⟩ = .bare K := by
    apply Tending.ext
    · change sh ::ₘ K - {sh} + 0 = K
      rw [Multiset.sub_singleton,Multiset.erase_cons_head,add_zero]
    · funext T
      cases T <;> exact Finset.filter_empty _
  constructor
  · constructor
    · intro x hx
      obtain rfl : sh = x := Multiset.singleton_inj.mp hx
      exact ⟨Multiset.mem_cons_self _ _,fun _ => Finset.notMem_empty _⟩
    · intro T x hx
      cases T <;> cases hx
  · rw [hn]
    exact hQ rc

theorem dropSession_wpe {Q : Unit → Tending → Prop} (hQ : Q () (.bare K)) :
    c.contract.wpe (dropSession sh) Q E (.bare (sh ::ₘ K)) := by
  rw [dropSession,Contract.wpe_bind]
  exact close_wpe (fun _ => hQ)

theorem owning_wpe {body : Vcl α}
    (h : c.contract.wpe body Q (fun e s => s = .bare (sh ::ₘ K) ∧ E e (.bare K)) s) :
    c.contract.wpe (owning sh body) Q E s := by
  rw [owning,Contract.wpe_onFail]
  apply c.contract.wpe_mono h (fun _ _ hq => hq)
  rintro e s' ⟨rfl,he⟩
  exact dropSession_wpe he

theorem registerWorkerThread_wpe {Q : Unit → Tending → Prop} (hQ : Q () s) (hE : ∀ e, E e s) :
    c.contract.wpe registerWorkerThread Q E s := by
  have hidle : registerWorkerThread.Calls Idle := by
    apply Prog.calls_mono _ registerWorkerThread_calls
    intro op hop
    cases hop <;> trivial
  exact idle_wpe hidle (fun _ => hQ) hE

theorem configures_idle {op : Call} (h : Configures sh op) : Idle op := by
  cases h <;> trivial

theorem configures_wpe {x : Vcl α} (hx : x.Calls (Configures sh)) (hQ : ∀ a, Q a s)
    (hE : ∀ e, E e s) : c.contract.wpe x Q E s :=
  idle_wpe (Prog.calls_mono (fun _ => configures_idle) hx) hQ hE

theorem drainFor_wpe {vep : Handle} {deadline : Instant} {Q : Unit → Tending → Prop}
    (hQ : Q () s) : c.contract.wpe (drainFor vep deadline) Q E s := by
  refine c.contract.wpe_loop (fun _ s' => s' = s) ?_ rfl
  rintro _ _ rfl
  simp only [Contract.wpe_bind,Contract.wpe_ite,Contract.wpe_pure]
  apply idle_call (by trivial)
  intro now
  split_ifs with hlt
  · exact idle_call (by trivial) (fun _ => rfl)
  · exact hQ

theorem watchSession_wpe {vep : Handle} {events : UInt32} {Q : Unit → Tending → Prop}
    (hv : vep ≠ c.vep) (hok : Q () (.bare (vep ::ₘ K))) (herr : ∀ e, E e (.bare K)) :
    c.contract.wpe (watchSession vep sh events) Q E (.bare (vep ::ₘ K)) := by
  rw [watchSession,Contract.wpe_bind]
  apply c.contract.wpe_call_still
  · intro rv
    apply keep_step rfl rfl
    intro T
    cases T with
    | waiters => rfl
    | interest => exact if_neg hv
  · intro rv
    rw [Contract.wpe_ite]
    split_ifs with hneg
    · rw [Contract.wpe_bind]
      exact close_wpe (fun _ => herr _)
    · exact hok

theorem waitsIdle {vep : Handle} {op : Call} (h : Waits vep sh op)
    (hne : op ≠ .waitersEntry vep sh) : Idle op := by
  cases h <;> first
    | exact absurd rfl hne
    | trivial

section Lent

variable (hl : c.lent sh) (hs : s.owed = 0)

include hl hs

theorem lentEntry_step {n : NotifyId} : c.contract.guar s ⟨.waitersEntry c.vep sh,n⟩ ∧
    c.contract.next s ⟨.waitersEntry c.vep sh,n⟩ = s := by
  have hempty (T : Table) : s.marks T = ∅ := by
    apply Finset.eq_empty_of_forall_notMem
    intro x hx
    have := s.marked_owed T x hx
    rw [hs] at this
    exact absurd this (Multiset.notMem_zero x)
  constructor
  · refine ⟨unreleased rfl,?_⟩
    intro T x hx
    cases T with
    | interest => cases hx
    | waiters =>
      obtain rfl := sets_handle hx
      exact .inr hl
  · apply Tending.ext
    · change s.owed - 0 + 0 = s.owed
      rw [tsub_zero,add_zero]
    · funext T
      change (Mark.apply (s.marks T) _).filter (· ∈ s.owed - 0 + 0) = s.marks T
      rw [hs,hempty T]
      exact Finset.filter_false_of_mem (fun x _ => Multiset.notMem_zero x)

theorem serves_step (h : Serves c.vep sh e.op) :
    c.contract.guar s e ∧ c.contract.next s e = s := by
  obtain ⟨op,reply⟩ := e
  cases h with
  | configures h => exact idle_step (configures_idle h)
  | transfers h => cases h <;> exact idle_step trivial
  | queries h =>
    cases h
    exact idle_step trivial
  | waits h =>
    by_cases hop : op = .waitersEntry c.vep sh
    · subst hop
      exact lentEntry_step hl hs
    · exact idle_step (waitsIdle h hop)

theorem serves_wpe {x : Vcl α} (hx : x.Calls (Serves c.vep sh)) (hQ : ∀ a, Q a s)
    (hE : ∀ e, E e s) : c.contract.wpe x Q E s :=
  c.contract.wpe_still (fun _ => serves_step hl hs) hx hQ hE

end Lent

section Sessions

variable [Platform]

theorem checkRc_wpe {rc : Int} {Q : Unit → Tending → Prop} (hok : ¬ rc < 0 → Q () s)
    (herr : rc < 0 → E (.err (fromRc rc)) s) : c.contract.wpe (checkRc rc) Q E s := by
  rw [checkRc,wpe_rejectIf]
  split_ifs with hneg
  · exact herr hneg
  · exact hok hneg

theorem created_wpe {proto : Proto} {nonblocking : Bool} {Q : Handle → Tending → Prop}
    (hok : ∀ sh, Q sh (.bare (sh ::ₘ K))) (herr : ∀ e, E e (.bare K)) :
    c.contract.wpe (created proto nonblocking) Q E (.bare K) := by
  rw [created,Contract.wpe_bind]
  apply create_wpe
  intro rc
  rw [Contract.wpe_bind]
  apply checkRc_wpe <;> intro hneg
  · rw [if_neg hneg]
    exact hok _
  · rw [if_pos hneg]
    exact herr _

theorem createTcp_wpe {nonblocking : Bool} {Q : Handle → Tending → Prop}
    (hok : ∀ sh, Q sh (.bare (sh ::ₘ K))) (herr : ∀ e, E e (.bare K)) :
    c.contract.wpe (createTcp nonblocking) Q E (.bare K) := created_wpe hok herr

theorem createUdp_wpe {nonblocking : Bool} {Q : Handle → Tending → Prop}
    (hok : ∀ sh, Q sh (.bare (sh ::ₘ K))) (herr : ∀ e, E e (.bare K)) :
    c.contract.wpe (createUdp nonblocking) Q E (.bare K) := created_wpe hok herr

theorem setNodelay_wpe {Q : Except VclError Unit → Tending → Prop} (hQ : ∀ r, Q r s) :
    c.contract.wpe (attempt (setNodelay sh)) Q E s := by
  rw [wpe_attempt,setNodelay,Contract.wpe_bind]
  apply idle_call (by trivial)
  intro r
  exact checkRc_wpe (fun _ => hQ _) (fun _ => hQ _)

def Admits (c : Care) : Prop := ∀ sh ev (rc : Int), c.rely ⟨.epollCtl c.vep .add sh ev,rc⟩ → ¬ rc < 0

theorem register_wpe {r : VclReactor} {Q : Unit → Tending → Prop} (hr : r.vep = c.vep)
    (ha : c.Admits) (hs : sh ∈ s.owed) (hok : ∀ s', s'.owed = s.owed → Q () s') :
    c.contract.wpe (r.register sh) Q E s := by
  rw [VclReactor.register,Contract.wpe_bind,hr]
  intro (rc : Int) hrely
  obtain ⟨hg,hn⟩ := mark_step (c := c) (s := s)
    (e := ⟨.epollCtl c.vep .add sh (some ⟨epollin ||| epollout ||| epollet,sh.toUInt64⟩),rc⟩)
    rfl rfl (by
      intro T x hx
      cases T with
      | waiters => cases hx
      | interest =>
        obtain rfl := sets_handle hx
        exact .inl hs)
  refine ⟨hg,?_⟩
  apply checkRc_wpe
  · intro _
    exact hok _ hn
  · intro hneg
    exact absurd hneg (ha _ _ _ hrely.1)

omit [Platform] in
theorem entry_wpe {Q : NotifyId → Tending → Prop} (hs : sh ∈ s.owed)
    (hQ : ∀ n s', s'.owed = s.owed → Q n s') :
    c.contract.wpe (ffi (.waitersEntry c.vep sh)) Q E s := by
  intro n _
  obtain ⟨hg,hn⟩ := mark_step (c := c) (s := s) (e := ⟨.waitersEntry c.vep sh,n⟩) rfl rfl (by
    intro T x hx
    cases T with
    | interest => cases hx
    | waiters =>
      obtain rfl := sets_handle hx
      exact .inl hs)
  exact ⟨hg,hQ n _ hn⟩

def Answers (c : Care) : Prop := ∀ e, c.rely e → refused e = 0

theorem queryBound_wpe {requested : SocketAddr} {Q : SocketAddr → Tending → Prop} (ha : c.Answers)
    (hok : ∀ a, Q a s) : c.contract.wpe (owning sh (queryBound sh requested)) Q E s := by
  rw [owning,Contract.wpe_onFail]
  simp only [queryBound,localAddr,addrAttr,Contract.wpe_bind,wpe_attempt,checkRc,wpe_rejectIf,
    Contract.wpe_pure,Contract.wpe_call]
  rintro ⟨rc,ep⟩ hrely
  obtain ⟨hg,hn⟩ : c.contract.guar s ⟨.sessionAttr sh .getLclAddr,(rc,ep)⟩ ∧
      c.contract.next s ⟨.sessionAttr sh .getLclAddr,(rc,ep)⟩ = s := idle_step trivial
  have hrc : ¬ rc < 0 := by
    intro hneg
    have hz := ha _ hrely.1
    rw [refused,if_pos hneg] at hz
    exact absurd hz (Multiset.singleton_ne_zero sh)
  refine ⟨hg,?_⟩
  rw [hn,if_neg hrc]
  exact hok _

theorem verifyBindOrErr_wpe {requested : SocketAddr} {Q : Unit → Tending → Prop} (ha : c.Answers)
    (hok : Q () (.bare K)) (herr : ∀ e, E e (.bare K)) :
    c.contract.wpe (verifyBindOrErr sh requested) Q E (.bare K) := by
  rw [verifyBindOrErr,Contract.wpe_bind]
  apply epollCreate_wpe
  · intro vep hneg
    rw [Contract.wpe_bind,wpe_rejectIf,if_pos hneg]
    exact herr _
  · intro vep hneg hv
    rw [Contract.wpe_bind,wpe_rejectIf,if_neg hneg,Contract.wpe_bind]
    apply watchSession_wpe hv _ herr
    rw [Contract.wpe_bind]
    apply idle_call (by trivial)
    intro start
    rw [Contract.wpe_bind]
    apply drainFor_wpe
    rw [Contract.wpe_bind]
    apply close_wpe
    intro _
    rw [Contract.wpe_bind]
    apply queryBound_wpe ha
    intro actual
    rw [wpe_rejectIf]
    split_ifs with hport
    · exact herr _
    · exact hok

theorem bound_wpe {addr : SocketAddr} {backlog : ℕ} {r : VclReactor} {x : α} (hr : r.vep = c.vep)
    (had : c.Admits) (han : c.Answers) (hok : ∀ s, s.owed = sh ::ₘ K → Q x s)
    (herr : ∀ e, E e (.bare K)) :
    c.contract.wpe (owning sh (do
      bind sh addr
      listen sh backlog
      verifyBindOrErr sh addr
      r.register sh
      pure x)) Q E (.bare (sh ::ₘ K)) := by
  have hstop (e : Stop) : Tending.bare (sh ::ₘ K) = .bare (sh ::ₘ K) ∧ E e (.bare K) := ⟨rfl,herr e⟩
  apply owning_wpe (K := K)
  rw [Contract.wpe_bind]
  apply configures_wpe (bind_calls addr) _ hstop
  intro _
  rw [Contract.wpe_bind]
  apply configures_wpe (listen_calls backlog) _ hstop
  intro _
  rw [Contract.wpe_bind]
  apply verifyBindOrErr_wpe han _ hstop
  rw [Contract.wpe_bind]
  exact register_wpe hr had (Multiset.mem_cons_self _ _) hok

theorem listener_bind_wpe {addr : SocketAddr} {r : VclReactor} {Q : VclListener → Tending → Prop}
    (hr : r.vep = c.vep) (had : c.Admits) (han : c.Answers)
    (hok : ∀ sh s, s.owed = sh ::ₘ K → Q ⟨sh,r⟩ s) (herr : ∀ e, E e (.bare K)) :
    c.contract.wpe (VclListener.bind addr r) Q E (.bare K) := by
  rw [VclListener.bind,Contract.wpe_bind]
  apply registerWorkerThread_wpe _ herr
  rw [Contract.wpe_bind]
  apply createTcp_wpe _ herr
  intro sh
  exact bound_wpe hr had han (hok sh) herr

theorem dgram_bind_wpe {addr : SocketAddr} {r : VclReactor} {Q : VclDgramSocket → Tending → Prop}
    (hr : r.vep = c.vep) (had : c.Admits) (han : c.Answers)
    (hok : ∀ sh s, s.owed = sh ::ₘ K → Q ⟨sh,r⟩ s) (herr : ∀ e, E e (.bare K)) :
    c.contract.wpe (VclDgramSocket.bind addr r) Q E (.bare K) := by
  rw [VclDgramSocket.bind,Contract.wpe_bind]
  apply registerWorkerThread_wpe _ herr
  rw [Contract.wpe_bind]
  apply createUdp_wpe _ herr
  intro sh
  exact bound_wpe hr had han (hok sh) herr

theorem bindAttempts_wpe {ipStr : String} {r : VclReactor} {n : ℕ} {lastErr : Option VclError}
    {Q : VclDgramSocket → Tending → Prop} (hr : r.vep = c.vep) (had : c.Admits) (han : c.Answers)
    (hok : ∀ sh s, s.owed = sh ::ₘ K → Q ⟨sh,r⟩ s) (herr : ∀ e, E e (.bare K)) :
    c.contract.wpe (VclDgramSocket.bindAttempts ipStr r n lastErr) Q E (.bare K) := by
  induction n generalizing lastErr with
  | zero => exact herr _
  | succ n ih =>
    change c.contract.wpe (genRange portLow portHigh >>= _) Q E (.bare K)
    rw [Contract.wpe_bind]
    apply idle_call (by trivial)
    intro port
    cases SocketAddr.parse s!"{ipStr}:{port}" with
    | none => exact herr _
    | some addr =>
      rw [Contract.wpe_bind,wpe_attempt]
      apply dgram_bind_wpe hr had han hok
      intro e
      cases e with
      | err e => exact ih
      | dropped => exact herr _

def Completes (c : Care) : Prop :=
  (∀ sh ep (rc : Int), c.rely ⟨.sessionConnect sh ep,rc⟩ → rc < 0 → fromRc rc = .wouldBlock) ∧
    (∀ v n t x, c.rely ⟨.select v n t,x⟩ → x.2 = .readable ∨ x.2 = .notified) ∧
    ∀ n x, c.rely ⟨.recheck n,x⟩ → x.2 ≠ .dropped

theorem startConnect_wpe {addr : SocketAddr} {Q : Unit → Tending → Prop} (hc : c.Completes)
    (hQ : Q () s) : c.contract.wpe (startConnect sh addr) Q E s := by
  simp only [startConnect,connect,Contract.wpe_bind,wpe_attempt,checkRc,wpe_rejectIf,
    Contract.wpe_call]
  intro (rc : Int) hrely
  obtain ⟨hg,hn⟩ : c.contract.guar s ⟨.sessionConnect sh (endpointIntoBuf addr zeroed),rc⟩ ∧
      c.contract.next s ⟨.sessionConnect sh (endpointIntoBuf addr zeroed),rc⟩ = s :=
    idle_step trivial
  refine ⟨hg,?_⟩
  rw [hn]
  by_cases hneg : rc < 0
  · rw [if_pos hneg,hc.1 _ _ _ hrely.1 hneg]
    exact hQ
  · rw [if_neg hneg]
    exact hQ

omit [Platform] in
theorem collects_step {r : VclReactor} {e : Ev} (h : Collects r.vep e.op) :
    c.contract.guar s e ∧ c.contract.next s e = s := by
  apply idle_step
  obtain ⟨op,x⟩ := e
  cases h <;> trivial

omit [Platform] in
theorem drainEvents_wpe {r : VclReactor} {Q : Unit → Tending → Prop} (hQ : Q () s) :
    c.contract.wpe r.drainEvents Q E s :=
  drainEvents_still (fun _ => collects_step) hQ

theorem waitLoop_wpe {r : VclReactor} {n : NotifyId} {t : Instant} {Q : Unit → Tending → Prop}
    (hc : c.Completes) (hQ : Q () s) : c.contract.wpe (r.waitLoop n t) Q E s := by
  refine waitLoop_rule (I := fun s' => s' = s) ?_ ?_ ?_ ?_ rfl
  · rintro _ ⟨now,sel⟩ rfl hrely
    obtain ⟨hg,hn⟩ := idle_step (c := c) (e := ⟨.select r.vep n t,(now,sel)⟩) trivial
    refine ⟨hg,?_⟩
    rw [hn]
    rcases hc.2.1 _ _ _ _ hrely.1 with hsel | hsel
    · obtain rfl : sel = .readable := hsel
      rfl
    · obtain rfl : sel = .notified := hsel
      exact hQ
  · rintro _ e rfl he _
    exact collects_step he
  · rintro _ x rfl _
    exact idle_step trivial
  · rintro _ ⟨now,again⟩ rfl hrely
    obtain ⟨hg,hn⟩ := idle_step (c := c) (e := ⟨.recheck n,(now,again)⟩) trivial
    refine ⟨hg,?_⟩
    rw [hn]
    cases again with
    | notified => exact hQ
    | elapsed => rfl
    | dropped => exact absurd rfl (hc.2.2 _ _ hrely.1)

theorem waitWritable_wpe {r : VclReactor} {timeout : Duration} {Q : Unit → Tending → Prop}
    (hr : r.vep = c.vep) (hc : c.Completes) (hs : sh ∈ s.owed)
    (hQ : ∀ s', s'.owed = s.owed → Q () s') :
    c.contract.wpe (r.waitWritable sh timeout) Q E s := by
  rw [VclReactor.waitWritable,VclReactor.waitEvent,Contract.wpe_bind,hr]
  apply entry_wpe hs
  intro n s' hs'
  rw [Contract.wpe_bind]
  apply idle_call (by trivial)
  intro now
  exact waitLoop_wpe hc (hQ s' hs')

theorem connectAsync_wpe {addr : SocketAddr} {source : Option SocketAddr} {r : VclReactor}
    {timeout : Duration} {Q : VclStream → Tending → Prop} (hr : r.vep = c.vep) (had : c.Admits)
    (hc : c.Completes) (hok : ∀ sh s, s.owed = sh ::ₘ K → Q ⟨sh,r⟩ s)
    (herr : ∀ e, E e (.bare K)) :
    c.contract.wpe (VclStream.connectAsync addr source r timeout) Q E (.bare K) := by
  rw [VclStream.connectAsync,Contract.wpe_bind]
  apply registerWorkerThread_wpe _ herr
  rw [Contract.wpe_bind]
  apply createTcp_wpe _ herr
  intro sh
  have hstop (e : Stop) : Tending.bare (sh ::ₘ K) = .bare (sh ::ₘ K) ∧ E e (.bare K) := ⟨rfl,herr e⟩
  apply owning_wpe (K := K)
  rw [Contract.wpe_bind]
  apply setNodelay_wpe
  intro _
  rw [Contract.wpe_bind]
  apply configures_wpe (bindSource_calls source) _ hstop
  intro _
  rw [Contract.wpe_bind]
  apply register_wpe hr had (Multiset.mem_cons_self _ _)
  intro s hs
  rw [Contract.wpe_bind]
  apply startConnect_wpe hc
  rw [Contract.wpe_bind]
  apply waitWritable_wpe hr hc (hs ▸ Multiset.mem_cons_self _ _)
  intro s' hs'
  exact hok sh s' (hs'.trans hs)

def Unblocks (c : Care) : Prop :=
  ∀ sh flags x, c.rely ⟨.sessionAttr sh (.setFlags flags),x⟩ → ¬ x.1 < 0

theorem setNonblocking_wpe {Q : Unit → Tending → Prop} (hu : c.Unblocks) (hQ : Q () s) :
    c.contract.wpe (setNonblocking sh) Q E s := by
  rw [setNonblocking,Contract.wpe_bind]
  rintro ⟨rc,ep⟩ hrely
  obtain ⟨hg,hn⟩ : c.contract.guar s ⟨.sessionAttr sh (.setFlags oNonblock),(rc,ep)⟩ ∧
      c.contract.next s ⟨.sessionAttr sh (.setFlags oNonblock),(rc,ep)⟩ = s := idle_step trivial
  refine ⟨hg,?_⟩
  rw [hn]
  apply checkRc_wpe
  · intro _
    exact hQ
  · intro hneg
    exact absurd hneg (hu _ _ _ hrely.1)

theorem fromAccepted_wpe {r : VclReactor} {Q : VclStream → Tending → Prop} (hu : c.Unblocks)
    (hok : Q ⟨sh,r⟩ s) : c.contract.wpe (VclStream.fromAccepted sh r) Q E s := by
  rw [VclStream.fromAccepted,owning,Contract.wpe_onFail,Contract.wpe_bind]
  apply setNonblocking_wpe hu
  rw [Contract.wpe_bind]
  apply setNodelay_wpe
  intro _
  exact hok

theorem sessionAccept_wpe {Q : Handle × SocketAddr → Tending → Prop}
    (hok : ∀ x, Q x (.bare (x.1 ::ₘ K))) (herr : ∀ e, E e (.bare K)) :
    c.contract.wpe (sessionAccept sh) Q E (.bare K) := by
  rw [sessionAccept,Contract.wpe_bind]
  rintro ⟨rc,ep⟩ _
  obtain ⟨hg,hn⟩ : c.contract.guar (.bare K) ⟨.sessionAccept sh,(rc,ep)⟩ ∧
      c.contract.next (.bare K) ⟨.sessionAccept sh,(rc,ep)⟩ =
        .bare (if rc < 0 then K else handleOf rc ::ₘ K) :=
    opens_step rfl rfl (fun T => by cases T <;> rfl)
  refine ⟨hg,?_⟩
  rw [hn]
  change c.contract.wpe (do
    checkRc rc
    pure (handleOf rc,addrFromEndpoint ep)) Q E _
  rw [Contract.wpe_bind]
  apply checkRc_wpe <;> intro hneg
  · rw [if_neg hneg]
    exact hok _
  · rw [if_pos hneg]
    exact herr _

theorem accept_wpe {l : VclListener} {Q : VclStream × SocketAddr → Tending → Prop}
    (hr : l.reactor.vep = c.vep) (hl : c.lent l.handle) (had : c.Admits) (hu : c.Unblocks)
    (hok : ∀ x s, s.owed = {x.1.handle} → Q x s) (herr : ∀ e, E e (.bare 0)) :
    c.contract.wpe l.accept Q E (.bare 0) := by
  refine c.contract.wpe_loop (fun _ s => s = .bare 0) ?_ rfl
  rintro _ _ rfl
  rw [Contract.wpe_bind,wpe_attempt]
  apply sessionAccept_wpe
  · rintro ⟨client,peer⟩
    simp only [Contract.wpe_bind,owning,Contract.wpe_onFail]
    apply register_wpe hr had (Multiset.mem_cons_self client 0)
    intro s hs
    apply fromAccepted_wpe hu
    exact hok (⟨client,l.reactor⟩,peer) s hs
  · intro e
    cases e with
    | dropped => exact herr _
    | err e =>
      simp only [Contract.wpe_ite,Contract.wpe_bind,wpe_err]
      split_ifs with hwb
      · have hcalls : (attempt (l.reactor.waitReadable l.handle (secs 300))).Calls
            (Serves c.vep l.handle) := by
          rw [← hr]
          exact calls_attempt (Prog.calls_mono (fun _ => .waits) (waitReadable_calls _))
        apply serves_wpe hl rfl hcalls _ herr
        intro x
        cases x with
        | ok _ => rfl
        | error e' =>
          simp only [Contract.wpe_ite,Contract.wpe_pure,wpe_err]
          split_ifs with hto
          · rfl
          · exact herr _
      · exact herr _

omit [Platform] in
theorem drop_wpe {r : VclReactor} {Q : Unit → Tending → Prop} (hr : r.vep = c.vep)
    (hQ : Q () (.bare 0)) : c.contract.wpe (do
      r.deregister sh
      dropSession sh) Q E (.full {sh}) := by
  obtain ⟨vep⟩ := r
  obtain rfl : vep = c.vep := hr
  simp only [VclReactor.deregister,Contract.wpe_bind,Contract.wpe_pure]
  intro u _
  obtain ⟨hg,ho⟩ := mark_step (c := c) (s := .full {sh}) (e := ⟨.waitersRemove c.vep sh,u⟩)
    rfl rfl (by
      intro T x hx
      cases T with
      | interest => cases hx
      | waiters => exact (unsets_handle hx).elim)
  refine ⟨hg,?_⟩
  intro rc _
  obtain ⟨hg',ho'⟩ := mark_step (c := c)
    (s := c.contract.next (.full {sh}) ⟨.waitersRemove c.vep sh,u⟩)
    (e := ⟨.epollCtl c.vep .del sh none,rc⟩) rfl rfl (by
      intro T x hx
      cases T with
      | interest => exact (unsets_handle hx).elim
      | waiters => cases hx)
  refine ⟨hg',?_⟩
  have hbare : c.contract.next (c.contract.next (.full {sh}) ⟨.waitersRemove c.vep sh,u⟩)
      ⟨.epollCtl c.vep .del sh none,rc⟩ = .bare (sh ::ₘ 0) := by
    apply Tending.ext
    · exact ho'.trans ho
    · funext T
      apply Finset.subset_empty.mp
      refine (next_marks T).trans ?_
      cases T with
      | waiters =>
        refine (next_marks .waiters).trans ?_
        rw [Table.mark,if_pos rfl]
        exact (Finset.erase_singleton sh).subset
      | interest =>
        rw [Table.mark,if_pos rfl]
        exact ((Finset.erase_subset_erase sh (next_marks .interest)).trans
          (Finset.erase_singleton sh).subset)
  rw [hbare]
  exact dropSession_wpe hQ

end Sessions

end Care

end VclRs
