import VclRs.Custody.Terms
import VclRs.Schedule

namespace VclRs

open Interaction Fallible

namespace Terms

variable {H : Type} {T : Terms H} {s : Holding Thread H} {α : Type}

section Sockets

variable [Platform] [DecidableEq H] {Q : α → Holding Thread H → Prop}
variable {E : Stop → Holding Thread H → Prop} {t : Thread} {K : Multiset H} {sh : Handle}

def Steady (T : Terms H) : Prop := T.disputes = true ∨ ∀ e, T.rely e → refused e = 0

omit [Platform] in
theorem queried_next {rc : Int} {ep : Endpt} :
    T.custody.next ⟨t,K⟩ ⟨.sessionAttr sh .getLclAddr,(rc,ep)⟩ =
      ⟨t,K + Multiset.map (T.key t) (if T.disputes then if rc < 0 then {sh} else 0 else 0)⟩ := by
  change Holding.mk t (K - Multiset.map _ 0 + Multiset.map _ (0 + _)) = _
  rw [Multiset.map_zero,tsub_zero,zero_add]
  rfl

theorem queryBound_wpe {requested : SocketAddr} {Q : SocketAddr → Holding Thread H → Prop}
    (hT : T.Steady) (hm : T.ledger.May ⟨t,K⟩ (T.key t sh)) (hok : ∀ a, Q a ⟨t,K⟩)
    (herr : ∀ e, E e ⟨t,K⟩) :
    T.custody.wpe (owning sh (queryBound sh requested)) Q E ⟨t,K⟩ := by
  refine owning_wpe (t := t) (K := K) ?_
  simp only [queryBound,localAddr,addrAttr,Contract.wpe_bind,wpe_attempt,checkRc,wpe_rejectIf,
    Contract.wpe_pure,Contract.wpe_call]
  rintro ⟨rc,ep⟩ hrely
  have hg : T.custody.guar ⟨t,K⟩ ⟨.sessionAttr sh .getLclAddr,(rc,ep)⟩ := by
    refine custody_guar (Multiset.zero_le _) ?_
    intro sh' hsub
    cases hsub
    exact hm
  refine ⟨hg,?_⟩
  by_cases hneg : rc < 0
  · rw [if_pos hneg]
    refine ⟨?_,herr _⟩
    rcases hT with hd | hr
    · rw [queried_next,if_pos hd,if_pos hneg,Multiset.map_singleton,add_comm,
        Multiset.singleton_add]
    · have hz : (if rc < 0 then {sh} else 0 : Multiset Handle) = 0 := hr _ hrely
      rw [if_pos hneg] at hz
      exact absurd hz (Multiset.singleton_ne_zero sh)
  · rw [if_neg hneg,queried_next,if_neg hneg,ite_self,Multiset.map_zero,add_zero]
    exact hok _

theorem verifyBindOrErr_wpe {requested : SocketAddr} {Q : Unit → Holding Thread H → Prop}
    (hT : T.Steady) (hm : T.ledger.May ⟨t,K⟩ (T.key t sh)) (hok : Q () ⟨t,K⟩)
    (herr : ∀ e, E e ⟨t,K⟩) :
    T.custody.wpe (verifyBindOrErr sh requested) Q E ⟨t,K⟩ := by
  rw [verifyBindOrErr,Contract.wpe_bind]
  refine epollCreate_wpe ?_
  intro vep
  simp only [Contract.wpe_bind,wpe_rejectIf]
  split_ifs with hneg
  · exact herr _
  refine watchSession_wpe hm ?_ herr
  refine call_wpe none_permitted ?_
  intro start
  refine drainFor_wpe (close_wpe ?_)
  intro _
  refine queryBound_wpe hT hm ?_ herr
  intro actual
  split_ifs with hport
  · exact herr _
  · exact hok

theorem bound_wpe {addr : SocketAddr} {backlog : ℕ} {r : VclReactor} {x : α} (hT : T.Steady)
    (hok : Q x ⟨t,T.key t sh ::ₘ K⟩) (herr : ∀ e, E e ⟨t,K⟩) :
    T.custody.wpe (owning sh (do
      bind sh addr
      listen sh backlog
      verifyBindOrErr sh addr
      r.register sh
      pure x)) Q E ⟨t,T.key t sh ::ₘ K⟩ := by
  have hm : T.ledger.May ⟨t,T.key t sh ::ₘ K⟩ (T.key t sh) := may_head _
  have hconf {c : Call} (hc : Configures sh c) : T.Permits ⟨t,T.key t sh ::ₘ K⟩ c :=
    configures_permits hm hc
  refine owning_wpe (t := t) (K := K) ?_
  simp only [Contract.wpe_bind,Contract.wpe_pure]
  refine permits_wpe (Prog.calls_mono (fun _ => hconf) (bind_calls addr)) ?_
    (fun e => ⟨rfl,herr e⟩)
  intro _
  refine permits_wpe (Prog.calls_mono (fun _ => hconf) (listen_calls backlog)) ?_
    (fun e => ⟨rfl,herr e⟩)
  intro _
  refine verifyBindOrErr_wpe hT hm ?_ (fun e => ⟨rfl,herr e⟩)
  exact register_wpe hm hok (fun e => ⟨rfl,herr e⟩)

theorem listener_bind_wpe {addr : SocketAddr} {r : VclReactor}
    {Q : VclListener → Holding Thread H → Prop} (hT : T.Steady)
    (hok : ∀ sh, Q ⟨sh,r⟩ ⟨t,T.key t sh ::ₘ K⟩) (herr : ∀ e, E e ⟨t,K⟩) :
    T.custody.wpe (VclListener.bind addr r) Q E ⟨t,K⟩ := by
  rw [VclListener.bind,Contract.wpe_bind]
  refine registerWorkerThread_wpe ?_ herr
  rw [Contract.wpe_bind]
  refine createTcp_wpe ?_ herr
  intro sh
  exact bound_wpe hT (hok sh) herr

theorem dgram_bind_wpe {addr : SocketAddr} {r : VclReactor}
    {Q : VclDgramSocket → Holding Thread H → Prop} (hT : T.Steady)
    (hok : ∀ sh, Q ⟨sh,r⟩ ⟨t,T.key t sh ::ₘ K⟩) (herr : ∀ e, E e ⟨t,K⟩) :
    T.custody.wpe (VclDgramSocket.bind addr r) Q E ⟨t,K⟩ := by
  rw [VclDgramSocket.bind,Contract.wpe_bind]
  refine registerWorkerThread_wpe ?_ herr
  rw [Contract.wpe_bind]
  refine createUdp_wpe ?_ herr
  intro sh
  exact bound_wpe hT (hok sh) herr

theorem bindAttempts_wpe {ipStr : String} {r : VclReactor} {n : ℕ} {lastErr : Option VclError}
    {Q : VclDgramSocket → Holding Thread H → Prop} (hT : T.Steady)
    (hok : ∀ sh, Q ⟨sh,r⟩ ⟨t,T.key t sh ::ₘ K⟩) (herr : ∀ e, E e ⟨t,K⟩) :
    T.custody.wpe (VclDgramSocket.bindAttempts ipStr r n lastErr) Q E ⟨t,K⟩ := by
  induction n generalizing lastErr with
  | zero => exact herr _
  | succ n ih =>
    change T.custody.wpe (genRange portLow portHigh >>= _) Q E ⟨t,K⟩
    rw [Contract.wpe_bind]
    refine call_wpe none_permitted ?_
    intro port
    cases SocketAddr.parse s!"{ipStr}:{port}" with
    | none => exact herr _
    | some addr =>
      rw [Contract.wpe_bind,wpe_attempt]
      refine dgram_bind_wpe hT hok ?_
      intro e
      cases e with
      | err e => exact ih
      | dropped => exact herr _

end Sockets

end Terms

inductive Bound where
  | listener (l : VclListener)
  | dgram (d : VclDgramSocket)
deriving DecidableEq, Repr

def Bound.handle : Bound → Handle
  | .listener l => l.handle
  | .dgram d => d.handle

def Bound.drop : Bound → Vcl Unit
  | .listener l => l.drop
  | .dgram d => d.drop

inductive Binding where
  | listener (addr : SocketAddr)
  | dgram (addr : SocketAddr)
  | ephemeralV4
  | ephemeralV6
deriving DecidableEq, Repr

section Settlement

variable [Platform]

def Binding.bind (r : VclReactor) : Binding → Vcl Bound
  | .listener addr => do
    let l ← VclListener.bind addr r
    pure (.listener l)
  | .dgram addr => do
    let d ← VclDgramSocket.bind addr r
    pure (.dgram d)
  | .ephemeralV4 => do
    let d ← VclDgramSocket.bindEphemeralV4 r
    pure (.dgram d)
  | .ephemeralV6 => do
    let d ← VclDgramSocket.bindEphemeralV6 r
    pure (.dgram d)

def Settled (tr : List Ev) : Except Stop Bound → Prop
  | .error _ => ClosedOnce tr
  | .ok sock => (∀ pre, pre <+: tr → closed pre ≤ opened pre) ∧
      closed tr + {sock.handle} = opened tr ∧
      ∀ tr' res, sock.drop.Run tr' res → closed tr' = {sock.handle} ∧ opened tr' = 0

omit [Platform] in
theorem drop_run {r : VclReactor} {sh : Handle} {tr : List Ev} {res : Except Stop Unit}
    (h : Fallible.Run (do
      r.deregister sh
      dropSession sh) tr res) : closed tr = {sh} ∧ opened tr = 0 := by
  cases h with
  | call _ h =>
    cases h with
    | call _ h =>
      cases h with
      | call _ h =>
        cases h with
        | ret _ => exact ⟨rfl,rfl⟩

theorem binding_wpe {T : Terms Handle} {r : VclReactor} {t : Thread} {K : Multiset Handle}
    (b : Binding) (hT : T.Steady) :
    T.custody.wpe (b.bind r) (fun sock s => s = ⟨t,T.key t sock.handle ::ₘ K⟩)
      (fun _ s => s = ⟨t,K⟩) ⟨t,K⟩ := by
  cases b with
  | listener addr =>
    rw [Binding.bind,Contract.wpe_bind]
    exact Terms.listener_bind_wpe hT (fun _ => rfl) (fun _ => rfl)
  | dgram addr =>
    rw [Binding.bind,Contract.wpe_bind]
    exact Terms.dgram_bind_wpe hT (fun _ => rfl) (fun _ => rfl)
  | ephemeralV4 =>
    rw [Binding.bind,Contract.wpe_bind]
    exact Terms.bindAttempts_wpe hT (fun _ => rfl) (fun _ => rfl)
  | ephemeralV6 =>
    rw [Binding.bind,Contract.wpe_bind]
    exact Terms.bindAttempts_wpe hT (fun _ => rfl) (fun _ => rfl)

def disputed : Terms Handle := Terms.byNumber 0 (fun _ => False) true (fun _ => True)

omit [Platform] in
theorem refusals_eq_zero {tr : List Ev} :
    (tr.map refused).sum = 0 ↔ ∀ e ∈ tr, refused e = 0 := by
  induction tr with
  | nil => simp
  | cons e tr ih => rw [List.map_cons,List.sum_cons,add_eq_zero_iff_of_nonneg (Multiset.zero_le _) (Multiset.zero_le _),ih,List.forall_mem_cons]

omit [Platform] in
theorem disputed_covered {tr pre : List Ev} (hk : disputed.custody.Kept ⟨0,0⟩ tr)
    (hr : ∀ e ∈ tr, refused e = 0) (hp : pre <+: tr) : closed pre ≤ opened pre := by
  have hc := Terms.byNumber_covered hk hp
  have hz : (pre.map refused).sum = 0 :=
    refusals_eq_zero.mpr (fun e he => hr e (hp.subset he))
  simpa [hz] using hc

theorem binding_balance (b : Binding) (r : VclReactor) {tr : List Ev} {res : Except Stop Bound}
    (hrun : (b.bind r).Run tr res) : disputed.custody.Kept ⟨0,0⟩ tr ∧
      closed tr + (res.toOption.elim 0 (fun sock => {sock.handle})) =
        opened tr + (tr.map refused).sum := by
  have hw := binding_wpe (T := disputed) (r := r) (t := 0) (K := 0) b (.inl rfl)
  have hrel := disputed.custody.relied_of_forall (fun _ _ => trivial) ⟨0,0⟩ tr
  have hbal {K : Multiset Handle} (hk : disputed.custody.Kept ⟨0,0⟩ tr)
      (ha : disputed.custody.after ⟨0,0⟩ tr = ⟨0,K⟩) :
      closed tr + K = opened tr + (tr.map refused).sum := by
    have hb : (disputed.custody.after ⟨0,0⟩ tr).owed + closed tr =
        0 + (opened tr + (tr.map refused).sum) := Terms.byNumber_balance hk
    rw [ha,zero_add,add_comm] at hb
    exact hb
  cases res with
  | error e =>
    obtain ⟨hk,ha⟩ := disputed.custody.wpe_error hw hrun hrel
    exact ⟨hk,hbal hk ha⟩
  | ok sock =>
    obtain ⟨hk,ha⟩ := disputed.custody.wpe_ok hw hrun hrel
    exact ⟨hk,hbal hk ha⟩

theorem binding_settled_iff (b : Binding) (r : VclReactor) (tr : List Ev)
    (res : Except Stop Bound) (hrun : (b.bind r).Run tr res) :
    Settled tr res ↔ ∀ e ∈ tr, refused e = 0 := by
  obtain ⟨hk,hb⟩ := binding_balance b r hrun
  constructor
  · intro h
    rw [← refusals_eq_zero]
    cases res with
    | error e =>
      have hc : closed tr = opened tr := h.1
      rw [hc] at hb
      exact (add_left_cancel hb).symm
    | ok sock =>
      have hc : closed tr + {sock.handle} = opened tr := h.2.1
      rw [← hc] at hb
      exact left_eq_add.mp hb
  · intro hr
    rw [refusals_eq_zero.mpr hr,add_zero] at hb
    have hpre (pre : List Ev) (hp : pre <+: tr) : closed pre ≤ opened pre :=
      disputed_covered hk hr hp
    cases res with
    | error e =>
      have hc : closed tr + 0 = opened tr := hb
      rw [add_zero] at hc
      exact ⟨hc,hpre⟩
    | ok sock =>
      refine ⟨hpre,hb,?_⟩
      intro tr' res' hd
      cases sock with
      | listener l => exact drop_run hd
      | dgram d => exact drop_run hd

end Settlement

def patient (n : ℕ) (c : Call) : Reply c :=
  match n, c with
  | 7, .instantNow => (200000000 : ℕ)
  | _, c => obliging c

def refusing (n : ℕ) (c : Call) : Reply c :=
  match n, c with
  | _, .sessionAttr _ .getLclAddr => ((-22 : Int),.default)
  | n, c => patient n c

theorem binding_settled_iff_bound :
    ∃ tr sock, (@Binding.bind host ⟨9⟩ (.listener (.new .unspecifiedV4 0))).Run tr (.ok sock) ∧
      Settled tr (.ok sock) := by
  obtain ⟨res,tr,hrun,hok,href⟩ := Fallible.exec_sat
    (x := @Binding.bind host ⟨9⟩ (.listener (.new .unspecifiedV4 0)))
    (P := fun res tr => res.toOption.isSome = true ∧ ∀ e ∈ tr, refused e = 0) patient 10
    (by decide +kernel)
  cases res with
  | error e => cases hok
  | ok sock => exact ⟨tr,sock,hrun,(@binding_settled_iff host _ _ tr _ hrun).mpr href⟩

theorem refused_bind_closes_twice :
    ∃ tr e, (@Binding.bind host ⟨9⟩ (.listener (.new .unspecifiedV4 53))).Run tr (.error e) ∧
      closed tr = {2,1,1} ∧ opened tr = {1,2} ∧ ¬ Settled tr (.error e) := by
  obtain ⟨res,tr,hrun,herr,hc,ho⟩ := Fallible.exec_sat
    (x := @Binding.bind host ⟨9⟩ (.listener (.new .unspecifiedV4 53)))
    (P := fun res tr => res.toOption.isNone = true ∧ closed tr = {2,1,1} ∧ opened tr = {1,2})
    refusing 10 (by decide +kernel)
  cases res with
  | ok sock => cases herr
  | error e =>
    refine ⟨tr,e,hrun,hc,ho,?_⟩
    intro hs
    have heq : closed tr = opened tr := hs.1
    rw [hc,ho] at heq
    exact absurd heq (by decide)

end VclRs
