import VclRs.Interaction.Nesting
import VclRs.Custody.Terms
import VclRs.Schedule

namespace VclRs

open Interaction Fallible

def grantedHandle (rc : Int) : Option Handle := if rc < 0 then none else some (handleOf rc)

def acquired : Ev → Option Handle
  | ⟨.sessionCreate _ _,rc⟩ => grantedHandle rc
  | ⟨.sessionAccept _,(rc,_)⟩ => grantedHandle rc
  | ⟨.epollCreate,rc⟩ => grantedHandle rc
  | _ => none

def returned : Ev → Option Handle
  | ⟨.sessionClose sh,_⟩ => some sh
  | _ => none

def touched : Call → List Handle
  | .epollCtl vep _ sh _ => [vep,sh]
  | .epollWait vep _ _ => [vep]
  | c => (subject c).toList

def watches : Call → Option (Handle × Handle)
  | .epollCtl vep .add sh _ => some (vep,sh)
  | _ => none

def nest : Nest Call Reply Handle where
  opens := acquired
  closes := returned
  uses := touched
  spans := watches
  apart e := by
    obtain ⟨op,reply⟩ := e
    cases op <;> first
      | exact .inl rfl
      | exact .inr rfl

def stillOpen (tr : List Ev) : List Handle := tr.foldl nest.move []

structure WellNested (tr : List Ev) : Prop where
  once : ClosedOnce tr
  settled : stillOpen tr = []
  used : ∀ pre e post, tr = pre ++ e :: post → ∀ sh ∈ touched e.op, sh ∈ stillOpen pre
  nested : ∀ pre sh rc post, tr = pre ++ ⟨.sessionClose sh,rc⟩ :: post → (stillOpen pre).head? = some sh
  watched : ∀ pre vep sh ev rc post, tr = pre ++ ⟨.epollCtl vep .add sh ev,rc⟩ :: post →
    ∃ (a : List Ev) (x : Int) (b : List Ev) (y : Int) (c : List Ev),
      post = a ++ ⟨.sessionClose vep,x⟩ :: (b ++ ⟨.sessionClose sh,y⟩ :: c)

section Discipline

variable {tr : List Ev} {e : Ev} {sh : Handle}

theorem returned_close (h : returned e = some sh) : ∃ rc : Int, e = ⟨.sessionClose sh,rc⟩ := by
  obtain ⟨op,reply⟩ := e
  cases op <;> cases h
  exact ⟨reply,rfl⟩

theorem obtained_acquired (e : Ev) : obtained e = ↑(acquired e).toList := by
  have hgranted (rc : Int) : handleIf rc = ↑(grantedHandle rc).toList := by
    rw [handleIf,grantedHandle]
    split_ifs <;> rfl
  obtain ⟨op,reply⟩ := e
  cases op <;> first
    | exact hgranted _
    | rfl

theorem released_returned (e : Ev) : released e = ↑(returned e).toList := by
  obtain ⟨op,reply⟩ := e
  cases op <;> rfl

theorem gains_opened (tr : List Ev) : nest.gains tr = opened tr := by
  have hall : obtained = fun e => (↑(acquired e).toList : Multiset Handle) :=
    funext obtained_acquired
  rw [opened,hall]
  rfl

theorem losses_closed (tr : List Ev) : nest.losses tr = closed tr := by
  have hall : released = fun e => (↑(returned e).toList : Multiset Handle) :=
    funext released_returned
  rw [closed,hall]
  rfl

theorem kept_closedOnce (hk : nest.discipline.Kept [] tr) (hend : stillOpen tr = []) : ClosedOnce tr := by
  constructor
  · have hb := Nest.balance hk
    rw [gains_opened,losses_closed] at hb
    change (↑(stillOpen tr) : Multiset Handle) + closed tr = 0 + opened tr at hb
    rw [hend,zero_add] at hb
    exact (zero_add _).symm.trans hb
  · intro pre hpre
    have hc := Nest.covered hk hpre
    rw [gains_opened,losses_closed] at hc
    exact hc

theorem kept_settled (hk : nest.discipline.Kept [] tr) (hend : stillOpen tr = []) : WellNested tr := by
  constructor
  · exact kept_closedOnce hk hend
  · exact hend
  · rintro pre e post rfl
    exact (nest.discipline.kept_at hk).1.2.1
  · rintro pre sh rc post rfl
    exact (nest.discipline.kept_at hk).1.1 sh rfl
  · rintro pre vep sh ev rc post rfl
    obtain ⟨hg,hpost⟩ := nest.discipline.kept_at hk
    obtain ⟨rest,hs,hrest⟩ := hg.2.2 (vep,sh) rfl
    have hnext : nest.discipline.next (nest.discipline.after [] pre)
        ⟨.epollCtl vep .add sh ev,rc⟩ = vep :: rest := hs
    have hlast : nest.discipline.after (vep :: rest) post = [] := by
      rw [← hnext]
      have hall : nest.discipline.after [] (pre ++ ⟨.epollCtl vep .add sh ev,rc⟩ :: post) = [] := hend
      rw [Contract.after_append] at hall
      exact hall
    rw [hnext] at hpost
    obtain ⟨a,x,b,y,c,rfl,hx,hy⟩ := Nest.popped_over hpost hlast hrest
    obtain ⟨rx,rfl⟩ := returned_close hx
    obtain ⟨ry,rfl⟩ := returned_close hy
    exact ⟨a,rx,b,ry,c,rfl⟩

end Discipline

structure Inside (s : List Handle) (c : Call) : Prop where
  opens : ∀ r, acquired ⟨c,r⟩ = none
  closes : ∀ r, returned ⟨c,r⟩ = none
  uses : ∀ sh ∈ touched c, sh ∈ s
  spans : watches c = none

section Classes

variable {s : List Handle} {c : Call} {vep sh : Handle}

theorem none_inside : ∀ x ∈ ([] : List Handle), x ∈ s := List.forall_mem_nil _

theorem one_inside (hs : sh ∈ s) : ∀ x ∈ [sh], x ∈ s := List.forall_mem_singleton.mpr hs

theorem registers_inside (h : Registers c) : Inside s c := by
  cases h <;> exact ⟨fun _ => rfl,fun _ => rfl,none_inside,rfl⟩

theorem draws_inside (h : Draws c) : Inside s c := by
  cases h
  exact ⟨fun _ => rfl,fun _ => rfl,none_inside,rfl⟩

theorem configures_inside (hs : sh ∈ s) (h : Configures sh c) : Inside s c := by
  cases h <;> exact ⟨fun _ => rfl,fun _ => rfl,one_inside hs,rfl⟩

theorem transfers_inside (hs : sh ∈ s) (h : Transfers sh c) : Inside s c := by
  cases h <;> exact ⟨fun _ => rfl,fun _ => rfl,one_inside hs,rfl⟩

theorem queries_inside (hs : sh ∈ s) (h : Queries sh c) : Inside s c := by
  cases h
  exact ⟨fun _ => rfl,fun _ => rfl,one_inside hs,rfl⟩

theorem converses_inside (hv : vep ∈ s) (hs : sh ∈ s) (h : Converses vep sh c) : Inside s c := by
  cases h with
  | configures h => exact configures_inside hs h
  | transfers h => exact transfers_inside hs h
  | drains h =>
    cases h with
    | now => exact ⟨fun _ => rfl,fun _ => rfl,none_inside,rfl⟩
    | wait n ms => exact ⟨fun _ => rfl,fun _ => rfl,one_inside hv,rfl⟩
  | sleep d => exact ⟨fun _ => rfl,fun _ => rfl,none_inside,rfl⟩

theorem bindings_inside (hs : sh ∈ s) (h : Draws c ∨ Configures sh c) : Inside s c := by
  rcases h with h | h
  · exact draws_inside h
  · exact configures_inside hs h

end Classes

section Rules

variable {s : List Handle} {α : Type} {Q : α → List Handle → Prop} {E : Stop → List Handle → Prop}
variable {vep sh : Handle}

theorem inside_step {e : Ev} (h : Inside s e.op) :
    nest.discipline.guar s e ∧ nest.discipline.next s e = s := by
  have hopens : nest.opens e = none := h.opens e.reply
  have hcloses : nest.closes e = none := h.closes e.reply
  refine ⟨⟨?_,h.uses,?_⟩,?_⟩
  · intro sh hsh
    cases hcloses.symm.trans hsh
  · intro x hx
    cases h.spans.symm.trans hx
  · change nest.move s e = s
    rw [Nest.move_opening hcloses,hopens]
    rfl

theorem inside_wpe {x : Vcl α} (hx : x.Calls (Inside s)) (hQ : ∀ a, Q a s) (hE : ∀ e, E e s) :
    nest.discipline.wpe x Q E s :=
  nest.discipline.wpe_still (fun _ => inside_step) hx hQ hE

theorem acquire_wpe {c : Call} (code : Reply c → Int) {Q : Reply c → List Handle → Prop}
    (ho : ∀ r, acquired ⟨c,r⟩ = grantedHandle (code r)) (hc : ∀ r, returned ⟨c,r⟩ = none)
    (hu : touched c = []) (hw : watches c = none)
    (hQ : ∀ r, Q r (if code r < 0 then s else handleOf (code r) :: s)) :
    nest.discipline.wpe (ffi c) Q E s := by
  intro r _
  have hcloses : nest.closes ⟨c,r⟩ = none := hc r
  refine ⟨⟨?_,?_,?_⟩,?_⟩
  · intro sh hsh
    cases hcloses.symm.trans hsh
  · intro sh hsh
    change sh ∈ touched c at hsh
    rw [hu] at hsh
    cases hsh
  · intro x hx
    cases hw.symm.trans hx
  · have hnext : nest.discipline.next s ⟨c,r⟩ =
        if code r < 0 then s else handleOf (code r) :: s := by
      change nest.move s ⟨c,r⟩ = _
      rw [Nest.move_opening hcloses]
      change (acquired ⟨c,r⟩).toList ++ s = _
      rw [ho,grantedHandle]
      split_ifs <;> rfl
    rw [hnext]
    exact hQ r

theorem close_settles {Q : Int → List Handle → Prop} (hQ : ∀ rc, Q rc s) :
    nest.discipline.wpe (vppcomSessionClose sh) Q E (sh :: s) := by
  intro (rc : Int) _
  have hcloses : nest.closes (⟨.sessionClose sh,rc⟩ : Ev) = some sh := rfl
  refine ⟨⟨?_,?_,?_⟩,?_⟩
  · intro x hx
    cases hx
    rfl
  · intro x hx
    cases hx
  · intro x hx
    cases hx
  · have hnext : nest.discipline.next (sh :: s) ⟨.sessionClose sh,rc⟩ = s :=
      Nest.move_closing hcloses
    rw [hnext]
    exact hQ rc

theorem dropSession_settles {Q : Unit → List Handle → Prop} (hQ : Q () s) :
    nest.discipline.wpe (dropSession sh) Q E (sh :: s) := by
  rw [dropSession,Contract.wpe_bind]
  exact close_settles (fun _ => hQ)

theorem owning_settles {body : Vcl α}
    (h : nest.discipline.wpe body Q (fun e t => t = sh :: s ∧ E e s) (sh :: s)) :
    nest.discipline.wpe (owning sh body) Q E (sh :: s) := by
  rw [owning,Contract.wpe_onFail]
  apply nest.discipline.wpe_mono h (fun _ _ hq => hq)
  rintro e _ ⟨rfl,he⟩
  exact dropSession_settles he

theorem holding_settles {body : Vcl α}
    (h : nest.discipline.wpe body (fun a t => t = sh :: s ∧ Q a s) (fun e t => t = sh :: s ∧ E e s)
      (sh :: s)) : nest.discipline.wpe (holding sh body) Q E (sh :: s) := by
  rw [holding,Contract.wpe_ensuring]
  apply nest.discipline.wpe_mono h
  · rintro a _ ⟨rfl,ha⟩
    exact dropSession_settles ha
  · rintro e _ ⟨rfl,he⟩
    exact dropSession_settles he

theorem watchSession_settles {events : UInt32} {Q : Unit → List Handle → Prop} (hs : sh ∈ s)
    (hok : Q () (vep :: s)) (herr : ∀ e, E e s) :
    nest.discipline.wpe (watchSession vep sh events) Q E (vep :: s) := by
  rw [watchSession,Contract.wpe_bind,Contract.wpe_call]
  intro (rv : Int) _
  have hnext : nest.discipline.next (vep :: s)
      ⟨.epollCtl vep .add sh (some ⟨events,sh.toUInt64⟩),rv⟩ = vep :: s := rfl
  refine ⟨⟨?_,?_,?_⟩,?_⟩
  · intro x hx
    cases hx
  · exact List.forall_mem_cons.mpr ⟨List.mem_cons_self ..,one_inside (List.mem_cons_of_mem _ hs)⟩
  · rintro x ⟨⟩
    exact ⟨s,rfl,hs⟩
  · rw [hnext,Contract.wpe_ite]
    split_ifs with hneg
    · rw [Contract.wpe_bind]
      exact close_settles (fun _ => herr _)
    · exact hok

end Rules

section Queries

variable [Platform] {s : List Handle} {E : Stop → List Handle → Prop} {sh vep : Handle}

theorem created_settles {proto : Proto} {nonblocking : Bool} {Q : Handle → List Handle → Prop}
    (hok : ∀ sh, Q sh (sh :: s)) (herr : ∀ e, E e s) :
    nest.discipline.wpe (created proto nonblocking) Q E s := by
  rw [created,Contract.wpe_bind]
  apply acquire_wpe id (fun _ => rfl) (fun _ => rfl) rfl rfl
  intro (rc : Int)
  rw [Contract.wpe_bind,checkRc,wpe_rejectIf,id]
  split_ifs with hneg
  · exact herr _
  · exact hok _

theorem createTcp_settles {nonblocking : Bool} {Q : Handle → List Handle → Prop}
    (hok : ∀ sh, Q sh (sh :: s)) (herr : ∀ e, E e s) :
    nest.discipline.wpe (createTcp nonblocking) Q E s := created_settles hok herr

theorem createUdp_settles {nonblocking : Bool} {Q : Handle → List Handle → Prop}
    (hok : ∀ sh, Q sh (sh :: s)) (herr : ∀ e, E e s) :
    nest.discipline.wpe (createUdp nonblocking) Q E s := created_settles hok herr

omit [Platform] in
theorem registerWorkerThread_settles {Q : Unit → List Handle → Prop} (hQ : Q () s)
    (hE : ∀ e, E e s) : nest.discipline.wpe registerWorkerThread Q E s :=
  inside_wpe (Prog.calls_mono (fun _ => registers_inside) registerWorkerThread_calls) (fun _ => hQ) hE

theorem bindEphemeral_settles {ip : IpAddr} {n : ℕ} {Q : Bool → List Handle → Prop} (hs : sh ∈ s)
    (hQ : ∀ b, Q b s) (hE : ∀ e, E e s) : nest.discipline.wpe (bindEphemeral sh ip n) Q E s :=
  inside_wpe (Prog.calls_mono (fun _ => bindings_inside hs) (bindEphemeral_calls ip n)) hQ hE

theorem listen_settles {n : ℕ} {Q : Unit → List Handle → Prop} (hs : sh ∈ s) (hQ : Q () s)
    (hE : ∀ e, E e s) : nest.discipline.wpe (listen sh n) Q E s :=
  inside_wpe (Prog.calls_mono (fun _ => configures_inside hs) (listen_calls n)) (fun _ => hQ) hE

abbrev Clear : List Handle → Prop := fun s => s = []

theorem udpBind_settles {source : Option IpAddr} {isV6 : Bool} :
    nest.discipline.wpe (VclUdpSyncSocket.bind source isV6) (fun _ _ => True)
      (fun _ => Clear) [] := by
  have hclear (_ : Stop) : Clear [] := rfl
  rw [VclUdpSyncSocket.bind,Contract.wpe_bind]
  apply registerWorkerThread_settles _ hclear
  rw [Contract.wpe_bind]
  apply createUdp_settles _ hclear
  intro sh
  have hs : sh ∈ [sh] := List.mem_singleton_self sh
  have hstop (_ : Stop) : [sh] = [sh] ∧ Clear [] := ⟨rfl,rfl⟩
  apply owning_settles
  rw [Contract.wpe_bind]
  apply inside_wpe (familyIp_calls source isV6) _ hstop
  intro ip
  rw [Contract.wpe_bind]
  apply bindEphemeral_settles hs _ hstop
  intro bound
  rw [Contract.wpe_bind,wpe_rejectIf]
  split_ifs with hb
  · exact ⟨rfl,rfl⟩
  · rw [Contract.wpe_bind]
    exact listen_settles hs trivial hstop

theorem queryUdpSync_settles {peer : SocketAddr} {source : Option IpAddr} {query : List UInt8}
    {timeout : Duration} :
    nest.discipline.wpe (queryUdpSync peer source query timeout) (fun _ => Clear)
      (fun _ => Clear) [] := by
  have hclear (_ : Stop) : Clear [] := rfl
  rw [queryUdpSync,Contract.wpe_bind]
  apply registerWorkerThread_settles _ hclear
  rw [Contract.wpe_bind]
  apply createUdp_settles _ hclear
  intro sh
  have hs : sh ∈ [sh] := List.mem_singleton_self sh
  have hstop (_ : Stop) : [sh] = [sh] ∧ Clear [] := ⟨rfl,rfl⟩
  apply holding_settles
  rw [Contract.wpe_bind]
  apply inside_wpe (sourceIp_calls source peer) _ hstop
  intro ip
  rw [Contract.wpe_bind]
  apply bindEphemeral_settles hs _ hstop
  intro bound
  rw [Contract.wpe_bind,wpe_rejectIf]
  split_ifs with hb
  · exact ⟨rfl,rfl⟩
  · rw [Contract.wpe_bind]
    apply listen_settles hs _ hstop
    have hsent : (sendto sh query peer).Calls (Converses sh sh) :=
      Prog.calls_mono (fun _ => .transfers) (sendto_calls query peer)
    rw [Contract.wpe_bind]
    apply inside_wpe (Prog.calls_mono (fun _ => converses_inside hs hs) hsent) _ hstop
    intro _
    have hnow : (ffi .instantNow).Calls (Converses sh sh) := calls_call (.drains .now)
    rw [Contract.wpe_bind]
    apply inside_wpe (Prog.calls_mono (fun _ => converses_inside hs hs) hnow) _ hstop
    intro start
    exact inside_wpe (Prog.calls_mono (fun _ => converses_inside hs hs) (awaitDatagram_calls _))
      (fun _ => ⟨rfl,rfl⟩) hstop

theorem probeLocalSource_settles {peer : SocketAddr} :
    nest.discipline.wpe (probeLocalSource peer) (fun _ => Clear) (fun _ => Clear) [] := by
  have hclear (_ : Stop) : Clear [] := rfl
  rw [probeLocalSource,Contract.wpe_bind]
  apply registerWorkerThread_settles _ hclear
  rw [Contract.wpe_bind]
  apply createUdp_settles _ hclear
  intro sh
  have hs : sh ∈ [sh] := List.mem_singleton_self sh
  have hstop (_ : Stop) : [sh] = [sh] ∧ Clear [] := ⟨rfl,rfl⟩
  apply holding_settles
  rw [Contract.wpe_bind]
  apply bindEphemeral_settles hs _ hstop
  intro bound
  rw [Contract.wpe_bind,wpe_rejectIf]
  split_ifs with hb
  · exact ⟨rfl,rfl⟩
  · rw [Contract.wpe_bind]
    apply inside_wpe (Prog.calls_mono (fun _ => configures_inside hs) (connect_calls peer)) _ hstop
    intro _
    exact inside_wpe (Prog.calls_mono (fun _ => queries_inside hs) (addrAttr_calls _))
      (fun _ => ⟨rfl,rfl⟩) hstop

theorem queryTcpDnsSync_settles {peer : SocketAddr} {source : Option IpAddr} {query : List UInt8}
    {timeout : Duration} :
    nest.discipline.wpe (queryTcpDnsSync peer source query timeout) (fun _ => Clear)
      (fun _ => Clear) [] := by
  have hclear (_ : Stop) : Clear [] := rfl
  rw [queryTcpDnsSync,Contract.wpe_bind]
  apply registerWorkerThread_settles _ hclear
  rw [Contract.wpe_bind]
  apply createTcp_settles _ hclear
  intro sh
  have hs : sh ∈ [sh] := List.mem_singleton_self sh
  have hstop (_ : Stop) : [sh] = [sh] ∧ Clear [] := ⟨rfl,rfl⟩
  apply holding_settles
  rw [Contract.wpe_bind]
  apply inside_wpe (Prog.calls_mono (fun _ => bindings_inside hs) (bindSourceIp_calls peer source)) _ hstop
  intro _
  rw [Contract.wpe_bind]
  apply acquire_wpe id (fun _ => rfl) (fun _ => rfl) rfl rfl
  intro (vep : Int)
  rw [Contract.wpe_bind,wpe_rejectIf,id]
  split_ifs with hv
  · exact ⟨rfl,rfl⟩
  · rw [Contract.wpe_bind]
    apply watchSession_settles hs _ hstop
    have hvep : handleOf vep ∈ [handleOf vep,sh] := by simp
    have hsh : sh ∈ [handleOf vep,sh] := by simp
    apply holding_settles
    exact inside_wpe (Prog.calls_mono (fun _ => converses_inside hvep hsh)
      (exchangeSync_calls peer query timeout)) (fun _ => ⟨rfl,rfl,rfl⟩) (fun _ => ⟨rfl,rfl,rfl⟩)

inductive SyncCall where
  | queryTcpDnsSync (peer : SocketAddr) (source : Option IpAddr) (query : List UInt8)
      (timeout : Duration)
  | queryUdpSync (peer : SocketAddr) (source : Option IpAddr) (query : List UInt8)
      (timeout : Duration)
  | probeLocalSource (peer : SocketAddr)
  | udpBind (source : Option IpAddr) (isV6 : Bool)
deriving DecidableEq, Repr

def SyncCall.Ends : SyncCall → List Ev → Prop
  | .queryTcpDnsSync peer source query timeout, tr =>
    ∃ res, (VclRs.queryTcpDnsSync peer source query timeout).Run tr res
  | .queryUdpSync peer source query timeout, tr =>
    ∃ res, (VclRs.queryUdpSync peer source query timeout).Run tr res
  | .probeLocalSource peer, tr => ∃ res, (VclRs.probeLocalSource peer).Run tr res
  | .udpBind source isV6, tr => ∃ e, (VclUdpSyncSocket.bind source isV6).Run tr (.error e)

omit [Platform] in
theorem wpe_settled {α : Type} {x : Vcl α} {tr : List Ev} {res : Except Stop α}
    (hw : nest.discipline.wpe x (fun _ => Clear) (fun _ => Clear) []) (hrun : x.Run tr res) :
    WellNested tr := by
  have hrel := nest.discipline.relied_of_forall (fun _ _ => trivial) [] tr
  cases res with
  | ok a =>
    obtain ⟨hk,hend⟩ := nest.discipline.wpe_ok hw hrun hrel
    exact kept_settled hk hend
  | error e =>
    obtain ⟨hk,hend⟩ := nest.discipline.wpe_error hw hrun hrel
    exact kept_settled hk hend

theorem sync_settled (k : SyncCall) (tr : List Ev) (h : k.Ends tr) : WellNested tr := by
  cases k with
  | queryTcpDnsSync peer source query timeout =>
    obtain ⟨res,hrun⟩ := h
    exact wpe_settled queryTcpDnsSync_settles hrun
  | queryUdpSync peer source query timeout =>
    obtain ⟨res,hrun⟩ := h
    exact wpe_settled queryUdpSync_settles hrun
  | probeLocalSource peer =>
    obtain ⟨res,hrun⟩ := h
    exact wpe_settled probeLocalSource_settles hrun
  | udpBind source isV6 =>
    obtain ⟨e,hrun⟩ := h
    have hrel := nest.discipline.relied_of_forall (fun _ _ => trivial) [] tr
    obtain ⟨hk,hend⟩ := nest.discipline.wpe_error udpBind_settles hrun hrel
    exact kept_settled hk hend

end Queries

def tcpQuery : SyncCall := .queryTcpDnsSync (.new .unspecifiedV4 53) none [1,2] 5

theorem sync_settled_tcp : ∃ tr, @SyncCall.Ends host tcpQuery tr ∧
    tr.filterMap (fun e => watches e.op) = [(2,1)] ∧ WellNested tr := by
  obtain ⟨res,tr,hrun,hwatched⟩ := Fallible.exec_sat
    (x := @queryTcpDnsSync host (.new .unspecifiedV4 53) none [1,2] 5)
    (P := fun _ tr => tr.filterMap (fun e => watches e.op) = [(2,1)]) (fun _ => obliging) 20
    (by decide +kernel)
  exact ⟨tr,⟨res,hrun⟩,hwatched,@sync_settled host tcpQuery tr ⟨res,hrun⟩⟩

end VclRs
