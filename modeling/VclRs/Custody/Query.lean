import VclRs.Custody.Bind
import VclRs.Custody.Stream

namespace VclRs

open Interaction Fallible

namespace Terms

variable {H : Type} [DecidableEq H] {T : Terms H} {s : Holding Thread H} {α : Type}
variable {Q : α → Holding Thread H → Prop} {E : Stop → Holding Thread H → Prop}
variable {t : Thread} {K : Multiset H} {vep sh : Handle} {c : Call}

omit [DecidableEq H] in
theorem bindings_permits (hm : T.ledger.May s (T.key s.site sh)) (h : Draws c ∨ Configures sh c) :
    T.Permits s c := by
  rcases h with h | h
  · exact draws_permits h
  · exact configures_permits hm h

omit [DecidableEq H] in
theorem converses_permits (hm : T.ledger.May s (T.key s.site sh)) (h : Converses vep sh c) :
    T.Permits s c := by
  cases h with
  | configures h => exact configures_permits hm h
  | transfers h => exact transfers_permits hm h
  | drains h => exact drains_permits h
  | sleep d => exact none_permitted

theorem converses_wpe {x : Vcl α} (hm : T.ledger.May s (T.key s.site sh))
    (hx : x.Calls (Converses vep sh)) (hQ : ∀ a, Q a s) (hE : ∀ e, E e s) : T.custody.wpe x Q E s :=
  permits_wpe (Prog.calls_mono (fun _ => converses_permits hm) hx) hQ hE

theorem bindings_wpe {x : Vcl α} (hm : T.ledger.May s (T.key s.site sh))
    (hx : x.Calls (fun c => Draws c ∨ Configures sh c)) (hQ : ∀ a, Q a s) (hE : ∀ e, E e s) :
    T.custody.wpe x Q E s :=
  permits_wpe (Prog.calls_mono (fun _ => bindings_permits hm) hx) hQ hE

section Queries

variable [Platform]

theorem addrAttr_wpe {op : Attr} {Q : SocketAddr → Holding Thread H → Prop}
    (hm : T.ledger.May s (T.key s.site sh)) (hd : T.disputes = false) (hQ : ∀ a, Q a s)
    (hE : ∀ e, E e s) : T.custody.wpe (addrAttr op sh) Q E s :=
  permits_wpe (Prog.calls_mono (fun _ => queries_permits hm hd) (addrAttr_calls op)) hQ hE

theorem new_wpe {Q : VclReactor → Holding Thread H → Prop}
    (hok : ∀ vep, Q ⟨vep⟩ ⟨t,T.key t vep ::ₘ K⟩) (herr : ∀ e, E e ⟨t,K⟩)
    (hleft : ∀ e vep, E e ⟨t,T.key t vep ::ₘ K⟩) :
    T.custody.wpe VclReactor.new Q E ⟨t,K⟩ := by
  rw [VclReactor.new,Contract.wpe_bind]
  apply epollCreate_wpe
  intro vep
  rw [Contract.wpe_bind]
  apply checkRc_wpe <;> intro hneg
  · rw [if_neg hneg,Contract.wpe_bind]
    refine call_wpe none_permitted ?_
    intro mqRaw
    rw [Contract.wpe_bind,wpe_rejectIf]
    split_ifs with hmq
    · exact hleft _ _
    · rw [Contract.wpe_bind]
      refine call_wpe none_permitted ?_
      intro x
      cases x with
      | error e => exact hleft _ _
      | ok _ => exact hok _
  · rw [if_pos hneg]
    exact herr _

theorem udpBind_wpe {source : Option IpAddr} {isV6 : Bool}
    {Q : VclUdpSyncSocket → Holding Thread H → Prop}
    (hok : ∀ sh, Q ⟨sh⟩ ⟨t,T.key t sh ::ₘ K⟩) (herr : ∀ e, E e ⟨t,K⟩) :
    T.custody.wpe (VclUdpSyncSocket.bind source isV6) Q E ⟨t,K⟩ := by
  rw [VclUdpSyncSocket.bind,Contract.wpe_bind]
  apply registerWorkerThread_wpe _ herr
  rw [Contract.wpe_bind]
  apply createUdp_wpe _ herr
  intro sh
  have hm : T.ledger.May ⟨t,T.key t sh ::ₘ K⟩ (T.key t sh) := may_head _
  have hstop (e : Stop) : (⟨t,T.key t sh ::ₘ K⟩ : Holding Thread H) = ⟨t,T.key t sh ::ₘ K⟩ ∧
      E e ⟨t,K⟩ := ⟨rfl,herr e⟩
  apply owning_wpe (t := t) (K := K)
  rw [Contract.wpe_bind]
  apply permits_wpe (familyIp_calls source isV6) _ hstop
  intro ip
  rw [Contract.wpe_bind]
  apply bindings_wpe hm (bindEphemeral_calls ip 8) _ hstop
  intro bound
  rw [Contract.wpe_bind,wpe_rejectIf]
  split_ifs with hb
  · exact hstop _
  · rw [Contract.wpe_bind]
    apply configures_wpe hm (listen_calls 0) _ hstop
    intro _
    exact hok sh

theorem queryUdpSync_wpe {peer : SocketAddr} {source : Option IpAddr} {query : List UInt8}
    {timeout : Duration} {Q : List UInt8 × SocketAddr → Holding Thread H → Prop}
    (hok : ∀ a, Q a ⟨t,K⟩) (herr : ∀ e, E e ⟨t,K⟩) :
    T.custody.wpe (queryUdpSync peer source query timeout) Q E ⟨t,K⟩ := by
  rw [queryUdpSync,Contract.wpe_bind]
  apply registerWorkerThread_wpe _ herr
  rw [Contract.wpe_bind]
  apply createUdp_wpe _ herr
  intro sh
  have hm : T.ledger.May ⟨t,T.key t sh ::ₘ K⟩ (T.key t sh) := may_head _
  have hstop (e : Stop) : (⟨t,T.key t sh ::ₘ K⟩ : Holding Thread H) = ⟨t,T.key t sh ::ₘ K⟩ ∧
      E e ⟨t,K⟩ := ⟨rfl,herr e⟩
  apply holding_wpe (t := t) (K := K)
  rw [Contract.wpe_bind]
  apply permits_wpe (sourceIp_calls source peer) _ hstop
  intro ip
  rw [Contract.wpe_bind]
  apply bindings_wpe hm (bindEphemeral_calls ip 8) _ hstop
  intro bound
  rw [Contract.wpe_bind,wpe_rejectIf]
  split_ifs with hb
  · exact hstop _
  · rw [Contract.wpe_bind]
    apply configures_wpe hm (listen_calls 0) _ hstop
    intro _
    have hsend : (sendto sh query peer).Calls (Converses 0 sh) :=
      Prog.calls_mono (fun _ => .transfers) (sendto_calls query peer)
    rw [Contract.wpe_bind]
    apply converses_wpe hm hsend _ hstop
    intro _
    rw [Contract.wpe_bind]
    refine call_wpe none_permitted ?_
    intro start
    have hawait : (awaitDatagram sh (start + timeout)).Calls (Converses 0 sh) :=
      awaitDatagram_calls _
    exact converses_wpe hm hawait (fun a => ⟨rfl,hok a⟩) hstop

theorem probeLocalSource_wpe {peer : SocketAddr} {Q : SocketAddr → Holding Thread H → Prop}
    (hd : T.disputes = false) (hok : ∀ a, Q a ⟨t,K⟩) (herr : ∀ e, E e ⟨t,K⟩) :
    T.custody.wpe (probeLocalSource peer) Q E ⟨t,K⟩ := by
  rw [probeLocalSource,Contract.wpe_bind]
  apply registerWorkerThread_wpe _ herr
  rw [Contract.wpe_bind]
  apply createUdp_wpe _ herr
  intro sh
  have hm : T.ledger.May ⟨t,T.key t sh ::ₘ K⟩ (T.key t sh) := may_head _
  have hstop (e : Stop) : (⟨t,T.key t sh ::ₘ K⟩ : Holding Thread H) = ⟨t,T.key t sh ::ₘ K⟩ ∧
      E e ⟨t,K⟩ := ⟨rfl,herr e⟩
  apply holding_wpe (t := t) (K := K)
  rw [Contract.wpe_bind]
  apply bindings_wpe hm (bindEphemeral_calls _ 8) _ hstop
  intro bound
  rw [Contract.wpe_bind,wpe_rejectIf]
  split_ifs with hb
  · exact hstop _
  · rw [Contract.wpe_bind]
    apply configures_wpe hm (connect_calls peer) _ hstop
    intro _
    exact addrAttr_wpe hm hd (fun a => ⟨rfl,hok a⟩) hstop

theorem queryTcpDnsSync_wpe {peer : SocketAddr} {source : Option IpAddr} {query : List UInt8}
    {timeout : Duration} {Q : List UInt8 → Holding Thread H → Prop} (hok : ∀ a, Q a ⟨t,K⟩)
    (herr : ∀ e, E e ⟨t,K⟩) :
    T.custody.wpe (queryTcpDnsSync peer source query timeout) Q E ⟨t,K⟩ := by
  rw [queryTcpDnsSync,Contract.wpe_bind]
  apply registerWorkerThread_wpe _ herr
  rw [Contract.wpe_bind]
  apply createTcp_wpe _ herr
  intro sh
  have hm : T.ledger.May ⟨t,T.key t sh ::ₘ K⟩ (T.key t sh) := may_head _
  have hstop (e : Stop) : (⟨t,T.key t sh ::ₘ K⟩ : Holding Thread H) = ⟨t,T.key t sh ::ₘ K⟩ ∧
      E e ⟨t,K⟩ := ⟨rfl,herr e⟩
  apply holding_wpe (t := t) (K := K)
  rw [Contract.wpe_bind]
  apply bindings_wpe hm (bindSourceIp_calls peer source) _ hstop
  intro _
  rw [Contract.wpe_bind]
  apply epollCreate_wpe
  intro vep
  rw [Contract.wpe_bind,wpe_rejectIf]
  split_ifs with hv
  · exact hstop _
  · rw [Contract.wpe_bind]
    apply watchSession_wpe hm _ hstop
    apply holding_wpe (t := t) (K := T.key t sh ::ₘ K)
    apply converses_wpe (may_cons hm) (exchangeSync_calls peer query timeout)
    · intro a
      exact ⟨rfl,rfl,hok a⟩
    · intro e
      exact ⟨rfl,hstop e⟩

theorem connectPorts_wpe {peer : SocketAddr} {ip : IpAddr} {r : VclReactor} {timeout : Duration}
    {started : Instant} {ports : List ℕ} {lastErr : Option VclError}
    {Q : VclStream → Holding Thread H → Prop} (hok : ∀ sh, Q ⟨sh,r⟩ ⟨t,T.key t sh ::ₘ K⟩)
    (herr : ∀ e, E e ⟨t,K⟩) :
    T.custody.wpe (connectPorts peer ip r timeout started ports lastErr) Q E ⟨t,K⟩ := by
  induction ports generalizing lastErr with
  | nil => exact herr _
  | cons port ports ih =>
    rw [connectPorts,Contract.wpe_bind]
    refine call_wpe none_permitted ?_
    intro now
    rw [Contract.wpe_ite]
    split_ifs with hr
    · exact herr _
    · rw [Contract.wpe_bind,wpe_attempt]
      apply connectAsync_wpe hok
      intro e
      cases e with
      | err e => exact ih
      | dropped => exact herr _

theorem connectSource_wpe {peer : SocketAddr} {source : Option IpAddr} {r : VclReactor}
    {timeout : Duration} {started : Instant} {Q : VclStream → Holding Thread H → Prop}
    (hok : ∀ sh, Q ⟨sh,r⟩ ⟨t,T.key t sh ::ₘ K⟩) (herr : ∀ e, E e ⟨t,K⟩) :
    T.custody.wpe (connectSource peer source r timeout started) Q E ⟨t,K⟩ := by
  cases source with
  | none => exact connectAsync_wpe hok herr
  | some ip =>
    rw [connectSource,Contract.wpe_ite]
    split_ifs with hf
    · exact herr _
    · rw [Contract.wpe_bind]
      apply permits_wpe (Prog.calls_mono (fun _ => draws_permits) (genPorts_calls 8)) _ herr
      intro ports
      exact connectPorts_wpe hok herr

theorem queryTcpDnsAsync_wpe {peer : SocketAddr} {source : Option IpAddr} {query : List UInt8}
    {r : VclReactor} {timeout : Duration} {Q : List UInt8 → Holding Thread H → Prop}
    (hd : T.disputes = false) (hok : ∀ a, Q a ⟨t,K⟩) (herr : ∀ e, E e ⟨t,K⟩) :
    T.custody.wpe (queryTcpDnsAsync peer source query r timeout) Q E ⟨t,K⟩ := by
  rw [queryTcpDnsAsync,Contract.wpe_bind]
  refine call_wpe none_permitted ?_
  intro started
  rw [Contract.wpe_bind]
  apply connectSource_wpe _ herr
  intro sh
  have hm : T.ledger.May ⟨t,T.key t sh ::ₘ K⟩ (T.key t sh) := may_head _
  rw [Contract.wpe_ensuring]
  apply permits_wpe (Prog.calls_mono (fun _ => serves_permits hm hd) (exchange_calls ⟨sh,r⟩ query))
  · intro a
    exact drop_wpe (hok a)
  · intro e
    exact drop_wpe (herr e)

end Queries

end Terms

end VclRs
