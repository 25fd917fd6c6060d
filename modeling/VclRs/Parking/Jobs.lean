import VclRs.Parking.Seats

namespace VclRs

open Interaction Fallible

def Api.seat : Api → Option (Handle × Handle)
  | .listenerAccept l => some (l.reactor.vep,l.handle)
  | api => api.method

def Carried (os : Multiset (Thread × Obj)) (K : Multiset Handle) : Prop := handlesOf os ≤ K

section Jobs

variable {lent : Option (Handle × Handle)} {K : Multiset Handle} {home : Thread} {α : Type}
variable {x : Vcl α}

theorem handlesOf_one (o : Obj) : handlesOf {(home,o)} = o.handles := by
  rw [handlesOf,Multiset.map_singleton,Multiset.sum_singleton]

theorem serving_carried (h : Grips lent x (fun _ _ => True) K) :
    (gripping lent).wp (yielding home (serving x)) Carried K := by
  rw [wp_serving]
  exact Contract.wpe_mono _ h (fun _ _ _ => Multiset.zero_le _) (fun _ _ _ => Multiset.zero_le _)

theorem giving_carried {f : α → Obj} (h : Grips lent x (fun a K' => (f a).handles ≤ K') K) :
    (gripping lent).wp (yielding home (giving x f)) Carried K := by
  rw [wp_giving]
  refine Contract.wpe_mono _ h ?_ (fun _ _ _ => Multiset.zero_le _)
  intro a K' hle
  rw [Carried,handlesOf_one]
  exact hle

theorem yielding_sits (h : seating.Always x) (f : α → Multiset Obj) (w : Option Seat) :
    seating.wp (yielding home (do
      let a ← x
      pure (f a))) (fun _ _ => True) w := by
  rw [wp_yielding,Contract.wpe_bind]
  exact Contract.wpe_mono _ (h w) (fun _ _ _ => trivial) (fun _ _ _ => trivial)

variable [Platform]

theorem method_carried {vep sh : Handle} {k : Job} (hm : k.api.method = some (vep,sh)) :
    (gripping (some (vep,sh))).wp (yielding k.home k.api.call) Carried K := by
  obtain ⟨β,y,hy,hcalls⟩ := method_calls hm
  rw [hy]
  exact serving_carried (grips_lent (Prog.calls_mono (fun _ => serves_loyal) hcalls) K)

theorem job_grips (k : Job) : (gripping k.api.seat).wp (yielding k.home k.api.call) Carried
    (handlesOf (k.api.takes.map (Prod.mk k.home))) := by
  have hone {sh : Handle} {K : Multiset Handle} (h : sh ∈ K) : ({sh} : Multiset Handle) ≤ K :=
    Multiset.singleton_le.mpr h
  obtain ⟨api,home⟩ := k
  cases api
  case reactorNew =>
    refine giving_carried (Contract.wpe_mono _ (grips_aloof new_aloof) ?_ (fun _ _ h => h))
    exact fun _ _ _ => Multiset.zero_le _
  case reactorClone r =>
    rw [wp_yielding]
    exact Multiset.zero_le _
  case reactorDrop r =>
    rw [wp_yielding]
    exact Multiset.zero_le _
  case tick r => exact serving_carried (grips_aloof tick_aloof)
  case listenerBind addr r =>
    exact giving_carried (Contract.wpe_mono _ grips_listenerBind (fun _ _ => hone) (fun _ _ h => h))
  case listenerAccept l =>
    exact giving_carried (Contract.wpe_mono _ grips_accept (fun _ _ => hone) (fun _ _ h => h))
  case streamConnect addr source timeout r =>
    exact giving_carried (Contract.wpe_mono _ grips_connect (fun _ _ => hone) (fun _ _ h => h))
  case streamConnectAsync addr source r timeout =>
    exact giving_carried (Contract.wpe_mono _ grips_connectAsync (fun _ _ => hone) (fun _ _ h => h))
  case dgramBind addr r =>
    exact giving_carried (Contract.wpe_mono _ grips_dgramBind (fun _ _ => hone) (fun _ _ h => h))
  case dgramBindEphemeralV4 r =>
    exact giving_carried (Contract.wpe_mono _ grips_bindAttempts (fun _ _ => hone) (fun _ _ h => h))
  case dgramBindEphemeralV6 r =>
    exact giving_carried (Contract.wpe_mono _ grips_bindAttempts (fun _ _ => hone) (fun _ _ h => h))
  case udpBind source isV6 =>
    exact giving_carried (Contract.wpe_mono _ grips_udpBind (fun _ _ => hone) (fun _ _ h => h))
  case listenerDrop l => exact serving_carried (grips_drop (Multiset.mem_singleton_self l.handle))
  case streamDrop st => exact serving_carried (grips_drop (Multiset.mem_singleton_self st.handle))
  case dgramDrop d => exact serving_carried (grips_drop (Multiset.mem_singleton_self d.handle))
  case udpDrop u => exact serving_carried (grips_dropSession u.handle)
  case udpLocalAddr u => exact serving_carried (grips_aloof (addrAttr_aloof _))
  case udpQuery u peer query timeout => exact serving_carried (grips_aloof udpQuery_aloof)
  case queryUdpSync peer source query timeout =>
    exact serving_carried (grips_aloof queryUdpSync_aloof)
  case probeLocalSource peer => exact serving_carried (grips_aloof probeLocalSource_aloof)
  case queryTcpDnsSync peer source query timeout =>
    exact serving_carried (grips_aloof queryTcpDnsSync_aloof)
  case queryTcpDnsAsync peer source query r timeout =>
    exact serving_carried grips_queryTcpDnsAsync
  all_goals exact method_carried (k := ⟨_,home⟩) rfl

theorem job_sits (k : Job) : seating.wp (yielding k.home k.api.call) (fun _ _ => True) none := by
  obtain ⟨api,home⟩ := k
  cases api
  case reactorClone r => trivial
  case reactorDrop r => trivial
  case reactorNew => exact yielding_sits (sits_aloof new_aloof) _ _
  case tick r => exact yielding_sits (sits_aloof tick_aloof) _ _
  case listenerBind addr r => exact yielding_sits (sits_aloof listenerBind_aloof) _ _
  case listenerAccept l => exact yielding_sits sits_accept _ _
  case listenerLocalAddr l => exact yielding_sits (sits_attempt (sits_aloof (addrAttr_aloof _))) _ _
  case listenerDrop l => exact yielding_sits sits_drop _ _
  case streamConnect addr source timeout r => exact yielding_sits (sits_aloof connect_aloof) _ _
  case streamConnectAsync addr source r timeout => exact yielding_sits sits_connectAsync _ _
  case streamRead st buf => exact yielding_sits sits_read _ _
  case streamReadExact st buf => exact yielding_sits sits_readExact _ _
  case streamWriteAll st buf => exact yielding_sits sits_writeAll _ _
  case streamLocalAddr st => exact yielding_sits (sits_attempt (sits_aloof (addrAttr_aloof _))) _ _
  case streamPeerAddr st => exact yielding_sits (sits_attempt (sits_aloof (addrAttr_aloof _))) _ _
  case streamPollRead st pending cx unfilled =>
    have hpoll : seating.Always (st.pollRead pending cx unfilled) := by
      rw [VclStream.pollRead_eq]
      exact sits_polling (Prog.calls_mono (fun _ => transfers_aloof) (sessionRead_calls unfilled))
    exact yielding_sits hpoll _ _
  case streamPollWrite st pending cx buf =>
    have hpoll : seating.Always (st.pollWrite pending cx buf) := by
      rw [VclStream.pollWrite_eq]
      exact sits_polling (Prog.calls_mono (fun _ => transfers_aloof) (sessionWrite_calls buf))
    exact yielding_sits hpoll _ _
  case streamPollFlush st => exact yielding_sits (sits_pure _) _ _
  case streamPollShutdown st =>
    have hshut : st.pollShutdown.Calls Aloof :=
      calls_bind (calls_call trivial) (fun _ => calls_ite (calls_pure _) (calls_pure _))
    exact yielding_sits (sits_aloof hshut) _ _
  case streamDrop st => exact yielding_sits sits_drop _ _
  case dgramBind addr r => exact yielding_sits (sits_aloof dgramBind_aloof) _ _
  case dgramBindEphemeralV4 r => exact yielding_sits (sits_aloof bindAttempts_aloof) _ _
  case dgramBindEphemeralV6 r => exact yielding_sits (sits_aloof bindAttempts_aloof) _ _
  case dgramRecvFrom d buf => exact yielding_sits sits_recvFrom _ _
  case dgramTryRecvFrom d buf =>
    have htry : (d.tryRecvFrom buf).Calls Aloof := by
      refine calls_bind (calls_attempt
        (Prog.calls_mono (fun _ => transfers_aloof) (recvfrom_calls buf))) ?_
      intro x
      cases x with
      | ok x => exact calls_pure _
      | error e => exact calls_ite (calls_pure _) (calls_err _)
    exact yielding_sits (sits_aloof htry) _ _
  case dgramWaitReadable d => exact yielding_sits (sits_swallow ()) _ _
  case dgramSendTo d buf dst => exact yielding_sits sits_sendTo _ _
  case dgramLocalAddr d => exact yielding_sits (sits_attempt (sits_aloof (addrAttr_aloof _))) _ _
  case dgramDrop d => exact yielding_sits sits_drop _ _
  case udpBind source isV6 => exact yielding_sits (sits_aloof udpBind_aloof) _ _
  case udpLocalAddr u => exact yielding_sits (sits_aloof (addrAttr_aloof _)) _ _
  case udpQuery u peer query timeout => exact yielding_sits (sits_aloof udpQuery_aloof) _ _
  case udpDrop u => exact yielding_sits (sits_aloof (dropSession_calls trivial)) _ _
  case queryUdpSync peer source query timeout =>
    exact yielding_sits (sits_aloof queryUdpSync_aloof) _ _
  case probeLocalSource peer => exact yielding_sits (sits_aloof probeLocalSource_aloof) _ _
  case queryTcpDnsSync peer source query timeout =>
    exact yielding_sits (sits_aloof queryTcpDnsSync_aloof) _ _
  case queryTcpDnsAsync peer source query r timeout =>
    exact yielding_sits sits_queryTcpDnsAsync _ _

end Jobs

end VclRs
