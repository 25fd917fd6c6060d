import VclRs.Custody.Query
import VclRs.World

namespace VclRs

open Interaction Fallible

def Api.dials : Api → Bool
  | .streamConnect _ _ _ _ => true
  | _ => false

namespace Terms

variable {H : Type} {T : Terms H} {k : Job} {s : Holding Thread H} {α : Type}

def charge (T : Terms H) (os : Multiset (Thread × Obj)) : Multiset H :=
  (os.map (fun x => x.2.handles.map (T.key x.1))).sum

theorem charge_one {home : Thread} {o : Obj} :
    T.charge {(home,o)} = o.handles.map (T.key home) := by
  rw [charge,Multiset.map_singleton,Multiset.sum_singleton]

structure Suits (T : Terms H) (k : Job) : Prop where
  home : T.home = k.home
  lent : ∀ o ∈ k.api.lends, ∀ sh ∈ o.handles, T.lent sh
  settled : T.disputes = false
  steady : k.api.binding = true → T.Steady
  connects : k.api.dials = true → (∀ t sh, T.key t sh = T.key T.home sh) ∨
    ∀ sh ep rc, T.rely ⟨.sessionConnect sh ep,rc⟩ → rc < 0

theorem suits_may {K : Multiset H} {sh : Handle} {o : Obj} (hT : T.Suits k) (ho : o ∈ k.api.lends)
    (hsh : sh ∈ o.handles) : T.ledger.May ⟨k.home,K⟩ (T.key k.home sh) :=
  .inr ⟨hT.home.symm,sh,hT.lent o ho sh hsh,rfl⟩

def Charged (T : Terms H) (os : Multiset (Thread × Obj)) (s : Holding Thread H) : Prop :=
  T.charge os ≤ s.owed

theorem charged_zero (s : Holding Thread H) : T.Charged 0 s := Multiset.zero_le _

section Calls

variable [DecidableEq H]

theorem serving_charged {home : Thread} {x : Vcl α}
    (h : T.custody.wpe x (fun _ _ => True) (fun _ _ => True) s) :
    T.custody.wp (yielding home (serving x)) T.Charged s := by
  rw [wp_serving]
  exact Contract.wpe_mono _ h (fun _ s' _ => charged_zero s') (fun _ s' _ => charged_zero s')

theorem giving_charged {home : Thread} {x : Vcl α} {f : α → Obj}
    (h : T.custody.wpe x (fun a s' => (f a).handles.map (T.key home) ≤ s'.owed)
      (fun _ _ => True) s) :
    T.custody.wp (yielding home (giving x f)) T.Charged s := by
  rw [wp_giving]
  refine Contract.wpe_mono _ h ?_ (fun _ s' _ => charged_zero s')
  intro a s' hs
  rw [Charged,charge_one]
  exact hs

variable [Platform]

theorem method_charged {vep sh : Handle} (hT : T.Suits k) (hm : k.api.method = some (vep,sh)) :
    T.custody.wp (yielding k.home k.api.call) T.Charged ⟨k.home,0⟩ := by
  obtain ⟨α,x,hx,hcalls⟩ := method_calls hm
  obtain ⟨o,ho,hsh⟩ := method_lends hm
  have hmay : T.ledger.May ⟨k.home,0⟩ (T.key k.home sh) := suits_may hT ho hsh
  rw [hx]
  apply serving_charged
  exact permits_wpe (Prog.calls_mono (fun _ => serves_permits hmay hT.settled) hcalls)
    (fun _ => trivial) (fun _ => trivial)

theorem call_charged (hT : T.Suits k) : T.custody.wp (yielding k.home k.api.call) T.Charged
    ⟨k.home,T.charge (k.api.takes.map (Prod.mk k.home))⟩ := by
  have hlast (sh : Handle) : ({sh} : Multiset Handle).map (T.key k.home) ≤
      T.key k.home sh ::ₘ 0 := le_refl _
  have hmethod {vep sh : Handle} (hm : k.api.method = some (vep,sh)) := method_charged hT hm
  have hlent {o : Obj} {sh : Handle} (ho : o ∈ k.api.lends) (hsh : sh ∈ o.handles) :
      T.ledger.May ⟨k.home,0⟩ (T.key k.home sh) := suits_may hT ho hsh
  obtain ⟨api,home⟩ := k
  cases api
  case reactorNew =>
    apply giving_charged
    apply new_wpe
    · intro vep
      exact Multiset.zero_le _
    · intro e
      trivial
    · intro e vep
      trivial
  case reactorClone r =>
    rw [wp_yielding]
    exact Multiset.zero_le _
  case reactorDrop r =>
    rw [wp_yielding]
    exact charged_zero _
  case tick r =>
    apply serving_charged
    exact tick_wpe trivial (fun _ => trivial)
  case listenerBind addr r =>
    apply giving_charged
    exact listener_bind_wpe (hT.steady rfl) hlast (fun _ => trivial)
  case listenerAccept l =>
    apply giving_charged
    have hm : T.ledger.May ⟨home,0⟩ (T.key home l.handle) :=
      hlent (Multiset.mem_singleton_self _) (Multiset.mem_singleton_self _)
    exact accept_wpe hm (fun x => hlast x.1.handle) (fun _ => trivial)
  case streamConnect addr source timeout r =>
    obtain rfl : T.home = home := hT.home
    apply giving_charged
    refine connect_wpe ?_ ?_ (fun _ => trivial)
    · rcases hT.connects rfl with hkey | hfails
      · exact .inl ⟨hkey,fun _ _ => trivial⟩
      · exact .inr hfails
    · intro orig sh
      exact Multiset.singleton_le.mpr (by simp)
  case streamConnectAsync addr source r timeout =>
    apply giving_charged
    exact connectAsync_wpe hlast (fun _ => trivial)
  case dgramBind addr r =>
    apply giving_charged
    exact dgram_bind_wpe (hT.steady rfl) hlast (fun _ => trivial)
  case dgramBindEphemeralV4 r =>
    apply giving_charged
    exact bindAttempts_wpe (hT.steady rfl) hlast (fun _ => trivial)
  case dgramBindEphemeralV6 r =>
    apply giving_charged
    exact bindAttempts_wpe (hT.steady rfl) hlast (fun _ => trivial)
  case listenerDrop l =>
    apply serving_charged
    exact drop_wpe (K := 0) trivial
  case streamDrop st =>
    apply serving_charged
    exact drop_wpe (K := 0) trivial
  case dgramDrop d =>
    apply serving_charged
    exact drop_wpe (K := 0) trivial
  case udpDrop u =>
    apply serving_charged
    exact dropSession_wpe (K := 0) trivial
  case udpBind source isV6 =>
    apply giving_charged
    exact udpBind_wpe hlast (fun _ => trivial)
  case udpLocalAddr u =>
    apply serving_charged
    have hm : T.ledger.May ⟨home,0⟩ (T.key home u.handle) :=
      hlent (Multiset.mem_singleton_self _) (Multiset.mem_singleton_self _)
    exact addrAttr_wpe hm hT.settled (fun _ => trivial) (fun _ => trivial)
  case udpQuery u peer query timeout =>
    apply serving_charged
    have hm : T.ledger.May ⟨home,0⟩ (T.key home u.handle) :=
      hlent (Multiset.mem_singleton_self _) (Multiset.mem_singleton_self _)
    have hcalls : (u.query peer query timeout).Calls (Converses 0 u.handle) := udpQuery_calls _ _ _ _
    exact converses_wpe hm hcalls (fun _ => trivial) (fun _ => trivial)
  case queryUdpSync peer source query timeout =>
    apply serving_charged
    exact queryUdpSync_wpe (fun _ => trivial) (fun _ => trivial)
  case probeLocalSource peer =>
    apply serving_charged
    exact probeLocalSource_wpe hT.settled (fun _ => trivial) (fun _ => trivial)
  case queryTcpDnsSync peer source query timeout =>
    apply serving_charged
    exact queryTcpDnsSync_wpe (fun _ => trivial) (fun _ => trivial)
  case queryTcpDnsAsync peer source query r timeout =>
    apply serving_charged
    exact queryTcpDnsAsync_wpe hT.settled (fun _ => trivial) (fun _ => trivial)
  all_goals exact hmethod rfl

end Calls

end Terms

end VclRs
