import VclRs.Protocol.Conduct
import VclRs.World

namespace VclRs

open Interaction Fallible

def Obj.footing : Obj → Footing
  | .reactor _ => .poller
  | .listener _ => .listening .tcp
  | .stream _ => .joined .tcp
  | .dgram _ => .listening .udp
  | .udp _ => .listening .udp

def Obj.vep : Obj → Option Handle
  | .reactor r => some r.vep
  | .listener l => some l.reactor.vep
  | .stream s => some s.reactor.vep
  | .dgram d => some d.reactor.vep
  | .udp _ => none

def Api.concerns (api : Api) (o : Obj) : Prop := o ∈ api.takes ∨ o ∈ api.lends

def Api.ticked : Api → Option VclReactor
  | .tick r => some r
  | _ => none

def Rooted (log : List Entry) (vep : Handle) : Prop :=
  ∃ x ∈ log, x.kind.api = .reactorNew ∧ vep ∈ obtained x.event

instance instDecidableRooted (log : List Entry) (vep : Handle) : Decidable (Rooted log vep) :=
  inferInstanceAs (Decidable (∃ x ∈ log, x.kind.api = .reactorNew ∧ vep ∈ obtained x.event))

def Ticking (log : List Entry) : Prop :=
  ∀ i (h : i < log.length), ∀ r ∈ log[i].kind.api.ticked, Rooted (log.take i) r.vep

instance instDecidableTicking (log : List Entry) : Decidable (Ticking log) :=
  @Nat.decidableBallLT log.length _ (fun i _ =>
    inferInstanceAs (Decidable (∀ r ∈ log[i].kind.api.ticked, Rooted (log.take i) r.vep)))

def Ready (api : Api) (V : Footings) : Prop :=
  ∀ o, api.concerns o → (∀ sh ∈ o.handles, V sh = o.footing) ∧
    ∀ vep, o.vep = some vep → V vep = .poller

def Yields (api : Api) (os : Multiset (Thread × Obj)) (V : Footings) : Prop :=
  ∀ x ∈ os, (∀ sh ∈ x.2.handles, V sh = x.2.footing) ∧ ∀ vep, x.2.vep = some vep →
    (∃ o, api.concerns o ∧ o.vep = some vep) ∨ V vep = .poller ∧ api = .reactorNew

section Jobs

variable {V : Footings} {api : Api} {home : Thread} {α : Type} {x : Vcl α}

theorem serving_yields (h : conduct.wpe x (fun _ _ => True) (fun _ _ => True) V) :
    conduct.wp (yielding home (serving x)) (Yields api) V := by
  rw [wp_serving]
  exact Contract.wpe_mono _ h (fun _ _ _ _ h => absurd h (Multiset.notMem_zero _))
    (fun _ _ _ _ h => absurd h (Multiset.notMem_zero _))

theorem uses_yields (h : x.Calls (Uses V)) :
    conduct.wp (yielding home (serving x)) (Yields api) V :=
  serving_yields (uses_wpe h (fun _ => trivial) (fun _ => trivial))

theorem giving_yields {f : α → Obj} (h : conduct.wpe x (fun a V' =>
      (∀ sh ∈ (f a).handles, V' sh = (f a).footing) ∧ ∀ vep, (f a).vep = some vep →
        (∃ o, api.concerns o ∧ o.vep = some vep) ∨ V' vep = .poller ∧ api = .reactorNew)
      (fun _ _ => True) V) :
    conduct.wp (yielding home (giving x f)) (Yields api) V := by
  rw [wp_giving]
  refine Contract.wpe_mono _ h ?_ (fun _ _ _ _ h => absurd h (Multiset.notMem_zero _))
  intro a V' ha y hy
  rw [Multiset.mem_singleton.mp hy]
  exact ha

theorem wrapping_yields {f : α → Obj} {E : Stop → Footings → Prop} {r : VclReactor} {y : Obj}
    (hy : api.concerns y) (hvep : y.vep = some r.vep)
    (h : conduct.wpe x (fun a V' => (f a).vep = some r.vep ∧ ∀ sh ∈ (f a).handles, V' sh = (f a).footing)
      E V) : conduct.wp (yielding home (giving x f)) (Yields api) V := by
  refine giving_yields (Contract.wpe_mono _ h ?_ (fun _ _ _ => trivial))
  rintro a V' ⟨hfa,hfooting⟩
  refine ⟨hfooting,?_⟩
  intro vep hv
  obtain rfl : r.vep = vep := Option.some.inj (hfa.symm.trans hv)
  exact .inl ⟨y,hy,hvep⟩

variable [Platform]

theorem job_conducts (k : Job) (hk : k.api.ticked = none) (hV : Ready k.api V) :
    conduct.wp (yielding k.home k.api.call) (Yields k.api) V := by
  have hone {P : Handle → Prop} {sh : Handle} (h : P sh) : ∀ y ∈ ({sh} : Multiset Handle), P y := by
    intro y hy
    rw [Multiset.mem_singleton.mp hy]
    exact h
  have htaken (o : Obj) (ho : o ∈ k.api.takes) := hV o (.inl ho)
  have hlent (o : Obj) (ho : o ∈ k.api.lends) := hV o (.inr ho)
  obtain ⟨api,home⟩ := k
  cases api
  case tick r => cases hk
  case reactorNew =>
    refine giving_yields (Contract.wpe_mono _ new_conducts ?_ (fun _ _ h => h))
    intro r V' hr
    refine ⟨fun _ h => absurd h (Multiset.notMem_zero _),?_⟩
    rintro _ ⟨⟩
    exact .inr ⟨hr,rfl⟩
  case reactorClone r =>
    rw [wp_yielding]
    intro y hy
    rw [Multiset.mem_singleton.mp hy]
    refine ⟨fun _ h => absurd h (Multiset.notMem_zero _),?_⟩
    intro vep hvep
    exact .inl ⟨_,.inr (Multiset.mem_singleton_self _),hvep⟩
  case reactorDrop r =>
    rw [wp_yielding]
    exact fun _ h => absurd h (Multiset.notMem_zero _)
  case listenerBind addr r =>
    have hv := (htaken _ (Multiset.mem_singleton_self _)).2 _ rfl
    refine wrapping_yields (.inl (Multiset.mem_singleton_self _)) rfl
      (Contract.wpe_mono _ (listenerBind_conducts hv) ?_ (fun _ _ h => h))
    rintro l V' ⟨rfl,hl⟩
    exact ⟨rfl,hone hl⟩
  case listenerAccept l =>
    obtain ⟨hs,hv⟩ := hlent _ (Multiset.mem_singleton_self _)
    refine wrapping_yields (.inr (Multiset.mem_singleton_self _)) rfl (Contract.wpe_mono _
      (accept_conducts (hs _ (Multiset.mem_singleton_self _)) (hv _ rfl)) ?_ (fun _ _ h => h))
    rintro y V' ⟨hr,hy⟩
    refine ⟨?_,hone hy⟩
    rw [Obj.vep,hr]
  case streamConnect addr source timeout r =>
    refine wrapping_yields (.inl (Multiset.mem_singleton_self _)) rfl
      (Contract.wpe_mono _ connect_stream_conducts ?_ (fun _ _ h => h))
    rintro st V' ⟨rfl,hst⟩
    exact ⟨rfl,hone hst⟩
  case streamConnectAsync addr source r timeout =>
    have hv := (htaken _ (Multiset.mem_singleton_self _)).2 _ rfl
    refine wrapping_yields (.inl (Multiset.mem_singleton_self _)) rfl
      (Contract.wpe_mono _ (connectAsync_conducts hv) ?_ (fun _ _ h => h))
    rintro st V' ⟨rfl,-,rfl⟩
    exact ⟨rfl,hone (Function.update_self _ _ _)⟩
  case dgramBind addr r =>
    have hv := (htaken _ (Multiset.mem_singleton_self _)).2 _ rfl
    refine wrapping_yields (.inl (Multiset.mem_singleton_self _)) rfl
      (Contract.wpe_mono _ (dgramBind_conducts hv) ?_ (fun _ _ h => h))
    rintro d V' ⟨rfl,hd⟩
    exact ⟨rfl,hone hd⟩
  case dgramBindEphemeralV4 r =>
    have hv := (htaken _ (Multiset.mem_singleton_self _)).2 _ rfl
    refine wrapping_yields (.inl (Multiset.mem_singleton_self _)) rfl
      (Contract.wpe_mono _ (bindAttempts_conducts hv 8 none) ?_ (fun _ _ h => h))
    rintro d V' ⟨rfl,hd⟩
    exact ⟨rfl,hone hd⟩
  case dgramBindEphemeralV6 r =>
    have hv := (htaken _ (Multiset.mem_singleton_self _)).2 _ rfl
    refine wrapping_yields (.inl (Multiset.mem_singleton_self _)) rfl
      (Contract.wpe_mono _ (bindAttempts_conducts hv 8 none) ?_ (fun _ _ h => h))
    rintro d V' ⟨rfl,hd⟩
    exact ⟨rfl,hone hd⟩
  case udpBind source isV6 =>
    refine giving_yields (Contract.wpe_mono _ udpBind_conducts ?_ (fun _ _ h => h))
    intro u V' hu
    exact ⟨hone hu,by rintro _ ⟨⟩⟩
  case queryUdpSync peer source query timeout => exact serving_yields queryUdpSync_conducts
  case probeLocalSource peer => exact serving_yields probeLocalSource_conducts
  case queryTcpDnsSync peer source query timeout => exact serving_yields queryTcpDnsSync_conducts
  case queryTcpDnsAsync peer source query r timeout =>
    have hv := (htaken _ (Multiset.mem_singleton_self _)).2 _ rfl
    exact serving_yields (queryTcpDnsAsync_conducts hv)
  case listenerDrop l =>
    obtain ⟨hs,hv⟩ := htaken _ (Multiset.mem_singleton_self _)
    have hopen : (V l.handle).Session := by
      rw [hs _ (Multiset.mem_singleton_self _)]
      trivial
    exact serving_yields (drop_conducts hopen (hv _ rfl) trivial)
  case streamDrop st =>
    obtain ⟨hs,hv⟩ := htaken _ (Multiset.mem_singleton_self _)
    exact serving_yields (drop_conducts (joined_session (hs _ (Multiset.mem_singleton_self _)))
      (hv _ rfl) trivial)
  case dgramDrop d =>
    obtain ⟨hs,hv⟩ := htaken _ (Multiset.mem_singleton_self _)
    exact serving_yields (drop_conducts (bound_session (hs _ (Multiset.mem_singleton_self _)))
      (hv _ rfl) trivial)
  case udpDrop u => exact serving_yields (dropSession_conducts trivial)
  case listenerLocalAddr l =>
    have hs := (hlent _ (Multiset.mem_singleton_self _)).1 _ (Multiset.mem_singleton_self _)
    have hopen : (V l.handle).Session := by
      rw [hs]
      trivial
    exact uses_yields (calls_attempt (addrAttr_uses hopen _))
  case udpLocalAddr u =>
    have hs := (hlent _ (Multiset.mem_singleton_self _)).1 _ (Multiset.mem_singleton_self _)
    have hopen : (V u.handle).Session := by
      rw [hs]
      trivial
    exact uses_yields (addrAttr_uses hopen _)
  case udpQuery u peer query timeout =>
    have hs := (hlent _ (Multiset.mem_singleton_self _)).1 _ (Multiset.mem_singleton_self _)
    exact uses_yields (udpQuery_uses hs peer query timeout)
  case dgramRecvFrom d buf =>
    obtain ⟨hs,hv⟩ := hlent _ (Multiset.mem_singleton_self _)
    exact uses_yields (recvFrom_uses (hs _ (Multiset.mem_singleton_self _)) (hv _ rfl) buf)
  case dgramTryRecvFrom d buf =>
    have hs := (hlent _ (Multiset.mem_singleton_self _)).1 _ (Multiset.mem_singleton_self _)
    exact uses_yields (tryRecvFrom_uses hs buf)
  case dgramWaitReadable d =>
    obtain ⟨hs,hv⟩ := hlent _ (Multiset.mem_singleton_self _)
    exact uses_yields (swallow_uses (hv _ rfl)
      (bound_session (hs _ (Multiset.mem_singleton_self _))) ())
  case dgramSendTo d buf dst =>
    obtain ⟨hs,hv⟩ := hlent _ (Multiset.mem_singleton_self _)
    exact uses_yields (sendTo_uses (hs _ (Multiset.mem_singleton_self _)) (hv _ rfl) buf dst)
  case dgramLocalAddr d =>
    have hs := (hlent _ (Multiset.mem_singleton_self _)).1 _ (Multiset.mem_singleton_self _)
    exact uses_yields (calls_attempt (addrAttr_uses (bound_session hs) _))
  all_goals
    obtain ⟨hs,hv⟩ := hlent _ (Multiset.mem_singleton_self _)
    replace hs := hs _ (Multiset.mem_singleton_self _)
    replace hv := hv _ rfl
  case streamRead st buf => exact uses_yields (read_uses hs hv buf)
  case streamReadExact st buf => exact uses_yields (readExact_uses hs hv buf)
  case streamWriteAll st buf => exact uses_yields (writeAll_uses hs hv buf)
  case streamLocalAddr st => exact uses_yields (calls_attempt (addrAttr_uses (joined_session hs) _))
  case streamPeerAddr st => exact uses_yields (calls_attempt (addrAttr_uses (joined_session hs) _))
  case streamPollRead st pending cx unfilled =>
    exact uses_yields (pollRead_uses hs hv pending cx unfilled)
  case streamPollWrite st pending cx buf => exact uses_yields (pollWrite_uses hs hv pending cx buf)
  case streamPollFlush st => exact uses_yields (calls_pure _)
  case streamPollShutdown st => exact uses_yields (pollShutdown_uses hs)

end Jobs

end VclRs
