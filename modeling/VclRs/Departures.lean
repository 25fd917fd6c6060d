import VclRs.Datagrams.OneShot
import VclRs.Interaction.Paths
import VclRs.Ephemeral
import VclRs.Marshalling

namespace VclRs

open Interaction Fallible

inductive Outbound where
  | udpSync (peer : SocketAddr) (source : Option IpAddr) (query : List UInt8) (timeout : Duration)
  | udpSocket (peer : SocketAddr) (source : Option IpAddr) (query : List UInt8) (timeout : Duration)
  | probe (peer : SocketAddr)
  | tcpSync (peer : SocketAddr) (source : Option IpAddr) (query : List UInt8) (timeout : Duration)
  | tcpAsync (peer : SocketAddr) (source : Option IpAddr) (query : List UInt8) (reactor : VclReactor)
      (timeout : Duration)
deriving DecidableEq, Repr

namespace Outbound

def Result : Outbound → Type
  | udpSync _ _ _ _ => Answer
  | udpSocket _ _ _ _ => Answer
  | probe _ => SocketAddr
  | tcpSync _ _ _ _ => List UInt8
  | tcpAsync _ _ _ _ _ => List UInt8

def peer : Outbound → SocketAddr
  | udpSync peer _ _ _ => peer
  | udpSocket peer _ _ _ => peer
  | probe peer => peer
  | tcpSync peer _ _ _ => peer
  | tcpAsync peer _ _ _ _ => peer

def origin : Outbound → Option IpAddr
  | udpSync peer source _ _ => some (source.getD (wildcardFor peer.isIpv4))
  | udpSocket peer source _ _ => some (source.getD (wildcardFor peer.isIpv4))
  | probe peer => some (wildcardFor peer.isIpv4)
  | tcpSync _ source _ _ => source
  | tcpAsync _ source _ _ _ => source

def payload : Outbound → Option (List UInt8)
  | udpSync _ _ query _ => some query
  | udpSocket _ _ query _ => some query
  | probe _ => none
  | tcpSync _ _ _ _ => none
  | tcpAsync _ _ _ _ _ => none

end Outbound

structure Slip where
  bound : Handle → Option Endpt
  drawn : Multiset ℕ
  binds : ℕ
  sends : ℕ

namespace Slip

def init : Slip := ⟨fun _ => none,0,0,0⟩

end Slip

section Contract

variable [Platform]

def Outbound.code : (k : Outbound) → Vcl k.Result
  | .udpSync peer source query timeout => queryUdpSync peer source query timeout
  | .udpSocket peer source query timeout => VclUdpSyncSocket.once peer source query timeout
  | .probe peer => probeLocalSource peer
  | .tcpSync peer source query timeout => queryTcpDnsSync peer source query timeout
  | .tcpAsync peer source query reactor timeout => queryTcpDnsAsync peer source query reactor timeout

def Slip.next (s : Slip) : Ev → Slip
  | ⟨.sessionCreate _ _,rc⟩ =>
    { s with bound := if rc < 0 then s.bound else Function.update s.bound (handleOf rc) none }
  | ⟨.genRange _ _,port⟩ => { s with drawn := port ::ₘ s.drawn }
  | ⟨.sessionBind sh ep,rc⟩ =>
    { s with
      bound := if rc < 0 then s.bound else Function.update s.bound sh (some ep)
      drawn := s.drawn.erase (addrFromEndpoint ep).port.toNat
      binds := s.binds + 1 }
  | ⟨.sessionSendto _ _ _,_⟩ => { s with sends := s.sends + 1 }
  | _ => s

namespace Outbound

def Cleared (k : Outbound) (s : Slip) (sh : Handle) : Prop :=
  ∀ ip, k.origin = some ip → ip.isIpv4 = k.peer.isIpv4 ∧ ∃ port, portLow ≤ port ∧ port ≤ portHigh ∧
    s.bound sh = some (endpointIntoBuf (.new ip (.ofNat port)) zeroed)

def Permits (k : Outbound) (s : Slip) : Ev → Prop
  | ⟨.genRange low high,_⟩ => low = portLow ∧ high = portHigh
  | ⟨.sessionBind sh ep,_⟩ => s.bound sh = none ∧ s.binds < 8 ∧
    ∃ ip, k.origin = some ip ∧ ip.isIpv4 = k.peer.isIpv4 ∧
      ∃ port ∈ s.drawn, ep = endpointIntoBuf (.new ip (.ofNat port)) zeroed
  | ⟨.sessionSendto sh buf ep,_⟩ => k.Cleared s sh ∧ ep = endpointIntoBuf k.peer zeroed ∧ s.sends = 0 ∧
    ∃ query, k.payload = some query ∧ buf = query.take (asU32 query.length)
  | ⟨.sessionConnect sh ep,_⟩ => k.Cleared s sh ∧ ep = endpointIntoBuf k.peer zeroed ∧ k.payload = none
  | _ => True

def departing (k : Outbound) : Contract Call Reply Slip where
  rely _ e := InRange e
  guar := k.Permits
  next := Slip.next

end Outbound

end Contract

def Placid : Call → Prop
  | .sessionCreate _ _ => False
  | .genRange _ _ => False
  | .sessionBind _ _ => False
  | .sessionSendto _ _ _ => False
  | .sessionConnect _ _ => False
  | _ => True

section Placid

variable {vep sh : Handle}

theorem registerWorkerThread_placid : registerWorkerThread.Calls Placid := by
  refine Prog.calls_mono ?_ registerWorkerThread_calls
  rintro _ ⟨⟩ <;> trivial

theorem waits_placid {c : Call} (h : Waits vep sh c) : Placid c := by
  cases h <;> trivial

theorem dropSession_placid : (dropSession sh).Calls Placid := dropSession_calls trivial

theorem deregister_placid {r : VclReactor} : (r.deregister sh).Calls Placid :=
  deregister_calls trivial trivial

theorem watchSession_placid {events : UInt32} : (watchSession vep sh events).Calls Placid :=
  calls_bind (calls_call trivial)
    (fun _ => calls_ite (calls_bind (calls_call trivial) (fun _ => calls_err _)) (calls_pure _))

theorem pausing_placid {deadline : Instant} {e : VclError} : (pausing deadline e).Calls Placid :=
  calls_ite (calls_bind (calls_call trivial)
    (fun _ => calls_bind (calls_rejectIf _) (fun _ => calls_call trivial))) (calls_err _)

variable [Platform]

theorem listen_placid {n : ℕ} : (listen sh n).Calls Placid :=
  calls_bind (calls_call trivial) (fun _ => checkRc_calls _)

theorem setNodelay_placid : (setNodelay sh).Calls Placid :=
  calls_bind (calls_call trivial) (fun _ => checkRc_calls _)

theorem register_placid {r : VclReactor} : (r.register sh).Calls Placid :=
  calls_bind (calls_call trivial) (fun _ => checkRc_calls _)

theorem localAddr_placid : (localAddr sh).Calls Placid :=
  calls_bind (calls_call trivial) (fun _ => calls_bind (checkRc_calls _) (fun _ => calls_pure _))

theorem recvfrom_placid {buf : List UInt8} : (recvfrom sh buf).Calls Placid :=
  calls_bind (calls_call trivial) (fun _ => calls_bind (checkRc_calls _) (fun _ => calls_pure _))

theorem sessionRead_placid {buf : List UInt8} : (sessionRead sh buf).Calls Placid :=
  calls_bind (calls_call trivial) (fun _ => calls_bind (checkRc_calls _) (fun _ => calls_pure _))

theorem sessionWrite_placid {buf : List UInt8} : (sessionWrite sh buf).Calls Placid :=
  calls_bind (calls_call trivial) (fun _ => calls_bind (checkRc_calls _) (fun _ => calls_pure _))

theorem awaitDatagram_placid {deadline : Instant} : (awaitDatagram sh deadline).Calls Placid := by
  rw [awaitDatagram_eq]
  refine calls_loop (fun buf => calls_bind (calls_attempt recvfrom_placid) ?_) _
  intro x
  cases x with
  | ok x => exact calls_pure _
  | error e => exact calls_bind pausing_placid (fun _ => calls_pure _)

theorem awaiting_placid {peer : SocketAddr} {deadline : Instant} :
    (awaiting ⟨sh⟩ peer deadline).Calls Placid := by
  refine calls_loop (fun buf => calls_bind (calls_attempt recvfrom_placid) ?_) _
  intro x
  cases x with
  | ok x => exact calls_ite (calls_pure _) (calls_pure _)
  | error e =>
    rw [sift_error]
    exact calls_bind pausing_placid (fun _ => calls_pure _)

theorem writeLoop_placid {deadline : Instant} {framed : List UInt8} :
    (writeLoop sh vep deadline framed).Calls Placid := by
  refine calls_loop (fun sent => calls_ite ?_ (calls_pure _)) _
  refine calls_bind (calls_attempt sessionWrite_placid) ?_
  intro x
  cases x with
  | ok n => exact calls_pure _
  | error e =>
    refine calls_ite (calls_bind (calls_call trivial) (fun _ => ?_)) (calls_err _)
    refine calls_bind (calls_rejectIf _) (fun _ => ?_)
    exact calls_bind (calls_bind (calls_call trivial) (fun _ => calls_pure _)) (fun _ => calls_pure _)

theorem readLoop_placid {deadline : Instant} {buf : List UInt8} :
    (readLoop sh vep deadline buf).Calls Placid := by
  refine calls_loop (fun st => calls_ite ?_ (calls_pure _)) _
  refine calls_bind (calls_call trivial) (fun _ => calls_bind (calls_rejectIf _) (fun _ => ?_))
  refine calls_bind (calls_attempt sessionRead_placid) ?_
  intro x
  cases x with
  | ok x => exact calls_ite (calls_err _) (calls_pure _)
  | error e =>
    refine calls_ite ?_ (calls_err _)
    exact calls_bind (calls_bind (calls_call trivial) (fun _ => calls_pure _)) (fun _ => calls_pure _)

theorem read_placid {st : VclStream} {buf : List UInt8} : (st.read buf).Calls Placid := by
  refine calls_loop (fun _ => calls_bind (calls_attempt sessionRead_placid) ?_) _
  intro x
  cases x with
  | ok x => exact calls_ite (calls_err _) (calls_pure _)
  | error e =>
    refine calls_ite ?_ (calls_err _)
    exact calls_bind (Prog.calls_mono (fun _ => waits_placid) (waitReadable_calls _))
      (fun _ => calls_pure _)

theorem readExact_placid {st : VclStream} {buf : List UInt8} : (st.readExact buf).Calls Placid :=
  calls_loop (fun _ => calls_ite (calls_bind read_placid (fun _ => calls_pure _)) (calls_pure _)) _

theorem writeAll_placid {st : VclStream} {buf : List UInt8} : (st.writeAll buf).Calls Placid := by
  refine calls_loop (fun pos => calls_ite ?_ (calls_pure _)) _
  refine calls_bind (calls_attempt sessionWrite_placid) ?_
  intro x
  cases x with
  | ok n => exact calls_pure _
  | error e =>
    refine calls_ite ?_ (calls_err _)
    exact calls_bind (Prog.calls_mono (fun _ => waits_placid) (waitWritable_calls _))
      (fun _ => calls_pure _)

theorem exchange_placid {st : VclStream} {query : List UInt8} : (exchange st query).Calls Placid := by
  refine calls_bind (ofExcept_calls _) (fun framed => ?_)
  refine calls_bind writeAll_placid (fun _ => ?_)
  refine calls_bind readExact_placid (fun lenbuf => ?_)
  exact calls_bind (ofExcept_calls _) (fun len => readExact_placid)

end Placid

section Rules

variable [Platform] {k : Outbound} {s : Slip} {sh : Handle} {ip : IpAddr} {port : ℕ}

abbrev Aground : Stop → Slip → Prop := fun _ _ => True

theorem placid_next {e : Ev} (h : Placid e.op) : k.Permits s e ∧ s.next e = s := by
  obtain ⟨op,reply⟩ := e
  cases op <;> first
    | exact ⟨trivial,rfl⟩
    | exact h.elim

theorem placid_wpe {α : Type} {x : Vcl α} {Q : α → Slip → Prop} {E : Stop → Slip → Prop}
    (hx : x.Calls Placid) (hQ : ∀ a, Q a s) (hE : ∀ e, E e s) : k.departing.wpe x Q E s :=
  k.departing.wpe_still (fun _ he => placid_next he) hx hQ hE

theorem holding_wpe {α : Type} {x : Vcl α} {Q : α → Slip → Prop} (h : k.departing.wpe x Q Aground s) :
    k.departing.wpe (holding sh x) Q Aground s := by
  rw [holding,Contract.wpe_ensuring]
  refine Contract.wpe_mono _ h ?_ ?_
  · intro a s' hq
    exact placid_wpe dropSession_placid (fun _ => hq) (fun _ => trivial)
  · intro e s' _
    exact placid_wpe dropSession_placid (fun _ => trivial) (fun _ => trivial)

structure Slip.Fresh (s : Slip) (sh : Handle) (s' : Slip) : Prop where
  bound : s'.bound sh = none
  drawn : s'.drawn = s.drawn
  binds : s'.binds = s.binds
  sends : s'.sends = s.sends

theorem created_departs {proto : Proto} {nonblocking : Bool} {Q : Handle → Slip → Prop}
    {E : Stop → Slip → Prop} (hQ : ∀ sh s', s.Fresh sh s' → Q sh s') (hE : ∀ e, E e s) :
    k.departing.wpe (created proto nonblocking) Q E s := by
  simp only [created,checkRc,Contract.wpe_bind,Contract.wpe_call,wpe_rejectIf,Contract.wpe_pure]
  intro (rc : Int) _
  refine ⟨trivial,?_⟩
  split_ifs with hneg
  · have hsame : k.departing.next s ⟨.sessionCreate proto nonblocking,rc⟩ = s :=
      congrArg (fun b => { s with bound := b }) (if_pos hneg)
    rw [hsame]
    exact hE _
  · refine hQ _ _ ⟨?_,rfl,rfl,rfl⟩
    change (if rc < 0 then s.bound else _) (handleOf rc) = none
    rw [if_neg hneg]
    exact Function.update_self ..

theorem drawn_port (h : portLow ≤ port ∧ port ≤ portHigh) :
    (addrFromEndpoint (endpointIntoBuf (.new ip (.ofNat port)) zeroed)).port.toNat = port := by
  have hle := drawn_le h
  have hport : (UInt16.ofNat port).toNat = port := by
    rw [UInt16.toNat_ofNat']
    omega
  rw [decode_encode]
  cases ip with
  | v4 octets => exact hport
  | v6 octets => exact hport

structure Slip.Spent (s : Slip) (port : ℕ) (s' : Slip) : Prop where
  drawn : s.drawn.erase port ≤ s'.drawn
  binds : s'.binds ≤ s.binds + 1
  sends : s'.sends = s.sends

theorem bind_departs {Q : Unit → Slip → Prop} {E : Stop → Slip → Prop} (hip : k.origin = some ip)
    (hfamily : ip.isIpv4 = k.peer.isIpv4) (hbound : s.bound sh = none) (hbinds : s.binds < 8)
    (hport : portLow ≤ port ∧ port ≤ portHigh) (hdrawn : port ∈ s.drawn)
    (hQ : ∀ s', s.Spent port s' → k.Cleared s' sh → Q () s')
    (hE : ∀ e s', s.Spent port s' → s'.bound sh = none → E (.err e) s') :
    k.departing.wpe (bind sh (.new ip (.ofNat port))) Q E s := by
  simp only [bind,checkRc,Contract.wpe_bind,Contract.wpe_call,wpe_rejectIf]
  intro (rc : Int) _
  refine ⟨⟨hbound,hbinds,ip,hip,hfamily,port,hdrawn,rfl⟩,?_⟩
  have hspent : s.Spent port (k.departing.next s
      ⟨.sessionBind sh (endpointIntoBuf (.new ip (.ofNat port)) zeroed),rc⟩) := by
    refine ⟨?_,le_rfl,rfl⟩
    change _ ≤ s.drawn.erase _
    rw [drawn_port hport]
  split_ifs with hneg
  · refine hE _ _ hspent ?_
    change (if rc < 0 then s.bound else _) sh = none
    rw [if_pos hneg]
    exact hbound
  · refine hQ _ hspent ?_
    intro ip' hip'
    obtain rfl : ip = ip' := Option.some.inj (hip.symm.trans hip')
    refine ⟨hfamily,port,hport.1,hport.2,?_⟩
    change (if rc < 0 then s.bound else _) sh = _
    rw [if_neg hneg]
    exact Function.update_self ..

theorem bindEphemeral_departs {n : ℕ} (hip : k.origin = some ip)
    (hfamily : ip.isIpv4 = k.peer.isIpv4) (hbound : s.bound sh = none) (hbinds : s.binds + n ≤ 8) :
    k.departing.wpe (bindEphemeral sh ip n)
      (fun done s' => s'.sends = s.sends ∧ (done = true → k.Cleared s' sh)) Aground s := by
  induction n generalizing s with
  | zero => exact ⟨rfl,by simp⟩
  | succ n ih =>
    rw [bindEphemeral,Contract.wpe_bind,Contract.wpe_call]
    intro port hport
    have hmem : port ∈ (k.departing.next s ⟨.genRange portLow portHigh,port⟩).drawn :=
      Multiset.mem_cons_self ..
    refine ⟨⟨rfl,rfl⟩,?_⟩
    rw [Contract.wpe_bind,wpe_attempt]
    refine bind_departs hip hfamily hbound ?_ hport hmem ?_ ?_
    · change s.binds < 8
      omega
    · intro s' hspent hcleared
      exact ⟨hspent.sends,fun _ => hcleared⟩
    · intro e s' hspent hfree
      have hfew : s'.binds ≤ s.binds + 1 := hspent.binds
      refine Contract.wpe_mono _ (ih hfree (by omega)) ?_ (fun _ _ h => h)
      rintro done s'' ⟨hsends,hdone⟩
      exact ⟨hsends.trans hspent.sends,hdone⟩

theorem connect_departs {Q : Unit → Slip → Prop} {E : Stop → Slip → Prop} (hk : k.payload = none)
    (hs : k.Cleared s sh) (hQ : Q () s) (hE : ∀ e, E (.err e) s) :
    k.departing.wpe (connect sh k.peer) Q E s := by
  simp only [connect,checkRc,Contract.wpe_bind,Contract.wpe_call,wpe_rejectIf]
  intro (rc : Int) _
  refine ⟨⟨hs,rfl,hk⟩,?_⟩
  split_ifs with hneg
  · exact hE _
  · exact hQ

theorem startConnect_departs {Q : Unit → Slip → Prop} {E : Stop → Slip → Prop} (hk : k.payload = none)
    (hs : k.Cleared s sh) (hQ : Q () s) (hE : ∀ e, E (.err e) s) :
    k.departing.wpe (startConnect sh k.peer) Q E s := by
  rw [startConnect,Contract.wpe_bind,wpe_attempt]
  refine connect_departs hk hs hQ ?_
  intro e
  change k.departing.wpe (if e = .wouldBlock then pure () else err e) Q E s
  rw [Contract.wpe_ite]
  split_ifs with hwait
  · exact hQ
  · exact hE e

theorem sendto_departs {query : List UInt8} (hk : k.payload = some query) (hs : k.Cleared s sh)
    (hsends : s.sends = 0) :
    k.departing.wpe (sendto sh query k.peer) (fun _ s' => s'.sends = 1) Aground s := by
  simp only [sendto,checkRc,Contract.wpe_bind,Contract.wpe_call,wpe_rejectIf,Contract.wpe_pure]
  intro (rc : Int) _
  refine ⟨⟨hs,rfl,hsends,query,hk,rfl⟩,?_⟩
  split_ifs with hneg
  · trivial
  · change s.sends + 1 = 1
    omega

end Rules

section Programs

variable [Platform] {k : Outbound} {s : Slip} {sh : Handle} {peer : SocketAddr}
variable {source : Option IpAddr} {query : List UInt8} {timeout : Duration} {r : VclReactor}

abbrev Outbound.Gone (k : Outbound) : k.Result → Slip → Prop := fun _ s => k.payload ≠ none → s.sends = 1

omit [Platform] in
theorem wildcardFor_isIpv4 (v4 : Bool) : (wildcardFor v4).isIpv4 = v4 := by
  cases v4 <;> rfl

def Chosen (ip : Vcl IpAddr) (peer : SocketAddr) (source : Option IpAddr) : Prop :=
  (∃ e, ip = err e) ∨
    ip = pure (source.getD (wildcardFor peer.isIpv4)) ∧
      (source.getD (wildcardFor peer.isIpv4)).isIpv4 = peer.isIpv4

omit [Platform] in
theorem sourceIp_chosen : Chosen (sourceIp source peer) peer source := by
  cases source with
  | none => exact .inr ⟨rfl,wildcardFor_isIpv4 _⟩
  | some ip =>
    rw [Chosen,sourceIp]
    split_ifs with h
    · exact .inl ⟨_,rfl⟩
    · exact .inr ⟨rfl,not_not.mp h⟩

omit [Platform] in
theorem familyIp_chosen : Chosen (VclUdpSyncSocket.familyIp source (!peer.isIpv4)) peer source := by
  cases hpeer : peer.isIpv4 with
  | true =>
    rcases source with _ | ⟨octets⟩ | ⟨octets⟩
    · exact .inr ⟨by rw [hpeer]; rfl,by rw [hpeer]; rfl⟩
    · exact .inr ⟨rfl,hpeer.symm⟩
    · exact .inl ⟨_,rfl⟩
  | false =>
    rcases source with _ | ⟨octets⟩ | ⟨octets⟩
    · exact .inr ⟨by rw [hpeer]; rfl,by rw [hpeer]; rfl⟩
    · exact .inl ⟨_,rfl⟩
    · exact .inr ⟨rfl,hpeer.symm⟩

theorem preparing_departs {ip : Vcl IpAddr} (hip : Chosen ip k.peer source)
    (hk : k.origin = some (source.getD (wildcardFor k.peer.isIpv4))) (hs : Slip.init.Fresh sh s) :
    k.departing.wpe (preparing ip sh) (fun _ s' => s'.sends = 0 ∧ k.Cleared s' sh) Aground s := by
  rcases hip with ⟨e,rfl⟩ | ⟨rfl,hfamily⟩
  · trivial
  · have hbinds : s.binds + 8 ≤ 8 := by rw [hs.binds]; rfl
    simp only [preparing,Contract.wpe_bind,Contract.wpe_pure]
    refine Contract.wpe_mono _ (bindEphemeral_departs hk hfamily hs.bound hbinds) ?_ (fun _ _ h => h)
    rintro done s' ⟨hsends,hdone⟩
    rw [wpe_rejectIf]
    split_ifs with hfalse
    · trivial
    · have hcleared := hdone (by simpa using hfalse)
      exact placid_wpe listen_placid (fun _ => ⟨hsends.trans hs.sends,hcleared⟩) (fun _ => trivial)

theorem transacting_departs {ip : Vcl IpAddr} {await : Handle → Instant → Vcl Answer}
    (hip : Chosen ip k.peer source)
    (hk : k.origin = some (source.getD (wildcardFor k.peer.isIpv4))) (hq : k.payload = some query)
    (hawait : ∀ sh t, (await sh t).Calls Placid) :
    k.departing.wpe (transacting ip await k.peer query timeout) (fun _ s => s.sends = 1) Aground .init := by
  rw [transacting,Contract.wpe_bind]
  refine placid_wpe registerWorkerThread_placid (fun _ => ?_) (fun _ => trivial)
  rw [Contract.wpe_bind]
  refine created_departs ?_ (fun _ => trivial)
  intro sh s hs
  refine holding_wpe ?_
  rw [Contract.wpe_bind]
  refine Contract.wpe_mono _ (preparing_departs hip hk hs) ?_ (fun _ _ h => h)
  rintro _ s' ⟨hsends,hcleared⟩
  rw [conversing,Contract.wpe_bind]
  refine Contract.wpe_mono _ (sendto_departs hq hcleared hsends) ?_ (fun _ _ h => h)
  intro _ s'' hgone
  exact placid_wpe (calls_bind (calls_call trivial) (fun _ => hawait _ _)) (fun _ => hgone)
    (fun _ => trivial)

theorem probe_departs : (Outbound.probe peer).departing.wpe (probeLocalSource peer)
    (fun _ _ => True) Aground .init := by
  rw [probeLocalSource,Contract.wpe_bind]
  refine placid_wpe registerWorkerThread_placid (fun _ => ?_) (fun _ => trivial)
  rw [Contract.wpe_bind]
  refine created_departs ?_ (fun _ => trivial)
  intro sh s hs
  refine holding_wpe ?_
  have hbinds : s.binds + 8 ≤ 8 := by rw [hs.binds]; rfl
  rw [Contract.wpe_bind]
  refine Contract.wpe_mono _ (bindEphemeral_departs rfl (wildcardFor_isIpv4 _) hs.bound hbinds) ?_
    (fun _ _ h => h)
  rintro done s' ⟨-,hdone⟩
  rw [Contract.wpe_bind,wpe_rejectIf]
  split_ifs with hfalse
  · trivial
  · have hcleared := hdone (by simpa using hfalse)
    rw [Contract.wpe_bind]
    refine connect_departs rfl hcleared ?_ (fun _ => trivial)
    exact placid_wpe localAddr_placid (fun _ => trivial) (fun _ => trivial)

theorem bindSourceIp_departs (hk : k.origin = source) (hs : Slip.init.Fresh sh s) :
    k.departing.wpe (bindSourceIp sh k.peer source) (fun _ s' => k.Cleared s' sh) Aground s := by
  cases source with
  | none =>
    intro ip hip
    rw [hk] at hip
    cases hip
  | some ip =>
    have hbinds : s.binds + 8 ≤ 8 := by rw [hs.binds]; rfl
    rw [bindSourceIp,Contract.wpe_ite]
    split_ifs with hfamily
    · trivial
    · rw [Contract.wpe_bind]
      refine Contract.wpe_mono _ (bindEphemeral_departs hk (not_not.mp hfamily) hs.bound hbinds) ?_
        (fun _ _ h => h)
      rintro done s' ⟨-,hdone⟩
      rw [wpe_rejectIf]
      split_ifs with hfalse
      · trivial
      · exact hdone (by simpa using hfalse)

theorem exchangeSync_departs {vep : Handle} (hk : k.payload = none) (hs : k.Cleared s sh) :
    k.departing.wpe (exchangeSync sh vep k.peer query timeout) (fun _ _ => True) Aground s := by
  rw [exchangeSync,Contract.wpe_bind]
  refine startConnect_departs hk hs ?_ (fun _ => trivial)
  refine placid_wpe ?_ (fun _ => trivial) (fun _ => trivial)
  refine calls_bind (calls_call trivial) (fun start => ?_)
  refine calls_bind (ofExcept_calls _) (fun framed => ?_)
  refine calls_bind writeLoop_placid (fun _ => ?_)
  refine calls_bind readLoop_placid (fun lenbuf => ?_)
  exact calls_bind (ofExcept_calls _) (fun len => readLoop_placid)

theorem tcpSync_departs : (Outbound.tcpSync peer source query timeout).departing.wpe
    (queryTcpDnsSync peer source query timeout) (fun _ _ => True) Aground .init := by
  rw [queryTcpDnsSync,Contract.wpe_bind]
  refine placid_wpe registerWorkerThread_placid (fun _ => ?_) (fun _ => trivial)
  rw [Contract.wpe_bind]
  refine created_departs ?_ (fun _ => trivial)
  intro sh s hs
  refine holding_wpe ?_
  rw [Contract.wpe_bind]
  refine Contract.wpe_mono _ (bindSourceIp_departs rfl hs) ?_ (fun _ _ h => h)
  intro _ s' hcleared
  rw [Contract.wpe_bind]
  refine placid_wpe (calls_call trivial) (fun vep => ?_) (fun _ => trivial)
  rw [Contract.wpe_bind]
  refine placid_wpe (calls_rejectIf _) (fun _ => ?_) (fun _ => trivial)
  rw [Contract.wpe_bind]
  refine placid_wpe watchSession_placid (fun _ => ?_) (fun _ => trivial)
  exact holding_wpe (exchangeSync_departs rfl hcleared)

theorem connectAsync_departs {src : Option SocketAddr} {I : Slip → Prop} (hk : k.payload = none)
    (hI : ∀ s', s'.drawn = s.drawn → s'.binds = s.binds → I s')
    (hsrc : ∀ sh s', s.Fresh sh s' → k.departing.wpe (VclStream.bindSource sh src)
      (fun _ s'' => k.Cleared s'' sh ∧ I s'') (fun _ => I) s') :
    k.departing.wpe (VclStream.connectAsync k.peer src r timeout) (fun _ _ => True) (fun _ => I) s := by
  rw [VclStream.connectAsync,Contract.wpe_bind]
  refine placid_wpe registerWorkerThread_placid (fun _ => ?_) (fun _ => hI s rfl rfl)
  rw [Contract.wpe_bind]
  refine created_departs ?_ (fun _ => hI s rfl rfl)
  intro sh s' hs'
  rw [owning,Contract.wpe_onFail,Contract.wpe_bind]
  refine placid_wpe (calls_attempt setNodelay_placid) (fun _ => ?_) (fun _ => ?_)
  · rw [Contract.wpe_bind]
    refine Contract.wpe_mono _ (hsrc sh s' hs') ?_ ?_
    · rintro _ s'' ⟨hcleared,hheld⟩
      have hclosed (e : Stop) : k.departing.wpe (dropSession sh) (fun _ => I) (fun _ => I) s'' :=
        placid_wpe dropSession_placid (fun _ => hheld) (fun _ => hheld)
      rw [Contract.wpe_bind]
      refine placid_wpe register_placid (fun _ => ?_) hclosed
      rw [Contract.wpe_bind]
      refine startConnect_departs hk hcleared ?_ (fun e => hclosed (.err e))
      rw [Contract.wpe_bind]
      exact placid_wpe (Prog.calls_mono (fun _ => waits_placid) (waitWritable_calls _))
        (fun _ => trivial) hclosed
    · intro e s'' hheld
      exact placid_wpe dropSession_placid (fun _ => hheld) (fun _ => hheld)
  · have hheld := hI s' hs'.drawn hs'.binds
    exact placid_wpe dropSession_placid (fun _ => hheld) (fun _ => hheld)

theorem attempted_departs {ip : IpAddr} {port : ℕ} (hk : k.payload = none) (hip : k.origin = some ip)
    (hfamily : ip.isIpv4 = k.peer.isIpv4) (hbinds : s.binds < 8)
    (hport : portLow ≤ port ∧ port ≤ portHigh) (hdrawn : port ∈ s.drawn) :
    k.departing.wpe (VclStream.connectAsync k.peer (some (.new ip (.ofNat port))) r timeout)
      (fun _ _ => True) (fun _ s' => s.drawn.erase port ≤ s'.drawn ∧ s'.binds ≤ s.binds + 1) s := by
  refine connectAsync_departs hk ?_ ?_
  · intro s' hdrawn' hbinds'
    rw [hdrawn',hbinds']
    exact ⟨Multiset.erase_le ..,Nat.le_succ _⟩
  · intro sh s' hs'
    have hspent {s''} (h : s'.Spent port s'') :
        s.drawn.erase port ≤ s''.drawn ∧ s''.binds ≤ s.binds + 1 := by
      have hle := h.binds
      rw [hs'.binds] at hle
      rw [← hs'.drawn]
      exact ⟨h.drawn,hle⟩
    rw [← hs'.binds] at hbinds
    rw [← hs'.drawn] at hdrawn
    refine bind_departs hip hfamily hs'.bound hbinds hport hdrawn ?_ ?_
    · intro s'' h hcleared
      exact ⟨hcleared,hspent h⟩
    · intro e s'' h _
      exact hspent h

structure Slip.Holds (s : Slip) (ports : List ℕ) : Prop where
  drawn : (ports : Multiset ℕ) ≤ s.drawn
  binds : s.binds + ports.length ≤ 8
  range : ∀ port ∈ ports, portLow ≤ port ∧ port ≤ portHigh

theorem connectPorts_departs {ip : IpAddr} {started : Instant} {ports : List ℕ}
    {lastErr : Option VclError} (hk : k.payload = none) (hip : k.origin = some ip)
    (hfamily : ip.isIpv4 = k.peer.isIpv4) (hs : s.Holds ports) :
    k.departing.wpe (connectPorts k.peer ip r timeout started ports lastErr) (fun _ _ => True)
      Aground s := by
  induction ports generalizing s lastErr with
  | nil => trivial
  | cons port ports ih =>
    have hle : port ::ₘ (ports : Multiset ℕ) ≤ s.drawn := hs.drawn
    have hfew : s.binds + (ports.length + 1) ≤ 8 := hs.binds
    rw [connectPorts,Contract.wpe_bind]
    refine placid_wpe (calls_call trivial) (fun now => ?_) (fun _ => trivial)
    rw [Contract.wpe_ite]
    split_ifs with hlate
    · trivial
    · rw [Contract.wpe_bind,wpe_attempt]
      have hport := hs.range port (List.mem_cons_self ..)
      have hmem := Multiset.mem_of_le hle (Multiset.mem_cons_self ..)
      refine Contract.wpe_mono _ (attempted_departs hk hip hfamily (by omega) hport hmem)
        (fun _ _ _ => trivial) ?_
      rintro e s' ⟨hdrawn,hbinds⟩
      cases e with
      | dropped => trivial
      | err e =>
        refine ih ⟨?_,by omega,fun p hp => hs.range p (List.mem_cons_of_mem _ hp)⟩
        have herase := Multiset.erase_le_erase port hle
        rw [Multiset.erase_cons_head] at herase
        exact herase.trans hdrawn

structure Slip.Drew (s : Slip) (n : ℕ) (ports : List ℕ) (s' : Slip) : Prop where
  length : ports.length = n
  drawn : s.drawn + ports ≤ s'.drawn
  binds : s'.binds = s.binds
  range : ∀ port ∈ ports, portLow ≤ port ∧ port ≤ portHigh

theorem genPorts_departs {n : ℕ} : k.departing.wpe (genPorts n) (s.Drew n) Aground s := by
  induction n generalizing s with
  | zero => exact ⟨rfl,by simp,rfl,by simp⟩
  | succ n ih =>
    rw [genPorts,Contract.wpe_bind,Contract.wpe_call]
    intro port hport
    refine ⟨⟨rfl,rfl⟩,?_⟩
    rw [Contract.wpe_bind]
    refine Contract.wpe_mono _ ih ?_ (fun _ _ h => h)
    intro ports s' h
    refine ⟨congrArg (· + 1) h.length,?_,h.binds,List.forall_mem_cons.mpr ⟨hport,h.range⟩⟩
    rw [← Multiset.cons_coe,Multiset.add_cons,← Multiset.cons_add]
    exact h.drawn

theorem connectSource_departs {started : Instant} (hk : k.payload = none) (hsrc : k.origin = source)
    (hs : s.binds = 0) :
    k.departing.wpe (connectSource k.peer source r timeout started) (fun _ _ => True) Aground s := by
  cases source with
  | none =>
    refine connectAsync_departs hk (fun _ _ _ => trivial) ?_
    intro sh s' _
    refine ⟨?_,trivial⟩
    intro ip hip
    rw [hsrc] at hip
    cases hip
  | some ip =>
    rw [connectSource,Contract.wpe_ite]
    split_ifs with hfamily
    · trivial
    · rw [Contract.wpe_bind]
      refine Contract.wpe_mono _ genPorts_departs ?_ (fun _ _ h => h)
      intro ports s' h
      refine connectPorts_departs hk hsrc (not_not.mp hfamily) ⟨?_,?_,h.range⟩
      · exact (Multiset.le_add_left _ _).trans h.drawn
      · rw [h.binds,hs,h.length]

theorem tcpAsync_departs : (Outbound.tcpAsync peer source query r timeout).departing.wpe
    (queryTcpDnsAsync peer source query r timeout) (fun _ _ => True) Aground .init := by
  rw [queryTcpDnsAsync,Contract.wpe_bind]
  refine placid_wpe (calls_call trivial) (fun started => ?_) (fun _ => trivial)
  rw [Contract.wpe_bind]
  refine Contract.wpe_mono _ (connectSource_departs rfl rfl rfl) ?_ (fun _ _ h => h)
  intro st s _
  refine placid_wpe ?_ (fun _ => trivial) (fun _ => trivial)
  exact calls_ensuring exchange_placid (calls_bind deregister_placid (fun _ => dropSession_placid))

theorem code_departs : k.departing.wpe k.code k.Gone Aground .init := by
  cases k with
  | udpSync peer source query timeout =>
    rw [Outbound.code,queryUdpSync_eq]
    refine Contract.wpe_mono _ ?_ (fun _ _ hsent _ => hsent) (fun _ _ h => h)
    exact transacting_departs (k := .udpSync peer source query timeout) sourceIp_chosen rfl rfl
      (fun _ _ => awaitDatagram_placid)
  | udpSocket peer source query timeout =>
    rw [Outbound.code,once_eq]
    refine Contract.wpe_mono _ ?_ (fun _ _ hsent _ => hsent) (fun _ _ h => h)
    exact transacting_departs (k := .udpSocket peer source query timeout) familyIp_chosen rfl rfl
      (fun _ _ => awaiting_placid)
  | probe peer =>
    refine Contract.wpe_mono _ probe_departs ?_ (fun _ _ h => h)
    intro _ _ _ hno
    exact absurd rfl hno
  | tcpSync peer source query timeout =>
    refine Contract.wpe_mono _ tcpSync_departs ?_ (fun _ _ h => h)
    intro _ _ _ hno
    exact absurd rfl hno
  | tcpAsync peer source query reactor timeout =>
    refine Contract.wpe_mono _ tcpAsync_departs ?_ (fun _ _ h => h)
    intro _ _ _ hno
    exact absurd rfl hno

end Programs

section Discipline

variable [Platform] {k : Outbound} {s : Slip} {tr : List Ev}

def isBind : Ev → Bool
  | ⟨.sessionBind _ _,_⟩ => true
  | _ => false

def isSendto : Ev → Bool
  | ⟨.sessionSendto _ _ _,_⟩ => true
  | _ => false

def slip (tr : List Ev) : Slip := tr.foldl Slip.next .init

theorem next_binds (s : Slip) (e : Ev) : (s.next e).binds = s.binds + if isBind e then 1 else 0 := by
  obtain ⟨op,reply⟩ := e
  cases op <;> rfl

theorem next_sends (s : Slip) (e : Ev) : (s.next e).sends = s.sends + if isSendto e then 1 else 0 := by
  obtain ⟨op,reply⟩ := e
  cases op <;> rfl

theorem slip_counts (tr : List Ev) :
    (slip tr).binds = tr.countP isBind ∧ (slip tr).sends = tr.countP isSendto := by
  induction tr using List.reverseRecOn with
  | nil => exact ⟨rfl,rfl⟩
  | append_singleton tr e ih =>
    have hlast : slip (tr ++ [e]) = (slip tr).next e := by simp [slip]
    rw [hlast,next_binds,next_sends,ih.1,ih.2]
    simp [List.countP_append,List.countP_cons]

theorem permits_few {e : Ev} (hs : s.binds ≤ 8 ∧ s.sends ≤ 1) (h : k.Permits s e) :
    (s.next e).binds ≤ 8 ∧ (s.next e).sends ≤ 1 := by
  obtain ⟨op,reply⟩ := e
  cases op with
  | sessionBind sh ep => exact ⟨h.2.1,hs.2⟩
  | sessionSendto sh buf ep =>
    have hnone : s.sends = 0 := h.2.2.1
    exact ⟨hs.1,by change s.sends + 1 ≤ 1; omega⟩
  | _ => exact hs

structure Outbound.Disciplined (k : Outbound) (tr : List Ev)
    (rest : Prog Call Reply (Except Stop k.Result)) : Prop where
  permitted : ∀ pre e post, tr = pre ++ e :: post → k.Permits (slip pre) e
  few : tr.countP isBind ≤ 8 ∧ tr.countP isSendto ≤ 1
  answered : ∀ a, rest.Returns (.ok a) → k.payload ≠ none → tr.countP isSendto = 1

end Discipline

section Refused

def portTaken : ℕ → (c : Call) → Reply c
  | i, .genRange low _ => low + i
  | 13, .sessionBind _ _ => (-98 : Int)
  | _, c => obliging c

def insider : Outbound := .tcpAsync (.v4 (.replicate 4 9) 53) (some (.v4 (.replicate 4 7))) [1] ⟨2⟩ (secs 5)

end Refused

end VclRs
