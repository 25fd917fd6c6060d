import VclRs.Interaction.Erasure
import VclRs.Datagrams.Answers
import VclRs.Strays

namespace VclRs

open Interaction Fallible

section Programs

variable [Platform]

def VclUdpSyncSocket.once (peer : SocketAddr) (source : Option IpAddr) (query : List UInt8)
    (timeout : Duration) : Vcl Answer := do
  let u ← VclUdpSyncSocket.bind source (!peer.isIpv4)
  (u.query peer query timeout).ensuring u.drop

def preparing (ip : Vcl IpAddr) (handle : Handle) : Vcl Unit := do
  let bindIp ← ip
  let bound ← bindEphemeral handle bindIp 8
  rejectIf (bound = false) (.api "ephemeral bind exhausted" (-1))
  listen handle 0

def conversing (await : Handle → Instant → Vcl Answer) (peer : SocketAddr) (query : List UInt8)
    (timeout : Duration) (handle : Handle) : Vcl Answer := do
  let _ ← sendto handle query peer
  let start ← instantNow
  await handle (start + timeout)

def transacting (ip : Vcl IpAddr) (await : Handle → Instant → Vcl Answer) (peer : SocketAddr)
    (query : List UInt8) (timeout : Duration) : Vcl Answer := do
  registerWorkerThread
  let handle ← createUdp true
  holding handle (do
    preparing ip handle
    conversing await peer query timeout handle)

def pausing (deadline : Instant) (e : VclError) : Vcl Unit :=
  if e = .wouldBlock then do
    let now ← instantNow
    rejectIf (deadline ≤ now) .timeout
    ffi (.sleep (millis 5))
  else err e

def accepting (deadline : Instant) (buf : List UInt8) :
    Except VclError Delivered → Vcl (List UInt8 ⊕ Answer)
  | .ok x => pure (.inr (x.2.take x.1.1,x.1.2))
  | .error e => do
    pausing deadline e
    pure (.inl buf)

variable {peer : SocketAddr} {source : Option IpAddr} {query : List UInt8} {timeout : Duration}
variable {deadline : Instant} {buf : List UInt8} {sh : Handle}

omit [Platform] in
theorem sift_error (e : VclError) : sift peer deadline buf (.error e) = (do
    pausing deadline e
    pure (.inl buf)) := by
  rw [sift,pausing]
  split_ifs with h
  · simp only [Fallible.bind_assoc]
  · rfl

theorem awaitDatagram_eq : awaitDatagram sh deadline = Fallible.loop
    (fun buf => attempt (recvfrom sh buf) >>= accepting deadline buf) (List.replicate 4096 0) := by
  rw [awaitDatagram]
  congr 1
  funext buf
  refine congrArg (attempt (recvfrom sh buf) >>= ·) ?_
  funext x
  cases x with
  | ok x => rfl
  | error e =>
    rw [accepting,pausing]
    change (if e = .wouldBlock then _ else _) = _
    split_ifs with h
    · simp only [Fallible.bind_assoc]
    · rfl

theorem queryUdpSync_eq : queryUdpSync peer source query timeout =
    transacting (sourceIp source peer) awaitDatagram peer query timeout := by
  simp only [queryUdpSync,transacting,preparing,conversing,Fallible.bind_assoc]

theorem once_eq : VclUdpSyncSocket.once peer source query timeout =
    transacting (VclUdpSyncSocket.familyIp source (!peer.isIpv4)) (fun sh => awaiting ⟨sh⟩ peer) peer
      query timeout := by
  simp only [VclUdpSyncSocket.once,VclUdpSyncSocket.bind,transacting,Fallible.bind_assoc]
  refine congrArg (registerWorkerThread >>= ·) ?_
  funext _
  refine congrArg (createUdp true >>= ·) ?_
  funext sh
  have hprepare : (do
      let bindIp ← VclUdpSyncSocket.familyIp source (!peer.isIpv4)
      let bound ← bindEphemeral sh bindIp 8
      rejectIf (bound = false) (.api "ephemeral bind exhausted" (-1))
      listen sh 0
      pure (⟨sh⟩ : VclUdpSyncSocket)) = preparing (VclUdpSyncSocket.familyIp source (!peer.isIpv4)) sh >>=
        fun _ => pure ⟨sh⟩ := by
    simp only [preparing,Fallible.bind_assoc]
  rw [owning,hprepare,Veil.onFail_retain]
  exact Veil.onFail_bind

end Programs

section Deaf

variable {V : Veil Call Reply} {sh : Handle}

def Discreet (V : Veil Call Reply) : Prop := ∀ e, ¬ receives e.op → V.hides e = false

theorem mimics_deaf {α : Type} {x : Vcl α} (hV : Discreet V) (hx : x.Calls (fun c => ¬ receives c)) :
    V.Mimics x.prog x.prog Eq := Veil.mimics_self (fun e he => hV e he) hx

theorem dropSession_deaf : (dropSession sh).Calls (fun c => ¬ receives c) :=
  dropSession_calls id

theorem register_deaf : registerWorkerThread.Calls (fun c => ¬ receives c) := by
  refine Prog.calls_mono ?_ registerWorkerThread_calls
  rintro _ ⟨⟩ <;> exact id

theorem configures_deaf {c : Call} (h : Configures sh c) : ¬ receives c := by
  cases h <;> exact id

end Deaf

section Veils

variable [Platform]

def Fits : Ev → Prop
  | ⟨.sessionRecvfrom _ n,(rc,data,_)⟩ => ¬rc < 0 → data.length = rc.toNat ∧ data.length ≤ n
  | _ => True

def foreign (peer : SocketAddr) : Ev → Bool
  | ⟨.sessionRecvfrom _ _,(rc,_,ep)⟩ => decide (¬rc < 0 ∧ (addrFromEndpoint ep).ip ≠ peer.ip)
  | _ => false

def discarding (peer : SocketAddr) : Veil Call Reply := ⟨Fits,foreign peer⟩

def addressed (peer : SocketAddr) : Veil Call Reply := ⟨fun e => Fits e ∧ foreign peer e = false,fun _ => false⟩

inductive Alike (source : Option IpAddr) (peer : SocketAddr) :
    Except Stop Answer → Except Stop Answer → Prop
  | same (r : Except Stop Answer) : Alike source peer r r
  | mismatched {ip : IpAddr} (hs : source = some ip) (hf : ip.isIpv4 ≠ peer.isIpv4) :
    Alike source peer
      (.error (.err (.api s!"source {ip.display} family doesn't match is_v6={!peer.isIpv4}" (-1))))
      (.error (.err (.api (s!"source IP family ({ip.display}) doesn't match peer family " ++
        s!"({peer.display})") (-1))))

variable {V : Veil Call Reply} {peer : SocketAddr} {source : Option IpAddr} {query : List UInt8}
variable {timeout : Duration} {deadline : Instant} {buf buf' : List UInt8} {sh : Handle}
variable {R : Except Stop Answer → Except Stop Answer → Prop}

theorem preparing_deaf (ip : IpAddr) : (preparing (pure ip) sh).Calls (fun c => ¬ receives c) := by
  change (bindEphemeral sh ip 8 >>= _).Calls _
  refine calls_bind (Prog.calls_mono ?_ (bindEphemeral_calls ip 8)) (fun _ => ?_)
  · rintro c (⟨low,high⟩ | hc)
    · exact id
    · exact configures_deaf hc
  · exact calls_bind (calls_rejectIf _) (fun _ => Prog.calls_mono (fun _ => configures_deaf) (listen_calls 0))

theorem conversing_mimics (hV : Discreet V) (hR : ∀ e, R (.error e) (.error e))
    {await await' : Handle → Instant → Vcl Answer}
    (hawait : ∀ deadline, V.Mimics (await sh deadline).prog (await' sh deadline).prog R) :
    V.Mimics (conversing await peer query timeout sh).prog
      (conversing await' peer query timeout sh).prog R := by
  have hsend : (sendto sh query peer).Calls (fun c => ¬ receives c) :=
    calls_bind (calls_call id)
      (fun _ => calls_bind (checkRc_calls _) (fun _ => calls_pure _))
  have hnow : instantNow.Calls (fun c => ¬ receives c) := calls_call id
  refine Veil.mimics_then (mimics_deaf hV hsend) (fun _ => ?_) hR
  exact Veil.mimics_then (mimics_deaf hV hnow) (fun start => hawait _) hR

theorem transacting_mimics (hV : Discreet V) (hR : ∀ e, R (.error e) (.error e)) {ip ip' : Vcl IpAddr}
    {await await' : Handle → Instant → Vcl Answer}
    (hip : (∃ a, ip = pure a ∧ ip' = pure a) ∨
      ∃ e e', ip = err e ∧ ip' = err e' ∧ R (.error (.err e)) (.error (.err e')))
    (hawait : ∀ sh deadline, V.Mimics (await sh deadline).prog (await' sh deadline).prog R) :
    V.Mimics (transacting ip await peer query timeout).prog
      (transacting ip' await' peer query timeout).prog R := by
  have hcreate : (createUdp true).Calls (fun c => ¬ receives c) := createUdp_calls id
  refine Veil.mimics_then (mimics_deaf hV register_deaf) (fun _ => ?_) hR
  refine Veil.mimics_then (mimics_deaf hV hcreate) (fun sh => ?_) hR
  refine Veil.mimics_ensuring ?_ (mimics_deaf hV dropSession_deaf) hR
  rcases hip with ⟨a,rfl,rfl⟩ | ⟨e,e',rfl,rfl,he⟩
  · refine Veil.mimics_then (mimics_deaf hV (preparing_deaf a)) (fun _ => ?_) hR
    exact conversing_mimics hV hR (hawait sh)
  · exact Veil.mimics_ret he

omit [Platform] in
theorem families (source : Option IpAddr) (peer : SocketAddr) :
    (∃ a, VclUdpSyncSocket.familyIp source (!peer.isIpv4) = pure a ∧ sourceIp source peer = pure a) ∨
      ∃ e e', VclUdpSyncSocket.familyIp source (!peer.isIpv4) = err e ∧ sourceIp source peer = err e' ∧
        Alike source peer (.error (.err e)) (.error (.err e')) := by
  cases source with
  | none =>
    refine .inl ⟨wildcardFor peer.isIpv4,?_,rfl⟩
    cases peer.isIpv4 <;> rfl
  | some ip =>
    by_cases hf : ip.isIpv4 = peer.isIpv4
    · refine .inl ⟨ip,?_,if_neg (not_not.mpr hf)⟩
      rw [← hf]
      cases ip <;> rfl
    · refine .inr ⟨_,_,?_,if_pos hf,.mismatched rfl hf⟩
      cases ip <;> cases hp : peer.isIpv4 <;> simp_all [IpAddr.isIpv4,VclUdpSyncSocket.familyIp]

theorem reception_run {α : Type} {F : Except VclError Delivered → Vcl α} {tr : List Ev}
    {r : Except Stop α} : (attempt (recvfrom sh buf) >>= F).Run tr r ↔
      ∃ y tr', tr = ⟨.sessionRecvfrom sh (asU32 buf.length),y⟩ :: tr' ∧ (F (verdict buf y)).Run tr' r := by
  have hprog : (attempt (recvfrom sh buf) >>= F).prog =
      .call (.sessionRecvfrom sh (asU32 buf.length)) (fun y => (F (verdict buf y)).prog) := by
    change (attempt (recvfrom sh buf)).prog.bind _ = _
    rw [recvfrom_prog]
    rfl
  rw [Fallible.Run,hprog]
  constructor
  · intro h
    cases h with
    | call y h => exact ⟨y,_,rfl,h⟩
  · rintro ⟨y,tr',rfl,h⟩
    exact .call y h

theorem sift_own {y : Received} {n : ℕ} (h : foreign peer ⟨.sessionRecvfrom sh n,y⟩ = false) :
    sift peer deadline buf (verdict buf y) = accepting deadline buf (verdict buf y) := by
  by_cases hrc : y.1 < 0
  · rw [verdict_refused hrc,sift_error]
    rfl
  · have hip : ¬(addrFromEndpoint y.2.2).ip ≠ peer.ip := by
      intro hne
      exact (of_decide_eq_false h) ⟨hrc,hne⟩
    rw [verdict_taken hrc]
    exact if_neg hip

def Scratches (buf buf' : List UInt8) : Prop := buf.length = 4096 ∧ buf'.length = 4096

theorem accepting_turned {y : Received} {tr : List Ev} {x : Except Stop (List UInt8 ⊕ Answer)}
    (hR : ∀ r, R r r) (hbuf : Scratches buf buf')
    (hfits : ¬y.1 < 0 → y.2.1.length = y.1.toNat ∧ y.2.1.length ≤ 4096)
    (h : (accepting deadline buf (verdict buf y)).Run tr x) :
    ∃ x', (accepting deadline buf' (verdict buf' y)).Run tr x' ∧ Veil.Turned Scratches R x x' := by
  by_cases hrc : y.1 < 0
  · rw [verdict_refused hrc] at h ⊢
    rcases run_bind_cases h with ⟨tr₁,tr₂,_,rfl,hpause,hpure⟩ | ⟨e,hpause,rfl⟩
    · cases hpure with
      | ret => exact ⟨_,run_bind hpause (run_pure _),.again hbuf⟩
    · exact ⟨_,run_bind_error hpause,.failed (hR _)⟩
  · obtain ⟨hlen,hle⟩ := hfits hrc
    rw [verdict_taken hrc] at h ⊢
    cases h with
    | ret =>
      refine ⟨_,run_pure _,.done ?_⟩
      have htake : ∀ buf : List UInt8, buf.length = 4096 →
          (handed buf y).2.take (handed buf y).1.1 = y.2.1 := by
        intro buf hbuf
        change (patch buf y.2.1).take y.1.toNat = y.2.1
        rw [← hlen]
        exact take_patch (by rw [hbuf]; exact hle)
      rw [htake buf hbuf.1,htake buf' hbuf.2]
      exact hR _

omit [Platform] in
theorem pausing_deaf (e : VclError) : (pausing deadline e).Calls (fun c => ¬ receives c) := by
  refine calls_ite ?_ (calls_fail _)
  refine calls_bind (calls_call id) (fun _ => ?_)
  exact calls_bind (calls_rejectIf _) (fun _ => calls_call id)

omit [Platform] in
theorem accepting_deaf (v : Except VclError Delivered) :
    (accepting deadline buf v).Calls (fun c => ¬ receives c) := by
  cases v with
  | ok x => exact calls_pure _
  | error e => exact calls_bind (pausing_deaf e) (fun _ => calls_pure _)

omit [Platform] in
theorem fits_received (sh : Handle) {y : Received} (hbuf : buf.length = 4096)
    (h : Fits ⟨.sessionRecvfrom sh (asU32 buf.length),y⟩) (hrc : ¬y.1 < 0) :
    y.2.1.length = y.1.toNat ∧ y.2.1.length ≤ 4096 := by
  rw [hbuf] at h
  exact h hrc

theorem discarding_discreet : Discreet (discarding peer) := by
  rintro ⟨op,reply⟩ h
  cases op <;> first | rfl | exact (h trivial).elim

theorem awaiting_mimics (hR : ∀ r, R r r) : (discarding peer).Mimics (awaiting ⟨sh⟩ peer deadline).prog
    (awaitDatagram sh deadline).prog R := by
  rw [awaitDatagram_eq]
  refine Veil.mimics_loop Scratches ?_ ⟨List.length_replicate ..,List.length_replicate ..⟩
  intro buf buf' hbuf tr x hrun hrel
  obtain ⟨y,tr',rfl,hrest⟩ := reception_run.mp hrun
  obtain ⟨hfits,hrel⟩ := List.forall_mem_cons.mp hrel
  cases hforeign : foreign peer ⟨.sessionRecvfrom sh (asU32 buf.length),y⟩ with
  | true =>
    obtain ⟨hrc,hip⟩ := of_decide_eq_true hforeign
    have hsift : sift peer deadline buf (verdict buf y) = pure (.inl (patch buf y.2.1)) := by
      rw [verdict_taken hrc]
      exact if_pos hip
    rw [hsift] at hrest
    cases hrest with
    | ret => exact .inl ⟨_,rfl,Veil.seen_cons_hidden hforeign [],(patch_length _ _).trans hbuf.1,hbuf.2⟩
  | false =>
    rw [sift_own hforeign] at hrest
    have hshown : (discarding peer).seen tr' = tr' := Veil.seen_shown (fun e he =>
      discarding_discreet e (Prog.calls_run (accepting_deaf _) hrest e he))
    obtain ⟨x',hrun',hturn⟩ := accepting_turned hR hbuf (fits_received sh hbuf.1 hfits) hrest
    refine .inr ⟨x',?_,hturn⟩
    rw [Veil.seen_cons_shown hforeign,hshown,hbuf.1,← hbuf.2]
    exact reception_run.mpr ⟨y,tr',rfl,hrun'⟩

theorem awaitDatagram_mimics (hR : ∀ r, R r r) : (addressed peer).Mimics
    (awaitDatagram sh deadline).prog (awaiting ⟨sh⟩ peer deadline).prog R := by
  rw [awaitDatagram_eq]
  refine Veil.mimics_loop Scratches ?_ ⟨List.length_replicate ..,List.length_replicate ..⟩
  intro buf buf' hbuf tr x hrun hrel
  obtain ⟨y,tr',rfl,hrest⟩ := reception_run.mp hrun
  obtain ⟨⟨hfits,hforeign⟩,hrel⟩ := List.forall_mem_cons.mp hrel
  obtain ⟨x',hrun',hturn⟩ := accepting_turned hR hbuf (fits_received sh hbuf.1 hfits) hrest
  refine .inr ⟨x',?_,hturn⟩
  rw [Veil.seen_shown (fun _ _ => rfl)]
  refine reception_run.mpr ⟨y,tr',?_,?_⟩
  · rw [hbuf.1,hbuf.2]
  · rw [sift_own hforeign]
    exact hrun'

theorem once_erases (peer : SocketAddr) (source : Option IpAddr) (query : List UInt8)
    (timeout : Duration) :
    (∀ tr r, (VclUdpSyncSocket.once peer source query timeout).Run tr r → (∀ e ∈ tr, Fits e) →
      ∃ r', (queryUdpSync peer source query timeout).Run (tr.filter (fun e => !foreign peer e)) r' ∧
        Alike source peer r r') ∧
    ∀ tr r', (queryUdpSync peer source query timeout).Run tr r' →
      (∀ e ∈ tr, Fits e ∧ foreign peer e = false) →
      ∃ r, (VclUdpSyncSocket.once peer source query timeout).Run tr r ∧ Alike source peer r r' := by
  rw [once_eq,queryUdpSync_eq]
  have hfamilies := families source peer
  constructor
  · have hmimics : (discarding peer).Mimics
        (transacting (VclUdpSyncSocket.familyIp source (!peer.isIpv4)) (fun sh => awaiting ⟨sh⟩ peer) peer
          query timeout).prog
        (transacting (sourceIp source peer) awaitDatagram peer query timeout).prog (Alike source peer) :=
      transacting_mimics discarding_discreet (fun e => .same (.error e)) hfamilies
        (fun _ _ => awaiting_mimics .same)
    exact hmimics
  · have hswapped : (∃ a, sourceIp source peer = pure a ∧
          VclUdpSyncSocket.familyIp source (!peer.isIpv4) = pure a) ∨
        ∃ e' e, sourceIp source peer = err e' ∧
          VclUdpSyncSocket.familyIp source (!peer.isIpv4) = err e ∧
            Alike source peer (.error (.err e)) (.error (.err e')) := by
      rcases hfamilies with ⟨a,ha,ha'⟩ | ⟨e,e',he,he',halike⟩
      · exact .inl ⟨a,ha',ha⟩
      · exact .inr ⟨e',e,he',he,halike⟩
    have hmimics : (addressed peer).Mimics
        (transacting (sourceIp source peer) awaitDatagram peer query timeout).prog
        (transacting (VclUdpSyncSocket.familyIp source (!peer.isIpv4)) (fun sh => awaiting ⟨sh⟩ peer) peer
          query timeout).prog (fun r' r => Alike source peer r r') :=
      transacting_mimics (fun _ _ => rfl) (fun e => .same (.error e)) hswapped
        (fun _ _ => awaitDatagram_mimics .same)
    intro tr r' hrun hrel
    obtain ⟨r,hr,halike⟩ := hmimics tr r' hrun hrel
    rw [Veil.seen_shown (fun _ _ => rfl)] at hr
    exact ⟨r,hr,halike⟩

end Veils

section Late

set_option maxRecDepth 20000

def strayThenReply : ℕ → (c : Call) → Reply c
  | 7, .sessionRecvfrom _ _ => ((1 : Int),[5],@endpointIntoBuf host (.new .unspecifiedV4 9) zeroed)
  | _, .sessionRecvfrom _ _ => ((1 : Int),[9],@endpointIntoBuf host nameserver zeroed)
  | _, c => obliging c

theorem once_erases_stray : ∃ tr, (@VclUdpSyncSocket.once host nameserver none [1] 5).Run tr
    (.ok ([9],nameserver)) ∧ (tr.filter (@foreign host nameserver)).length = 1 ∧
      ∃ r', (@queryUdpSync host nameserver none [1] 5).Run
        (tr.filter (fun e => !@foreign host nameserver e)) r' ∧
          Alike none nameserver (.ok ([9],nameserver)) r' := by
  let _ := host
  let tr : List Ev := [⟨.registeredGet,true⟩,⟨.sessionCreate .udp true,(1 : Int)⟩,
    ⟨.genRange portLow portHigh,portLow⟩,
    ⟨.sessionBind 1 (endpointIntoBuf (.new .unspecifiedV4 32768) zeroed),(0 : Int)⟩,
    ⟨.sessionListen 1 0,(0 : Int)⟩,⟨.sessionSendto 1 [1] (endpointIntoBuf nameserver zeroed),(1 : Int)⟩,
    ⟨.instantNow,(0 : ℕ)⟩,
    ⟨.sessionRecvfrom 1 4096,((1 : Int),[5],endpointIntoBuf (.new .unspecifiedV4 9) zeroed)⟩,
    ⟨.sessionRecvfrom 1 4096,((1 : Int),[9],endpointIntoBuf nameserver zeroed)⟩,
    ⟨.sessionClose 1,(0 : Int)⟩]
  have hrun : (VclUdpSyncSocket.once nameserver none [1] 5).Run tr (.ok ([9],nameserver)) :=
    Prog.exec_run (fun n o => (strayThenReply n o,n + 1)) 3 _ 0 10 _ _ rfl
  have hfits : ∀ e ∈ tr, Fits e := by
    simp [tr,Fits]
  exact ⟨tr,hrun,by decide +kernel,(once_erases nameserver none [1] 5).1 tr _ hrun hfits⟩

end Late

end VclRs
