import VclRs.Workers.Roster
import VclRs.World
import VclRs.Schedule

namespace VclRs

open Interaction Fallible

section Entries

variable [Platform] {home : Thread} {s : Roster} {α : Type} {sh : Handle}
variable {Q : α → Roster → Prop} {E : Stop → Roster → Prop}

theorem localAddr_ordinary : (localAddr sh).Calls Ordinary := by
  apply Prog.calls_mono _ (addrAttr_calls .getLclAddr)
  intro c hc
  cases hc
  trivial

theorem verifyBindOrErr_ordinary (requested : SocketAddr) :
    (verifyBindOrErr sh requested).Calls Ordinary := by
  have hquery : (queryBound sh requested).Calls Ordinary := by
    refine calls_bind (calls_attempt localAddr_ordinary) ?_
    intro x
    cases x with
    | ok a => exact calls_pure _
    | error e => exact calls_err _
  refine calls_bind (calls_call trivial) (fun vep => ?_)
  refine calls_bind (calls_rejectIf _) (fun _ => ?_)
  refine calls_bind (watchSession_ordinary _) (fun _ => ?_)
  refine calls_bind (calls_call trivial) (fun start => ?_)
  refine calls_bind (drainFor_ordinary _) (fun _ => ?_)
  refine calls_bind (calls_call trivial) (fun _ => ?_)
  exact calls_bind (owning_calls hquery trivial) (fun _ => calls_rejectIf _)

theorem register_ordinary (r : VclReactor) : (r.register sh).Calls Ordinary :=
  calls_bind (calls_call trivial) (fun _ => checkRc_calls _)

theorem bound_ordinary {addr : SocketAddr} {backlog : ℕ} {r : VclReactor} (x : α) :
    Fallible.Calls Ordinary (owning sh (do
      bind sh addr
      listen sh backlog
      verifyBindOrErr sh addr
      r.register sh
      pure x)) := by
  refine owning_calls ?_ trivial
  refine calls_bind (configured (bind_calls addr)) (fun _ => ?_)
  refine calls_bind (configured (listen_calls backlog)) (fun _ => ?_)
  refine calls_bind (verifyBindOrErr_ordinary addr) (fun _ => ?_)
  exact calls_bind (register_ordinary r) (fun _ => calls_pure _)

theorem bindEphemeral_ordinary (ip : IpAddr) (n : ℕ) : (bindEphemeral sh ip n).Calls Ordinary :=
  Prog.calls_mono (fun _ => bindings_ordinary) (bindEphemeral_calls ip n)

theorem created_workers {proto : Proto} {nonblocking : Bool} {Q : Handle → Roster → Prop}
    (hs : Registered home s) (hQ : ∀ a s', Answered home s' → Q a s')
    (hE : ∀ e s', Answered home s' → E e s') :
    (workers home).wpe (created proto nonblocking) Q E s := by
  rw [created,Contract.wpe_bind]
  apply create_workers hs
  intro rc s' hs'
  exact ordinary_wpe (calls_bind (checkRc_calls _) (fun _ => calls_pure _)) hs' hQ hE

theorem over_workers {proto : Proto} {nonblocking : Bool} {rest : Handle → Vcl α}
    (hs : Pending home s) (hrest : ∀ sh, (rest sh).Calls Ordinary) : (workers home).wpe (do
      registerWorkerThread
      let handle ← created proto nonblocking
      rest handle) (fun _ => Answered home) (fun _ => Answered home) s := by
  rw [Contract.wpe_bind]
  apply registerWorkerThread_workers hs
  intro s' hs'
  rw [Contract.wpe_bind]
  apply created_workers hs'
  · intro sh s'' hs''
    exact ordinary_wpe (hrest sh) hs'' (fun _ _ h => h) (fun _ _ h => h)
  · intro e s'' hs''
    exact hs''

theorem overTcp_workers {nonblocking : Bool} {rest : Handle → Vcl α} (hs : Pending home s)
    (hrest : ∀ sh, (rest sh).Calls Ordinary) : (workers home).wpe (do
      registerWorkerThread
      let handle ← createTcp nonblocking
      rest handle) (fun _ => Answered home) (fun _ => Answered home) s := over_workers hs hrest

theorem overUdp_workers {nonblocking : Bool} {rest : Handle → Vcl α} (hs : Pending home s)
    (hrest : ∀ sh, (rest sh).Calls Ordinary) : (workers home).wpe (do
      registerWorkerThread
      let handle ← createUdp nonblocking
      rest handle) (fun _ => Answered home) (fun _ => Answered home) s := over_workers hs hrest

theorem connectAsync_workers {addr : SocketAddr} {source : Option SocketAddr} {r : VclReactor}
    {timeout : Duration} (hs : Pending home s) :
    (workers home).wpe (VclStream.connectAsync addr source r timeout) (fun _ => Answered home)
      (fun _ => Answered home) s := by
  rw [VclStream.connectAsync_eq]
  apply overTcp_workers hs
  intro sh
  refine owning_calls ?_ trivial
  refine calls_bind (dial_calls (fun _ => configures_ordinary) trivial) (fun _ => ?_)
  refine calls_bind ?_ (fun _ => calls_pure _)
  have hwait : (r.waitWritable sh timeout).Calls (Waits r.vep sh) := waitWritable_calls timeout
  exact Prog.calls_mono (fun _ => waits_ordinary) hwait

theorem queryTcpDnsSync_workers {peer : SocketAddr} {source : Option IpAddr} {query : List UInt8}
    {timeout : Duration} (hs : Pending home s) :
    (workers home).wpe (queryTcpDnsSync peer source query timeout) (fun _ => Answered home)
      (fun _ => Answered home) s := by
  apply overTcp_workers hs
  intro sh
  have hsource : (bindSourceIp sh peer source).Calls Ordinary :=
    Prog.calls_mono (fun _ => bindings_ordinary) (bindSourceIp_calls peer source)
  refine holding_ordinary ?_
  refine calls_bind hsource (fun _ => ?_)
  refine calls_bind (calls_call trivial) (fun vep => ?_)
  refine calls_bind (calls_rejectIf _) (fun _ => ?_)
  refine calls_bind (watchSession_ordinary _) (fun _ => ?_)
  exact holding_ordinary
    (Prog.calls_mono (fun _ => converses_ordinary) (exchangeSync_calls peer query timeout))

theorem queryUdpSync_workers {peer : SocketAddr} {source : Option IpAddr} {query : List UInt8}
    {timeout : Duration} (hs : Pending home s) :
    (workers home).wpe (queryUdpSync peer source query timeout) (fun _ => Answered home)
      (fun _ => Answered home) s := by
  apply overUdp_workers hs
  intro sh
  have hsend : (sendto sh query peer).Calls Ordinary :=
    Prog.calls_mono (fun _ => transfers_ordinary) (sendto_calls query peer)
  refine holding_ordinary ?_
  refine calls_bind (sourceIp_calls source peer) (fun ip => ?_)
  refine calls_bind (bindEphemeral_ordinary ip 8) (fun _ => ?_)
  refine calls_bind (calls_rejectIf _) (fun _ => ?_)
  refine calls_bind (configured (listen_calls 0)) (fun _ => ?_)
  refine calls_bind hsend (fun _ => ?_)
  refine calls_bind (calls_call trivial) (fun start => ?_)
  have hawait : (awaitDatagram sh (start + timeout)).Calls (Converses 0 sh) := awaitDatagram_calls _
  exact Prog.calls_mono (fun _ => converses_ordinary) hawait

theorem probeLocalSource_workers {peer : SocketAddr} (hs : Pending home s) :
    (workers home).wpe (probeLocalSource peer) (fun _ => Answered home)
      (fun _ => Answered home) s := by
  apply overUdp_workers hs
  intro sh
  refine holding_ordinary ?_
  refine calls_bind (bindEphemeral_ordinary _ 8) (fun _ => ?_)
  refine calls_bind (calls_rejectIf _) (fun _ => ?_)
  exact calls_bind (configured (connect_calls peer)) (fun _ => localAddr_ordinary)

theorem udpBind_workers {source : Option IpAddr} {isV6 : Bool} (hs : Pending home s) :
    (workers home).wpe (VclUdpSyncSocket.bind source isV6) (fun _ => Answered home)
      (fun _ => Answered home) s := by
  apply overUdp_workers hs
  intro sh
  refine owning_calls ?_ trivial
  refine calls_bind (familyIp_calls source isV6) (fun ip => ?_)
  refine calls_bind (bindEphemeral_ordinary ip 8) (fun _ => ?_)
  refine calls_bind (calls_rejectIf _) (fun _ => ?_)
  exact calls_bind (configured (listen_calls 0)) (fun _ => calls_pure _)

theorem blockingConnect_workers {addr : SocketAddr} (hs : Pending home s) :
    (workers home).wpe (VclStream.blockingConnect addr) (fun _ => Answered home)
      (fun _ => Answered home) s := by
  rw [VclStream.blockingConnect,Contract.wpe_bind]
  apply registerWorkerThread_workers hs
  intro s' hs'
  rw [Contract.wpe_bind]
  apply create_workers hs'
  intro rc s'' hs''
  refine ordinary_wpe ?_ hs'' (fun _ _ h => h) (fun _ _ h => h)
  refine calls_bind (checkRc_calls _) (fun _ => ?_)
  refine calls_bind (calls_call trivial) (fun rc' => ?_)
  exact calls_ite (calls_bind (calls_call trivial) (fun _ => calls_err _)) (calls_pure _)

theorem connect_workers {addr : SocketAddr} {source : Option SocketAddr} {timeout : Duration}
    {r : VclReactor} (hs : Pending home s) :
    (workers home).wpe (VclStream.connect addr source timeout r) (fun _ => Answered home)
      (fun _ => Answered home) s := by
  have hnodelay (sh : Handle) : (attempt (setNodelay sh)).Calls Ordinary :=
    calls_attempt (configured setNodelay_calls)
  rw [VclStream.connect,Contract.wpe_bind]
  apply registerWorkerThread_workers hs
  intro s₁ hs₁
  rw [Contract.wpe_bind]
  apply created_workers hs₁
  · intro orig s₂ hs₂
    have hclose (e : Stop) (s' : Roster) (hs' : Answered home s') :
        (workers home).wpe (dropSession orig) (fun _ => Answered home) (fun _ => Answered home) s' :=
      ordinary_wpe (dropSession_calls trivial) hs' (fun _ _ h => h) (fun _ _ h => h)
    rw [Contract.wpe_bind,owning,Contract.wpe_onFail,Contract.wpe_bind]
    apply ordinary_wpe (hnodelay orig) hs₂ _ hclose
    intro _ s₃ hs₃
    rw [Contract.wpe_bind]
    apply ordinary_wpe (configured (bindSource_calls source)) hs₃ _ hclose
    intro _ s₄ hs₄
    apply (workers home).wpe_mono (spawnBlocking_workers hs₄ (fun _ => blockingConnect_workers))
    · intro sh s₅ hs₅
      exact ordinary_wpe (calls_bind (hnodelay sh) (fun _ => calls_pure _)) hs₅ (fun _ _ h => h)
        (fun _ _ h => h)
    · exact hclose
  · intro e s₂ hs₂
    exact hs₂

end Entries

def Api.registers : Api → Prop
  | .listenerBind _ _ => True
  | .dgramBind _ _ => True
  | .streamConnect _ _ _ _ => True
  | .streamConnectAsync _ _ _ _ => True
  | .queryTcpDnsSync _ _ _ _ => True
  | .queryUdpSync _ _ _ _ => True
  | .probeLocalSource _ => True
  | .udpBind _ _ => True
  | _ => False

section Guard

variable {home : Thread}

theorem giving_workers {α : Type} {x : Vcl α} {f : α → Obj} {s : Roster}
    (h : (workers home).wpe x (fun _ => Answered home) (fun _ => Answered home) s) :
    (workers home).wpe (giving x f) (fun _ => Answered home) (fun _ => Answered home) s := by
  rw [giving,Contract.wpe_bind]
  exact h

theorem serving_workers {α : Type} {x : Vcl α} {s : Roster}
    (h : (workers home).wpe x (fun _ => Answered home) (fun _ => Answered home) s) :
    (workers home).wpe (serving x) (fun _ => Answered home) (fun _ => Answered home) s := by
  rw [serving,Contract.wpe_bind]
  exact h

variable [Platform]

theorem registers_answered {api : Api} {s : Roster} (hk : api.registers) (hs : Pending home s) :
    (workers home).wpe api.call (fun _ => Answered home) (fun _ => Answered home) s := by
  cases api
  case listenerBind addr r =>
    apply giving_workers
    exact overTcp_workers hs (fun _ => bound_ordinary _)
  case dgramBind addr r =>
    apply giving_workers
    exact overUdp_workers hs (fun _ => bound_ordinary _)
  case streamConnect addr source timeout r => exact giving_workers (connect_workers hs)
  case streamConnectAsync addr source r timeout => exact giving_workers (connectAsync_workers hs)
  case queryTcpDnsSync peer source query timeout =>
    exact serving_workers (queryTcpDnsSync_workers hs)
  case queryUdpSync peer source query timeout => exact serving_workers (queryUdpSync_workers hs)
  case probeLocalSource peer => exact serving_workers (probeLocalSource_workers hs)
  case udpBind source isV6 => exact giving_workers (udpBind_workers hs)
  all_goals exact hk.elim

theorem guarded_iff (api : Api) (hk : api.registers) (home : Thread) (w : Finset Thread)
    (tr : List Ev) (res : Except Stop (Multiset Obj)) (hrun : api.call.Run tr res)
    (hrel : (workers home).Relied ⟨home,w,false,false⟩ tr) :
    Guarded ((workers home).after ⟨home,w,false,false⟩ tr) res ↔
      ∀ e ∈ tr, unregistered e = false := by
  have hpending : Pending home ⟨home,w,false,false⟩ := ⟨rfl,fun _ => .inr rfl⟩
  have hwp := (workers home).wp_run (registers_answered hk hpending) hrun hrel
  have hend : Answered home ((workers home).after ⟨home,w,false,false⟩ tr) := by
    cases res with
    | ok os => exact hwp.2
    | error e => exact hwp.2
  have hfailed : ((workers home).after ⟨home,w,false,false⟩ tr).failed = false ↔
      ∀ e ∈ tr, unregistered e = false := by
    rw [failed_after]
    simp
  rw [← hfailed,Guarded,hend.1]
  constructor
  · intro h
    exact h.1
  · intro h
    refine ⟨h,?_⟩
    intro ht
    rw [h] at ht
    cases ht

end Guard

theorem guarded_iff_connectAsync : ∃ tr res,
    Fallible.Run (@Api.call host (.streamConnectAsync (.new .unspecifiedV4 53) none ⟨9⟩ 5)) tr res ∧
      res = .ok {.stream ⟨1,⟨9⟩⟩} ∧ Guarded ((workers 0).after ⟨0,∅,false,false⟩ tr) res := by
  obtain ⟨res,tr,hrun,hres,hrel,hidx⟩ := Fallible.exec_sat
    (x := @Api.call host (.streamConnectAsync (.new .unspecifiedV4 53) none ⟨9⟩ 5))
    (P := fun res tr => res = .ok {.stream ⟨1,⟨9⟩⟩} ∧
      (workers 0).Relied ⟨0,∅,false,false⟩ tr ∧ ∀ e ∈ tr, unregistered e = false)
    (fun _ => obliging) 10 (by decide +kernel)
  exact ⟨tr,res,hrun,hres,(@guarded_iff host _ (by trivial) 0 ∅ tr res hrun hrel).mpr hidx⟩

def slotless (_ : ℕ) (c : Call) : Reply c :=
  match c with
  | .registeredGet => false
  | .workerRegister => (-17 : Int)
  | .workerIndex => (-1 : Int)
  | c => obliging c

theorem workerless_connectAsync_creates : ∃ tr res,
    Fallible.Run (@Api.call host (.streamConnectAsync (.new .unspecifiedV4 53) none ⟨9⟩ 5)) tr res ∧
      (workers 0).Relied ⟨0,∅,false,false⟩ tr ∧ res = .ok {.stream ⟨1,⟨9⟩⟩} ∧
      ((workers 0).after ⟨0,∅,false,false⟩ tr).workerless = {0} ∧ opened tr = {1} ∧
      ¬ Guarded ((workers 0).after ⟨0,∅,false,false⟩ tr) res := by
  obtain ⟨res,tr,hrun,hrel,hres,hless,hopen,htouched⟩ := Fallible.exec_sat
    (x := @Api.call host (.streamConnectAsync (.new .unspecifiedV4 53) none ⟨9⟩ 5))
    (P := fun res tr => (workers 0).Relied ⟨0,∅,false,false⟩ tr ∧ res = .ok {.stream ⟨1,⟨9⟩⟩} ∧
      ((workers 0).after ⟨0,∅,false,false⟩ tr).workerless = {0} ∧ opened tr = {1} ∧
      ((workers 0).after ⟨0,∅,false,false⟩ tr).touched = true)
    slotless 20 (by decide +kernel)
  refine ⟨tr,res,hrun,hrel,hres,hless,hopen,?_⟩
  intro h
  rw [Guarded,htouched] at h
  cases h.1

end VclRs
