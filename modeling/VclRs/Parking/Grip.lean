import VclRs.Interaction.Tenancy
import VclRs.Waiters

namespace VclRs

open Interaction Fallible

def leaseOf (rc : Int) : Mark Handle := if rc < 0 then .keep else .set (handleOf rc)

def lease : Ev → Mark Handle
  | ⟨.sessionCreate _ _,rc⟩ => leaseOf rc
  | ⟨.sessionAccept _,(rc,_)⟩ => leaseOf rc
  | ⟨.epollCreate,rc⟩ => leaseOf rc
  | ⟨.sessionClose sh,_⟩ => .unset sh
  | _ => .keep

def gripping (lent : Option (Handle × Handle)) : Contract Call Reply (Multiset Handle) where
  rely _ _ := True
  guar K e :=
    match e.op with
    | .waitersRemove _ sh => sh ∈ K
    | .waitersEntry vep sh => lent.elim (sh ∈ K) (· = (vep,sh))
    | _ => True
  next K e := (lease e).grip K

def Aloof : Call → Prop
  | .waitersEntry _ _ => False
  | .waitersRemove _ _ => False
  | .select _ _ _ => False
  | .recheck _ => False
  | _ => True

def Loyal (vep sh : Handle) : Call → Prop
  | .sessionClose _ => False
  | .waitersRemove _ _ => False
  | .waitersEntry v x => (v,x) = (vep,sh)
  | _ => True

def Still : Call → Prop
  | .sessionCreate _ _ => False
  | .sessionAccept _ => False
  | .epollCreate => False
  | .sessionClose _ => False
  | .waitersRemove _ _ => False
  | .waitersEntry _ _ => False
  | _ => True

section Classes

variable {vep sh x : Handle} {c : Call}

theorem registers_aloof (h : Registers c) : Aloof c := by cases h <;> trivial

theorem draws_aloof (h : Draws c) : Aloof c := by
  cases h
  trivial

theorem configures_aloof (h : Configures sh c) : Aloof c := by cases h <;> trivial

theorem transfers_aloof (h : Transfers sh c) : Aloof c := by cases h <;> trivial

theorem queries_aloof (h : Queries sh c) : Aloof c := by
  cases h
  trivial

theorem bindings_aloof (h : Draws c ∨ Configures sh c) : Aloof c := by
  rcases h with h | h
  · exact draws_aloof h
  · exact configures_aloof h

theorem converses_aloof (h : Converses vep sh c) : Aloof c := by
  cases h with
  | configures h => exact configures_aloof h
  | transfers h => exact transfers_aloof h
  | drains h => cases h <;> trivial
  | sleep d => trivial

theorem registers_still (h : Registers c) : Still c := by cases h <;> trivial

theorem draws_still (h : Draws c) : Still c := by
  cases h
  trivial

theorem configures_still (h : Configures sh c) : Still c := by cases h <;> trivial

theorem bindings_still (h : Draws c ∨ Configures sh c) : Still c := by
  rcases h with h | h
  · exact draws_still h
  · exact configures_still h

theorem queries_still (h : Queries sh c) : Still c := by
  cases h
  trivial

theorem configures_loyal (h : Configures x c) : Loyal vep sh c := by cases h <;> trivial

theorem waits_loyal (h : Waits vep sh c) : Loyal vep sh c := by
  cases h <;> trivial

theorem serves_loyal (h : Serves vep sh c) : Loyal vep sh c := by
  cases h with
  | configures h => exact configures_loyal h
  | transfers h => cases h <;> trivial
  | queries h =>
    cases h
    trivial
  | waits h => exact waits_loyal h

end Classes

section Rules

variable {lent : Option (Handle × Handle)} {K : Multiset Handle} {α : Type} {x : Vcl α}
variable {vep sh : Handle} {Q : α → Multiset Handle → Prop}

abbrev Grips (lent : Option (Handle × Handle)) (x : Vcl α) (Q : α → Multiset Handle → Prop)
    (K : Multiset Handle) : Prop :=
  (gripping lent).wpe x Q (fun _ _ => True) K

theorem aloof_guar (K : Multiset Handle) (e : Ev) (h : Aloof e.op) : (gripping lent).guar K e := by
  obtain ⟨op,reply⟩ := e
  cases op <;> trivial

theorem still_step {e : Ev} (h : Still e.op) :
    (gripping lent).guar K e ∧ (gripping lent).next K e = K := by
  obtain ⟨op,reply⟩ := e
  cases op <;> first
    | exact ⟨trivial,rfl⟩
    | exact h.elim

theorem loyal_kept {e : Ev} (h : Loyal vep sh e.op) {y : Handle} (hy : y ∈ K) :
    y ∈ (gripping lent).next K e := by
  have hset (rc : Int) : y ∈ (leaseOf rc).grip K := by
    rw [leaseOf]
    split_ifs
    · exact hy
    · exact Multiset.mem_cons_of_mem hy
  obtain ⟨op,reply⟩ := e
  cases op <;> first
    | exact hy
    | exact hset _
    | exact h.elim

theorem loyal_owned {e : Ev} (h : Loyal vep sh e.op) (hK : sh ∈ K) :
    (gripping none).guar K e ∧ sh ∈ (gripping none).next K e := by
  refine ⟨?_,loyal_kept h hK⟩
  obtain ⟨op,reply⟩ := e
  cases op <;> first
    | trivial
    | exact h.elim
    | skip
  case waitersEntry v y =>
    cases h
    exact hK

theorem loyal_lent {e : Ev} (h : Loyal vep sh e.op) : (gripping (some (vep,sh))).guar K e := by
  obtain ⟨op,reply⟩ := e
  cases op <;> first
    | trivial
    | exact h.elim
    | exact Eq.symm h

theorem grips_aloof (hx : x.Calls Aloof) : Grips lent x (fun _ _ => True) K :=
  Contract.always_of_calls aloof_guar hx K

theorem grips_still (hx : x.Calls Still) (hQ : ∀ a, Q a K) : Grips lent x Q K :=
  (gripping lent).wpe_still (fun _ => still_step) hx hQ (fun _ => trivial)

theorem grips_bind {β : Type} {f : α → Vcl β} {R : α → Multiset Handle → Prop}
    {Q : β → Multiset Handle → Prop} (hx : Grips lent x R K)
    (hf : ∀ a K', R a K' → Grips lent (f a) Q K') : Grips lent (x >>= f) Q K := by
  rw [Grips,Contract.wpe_bind]
  exact Contract.wpe_mono _ hx hf (fun _ _ h => h)

theorem grips_after {β : Type} {f : α → Vcl β} {Q : β → Multiset Handle → Prop}
    (hx : x.Calls Still) (hf : ∀ a, Grips lent (f a) Q K) : Grips lent (x >>= f) Q K := by
  refine grips_bind (R := fun _ K' => K' = K) (grips_still hx (fun _ => rfl)) ?_
  rintro a _ rfl
  exact hf a

theorem grips_loyal (hx : x.Calls (Loyal vep sh)) (hK : sh ∈ K) :
    (gripping none).wpe x (fun _ K' => sh ∈ K') (fun _ K' => sh ∈ K') K :=
  (gripping none).wpe_of_calls (fun _ _ hs he _ => loyal_owned he hs) hx hK

theorem grips_lent (hx : x.Calls (Loyal vep sh)) :
    (gripping (some (vep,sh))).Always x :=
  Contract.always_of_calls (fun _ _ he => loyal_lent he) hx

theorem grips_dropSession (sh : Handle) : Grips lent (dropSession sh) (fun _ _ => True) K :=
  grips_aloof (dropSession_calls trivial)

theorem grips_owning (h : Grips lent x Q K) : Grips lent (owning sh x) Q K := by
  rw [Grips,owning,Contract.wpe_onFail]
  refine Contract.wpe_mono _ h (fun _ _ hq => hq) ?_
  intro e K' _
  exact grips_dropSession sh

theorem grips_drop {r : VclReactor} (hK : sh ∈ K) :
    Grips lent (do
      r.deregister sh
      dropSession sh) (fun _ _ => True) K := by
  simp only [Grips,VclReactor.deregister,Contract.wpe_bind,Contract.wpe_call,Contract.wpe_pure]
  intro _ _
  refine ⟨hK,?_⟩
  intro _ _
  exact ⟨trivial,grips_dropSession sh⟩

end Rules

section Crate

variable [Platform] {lent : Option (Handle × Handle)} {K : Multiset Handle} {sh : Handle}

theorem grips_opened {α : Type} {rc : Int} {f : Handle → α} {Q : α → Multiset Handle → Prop}
    (hQ : Q (f (handleOf rc)) (handleOf rc ::ₘ K)) :
    Grips lent (do
      checkRc rc
      pure (f (handleOf rc))) Q ((leaseOf rc).grip K) := by
  rw [Grips,Contract.wpe_bind,checkRc,wpe_rejectIf,leaseOf]
  split_ifs with hneg
  · trivial
  · exact hQ

theorem grips_createTcp {nonblocking : Bool} :
    Grips lent (createTcp nonblocking) (fun sh K' => K' = sh ::ₘ K) K := by
  rw [Grips,createTcp,Contract.wpe_bind]
  intro rc _
  exact ⟨trivial,grips_opened (f := fun sh => sh) rfl⟩

theorem grips_createUdp {nonblocking : Bool} :
    Grips lent (createUdp nonblocking) (fun sh K' => K' = sh ::ₘ K) K := by
  rw [Grips,createUdp,Contract.wpe_bind]
  intro rc _
  exact ⟨trivial,grips_opened (f := fun sh => sh) rfl⟩

omit [Platform] in
theorem registerWorkerThread_still : registerWorkerThread.Calls Still :=
  Prog.calls_mono (fun _ => registers_still) registerWorkerThread_calls

omit [Platform] in
theorem drainFor_still {vep : Handle} {deadline : Instant} :
    (drainFor vep deadline).Calls Still := by
  refine calls_loop (fun _ => ?_) _
  refine calls_bind (calls_call trivial) (fun now => ?_)
  exact calls_ite (calls_bind (calls_call trivial) (fun _ => calls_pure _)) (calls_pure _)

theorem queryBound_still {requested : SocketAddr} : (queryBound sh requested).Calls Still := by
  refine calls_bind (calls_attempt (Prog.calls_mono (fun _ => queries_still) (addrAttr_calls _))) ?_
  intro r
  cases r with
  | ok actual => exact calls_pure _
  | error e => exact calls_err _

omit [Platform] in
theorem grips_watch {vep : Handle} {events : UInt32} :
    Grips lent (watchSession vep sh events) (fun _ K' => K' = K) K := by
  simp only [Grips,watchSession,Contract.wpe_bind,Contract.wpe_call,Contract.wpe_ite,
    Contract.wpe_pure,wpe_err]
  intro rv _
  refine ⟨trivial,?_⟩
  split_ifs with hneg
  · intro _ _
    exact ⟨trivial,trivial⟩
  · rfl

omit [Platform] in
theorem grips_close : Grips lent (vppcomSessionClose sh) (fun _ K' => K' = K) (sh ::ₘ K) := by
  intro rc _
  exact ⟨trivial,Multiset.erase_cons_head sh K⟩

theorem grips_verify {requested : SocketAddr} :
    Grips lent (verifyBindOrErr sh requested) (fun _ K' => K' = K) K := by
  rw [Grips,verifyBindOrErr,Contract.wpe_bind,Contract.wpe_call]
  intro (vep : Int) _
  refine ⟨trivial,?_⟩
  change (gripping lent).wpe _ _ _ ((leaseOf vep).grip K)
  rw [Contract.wpe_bind,wpe_rejectIf,leaseOf]
  split_ifs with hneg
  · trivial
  refine grips_bind (K := handleOf vep ::ₘ K) grips_watch ?_
  rintro _ _ rfl
  refine grips_after (calls_call trivial) (fun start => ?_)
  refine grips_after drainFor_still (fun _ => ?_)
  refine grips_bind grips_close ?_
  rintro _ _ rfl
  refine grips_bind (grips_owning (grips_still queryBound_still (fun _ => rfl))) ?_
  rintro actual _ rfl
  rw [Grips,wpe_rejectIf]
  split_ifs
  · trivial
  · rfl

theorem grips_bound {α : Type} {addr : SocketAddr} {backlog : ℕ} {r : VclReactor} {x : α}
    {Q : α → Multiset Handle → Prop} (hQ : Q x K) :
    Grips lent (owning sh (do
      bind sh addr
      listen sh backlog
      verifyBindOrErr sh addr
      r.register sh
      pure x)) Q K := by
  refine grips_owning ?_
  refine grips_after (Prog.calls_mono (fun _ => configures_still) (bind_calls addr)) (fun _ => ?_)
  refine grips_after (Prog.calls_mono (fun _ => configures_still) (listen_calls backlog))
    (fun _ => ?_)
  refine grips_bind grips_verify ?_
  rintro _ _ rfl
  exact grips_after (register_calls trivial) (fun _ => hQ)

theorem grips_listenerBind {addr : SocketAddr} {r : VclReactor} :
    Grips lent (VclListener.bind addr r) (fun l K' => l.handle ∈ K') K := by
  refine grips_after registerWorkerThread_still (fun _ => ?_)
  refine grips_bind grips_createTcp ?_
  rintro sh _ rfl
  exact grips_bound (Multiset.mem_cons_self sh K)

theorem grips_dgramBind {addr : SocketAddr} {r : VclReactor} :
    Grips lent (VclDgramSocket.bind addr r) (fun d K' => d.handle ∈ K') K := by
  refine grips_after registerWorkerThread_still (fun _ => ?_)
  refine grips_bind grips_createUdp ?_
  rintro sh _ rfl
  exact grips_bound (Multiset.mem_cons_self sh K)

theorem grips_bindAttempts {ipStr : String} {r : VclReactor} {n : ℕ} {lastErr : Option VclError} :
    Grips lent (VclDgramSocket.bindAttempts ipStr r n lastErr) (fun d K' => d.handle ∈ K') K := by
  induction n generalizing lastErr K with
  | zero => trivial
  | succ n ih =>
    refine grips_after (calls_call trivial) (fun port => ?_)
    cases SocketAddr.parse s!"{ipStr}:{port}" with
    | none => trivial
    | some addr =>
      rw [Grips,Contract.wpe_bind,wpe_attempt]
      refine Contract.wpe_mono _ grips_dgramBind (fun _ _ h => h) ?_
      intro e K' _
      cases e with
      | err e => exact ih
      | dropped => trivial

theorem grips_udpBind {source : Option IpAddr} {isV6 : Bool} :
    Grips lent (VclUdpSyncSocket.bind source isV6) (fun u K' => u.handle ∈ K') K := by
  refine grips_after registerWorkerThread_still (fun _ => ?_)
  refine grips_bind grips_createUdp ?_
  rintro sh _ rfl
  refine grips_owning ?_
  refine grips_after (familyIp_calls source isV6) (fun ip => ?_)
  refine grips_after (Prog.calls_mono (fun _ => bindings_still) (bindEphemeral_calls ip 8))
    (fun bound => ?_)
  refine grips_after (calls_rejectIf _) (fun _ => ?_)
  refine grips_after (Prog.calls_mono (fun _ => configures_still) (listen_calls 0)) (fun _ => ?_)
  exact Multiset.mem_cons_self sh K

theorem grips_connectAsync {addr : SocketAddr} {source : Option SocketAddr} {r : VclReactor}
    {timeout : Duration} :
    Grips none (VclStream.connectAsync addr source r timeout) (fun st K' => st.handle ∈ K') K := by
  rw [VclStream.connectAsync_eq]
  refine grips_after registerWorkerThread_still (fun _ => ?_)
  refine grips_bind grips_createTcp ?_
  rintro sh _ rfl
  refine grips_owning ?_
  refine grips_after (dial_calls (fun _ => configures_still) trivial) (fun _ => ?_)
  have hwait := grips_loyal (Prog.calls_mono (fun _ => waits_loyal) (waitWritable_calls (r := r) timeout))
    (Multiset.mem_cons_self sh K)
  exact grips_bind (Contract.wpe_mono _ hwait (fun _ _ h => h) (fun _ _ _ => trivial))
    (fun _ _ h => h)

theorem grips_fromAccepted {r : VclReactor} (hK : sh ∈ K) :
    Grips lent (VclStream.fromAccepted sh r) (fun st K' => st.handle ∈ K') K := by
  refine grips_owning ?_
  refine grips_after (Prog.calls_mono (fun _ => configures_still) setNonblocking_calls)
    (fun _ => ?_)
  refine grips_after (calls_attempt (Prog.calls_mono (fun _ => configures_still) setNodelay_calls))
    (fun _ => ?_)
  exact hK

theorem grips_sessionAccept : Grips lent (sessionAccept sh) (fun x K' => K' = x.1 ::ₘ K) K := by
  rw [Grips,sessionAccept,Contract.wpe_bind]
  rintro ⟨rc,ep⟩ _
  exact ⟨trivial,grips_opened (f := fun sh => (sh,addrFromEndpoint ep)) rfl⟩

theorem grips_accept {l : VclListener} :
    Grips (some (l.reactor.vep,l.handle)) l.accept (fun x K' => x.1.handle ∈ K') K := by
  refine Contract.wpe_loop _ (fun _ _ => True) ?_ trivial
  intro _ K _
  rw [Contract.wpe_bind,wpe_attempt]
  refine Contract.wpe_mono _ grips_sessionAccept ?_ ?_
  · rintro ⟨client,peer⟩ _ rfl
    refine grips_bind (grips_owning (grips_still (register_calls trivial) (fun _ => rfl))) ?_
    rintro _ _ rfl
    exact grips_bind (grips_fromAccepted (Multiset.mem_cons_self client K)) (fun _ _ h => h)
  · intro e K' _
    cases e with
    | dropped => trivial
    | err e =>
      simp only [Contract.wpe_ite,Contract.wpe_bind,wpe_err]
      split_ifs with hwb
      · refine Contract.wpe_mono _ (grips_lent (Prog.calls_mono (fun _ => waits_loyal)
          (calls_attempt (waitReadable_calls (secs 300)))) K') ?_ (fun _ _ h => h)
        intro x K'' _
        cases x with
        | ok _ => trivial
        | error e' =>
          simp only [Contract.wpe_ite,Contract.wpe_pure,wpe_err]
          split_ifs <;> trivial
      · trivial

theorem grips_blockingConnect {addr : SocketAddr} :
    Grips lent (VclStream.blockingConnect addr) (fun sh K' => sh ∈ K') K := by
  refine grips_after registerWorkerThread_still (fun _ => ?_)
  rw [Grips,Contract.wpe_bind,Contract.wpe_call]
  intro (rc : Int) _
  refine ⟨trivial,?_⟩
  change (gripping lent).wpe _ _ _ ((leaseOf rc).grip K)
  rw [Contract.wpe_bind,checkRc,wpe_rejectIf,leaseOf]
  split_ifs with hneg
  · trivial
  refine grips_after (K := handleOf rc ::ₘ K) (calls_call trivial) (fun rc' => ?_)
  rw [Grips,Contract.wpe_ite]
  split_ifs with hneg'
  · exact grips_bind grips_close (fun _ _ _ => trivial)
  · exact Multiset.mem_cons_self _ K

omit [Platform] in
theorem grips_join {α : Type} {r : Except Stop α} {Q : α → Multiset Handle → Prop}
    (hQ : ∀ a, r = .ok a → Q a K) : Grips lent (join r) Q K := by
  rw [Grips,join,Contract.wpe_bind,Contract.wpe_call]
  intro j _
  refine ⟨trivial,?_⟩
  cases j with
  | dropped => trivial
  | finished =>
    cases r with
    | ok a => exact hQ a rfl
    | error e => trivial

omit [Platform] in
theorem grips_spawnBlocking {α : Type} {closure : Vcl α} {Q : α → Multiset Handle → Prop}
    (h : Grips lent closure Q K) : Grips lent (spawnBlocking closure) Q K := by
  rw [Grips,spawnBlocking,Contract.wpe_bind,Contract.wpe_call]
  intro r _
  refine ⟨trivial,?_⟩
  cases r with
  | error e => trivial
  | ok pool =>
    change (gripping lent).wpe (closure.handle join) _ _ K
    rw [Contract.wpe_handle]
    refine Contract.wpe_mono _ h ?_ ?_
    · intro a K' hq
      refine grips_join ?_
      rintro _ ⟨⟩
      exact hq
    · intro e K' _
      refine grips_join ?_
      rintro _ ⟨⟩

theorem grips_connect {addr : SocketAddr} {source : Option SocketAddr} {timeout : Duration}
    {r : VclReactor} :
    Grips lent (VclStream.connect addr source timeout r) (fun st K' => st.handle ∈ K') K := by
  refine grips_after registerWorkerThread_still (fun _ => ?_)
  refine grips_bind grips_createTcp ?_
  rintro orig _ rfl
  refine grips_bind (R := fun sh K' => sh ∈ K') (grips_owning ?_) ?_
  · refine grips_after (calls_attempt (Prog.calls_mono (fun _ => configures_still) setNodelay_calls))
      (fun _ => ?_)
    refine grips_after (Prog.calls_mono (fun _ => configures_still) (bindSource_calls source))
      (fun _ => ?_)
    exact grips_spawnBlocking grips_blockingConnect
  · intro sh K' hK'
    exact grips_after (calls_attempt (Prog.calls_mono (fun _ => configures_still) setNodelay_calls))
      (fun _ => hK')

theorem grips_connectPorts {peer : SocketAddr} {ip : IpAddr} {r : VclReactor} {timeout : Duration}
    {started : Instant} {ports : List ℕ} {lastErr : Option VclError} :
    Grips none (connectPorts peer ip r timeout started ports lastErr)
      (fun st K' => st.handle ∈ K') K := by
  induction ports generalizing lastErr K with
  | nil => trivial
  | cons port ports ih =>
    refine grips_after (calls_call trivial) (fun now => ?_)
    rw [Grips,Contract.wpe_ite]
    split_ifs with hr
    · trivial
    · rw [Contract.wpe_bind,wpe_attempt]
      refine Contract.wpe_mono _ grips_connectAsync (fun _ _ h => h) ?_
      intro e K' _
      cases e with
      | err e => exact ih
      | dropped => trivial

theorem grips_connectSource {peer : SocketAddr} {source : Option IpAddr} {r : VclReactor}
    {timeout : Duration} {started : Instant} :
    Grips none (connectSource peer source r timeout started) (fun st K' => st.handle ∈ K') K := by
  cases source with
  | none => exact grips_connectAsync
  | some ip =>
    rw [Grips,connectSource,Contract.wpe_ite]
    split_ifs with hf
    · trivial
    · exact grips_after (Prog.calls_mono (fun _ => draws_still) (genPorts_calls 8))
        (fun ports => grips_connectPorts)

theorem grips_queryTcpDnsAsync {peer : SocketAddr} {source : Option IpAddr} {query : List UInt8}
    {r : VclReactor} {timeout : Duration} :
    Grips none (queryTcpDnsAsync peer source query r timeout) (fun _ _ => True) K := by
  refine grips_after (calls_call trivial) (fun started => ?_)
  refine grips_bind grips_connectSource ?_
  intro st K' hK'
  rw [Grips,Contract.wpe_ensuring]
  refine Contract.wpe_mono _ (grips_loyal (Prog.calls_mono (fun _ => serves_loyal)
    (exchange_calls st query)) hK') ?_ ?_
  · intro _ K'' hK''
    exact grips_drop hK''
  · intro _ K'' hK''
    exact grips_drop hK''

end Crate

end VclRs
