import VclRs.Parking.Grip
import VclRs.Streams.Polling
import VclRs.Wakeups.Runtime

namespace VclRs

open Interaction Fallible

section Aloof

theorem holding_calls {α : Type} {P : Call → Prop} {sh : Handle} {body : Vcl α} (hb : body.Calls P)
    (h : P (.sessionClose sh)) : (holding sh body).Calls P := calls_ensuring hb (dropSession_calls h)

theorem registerWorkerThread_aloof : registerWorkerThread.Calls Aloof :=
  Prog.calls_mono (fun _ => registers_aloof) registerWorkerThread_calls

theorem tick_aloof {r : VclReactor} : r.tick.Calls Aloof :=
  tick_calls trivial (fun _ => trivial) trivial

theorem watchSession_aloof {vep sh : Handle} {events : UInt32} :
    (watchSession vep sh events).Calls Aloof := by
  refine calls_bind (calls_call trivial) (fun rv => ?_)
  exact calls_ite (calls_bind (calls_call trivial) (fun _ => calls_err _)) (calls_pure _)

theorem drainFor_aloof {vep : Handle} {deadline : Instant} : (drainFor vep deadline).Calls Aloof := by
  refine calls_loop (fun _ => ?_) _
  refine calls_bind (calls_call trivial) (fun now => ?_)
  exact calls_ite (calls_bind (calls_call trivial) (fun _ => calls_pure _)) (calls_pure _)

theorem join_aloof {α : Type} (r : Except Stop α) : (join r).Calls Aloof := by
  refine calls_bind (calls_call trivial) (fun j => ?_)
  cases j with
  | dropped => exact calls_fail _
  | finished =>
    cases r with
    | ok a => exact calls_pure _
    | error e => exact calls_fail _

theorem spawnBlocking_aloof {α : Type} {closure : Vcl α} (h : closure.Calls Aloof) :
    (spawnBlocking closure).Calls Aloof := by
  refine calls_bind (calls_call trivial) (fun r => ?_)
  cases r with
  | error e => exact calls_err _
  | ok pool => exact calls_handle h join_aloof

variable [Platform] {sh : Handle}

theorem new_aloof : VclReactor.new.Calls Aloof := by
  refine calls_bind (calls_call trivial) (fun vep => ?_)
  refine calls_bind (checkRc_calls _) (fun _ => ?_)
  refine calls_bind (calls_call trivial) (fun mqRaw => ?_)
  refine calls_bind (calls_rejectIf _) (fun _ => ?_)
  refine calls_bind (calls_call trivial) (fun x => ?_)
  cases x with
  | error e => exact calls_err _
  | ok _ => exact calls_pure _

theorem addrAttr_aloof (op : Attr) : (addrAttr op sh).Calls Aloof :=
  Prog.calls_mono (fun _ => queries_aloof) (addrAttr_calls op)

theorem verifyBindOrErr_aloof {requested : SocketAddr} :
    (verifyBindOrErr sh requested).Calls Aloof := by
  refine calls_bind (calls_call trivial) (fun vep => ?_)
  refine calls_bind (calls_rejectIf _) (fun _ => ?_)
  refine calls_bind watchSession_aloof (fun _ => ?_)
  refine calls_bind (calls_call trivial) (fun start => ?_)
  refine calls_bind drainFor_aloof (fun _ => ?_)
  refine calls_bind (calls_call trivial) (fun _ => ?_)
  refine calls_bind (owning_calls ?_ trivial) (fun actual => calls_rejectIf _)
  refine calls_bind (calls_attempt (addrAttr_aloof _)) ?_
  intro r
  cases r with
  | ok actual => exact calls_pure _
  | error e => exact calls_err _

theorem bound_aloof {α : Type} {addr : SocketAddr} {backlog : ℕ} {r : VclReactor} {x : α} :
    (owning sh (do
      bind sh addr
      listen sh backlog
      verifyBindOrErr sh addr
      r.register sh
      pure x)).Calls Aloof := by
  refine owning_calls ?_ trivial
  refine calls_bind (Prog.calls_mono (fun _ => configures_aloof) (bind_calls addr)) (fun _ => ?_)
  refine calls_bind (Prog.calls_mono (fun _ => configures_aloof) (listen_calls backlog))
    (fun _ => ?_)
  refine calls_bind verifyBindOrErr_aloof (fun _ => ?_)
  exact calls_bind (register_calls trivial) (fun _ => calls_pure _)

theorem listenerBind_aloof {addr : SocketAddr} {r : VclReactor} :
    (VclListener.bind addr r).Calls Aloof :=
  calls_bind registerWorkerThread_aloof
    (fun _ => calls_bind (createTcp_calls trivial) (fun _ => bound_aloof))

theorem dgramBind_aloof {addr : SocketAddr} {r : VclReactor} :
    (VclDgramSocket.bind addr r).Calls Aloof :=
  calls_bind registerWorkerThread_aloof
    (fun _ => calls_bind (createUdp_calls trivial) (fun _ => bound_aloof))

theorem bindAttempts_aloof {ipStr : String} {r : VclReactor} {n : ℕ} {lastErr : Option VclError} :
    (VclDgramSocket.bindAttempts ipStr r n lastErr).Calls Aloof := by
  induction n generalizing lastErr with
  | zero => exact calls_err _
  | succ n ih =>
    refine calls_bind (calls_call trivial) (fun port => ?_)
    cases SocketAddr.parse s!"{ipStr}:{port}" with
    | none => exact calls_err _
    | some addr =>
      refine calls_bind (calls_attempt dgramBind_aloof) ?_
      intro x
      cases x with
      | ok sock => exact calls_pure _
      | error e => exact ih

theorem bindEphemeral_aloof (ip : IpAddr) (n : ℕ) : (bindEphemeral sh ip n).Calls Aloof :=
  Prog.calls_mono (fun _ => bindings_aloof) (bindEphemeral_calls ip n)

theorem udpBind_aloof {source : Option IpAddr} {isV6 : Bool} :
    (VclUdpSyncSocket.bind source isV6).Calls Aloof := by
  refine calls_bind registerWorkerThread_aloof (fun _ => ?_)
  refine calls_bind (createUdp_calls trivial) (fun sh => ?_)
  refine owning_calls ?_ trivial
  refine calls_bind (familyIp_calls source isV6) (fun ip => ?_)
  refine calls_bind (bindEphemeral_aloof ip 8) (fun bound => ?_)
  refine calls_bind (calls_rejectIf _) (fun _ => ?_)
  exact calls_bind (Prog.calls_mono (fun _ => configures_aloof) (listen_calls 0))
    (fun _ => calls_pure _)

theorem setNodelay_aloof : (attempt (setNodelay sh)).Calls Aloof :=
  calls_attempt (Prog.calls_mono (fun _ => configures_aloof) setNodelay_calls)

theorem bindSource_aloof (source : Option SocketAddr) :
    (VclStream.bindSource sh source).Calls Aloof :=
  Prog.calls_mono (fun _ => configures_aloof) (bindSource_calls source)

theorem blockingConnect_aloof {addr : SocketAddr} :
    (VclStream.blockingConnect addr).Calls Aloof := by
  refine calls_bind registerWorkerThread_aloof (fun _ => ?_)
  refine calls_bind (calls_call trivial) (fun rc => ?_)
  refine calls_bind (checkRc_calls _) (fun _ => ?_)
  refine calls_bind (calls_call trivial) (fun rc' => ?_)
  exact calls_ite (calls_bind (calls_call trivial) (fun _ => calls_err _)) (calls_pure _)

theorem connect_aloof {addr : SocketAddr} {source : Option SocketAddr} {timeout : Duration}
    {r : VclReactor} : (VclStream.connect addr source timeout r).Calls Aloof := by
  refine calls_bind registerWorkerThread_aloof (fun _ => ?_)
  refine calls_bind (createTcp_calls trivial) (fun orig => ?_)
  refine calls_bind (owning_calls ?_ trivial) (fun sh => ?_)
  · refine calls_bind setNodelay_aloof (fun _ => ?_)
    refine calls_bind (bindSource_aloof source) (fun _ => ?_)
    exact spawnBlocking_aloof blockingConnect_aloof
  · exact calls_bind setNodelay_aloof (fun _ => calls_pure _)

theorem queryUdpSync_aloof {peer : SocketAddr} {source : Option IpAddr} {query : List UInt8}
    {timeout : Duration} : (queryUdpSync peer source query timeout).Calls Aloof := by
  refine calls_bind registerWorkerThread_aloof (fun _ => ?_)
  refine calls_bind (createUdp_calls trivial) (fun sh => ?_)
  refine holding_calls ?_ trivial
  refine calls_bind (sourceIp_calls source peer) (fun ip => ?_)
  refine calls_bind (bindEphemeral_aloof ip 8) (fun bound => ?_)
  refine calls_bind (calls_rejectIf _) (fun _ => ?_)
  refine calls_bind (Prog.calls_mono (fun _ => configures_aloof) (listen_calls 0)) (fun _ => ?_)
  refine calls_bind (Prog.calls_mono (fun _ => transfers_aloof) (sendto_calls query peer))
    (fun _ => ?_)
  refine calls_bind (calls_call trivial) (fun start => ?_)
  have hawait : (awaitDatagram sh (start + timeout)).Calls (Converses 0 sh) := awaitDatagram_calls _
  exact Prog.calls_mono (fun _ => converses_aloof) hawait

theorem udpQuery_aloof {u : VclUdpSyncSocket} {peer : SocketAddr} {query : List UInt8}
    {timeout : Duration} : (u.query peer query timeout).Calls Aloof := by
  have hcalls : (u.query peer query timeout).Calls (Converses 0 u.handle) := udpQuery_calls _ _ _ _
  exact Prog.calls_mono (fun _ => converses_aloof) hcalls

theorem probeLocalSource_aloof {peer : SocketAddr} : (probeLocalSource peer).Calls Aloof := by
  refine calls_bind registerWorkerThread_aloof (fun _ => ?_)
  refine calls_bind (createUdp_calls trivial) (fun sh => ?_)
  refine holding_calls ?_ trivial
  refine calls_bind (bindEphemeral_aloof _ 8) (fun bound => ?_)
  refine calls_bind (calls_rejectIf _) (fun _ => ?_)
  refine calls_bind (Prog.calls_mono (fun _ => configures_aloof) (connect_calls peer)) (fun _ => ?_)
  exact addrAttr_aloof _

theorem queryTcpDnsSync_aloof {peer : SocketAddr} {source : Option IpAddr} {query : List UInt8}
    {timeout : Duration} : (queryTcpDnsSync peer source query timeout).Calls Aloof := by
  refine calls_bind registerWorkerThread_aloof (fun _ => ?_)
  refine calls_bind (createTcp_calls trivial) (fun sh => ?_)
  refine holding_calls ?_ trivial
  refine calls_bind (Prog.calls_mono (fun _ => bindings_aloof) (bindSourceIp_calls peer source))
    (fun _ => ?_)
  refine calls_bind (calls_call trivial) (fun vep => ?_)
  refine calls_bind (calls_rejectIf _) (fun _ => ?_)
  refine calls_bind watchSession_aloof (fun _ => ?_)
  refine holding_calls ?_ trivial
  exact Prog.calls_mono (fun _ => converses_aloof) (exchangeSync_calls peer query timeout)

end Aloof

structure Seat where
  vep : Handle
  session : Handle
  notify : NotifyId
deriving DecidableEq, Repr

def reseat (w : Option Seat) : Ev → Option Seat
  | ⟨.waitersEntry vep sh,n⟩ => some ⟨vep,sh,n⟩
  | ⟨.instantNow,_⟩ => w
  | ⟨.epollWait _ _ _,_⟩ => w
  | ⟨.notifyOne _ _,_⟩ => w
  | ⟨.clearReady _,_⟩ => w
  | ⟨.select _ _ _,(_,.readable)⟩ => w
  | ⟨.recheck _,(_,.elapsed)⟩ => w
  | _ => none

def seating : Contract Call Reply (Option Seat) where
  rely _ _ := True
  guar w e :=
    match e.op with
    | .select vep n _ => ∃ sh, w = some ⟨vep,sh,n⟩
    | .recheck n => ∃ vep sh, w = some ⟨vep,sh,n⟩
    | _ => True
  next := reseat

section Seating

variable {α : Type} {x : Vcl α} {r : VclReactor} {vep sh : Handle}

theorem aloof_seating (w : Option Seat) (e : Ev) (h : Aloof e.op) : seating.guar w e := by
  obtain ⟨op,reply⟩ := e
  cases op <;> trivial

theorem sits_aloof (hx : x.Calls Aloof) : seating.Always x :=
  Contract.always_of_calls aloof_seating hx

theorem sits_pure (a : α) : seating.Always (pure a : Vcl α) := fun _ => trivial

theorem sits_err (e : VclError) : seating.Always (err e : Vcl α) := fun _ => trivial

theorem sits_attempt (hx : seating.Always x) : seating.Always (attempt x) := by
  refine Contract.always_handle hx ?_
  intro r w
  match r with
  | .ok a => trivial
  | .error (.err e) => trivial
  | .error .dropped => trivial

theorem sits_waitEvent {mask : UInt32} {timeout : Duration} :
    seating.Always (r.waitEvent sh mask timeout) := by
  intro w
  rw [VclReactor.waitEvent,Contract.wpe_bind,Contract.wpe_call]
  intro n _
  refine ⟨trivial,?_⟩
  rw [Contract.wpe_bind]
  intro now _
  refine ⟨trivial,?_⟩
  refine waitLoop_rule (I := fun w => w = some ⟨r.vep,sh,n⟩) ?_ ?_ ?_ ?_ rfl
  · rintro _ ⟨now,sel⟩ rfl -
    refine ⟨⟨sh,rfl⟩,?_⟩
    cases sel <;> trivial
  · rintro _ ⟨op,reply⟩ rfl hop -
    cases hop <;> exact ⟨trivial,rfl⟩
  · rintro _ reply rfl -
    exact ⟨trivial,rfl⟩
  · rintro _ ⟨now,again⟩ rfl -
    refine ⟨⟨r.vep,sh,rfl⟩,?_⟩
    cases again <;> trivial

theorem sits_drop : seating.Always (do
    r.deregister sh
    dropSession sh) := by
  intro w
  simp only [VclReactor.deregister,dropSession,Contract.wpe_bind,Contract.wpe_call,
    Contract.wpe_pure]
  intro _ _
  refine ⟨trivial,?_⟩
  intro _ _
  refine ⟨trivial,?_⟩
  intro _ _
  exact ⟨trivial,trivial⟩

theorem sits_swallow (a : α) : seating.Always (do
    match ← attempt (r.waitReadable sh (secs 300)) with
    | .ok _ => pure a
    | .error e => if e = .timeout then pure a else err e) := by
  refine Contract.always_bind (sits_attempt sits_waitEvent) ?_
  intro x
  cases x with
  | ok _ => exact sits_pure _
  | error e => exact Contract.always_ite (sits_pure _) (sits_err _)

variable [Platform]

theorem sits_read {st : VclStream} {buf : List UInt8} : seating.Always (st.read buf) := by
  refine Contract.always_loop (fun _ => ?_) _
  refine Contract.always_bind (sits_attempt (sits_aloof
    (Prog.calls_mono (fun _ => transfers_aloof) (sessionRead_calls buf)))) ?_
  intro x
  cases x with
  | ok x => exact Contract.always_ite (sits_err _) (sits_pure _)
  | error e =>
    refine Contract.always_ite ?_ (sits_err _)
    exact Contract.always_bind sits_waitEvent (fun _ => sits_pure _)

theorem sits_readExact {st : VclStream} {buf : List UInt8} : seating.Always (st.readExact buf) := by
  refine Contract.always_loop (fun pst => ?_) _
  exact Contract.always_ite (Contract.always_bind sits_read (fun _ => sits_pure _)) (sits_pure _)

theorem sits_writeAll {st : VclStream} {buf : List UInt8} : seating.Always (st.writeAll buf) := by
  refine Contract.always_loop (fun pos => ?_) _
  refine Contract.always_ite ?_ (sits_pure _)
  refine Contract.always_bind (sits_attempt (sits_aloof
    (Prog.calls_mono (fun _ => transfers_aloof) (sessionWrite_calls _)))) ?_
  intro x
  cases x with
  | ok n => exact sits_pure _
  | error e =>
    refine Contract.always_ite ?_ (sits_err _)
    exact Contract.always_bind sits_waitEvent (fun _ => sits_pure _)

theorem sits_recvFrom {d : VclDgramSocket} {buf : List UInt8} :
    seating.Always (d.recvFrom buf) := by
  refine Contract.always_loop (fun _ => ?_) _
  refine Contract.always_bind (sits_attempt (sits_aloof
    (Prog.calls_mono (fun _ => transfers_aloof) (recvfrom_calls buf)))) ?_
  intro x
  cases x with
  | ok x => exact sits_pure _
  | error e => exact Contract.always_ite (sits_swallow _) (sits_err _)

theorem sits_sendTo {d : VclDgramSocket} {buf : List UInt8} {dst : SocketAddr} :
    seating.Always (d.sendTo buf dst) := by
  refine Contract.always_loop (fun _ => ?_) _
  refine Contract.always_bind (sits_attempt (sits_aloof
    (Prog.calls_mono (fun _ => transfers_aloof) (sendto_calls buf dst)))) ?_
  intro x
  cases x with
  | ok n => exact sits_pure _
  | error e =>
    refine Contract.always_ite ?_ (sits_err _)
    exact Contract.always_bind sits_waitEvent (fun _ => sits_pure _)

theorem sits_connectAsync {addr : SocketAddr} {source : Option SocketAddr} {timeout : Duration} :
    seating.Always (VclStream.connectAsync addr source r timeout) := by
  rw [VclStream.connectAsync_eq]
  refine Contract.always_bind (sits_aloof registerWorkerThread_aloof) (fun _ => ?_)
  refine Contract.always_bind (sits_aloof (createTcp_calls trivial)) (fun sh => ?_)
  refine Contract.always_onFail ?_ (sits_aloof (dropSession_calls trivial))
  refine Contract.always_bind (sits_aloof (dial_calls (fun _ => configures_aloof) trivial))
    (fun _ => ?_)
  exact Contract.always_bind sits_waitEvent (fun _ => sits_pure _)

theorem sits_accept {l : VclListener} : seating.Always l.accept := by
  refine Contract.always_loop (fun _ => ?_) _
  have haccept : (sessionAccept l.handle).Calls Aloof :=
    calls_bind (calls_call trivial)
      (fun _ => calls_bind (checkRc_calls _) (fun _ => calls_pure _))
  refine Contract.always_bind (sits_attempt (sits_aloof haccept)) ?_
  intro x
  cases x with
  | ok x =>
    obtain ⟨client,peer⟩ := x
    have hregister : (owning client (l.reactor.register client)).Calls Aloof :=
      owning_calls (register_calls trivial) trivial
    have hstream : (VclStream.fromAccepted client l.reactor).Calls Aloof := by
      refine owning_calls ?_ trivial
      refine calls_bind (Prog.calls_mono (fun _ => configures_aloof) setNonblocking_calls)
        (fun _ => ?_)
      exact calls_bind setNodelay_aloof (fun _ => calls_pure _)
    refine Contract.always_bind (sits_aloof hregister) (fun _ => ?_)
    exact Contract.always_bind (sits_aloof hstream) (fun _ => sits_pure _)
  | error e => exact Contract.always_ite (sits_swallow _) (sits_err _)

theorem sits_connectPorts {peer : SocketAddr} {ip : IpAddr} {timeout : Duration}
    {started : Instant} {ports : List ℕ} {lastErr : Option VclError} :
    seating.Always (connectPorts peer ip r timeout started ports lastErr) := by
  induction ports generalizing lastErr with
  | nil => exact sits_err _
  | cons port ports ih =>
    refine Contract.always_bind (sits_aloof (calls_call trivial)) (fun now => ?_)
    refine Contract.always_ite (sits_err _) ?_
    refine Contract.always_bind (sits_attempt sits_connectAsync) ?_
    intro x
    cases x with
    | ok st => exact sits_pure _
    | error e => exact ih

theorem sits_queryTcpDnsAsync {peer : SocketAddr} {source : Option IpAddr} {query : List UInt8}
    {timeout : Duration} : seating.Always (queryTcpDnsAsync peer source query r timeout) := by
  refine Contract.always_bind (sits_aloof (calls_call trivial)) (fun started => ?_)
  refine Contract.always_bind ?_ (fun st => ?_)
  · cases source with
    | none => exact sits_connectAsync
    | some ip =>
      refine Contract.always_ite (sits_err _) ?_
      exact Contract.always_bind (sits_aloof
        (Prog.calls_mono (fun _ => draws_aloof) (genPorts_calls 8))) (fun _ => sits_connectPorts)
  · refine Contract.always_ensuring ?_ sits_drop
    refine Contract.always_bind (sits_aloof (ofExcept_calls _)) (fun framed => ?_)
    refine Contract.always_bind sits_writeAll (fun _ => ?_)
    refine Contract.always_bind sits_readExact (fun lenbuf => ?_)
    exact Contract.always_bind (sits_aloof (ofExcept_calls _)) (fun len => sits_readExact)

omit [Platform] in
theorem sits_arm {st : VclStream} : seating.Always st.arm := by
  intro w
  simp only [VclStream.arm,instantNow,Contract.wpe_bind,Contract.wpe_call,Contract.wpe_pure]
  intro n _
  refine ⟨trivial,?_⟩
  intro now _
  exact ⟨trivial,trivial⟩

omit [Platform] in
theorem sits_polling {β γ : Type} {st : VclStream} {cx : ℕ} {io : Vcl β}
    {settle : Except VclError β → Except IoError γ} {pending : Bool} (hio : io.Calls Aloof) :
    seating.Always (st.polling cx io settle pending) := by
  refine Contract.always_loop (fun pending => ?_) _
  have hpending : (st.pollPending pending cx).Calls Aloof :=
    calls_ite (calls_call trivial) (calls_pure _)
  refine Contract.always_bind (sits_aloof hpending) ?_
  intro p
  match p with
  | .pending => exact sits_pure _
  | .ready (.error e) => exact sits_pure _
  | .ready (.ok _) =>
    refine Contract.always_bind (sits_attempt (sits_aloof hio)) ?_
    intro x
    cases x with
    | ok x => exact sits_pure _
    | error e =>
      exact Contract.always_ite (Contract.always_bind sits_arm (fun _ => sits_pure _)) (sits_pure _)

end Seating

end VclRs
