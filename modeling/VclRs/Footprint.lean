import VclRs.Model.Dns

namespace VclRs

open Interaction Fallible

inductive Registers : Call → Prop
  | get : Registers .registeredGet
  | lock : Registers .registerLock
  | register : Registers .workerRegister
  | index : Registers .workerIndex
  | unregister : Registers .workerUnregister
  | set : Registers .registeredSet
  | unlock : Registers .registerUnlock

inductive Configures (sh : Handle) : Call → Prop
  | bind (ep : Endpt) : Configures sh (.sessionBind sh ep)
  | listen (n : ℕ) : Configures sh (.sessionListen sh n)
  | connect (ep : Endpt) : Configures sh (.sessionConnect sh ep)
  | attr (op : Attr) (h : op ≠ .getLclAddr) : Configures sh (.sessionAttr sh op)
  | shutdown (how : Int) : Configures sh (.sessionShutdown sh how)

inductive Transfers (sh : Handle) : Call → Prop
  | read (n : ℕ) : Transfers sh (.sessionRead sh n)
  | write (buf : List UInt8) : Transfers sh (.sessionWrite sh buf)
  | sendto (buf : List UInt8) (ep : Endpt) : Transfers sh (.sessionSendto sh buf ep)
  | recvfrom (n : ℕ) : Transfers sh (.sessionRecvfrom sh n)

inductive Queries (sh : Handle) : Call → Prop
  | attr (op : Attr) : Queries sh (.sessionAttr sh op)

inductive Waits (vep sh : Handle) : Call → Prop
  | entry : Waits vep sh (.waitersEntry vep sh)
  | now : Waits vep sh .instantNow
  | select (n : NotifyId) (t : Instant) : Waits vep sh (.select vep n t)
  | drain : Waits vep sh (.epollWait vep 64 0)
  | notify (x : Handle) : Waits vep sh (.notifyOne vep x)
  | clear : Waits vep sh (.clearReady vep)
  | recheck (n : NotifyId) : Waits vep sh (.recheck n)
  | poll (cx : ℕ) : Waits vep sh (.waitPoll sh cx)

inductive Collects (vep : Handle) : Call → Prop
  | drain : Collects vep (.epollWait vep 64 0)
  | notify (x : Handle) : Collects vep (.notifyOne vep x)

inductive WaitStop : Stop → Prop
  | timeout : WaitStop (.err .timeout)
  | io (e : IoError) : WaitStop (.err (.io e))
  | dropped : WaitStop .dropped

inductive Drains (vep : Handle) : Call → Prop
  | now : Drains vep .instantNow
  | wait (n ms : ℕ) : Drains vep (.epollWait vep n ms)

inductive Serves (vep sh : Handle) : Call → Prop
  | configures {c : Call} (h : Configures sh c) : Serves vep sh c
  | transfers {c : Call} (h : Transfers sh c) : Serves vep sh c
  | queries {c : Call} (h : Queries sh c) : Serves vep sh c
  | waits {c : Call} (h : Waits vep sh c) : Serves vep sh c

inductive Draws : Call → Prop
  | range (low high : ℕ) : Draws (.genRange low high)

inductive Converses (vep sh : Handle) : Call → Prop
  | configures {c : Call} (h : Configures sh c) : Converses vep sh c
  | transfers {c : Call} (h : Transfers sh c) : Converses vep sh c
  | drains {c : Call} (h : Drains vep c) : Converses vep sh c
  | sleep (d : Duration) : Converses vep sh (.sleep d)

theorem registration_calls {P : Call → Prop} (hl : P .registerLock) (hr : P .workerRegister)
    (hi : P .workerIndex) (hu : P .workerUnregister) (hs : P .registeredSet)
    (ho : P .registerUnlock) (registered : Bool) :
    (if registered then pure () else do
      ffi .registerLock
      let _ ← vppcomWorkerRegister
      let idx ← vppcomWorkerIndex
      settleRegistration idx
      ffi .registerUnlock : Vcl Unit).Calls P := by
  refine calls_ite (calls_pure _) ?_
  refine calls_bind (calls_call hl) (fun _ => ?_)
  refine calls_bind (calls_call hr) (fun _ => ?_)
  refine calls_bind (calls_call hi) (fun idx => ?_)
  refine calls_bind ?_ (fun _ => calls_call ho)
  exact calls_ite (calls_call hu) (calls_call hs)

theorem registerWorkerThread_calls : registerWorkerThread.Calls Registers :=
  calls_bind (calls_call .get) (registration_calls .lock .register .index .unregister .set .unlock)

section Ownership

variable {P : Call → Prop} {sh : Handle}

theorem dropSession_calls (h : P (.sessionClose sh)) : (dropSession sh).Calls P :=
  calls_bind (calls_call h) (fun _ => calls_pure _)

theorem owning_calls {α : Type} {body : Vcl α} (hb : body.Calls P) (h : P (.sessionClose sh)) :
    (owning sh body).Calls P := calls_onFail hb (dropSession_calls h)

theorem deregister_calls {r : VclReactor} (hw : P (.waitersRemove r.vep sh))
    (hc : P (.epollCtl r.vep .del sh none)) : (r.deregister sh).Calls P :=
  calls_bind (calls_call hw) (fun _ => calls_bind (calls_call hc) (fun _ => calls_pure _))

end Ownership

section Sessions

variable [Platform] {P : Call → Prop} {sh : Handle}

theorem checkRc_calls (rc : Int) : (checkRc rc).Calls P := calls_rejectIf _

theorem bind_calls (addr : SocketAddr) : (bind sh addr).Calls (Configures sh) :=
  calls_bind (calls_call (.bind _)) (fun _ => checkRc_calls _)

theorem listen_calls (n : ℕ) : (listen sh n).Calls (Configures sh) :=
  calls_bind (calls_call (.listen _)) (fun _ => checkRc_calls _)

theorem connect_calls (addr : SocketAddr) : (connect sh addr).Calls (Configures sh) :=
  calls_bind (calls_call (.connect _)) (fun _ => checkRc_calls _)

theorem setNodelay_calls : (setNodelay sh).Calls (Configures sh) :=
  calls_bind (calls_call (.attr _ (by simp))) (fun _ => checkRc_calls _)

theorem setNonblocking_calls : (setNonblocking sh).Calls (Configures sh) :=
  calls_bind (calls_call (.attr _ (by simp))) (fun _ => checkRc_calls _)

theorem addrAttr_calls (op : Attr) : (addrAttr op sh).Calls (Queries sh) :=
  calls_bind (calls_call (.attr _)) (fun _ => calls_bind (checkRc_calls _) (fun _ => calls_pure _))

theorem sessionRead_calls (buf : List UInt8) : (sessionRead sh buf).Calls (Transfers sh) :=
  calls_bind (calls_call (.read _)) (fun _ => calls_bind (checkRc_calls _) (fun _ => calls_pure _))

theorem sessionWrite_calls (buf : List UInt8) : (sessionWrite sh buf).Calls (Transfers sh) :=
  calls_bind (calls_call (.write _)) (fun _ => calls_bind (checkRc_calls _) (fun _ => calls_pure _))

theorem recvfrom_calls (buf : List UInt8) : (recvfrom sh buf).Calls (Transfers sh) :=
  calls_bind (calls_call (.recvfrom _))
    (fun _ => calls_bind (checkRc_calls _) (fun _ => calls_pure _))

theorem sendto_calls (buf : List UInt8) (dst : SocketAddr) :
    (sendto sh buf dst).Calls (Transfers sh) :=
  calls_bind (calls_call (.sendto _ _))
    (fun _ => calls_bind (checkRc_calls _) (fun _ => calls_pure _))

def created (proto : Proto) (nonblocking : Bool) : Vcl Handle := do
  let rc ← vppcomSessionCreate proto nonblocking
  checkRc rc
  pure (handleOf rc)

theorem created_calls {proto : Proto} {nonblocking : Bool}
    (h : P (.sessionCreate proto nonblocking)) : (created proto nonblocking).Calls P :=
  calls_bind (calls_call h) (fun _ => calls_bind (checkRc_calls _) (fun _ => calls_pure _))

theorem createTcp_calls {nonblocking : Bool} (h : P (.sessionCreate .tcp nonblocking)) :
    (createTcp nonblocking).Calls P := created_calls h

theorem createUdp_calls {nonblocking : Bool} (h : P (.sessionCreate .udp nonblocking)) :
    (createUdp nonblocking).Calls P := created_calls h

theorem startConnect_calls (addr : SocketAddr) : (startConnect sh addr).Calls (Configures sh) := by
  refine calls_bind (calls_attempt (connect_calls addr)) ?_
  intro r
  cases r with
  | ok _ => exact calls_pure _
  | error e => exact calls_ite (calls_pure _) (calls_err _)

theorem bindSource_calls (source : Option SocketAddr) :
    (VclStream.bindSource sh source).Calls (Configures sh) := by
  cases source with
  | none => exact calls_pure _
  | some src => exact bind_calls src

theorem bindEphemeral_calls (ip : IpAddr) (n : ℕ) :
    (bindEphemeral sh ip n).Calls (fun c => Draws c ∨ Configures sh c) := by
  induction n with
  | zero => exact calls_pure _
  | succ n ih =>
    refine calls_bind (calls_call (.inl (.range _ _))) (fun port => ?_)
    refine calls_bind (calls_attempt (Prog.calls_mono (fun _ => .inr) (bind_calls _))) ?_
    intro r
    cases r with
    | ok _ => exact calls_pure _
    | error _ => exact ih

end Sessions

section Reactor

variable {r : VclReactor} {sh : Handle}

theorem register_calls [Platform] {P : Call → Prop} {sh : Handle}
    (h : P (.epollCtl r.vep .add sh (some ⟨epollin ||| epollout ||| epollet,sh.toUInt64⟩))) :
    (r.register sh).Calls P :=
  calls_bind (calls_call h) (fun _ => checkRc_calls _)

def VclStream.dial [Platform] (handle : Handle) (addr : SocketAddr) (source : Option SocketAddr)
    (reactor : VclReactor) : Vcl Unit := do
  let _ ← attempt (setNodelay handle)
  VclStream.bindSource handle source
  reactor.register handle
  startConnect handle addr

theorem VclStream.connectAsync_eq [Platform] (addr : SocketAddr) (source : Option SocketAddr)
    (reactor : VclReactor) (timeout : Duration) :
    VclStream.connectAsync addr source reactor timeout = (do
      registerWorkerThread
      let handle ← createTcp true
      owning handle (do
        VclStream.dial handle addr source reactor
        reactor.waitWritable handle timeout
        pure ⟨handle,reactor⟩)) := by
  simp only [VclStream.connectAsync,VclStream.dial,Fallible.bind_assoc]

theorem dial_calls [Platform] {P : Call → Prop} {addr : SocketAddr} {source : Option SocketAddr}
    (hc : ∀ c, Configures sh c → P c)
    (ha : P (.epollCtl r.vep .add sh (some ⟨epollin ||| epollout ||| epollet,sh.toUInt64⟩))) :
    (VclStream.dial sh addr source r).Calls P := by
  refine calls_bind (calls_attempt (Prog.calls_mono hc setNodelay_calls)) (fun _ => ?_)
  refine calls_bind (Prog.calls_mono hc (bindSource_calls source)) (fun _ => ?_)
  refine calls_bind (register_calls ha) (fun _ => ?_)
  exact Prog.calls_mono hc (startConnect_calls addr)

theorem notifyEach_calls {P : Call → Prop} (hn : ∀ x, P (.notifyOne r.vep x))
    (es : List EpollEvent) : (r.notifyEach es).Calls P := by
  induction es with
  | nil => exact calls_pure _
  | cons e es ih => exact calls_bind (calls_call (hn _)) (fun _ => ih)

theorem drainEvents_calls {P : Call → Prop} (hd : P (.epollWait r.vep 64 0))
    (hn : ∀ x, P (.notifyOne r.vep x)) : r.drainEvents.Calls P := by
  refine calls_loop (fun _ => ?_) _
  refine calls_bind (calls_call hd) (fun x => ?_)
  refine calls_ite (calls_pure _) ?_
  refine calls_bind (notifyEach_calls hn _) (fun _ => ?_)
  exact calls_ite (calls_pure _) (calls_pure _)

theorem tick_calls {P : Call → Prop} (hd : P (.epollWait r.vep 64 0))
    (hn : ∀ x, P (.notifyOne r.vep x)) (he : P (.notifyEvery r.vep)) : r.tick.Calls P :=
  calls_bind (drainEvents_calls hd hn) (fun _ => calls_call he)

theorem waitLoop_calls (n : NotifyId) (t : Instant) : (r.waitLoop n t).Calls (Waits r.vep sh) := by
  refine calls_loop (fun _ => ?_) _
  refine calls_bind (calls_call (.select _ _)) ?_
  rintro ⟨t',sel⟩
  cases sel with
  | readable =>
    refine calls_bind (drainEvents_calls .drain .notify) (fun _ => ?_)
    refine calls_bind (calls_call .clear) (fun _ => ?_)
    refine calls_bind (calls_call (.recheck _)) ?_
    rintro ⟨t'',rec⟩
    cases rec with
    | notified => exact calls_pure _
    | elapsed => exact calls_pure _
    | dropped => exact calls_fail _
  | readFailed e => exact calls_err _
  | notified => exact calls_pure _
  | elapsed => exact calls_err _
  | dropped => exact calls_fail _

theorem waitEvent_calls (mask : UInt32) (t : Duration) :
    (r.waitEvent sh mask t).Calls (Waits r.vep sh) :=
  calls_bind (calls_call .entry) (fun _ => calls_bind (calls_call .now) (fun _ => waitLoop_calls _ _))

theorem waitReadable_calls (t : Duration) : (r.waitReadable sh t).Calls (Waits r.vep sh) :=
  waitEvent_calls _ _

theorem waitWritable_calls (t : Duration) : (r.waitWritable sh t).Calls (Waits r.vep sh) :=
  waitEvent_calls _ _

section Keeping

variable {σ : Type} {C : Contract Call Reply σ} {I : σ → Prop} {E : Stop → σ → Prop} {s : σ}

theorem notifyEach_keeps
    (hI : ∀ s e, I s → Collects r.vep e.op → C.rely s e → C.guar s e ∧ I (C.next s e))
    {es : List EpollEvent} (hs : I s) : C.wpe (r.notifyEach es) (fun _ => I) E s := by
  induction es generalizing s with
  | nil => exact hs
  | cons e es ih =>
    rw [VclReactor.notifyEach,Contract.wpe_bind]
    intro x hx
    obtain ⟨hg,hn⟩ := hI s _ hs (.notify _) hx
    exact ⟨hg,ih hn⟩

theorem drainEvents_keeps
    (hI : ∀ s e, I s → Collects r.vep e.op → C.rely s e → C.guar s e ∧ I (C.next s e))
    (hs : I s) : C.wpe r.drainEvents (fun _ => I) E s := by
  refine C.wpe_loop (fun _ => I) ?_ hs
  intro _ s hs
  simp only [vppcomEpollWait,Contract.wpe_bind,Contract.wpe_call,Contract.wpe_ite,Contract.wpe_pure]
  rintro ⟨n,events⟩ hx
  obtain ⟨hg,hn⟩ := hI s _ hs .drain hx
  refine ⟨hg,?_⟩
  split_ifs with hzero hfull
  · exact hn
  · exact notifyEach_keeps hI hn
  · exact notifyEach_keeps hI hn

theorem drainEvents_still {Q : Unit → σ → Prop}
    (hC : ∀ e, Collects r.vep e.op → C.guar s e ∧ C.next s e = s) (hQ : Q () s) :
    C.wpe r.drainEvents Q E s := by
  have hkeeps : C.wpe r.drainEvents (fun _ s' => s' = s) E s := by
    refine drainEvents_keeps ?_ rfl
    rintro _ e rfl he _
    exact hC e he
  refine C.wpe_mono hkeeps ?_ (fun _ _ h => h)
  rintro _ _ rfl
  exact hQ

theorem waitLoop_rule {Q : Unit → σ → Prop} {n : NotifyId} {t : Instant}
    (hsel : ∀ s x, I s → C.rely s ⟨.select r.vep n t,x⟩ → C.guar s ⟨.select r.vep n t,x⟩ ∧
      match x.2 with
      | .readFailed e => E (.err (.io e)) (C.next s ⟨.select r.vep n t,x⟩)
      | .readable => I (C.next s ⟨.select r.vep n t,x⟩)
      | .notified => Q () (C.next s ⟨.select r.vep n t,x⟩)
      | .elapsed => E (.err .timeout) (C.next s ⟨.select r.vep n t,x⟩)
      | .dropped => E .dropped (C.next s ⟨.select r.vep n t,x⟩))
    (hcollect : ∀ s e, I s → Collects r.vep e.op → C.rely s e → C.guar s e ∧ I (C.next s e))
    (hclear : ∀ s x, I s → C.rely s ⟨.clearReady r.vep,x⟩ →
      C.guar s ⟨.clearReady r.vep,x⟩ ∧ I (C.next s ⟨.clearReady r.vep,x⟩))
    (hre : ∀ s x, I s → C.rely s ⟨.recheck n,x⟩ → C.guar s ⟨.recheck n,x⟩ ∧
      match x.2 with
      | .notified => Q () (C.next s ⟨.recheck n,x⟩)
      | .elapsed => I (C.next s ⟨.recheck n,x⟩)
      | .dropped => E .dropped (C.next s ⟨.recheck n,x⟩))
    (hs : I s) : C.wpe (r.waitLoop n t) Q E s := by
  refine C.wpe_loop (fun _ => I) ?_ hs
  intro _ s hs
  rw [Contract.wpe_bind]
  rintro ⟨now,sel⟩ hx
  obtain ⟨hg,hn⟩ := hsel s (now,sel) hs hx
  refine ⟨hg,?_⟩
  cases sel with
  | readFailed e => exact hn
  | notified => exact hn
  | elapsed => exact hn
  | dropped => exact hn
  | readable =>
    change C.wpe (r.drainEvents >>= fun _ => _) _ _ _
    rw [Contract.wpe_bind]
    refine C.wpe_mono (drainEvents_keeps (E := fun _ _ => False) hcollect hn) ?_ ?_
    · intro _ s hs
      rw [Contract.wpe_bind]
      intro x hx
      obtain ⟨hg,hn⟩ := hclear s x hs hx
      refine ⟨hg,?_⟩
      rw [Contract.wpe_bind]
      rintro ⟨now',again⟩ hx
      obtain ⟨hg',hn'⟩ := hre _ (now',again) hn hx
      refine ⟨hg',?_⟩
      cases again with
      | notified => exact hn'
      | elapsed => exact hn'
      | dropped => exact hn'
    · intro _ _ h
      exact h.elim

theorem waitLoop_keeps
    (hI : ∀ s e, I s → Waits r.vep sh e.op → C.rely s e → C.guar s e ∧ I (C.next s e))
    {n : NotifyId} {deadline : Instant} (hs : I s) :
    C.wpe (r.waitLoop n deadline) (fun _ => I) (fun e s => WaitStop e ∧ I s) s := by
  refine waitLoop_rule ?_ ?_ ?_ ?_ hs
  · rintro s ⟨now,sel⟩ hs hx
    obtain ⟨hg,hn⟩ := hI s _ hs (.select n deadline) hx
    refine ⟨hg,?_⟩
    cases sel with
    | readFailed e => exact ⟨.io e,hn⟩
    | readable => exact hn
    | notified => exact hn
    | elapsed => exact ⟨.timeout,hn⟩
    | dropped => exact ⟨.dropped,hn⟩
  · rintro s ⟨op,x⟩ hs hop hx
    cases hop with
    | drain => exact hI s _ hs .drain hx
    | notify sh' => exact hI s _ hs (.notify sh') hx
  · intro s x hs hx
    exact hI s _ hs .clear hx
  · rintro s ⟨now,again⟩ hs hx
    obtain ⟨hg,hn⟩ := hI s _ hs (.recheck n) hx
    refine ⟨hg,?_⟩
    cases again with
    | notified => exact hn
    | elapsed => exact hn
    | dropped => exact ⟨.dropped,hn⟩

theorem waitEvent_keeps
    (hI : ∀ s e, I s → Waits r.vep sh e.op → C.rely s e → C.guar s e ∧ I (C.next s e))
    {mask : UInt32} {timeout : Duration} (hs : I s) :
    C.wpe (r.waitEvent sh mask timeout) (fun _ => I) (fun e s => WaitStop e ∧ I s) s := by
  rw [VclReactor.waitEvent,Contract.wpe_bind,Contract.wpe_call]
  intro n hx
  obtain ⟨hg,hn⟩ := hI s _ hs .entry hx
  refine ⟨hg,?_⟩
  rw [Contract.wpe_bind]
  intro now hx
  obtain ⟨hg',hn'⟩ := hI _ _ hn .now hx
  exact ⟨hg',waitLoop_keeps hI hn'⟩

end Keeping

end Reactor

section Unguarded

variable {σ α : Type} {C : Contract Call Reply σ} {Q : α → σ → Prop} {s : σ}

theorem owning_unguarded {sh : Handle} {body : Vcl α} (hg : ∀ s e, C.guar s e)
    (h : C.wpe body Q (fun _ _ => True) s) : C.wpe (owning sh body) Q (fun _ _ => True) s := by
  rw [owning,Contract.wpe_onFail]
  apply C.wpe_mono h (fun _ _ hq => hq)
  intro e s' _
  rw [dropSession,Contract.wpe_bind]
  intro rc _
  exact ⟨hg _ _,trivial⟩

theorem join_unguarded {r : Except Stop α} (hg : ∀ s e, C.guar s e)
    (hjoin : ∀ s r, C.next s ⟨.joinBlocking,r⟩ = s) (h : ∀ a, r = .ok a → Q a s) :
    C.wpe (join r) Q (fun _ _ => True) s := by
  rw [join,Contract.wpe_bind]
  intro j _
  rw [hjoin]
  refine ⟨hg _ _,?_⟩
  cases r with
  | ok a =>
    cases j with
    | finished => exact h a rfl
    | dropped => trivial
  | error e => cases j <;> trivial

theorem spawnBlocking_unguarded {closure : Vcl α} (hg : ∀ s e, C.guar s e)
    (hspawn : ∀ s r, C.next s ⟨.spawnBlocking,r⟩ = s)
    (hjoin : ∀ s r, C.next s ⟨.joinBlocking,r⟩ = s)
    (h : C.wpe closure Q (fun _ _ => True) s) :
    C.wpe (spawnBlocking closure) Q (fun _ _ => True) s := by
  rw [spawnBlocking,Contract.wpe_bind]
  intro r _
  rw [hspawn]
  refine ⟨hg _ _,?_⟩
  cases r with
  | error e => trivial
  | ok t =>
    change C.wpe (handle closure join) Q (fun _ _ => True) s
    rw [Contract.wpe_handle]
    apply C.wpe_mono h
    · intro a s' hq
      apply join_unguarded hg hjoin
      rintro _ ⟨⟩
      exact hq
    · intro e s' _
      apply join_unguarded hg hjoin
      rintro _ ⟨⟩

end Unguarded

section Methods

variable [Platform]

theorem read_calls (st : VclStream) (buf : List UInt8) :
    (st.read buf).Calls (Serves st.reactor.vep st.handle) := by
  refine calls_loop (fun _ => ?_) _
  refine calls_bind (calls_attempt (Prog.calls_mono (fun _ => .transfers) (sessionRead_calls buf))) ?_
  intro x
  cases x with
  | ok x => exact calls_ite (calls_err _) (calls_pure _)
  | error e =>
    refine calls_ite (calls_bind ?_ (fun _ => calls_pure _)) (calls_err _)
    exact Prog.calls_mono (fun _ => .waits) (waitReadable_calls _)

theorem readExact_calls (st : VclStream) (buf : List UInt8) :
    (st.readExact buf).Calls (Serves st.reactor.vep st.handle) := by
  refine calls_loop (fun pst => ?_) _
  exact calls_ite (calls_bind (read_calls st _) (fun _ => calls_pure _)) (calls_pure _)

theorem writeAll_calls (st : VclStream) (buf : List UInt8) :
    (st.writeAll buf).Calls (Serves st.reactor.vep st.handle) := by
  refine calls_loop (fun pos => ?_) _
  refine calls_ite ?_ (calls_pure _)
  refine calls_bind (calls_attempt (Prog.calls_mono (fun _ => .transfers) (sessionWrite_calls _))) ?_
  intro x
  cases x with
  | ok n => exact calls_pure _
  | error e =>
    refine calls_ite (calls_bind ?_ (fun _ => calls_pure _)) (calls_err _)
    exact Prog.calls_mono (fun _ => .waits) (waitWritable_calls _)

theorem address_calls {vep sh : Handle} (op : Attr) :
    (attempt (addrAttr op sh)).Calls (Serves vep sh) :=
  calls_attempt (Prog.calls_mono (fun _ => .queries) (addrAttr_calls op))

omit [Platform] in
theorem arm_calls (st : VclStream) : st.arm.Calls (Serves st.reactor.vep st.handle) :=
  calls_bind (calls_call (.waits .entry))
    (fun _ => calls_bind (calls_call (.waits .now)) (fun _ => calls_pure _))

omit [Platform] in
theorem pollPending_calls (st : VclStream) (pending : Bool) (cx : ℕ) :
    (st.pollPending pending cx).Calls (Serves st.reactor.vep st.handle) :=
  calls_ite (calls_call (.waits (.poll cx))) (calls_pure _)

theorem pollRead_calls (st : VclStream) (pending : Bool) (cx : ℕ) (unfilled : List UInt8) :
    (st.pollRead pending cx unfilled).Calls (Serves st.reactor.vep st.handle) := by
  refine calls_loop (fun pending => ?_) _
  refine calls_bind (pollPending_calls st pending cx) ?_
  intro x
  match x with
  | .pending => exact calls_pure _
  | .ready (.error e) => exact calls_pure _
  | .ready (.ok _) =>
    refine calls_bind (calls_attempt (Prog.calls_mono (fun _ => .transfers) (sessionRead_calls _))) ?_
    intro y
    cases y with
    | ok y => exact calls_pure _
    | error e =>
      refine calls_ite (calls_bind (arm_calls st) (fun _ => calls_pure _)) ?_
      exact calls_ite (calls_pure _) (calls_pure _)

theorem pollWrite_calls (st : VclStream) (pending : Bool) (cx : ℕ) (buf : List UInt8) :
    (st.pollWrite pending cx buf).Calls (Serves st.reactor.vep st.handle) := by
  refine calls_loop (fun pending => ?_) _
  refine calls_bind (pollPending_calls st pending cx) ?_
  intro x
  match x with
  | .pending => exact calls_pure _
  | .ready (.error e) => exact calls_pure _
  | .ready (.ok _) =>
    refine calls_bind (calls_attempt (Prog.calls_mono (fun _ => .transfers) (sessionWrite_calls _))) ?_
    intro y
    cases y with
    | ok y => exact calls_pure _
    | error e => exact calls_ite (calls_bind (arm_calls st) (fun _ => calls_pure _)) (calls_pure _)

theorem pollShutdown_calls (st : VclStream) :
    st.pollShutdown.Calls (Serves st.reactor.vep st.handle) :=
  calls_bind (calls_call (.configures (.shutdown _)))
    (fun _ => calls_ite (calls_pure _) (calls_pure _))

omit [Platform] in
theorem swallow_calls {r : VclReactor} {sh : Handle} {α : Type} (a : α) :
    Fallible.Calls (Serves r.vep sh) (do
      match ← attempt (r.waitReadable sh (secs 300)) with
      | .ok _ => pure a
      | .error e => if e = .timeout then pure a else err e) := by
  refine calls_bind (calls_attempt (Prog.calls_mono (fun _ => .waits) (waitReadable_calls _))) ?_
  intro x
  cases x with
  | ok _ => exact calls_pure _
  | error e => exact calls_ite (calls_pure _) (calls_err _)

theorem recvFrom_calls (d : VclDgramSocket) (buf : List UInt8) :
    (d.recvFrom buf).Calls (Serves d.reactor.vep d.handle) := by
  refine calls_loop (fun _ => ?_) _
  refine calls_bind (calls_attempt (Prog.calls_mono (fun _ => .transfers) (recvfrom_calls buf))) ?_
  intro x
  cases x with
  | ok x => exact calls_pure _
  | error e => exact calls_ite (swallow_calls _) (calls_err _)

theorem tryRecvFrom_calls (d : VclDgramSocket) (buf : List UInt8) :
    (d.tryRecvFrom buf).Calls (Serves d.reactor.vep d.handle) := by
  refine calls_bind (calls_attempt (Prog.calls_mono (fun _ => .transfers) (recvfrom_calls buf))) ?_
  intro x
  cases x with
  | ok x => exact calls_pure _
  | error e => exact calls_ite (calls_pure _) (calls_err _)

theorem sendTo_calls (d : VclDgramSocket) (buf : List UInt8) (dst : SocketAddr) :
    (d.sendTo buf dst).Calls (Serves d.reactor.vep d.handle) := by
  refine calls_loop (fun _ => ?_) _
  refine calls_bind (calls_attempt (Prog.calls_mono (fun _ => .transfers) (sendto_calls buf dst))) ?_
  intro x
  cases x with
  | ok n => exact calls_pure _
  | error e =>
    refine calls_ite (calls_bind ?_ (fun _ => calls_pure _)) (calls_err _)
    exact Prog.calls_mono (fun _ => .waits) (waitWritable_calls _)

end Methods

section Conversations

variable [Platform] {vep sh : Handle}

theorem awaitDatagram_calls (deadline : Instant) :
    (awaitDatagram sh deadline).Calls (Converses vep sh) := by
  refine calls_loop (fun buf => ?_) _
  refine calls_bind (calls_attempt (Prog.calls_mono (fun _ => .transfers) (recvfrom_calls buf))) ?_
  intro x
  cases x with
  | ok x => exact calls_pure _
  | error e =>
    refine calls_ite ?_ (calls_err _)
    refine calls_bind (calls_call (.drains .now)) (fun now => ?_)
    refine calls_bind (calls_rejectIf _) (fun _ => ?_)
    exact calls_bind (calls_call (.sleep _)) (fun _ => calls_pure _)

theorem udpQuery_calls (u : VclUdpSyncSocket) (peer : SocketAddr) (query : List UInt8)
    (timeout : Duration) : (u.query peer query timeout).Calls (Converses vep u.handle) := by
  refine calls_bind (Prog.calls_mono (fun _ => .transfers) (sendto_calls query peer)) (fun _ => ?_)
  refine calls_bind (calls_call (.drains .now)) (fun start => ?_)
  refine calls_loop (fun buf => ?_) _
  refine calls_bind (calls_attempt (Prog.calls_mono (fun _ => .transfers) (recvfrom_calls buf))) ?_
  intro x
  cases x with
  | ok x => exact calls_ite (calls_pure _) (calls_pure _)
  | error e =>
    refine calls_ite ?_ (calls_err _)
    refine calls_bind (calls_call (.drains .now)) (fun now => ?_)
    refine calls_bind (calls_rejectIf _) (fun _ => ?_)
    exact calls_bind (calls_call (.sleep _)) (fun _ => calls_pure _)

theorem writeLoop_calls (deadline : Instant) (framed : List UInt8) :
    (writeLoop sh vep deadline framed).Calls (Converses vep sh) := by
  refine calls_loop (fun sent => ?_) _
  refine calls_ite ?_ (calls_pure _)
  refine calls_bind (calls_attempt (Prog.calls_mono (fun _ => .transfers) (sessionWrite_calls _))) ?_
  intro x
  cases x with
  | ok n => exact calls_pure _
  | error e =>
    refine calls_ite ?_ (calls_err _)
    refine calls_bind (calls_call (.drains .now)) (fun now => ?_)
    refine calls_bind (calls_rejectIf _) (fun _ => ?_)
    refine calls_bind (calls_bind (calls_call (.drains (.wait _ _))) (fun _ => calls_pure _)) ?_
    exact fun _ => calls_pure _

theorem readLoop_calls (deadline : Instant) (buf : List UInt8) :
    (readLoop sh vep deadline buf).Calls (Converses vep sh) := by
  refine calls_loop (fun st => ?_) _
  refine calls_ite ?_ (calls_pure _)
  refine calls_bind (calls_call (.drains .now)) (fun now => ?_)
  refine calls_bind (calls_rejectIf _) (fun _ => ?_)
  refine calls_bind (calls_attempt (Prog.calls_mono (fun _ => .transfers) (sessionRead_calls _))) ?_
  intro x
  cases x with
  | ok x => exact calls_ite (calls_err _) (calls_pure _)
  | error e =>
    refine calls_ite ?_ (calls_err _)
    refine calls_bind (calls_bind (calls_call (.drains (.wait _ _))) (fun _ => calls_pure _)) ?_
    exact fun _ => calls_pure _

omit [Platform] in
theorem ofExcept_calls {α : Type} {P : Call → Prop} (x : Except VclError α) :
    (ofExcept x).Calls P := by
  cases x with
  | ok a => exact calls_pure _
  | error e => exact calls_err _

theorem exchange_calls (st : VclStream) (query : List UInt8) :
    (exchange st query).Calls (Serves st.reactor.vep st.handle) := by
  refine calls_bind (ofExcept_calls _) (fun framed => ?_)
  refine calls_bind (writeAll_calls st framed) (fun _ => ?_)
  refine calls_bind (readExact_calls st _) (fun lenbuf => ?_)
  exact calls_bind (ofExcept_calls _) (fun len => readExact_calls st _)

omit [Platform] in
theorem genPorts_calls (n : ℕ) : (genPorts n).Calls Draws := by
  induction n with
  | zero => exact calls_pure _
  | succ n ih =>
    refine calls_bind (calls_call (.range _ _)) (fun port => ?_)
    exact calls_bind ih (fun ports => calls_pure _)

omit [Platform] in
theorem familyIp_calls {P : Call → Prop} (source : Option IpAddr) (isV6 : Bool) :
    (VclUdpSyncSocket.familyIp source isV6).Calls P := by
  rcases source with _ | ⟨octets⟩ | ⟨octets⟩ <;> cases isV6 <;> trivial

omit [Platform] in
theorem sourceIp_calls {P : Call → Prop} (source : Option IpAddr) (peer : SocketAddr) :
    (sourceIp source peer).Calls P := by
  cases source with
  | none => exact calls_pure _
  | some ip => exact calls_ite (calls_err _) (calls_pure _)

theorem bindSourceIp_calls (peer : SocketAddr) (source : Option IpAddr) :
    (bindSourceIp sh peer source).Calls (fun c => Draws c ∨ Configures sh c) := by
  cases source with
  | none => exact calls_pure _
  | some ip =>
    refine calls_ite (calls_err _) ?_
    exact calls_bind (bindEphemeral_calls ip 8) (fun _ => calls_rejectIf _)

theorem exchangeSync_calls (peer : SocketAddr) (query : List UInt8) (timeout : Duration) :
    (exchangeSync sh vep peer query timeout).Calls (Converses vep sh) := by
  have hstart : (startConnect sh peer).Calls (Converses vep sh) :=
    Prog.calls_mono (fun _ => .configures) (startConnect_calls peer)
  refine calls_bind hstart (fun _ => ?_)
  refine calls_bind (calls_call (.drains .now)) (fun start => ?_)
  refine calls_bind (ofExcept_calls _) (fun framed => ?_)
  refine calls_bind (writeLoop_calls _ _) (fun _ => ?_)
  refine calls_bind (readLoop_calls _ _) (fun lenbuf => ?_)
  exact calls_bind (ofExcept_calls _) (fun len => readLoop_calls _ _)

end Conversations

end VclRs
