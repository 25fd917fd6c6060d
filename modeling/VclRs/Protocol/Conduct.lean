import VclRs.Protocol.Footings

namespace VclRs

open Interaction Fallible

abbrev Restores (V : Footings) : Stop → Footings → Prop := fun _ V' => V' = V

def Amid (V : Footings) (sh : Handle) (V' : Footings) : Prop := ∃ x, V' = Function.update V sh x

section Rules

variable {V V' : Footings} {α β : Type} {x : Vcl α} {vep sh : Handle}
variable {Q : α → Footings → Prop} {E : Stop → Footings → Prop}

theorem amid_closed (h : Amid V sh V') (hs : V sh = .absent) :
    Function.update V' sh .absent = V := by
  obtain ⟨y,rfl⟩ := h
  rw [Function.update_idem,← hs,Function.update_eq_self]

theorem update_poller {y : Footing} (hs : V sh = .absent) (hv : V vep = .poller) :
    Function.update V sh y vep = .poller := by
  have hne : vep ≠ sh := by
    rintro rfl
    cases hs.symm.trans hv
  rw [Function.update_of_ne hne]
  exact hv

theorem conducts_bind {f : α → Vcl β} {R : α → Footings → Prop} {Q : β → Footings → Prop}
    (hx : conduct.wpe x R E V) (hf : ∀ a V', R a V' → conduct.wpe (f a) Q E V') :
    conduct.wpe (x >>= f) Q E V := by
  rw [Contract.wpe_bind]
  exact Contract.wpe_mono _ hx hf (fun _ _ h => h)

theorem conducts_after {f : α → Vcl β} {Q : β → Footings → Prop} (hx : x.Calls (Uses V))
    (hE : ∀ e, E e V) (hf : ∀ a, conduct.wpe (f a) Q E V) : conduct.wpe (x >>= f) Q E V := by
  rw [Contract.wpe_bind]
  exact uses_wpe hx hf hE

theorem close_conducts {Q : Int → Footings → Prop} (h : ∀ rc, Q rc (Function.update V sh .absent)) :
    conduct.wpe (vppcomSessionClose sh) Q E V := by
  intro rc _
  exact ⟨trivial,h rc⟩

theorem dropSession_conducts {Q : Unit → Footings → Prop} (h : Q () (Function.update V sh .absent)) :
    conduct.wpe (dropSession sh) Q E V := by
  rw [dropSession,Contract.wpe_bind]
  exact close_conducts (fun _ => h)

theorem owning_conducts
    (h : conduct.wpe x Q (fun e V' => E e (Function.update V' sh .absent)) V) :
    conduct.wpe (owning sh x) Q E V := by
  rw [owning,Contract.wpe_onFail]
  exact Contract.wpe_mono _ h (fun _ _ hq => hq) (fun _ _ he => dropSession_conducts he)

theorem holding_conducts
    (h : conduct.wpe x (fun a V' => Q a (Function.update V' sh .absent))
      (fun e V' => E e (Function.update V' sh .absent)) V) :
    conduct.wpe (holding sh x) Q E V := by
  rw [holding,Contract.wpe_ensuring]
  exact Contract.wpe_mono _ h (fun _ _ hq => dropSession_conducts hq)
    (fun _ _ he => dropSession_conducts he)

theorem granting_conducts {rc : Int} {y : Footing} {R : Vcl α} (hV : ∀ sh ∈ handleIf rc, V sh = .absent)
    (hE : ∀ e, E e V) (hR : 0 ≤ rc → V (handleOf rc) = .absent →
      conduct.wpe R Q E (Function.update V (handleOf rc) y)) (e : VclError) :
    conduct.wpe (do
      rejectIf (rc < 0) e
      R) Q E ((granting rc y).apply V) := by
  rw [Contract.wpe_bind,wpe_rejectIf,granting]
  split_ifs with hneg
  · exact hE _
  · refine hR (not_lt.mp hneg) (hV _ ?_)
    rw [handleIf,if_neg hneg]
    exact Multiset.mem_singleton_self _

variable [Platform]

theorem created_conducts {proto : Proto} {nonblocking : Bool} :
    conduct.wpe (created proto nonblocking)
      (fun sh V' => V sh = .absent ∧ V' = Function.update V sh (.idle proto)) (Restores V) V := by
  rw [created,Contract.wpe_bind]
  intro (rc : Int) hrely
  have hgrant (_ : 0 ≤ rc) (hs : V (handleOf rc) = .absent) :
      conduct.wpe (pure (handleOf rc))
        (fun sh V' => V sh = .absent ∧ V' = Function.update V sh (.idle proto)) (Restores V)
        (Function.update V (handleOf rc) (.idle proto)) := ⟨hs,rfl⟩
  exact ⟨trivial,granting_conducts (E := Restores V) hrely (fun _ => rfl) hgrant _⟩

theorem createTcp_conducts {nonblocking : Bool} :
    conduct.wpe (createTcp nonblocking)
      (fun sh V' => V sh = .absent ∧ V' = Function.update V sh (.idle .tcp)) (Restores V) V :=
  created_conducts

theorem createUdp_conducts {nonblocking : Bool} :
    conduct.wpe (createUdp nonblocking)
      (fun sh V' => V sh = .absent ∧ V' = Function.update V sh (.idle .udp)) (Restores V) V :=
  created_conducts

theorem bind_conducts {proto : Proto} {addr : SocketAddr} (hs : V sh = .idle proto) :
    conduct.wpe (bind sh addr) (fun _ V' => V' = Function.update V sh (.bound proto))
      (Restores V) V := by
  rw [bind,Contract.wpe_bind]
  intro (rc : Int) _
  have hlegal : (V sh).Idle := by
    rw [hs]
    trivial
  refine ⟨hlegal,?_⟩
  change conduct.wpe (checkRc rc) _ _ ((conceding rc sh .bind).apply V)
  rw [checkRc,wpe_rejectIf,conceding]
  split_ifs with hneg
  · rfl
  · change Function.update V sh (V sh).bind = _
    rw [hs]
    rfl

theorem listen_conducts {proto : Proto} {backlog : ℕ} (hs : V sh = .bound proto) :
    conduct.wpe (listen sh backlog) (fun _ V' => V' = Function.update V sh (.listening proto))
      (Restores V) V := by
  rw [listen,Contract.wpe_bind]
  intro (rc : Int) _
  have hlegal : (V sh).Bound := by
    rw [hs]
    trivial
  refine ⟨hlegal,?_⟩
  change conduct.wpe (checkRc rc) _ _ ((conceding rc sh .listen).apply V)
  rw [checkRc,wpe_rejectIf,conceding]
  split_ifs with hneg
  · rfl
  · change Function.update V sh (V sh).listen = _
    rw [hs]
    rfl

theorem connect_conducts {proto : Proto} {addr : SocketAddr}
    (hs : V sh = .idle proto ∨ V sh = .bound proto) :
    conduct.wpe (connect sh addr) (fun _ V' => V' = Function.update V sh (.joined proto))
      (fun e V' => Amid V sh V' ∧
        (e = .err .wouldBlock → V' = Function.update V sh (.joined proto))) V := by
  rw [connect,Contract.wpe_bind]
  intro (rc : Int) _
  have hlegal : (V sh).Idle ∨ (V sh).Bound := by
    rcases hs with hs | hs
    · rw [hs]
      exact .inl trivial
    · rw [hs]
      exact .inr trivial
  have hjoined : Function.update V sh (V sh).connect = Function.update V sh (.joined proto) := by
    rcases hs with hs | hs
    · rw [hs]
      rfl
    · rw [hs]
      rfl
  refine ⟨hlegal,?_⟩
  change conduct.wpe (checkRc rc) _ _ ((underway rc sh).apply V)
  rw [checkRc,wpe_rejectIf,underway]
  split_ifs with hneg hway hway
  · exact ⟨⟨_,rfl⟩,fun _ => hjoined⟩
  · refine ⟨⟨V sh,(Function.update_eq_self sh V).symm⟩,?_⟩
    intro hblock
    have hrc : fromRc rc = .wouldBlock := Stop.err.inj hblock
    rw [fromRc_wouldBlock_iff] at hrc
    simp only [ewouldblock,eagain,einprogress] at hway
    omega
  · exact hjoined
  · omega

theorem startConnect_conducts {proto : Proto} {addr : SocketAddr}
    (hs : V sh = .idle proto ∨ V sh = .bound proto) :
    conduct.wpe (startConnect sh addr) (fun _ V' => V' = Function.update V sh (.joined proto))
      (fun _ V' => Amid V sh V') V := by
  rw [startConnect,Contract.wpe_bind,wpe_attempt]
  refine Contract.wpe_mono _ (connect_conducts hs) (fun _ _ h => h) ?_
  rintro e V' ⟨hamid,hblock⟩
  cases e with
  | dropped => exact hamid
  | err e =>
    change conduct.wpe (if e = .wouldBlock then pure () else err e) _ _ V'
    rw [Contract.wpe_ite]
    split_ifs with he
    · subst he
      exact hblock rfl
    · exact hamid

end Rules

section Binding

variable [Platform] {V : Footings} {sh : Handle}

omit [Platform] in
theorem watchSession_conducts {vep : Handle} {mask : UInt32} (hv : V vep = .poller)
    (hs : (V sh).Session) :
    conduct.wpe (watchSession vep sh mask) (fun _ V' => V' = V)
      (fun _ V' => V' = Function.update V vep .absent) V := by
  simp only [watchSession,Contract.wpe_bind,Contract.wpe_call,Contract.wpe_ite,Contract.wpe_pure,
    wpe_err]
  intro rv _
  refine ⟨⟨hv,hs⟩,?_⟩
  split_ifs with hneg
  · exact close_conducts (E := fun _ _ => True) (fun _ => rfl)
  · rfl

omit [Platform] in
theorem drainFor_conducts {vep : Handle} {deadline : Instant} {Q : Unit → Footings → Prop}
    {E : Stop → Footings → Prop} (hv : V vep = .poller) (hQ : Q () V) :
    conduct.wpe (drainFor vep deadline) Q E V := by
  refine Contract.wpe_loop _ (fun _ V' => V' = V) ?_ rfl
  rintro _ _ rfl
  simp only [Contract.wpe_bind,Contract.wpe_call,Contract.wpe_ite,Contract.wpe_pure]
  intro now _
  refine ⟨trivial,?_⟩
  split_ifs with hearly
  · intro n _
    exact ⟨hv,rfl⟩
  · exact hQ

theorem verifyBindOrErr_conducts {requested : SocketAddr} (hs : (V sh).Session) :
    conduct.wpe (verifyBindOrErr sh requested) (fun _ V' => V' = V) (fun _ V' => Amid V sh V') V := by
  have hself : Amid V sh V := ⟨V sh,(Function.update_eq_self sh V).symm⟩
  rw [verifyBindOrErr,Contract.wpe_bind]
  intro vep hrely
  refine ⟨trivial,granting_conducts hrely (fun _ => hself) ?_ _⟩
  intro _ hvep
  have hback : Function.update (Function.update V (handleOf vep) .poller) (handleOf vep) .absent =
      V := amid_closed ⟨_,rfl⟩ hvep
  have hne : sh ≠ handleOf vep := by
    rintro rfl
    rw [hvep] at hs
    exact hs
  have hpoll : Function.update V (handleOf vep) .poller (handleOf vep) = .poller :=
    Function.update_self _ _ _
  have hsession : (Function.update V (handleOf vep) .poller sh).Session := by
    rw [Function.update_of_ne hne]
    exact hs
  have hconfirm : conduct.wpe (do
      let actual ← owning sh (queryBound sh requested)
      rejectIf (actual.port ≠ requested.port) (mismatched actual requested))
      (fun _ V' => V' = V) (fun _ V' => Amid V sh V') V := by
    refine conducts_bind (owning_conducts (uses_wpe (queryBound_uses hs requested)
      (Q := fun _ V' => V' = V) (fun _ => rfl) (fun _ => ⟨_,rfl⟩))) ?_
    rintro actual _ rfl
    rw [wpe_rejectIf]
    split_ifs
    · exact hself
    · rfl
  rw [Contract.wpe_bind]
  refine Contract.wpe_mono _ (watchSession_conducts hpoll hsession) ?_ ?_
  · rintro _ _ rfl
    rw [Contract.wpe_bind]
    refine Contract.wpe_call_still _ (fun _ => ⟨trivial,rfl⟩) (fun start => ?_)
    rw [Contract.wpe_bind]
    refine drainFor_conducts hpoll ?_
    rw [Contract.wpe_bind]
    refine close_conducts (fun _ => ?_)
    rw [hback]
    exact hconfirm
  · rintro _ _ rfl
    rw [hback]
    exact hself

theorem bound_conducts {proto : Proto} {addr : SocketAddr} {backlog : ℕ} {r : VclReactor}
    {α : Type} (x : α) (hs : V sh = .absent) (hv : V r.vep = .poller) :
    conduct.wpe (owning sh (do
      bind sh addr
      listen sh backlog
      verifyBindOrErr sh addr
      r.register sh
      pure x)) (fun y V' => y = x ∧ V' = Function.update V sh (.listening proto)) (Restores V)
      (Function.update V sh (.idle proto)) := by
  refine owning_conducts ?_
  have hrest {W : Footings} (h : Amid V sh W) :
      Restores V .dropped (Function.update W sh .absent) := amid_closed h hs
  rw [Contract.wpe_bind]
  refine Contract.wpe_mono _ (bind_conducts (Function.update_self _ _ _)) ?_ ?_
  · rintro _ _ rfl
    rw [Function.update_idem,Contract.wpe_bind]
    refine Contract.wpe_mono _ (listen_conducts (Function.update_self _ _ _)) ?_ ?_
    · rintro _ _ rfl
      rw [Function.update_idem,Contract.wpe_bind]
      have hlistening : (Function.update V sh (.listening proto) sh).Session := by
        rw [Function.update_self]
        trivial
      refine Contract.wpe_mono _ (verifyBindOrErr_conducts hlistening) ?_ ?_
      · rintro _ _ rfl
        exact conducts_after (register_uses (update_poller hs hv) hlistening)
          (fun _ => hrest ⟨_,rfl⟩) (fun _ => ⟨rfl,rfl⟩)
      · rintro _ _ ⟨y,rfl⟩
        rw [Function.update_idem]
        exact hrest ⟨_,rfl⟩
    · rintro _ _ rfl
      exact hrest ⟨_,rfl⟩
  · rintro _ _ rfl
    exact hrest ⟨_,rfl⟩

theorem listenerBind_conducts {addr : SocketAddr} {r : VclReactor} (hv : V r.vep = .poller) :
    conduct.wpe (VclListener.bind addr r)
      (fun l V' => l.reactor = r ∧ V' l.handle = .listening .tcp) (Restores V) V := by
  refine conducts_after registerWorkerThread_uses (fun _ => rfl) (fun _ => ?_)
  refine conducts_bind createTcp_conducts ?_
  rintro sh _ ⟨hs,rfl⟩
  refine Contract.wpe_mono _ (bound_conducts _ hs hv) ?_ (fun _ _ h => h)
  rintro _ _ ⟨rfl,rfl⟩
  exact ⟨rfl,Function.update_self _ _ _⟩

theorem dgramBind_conducts {addr : SocketAddr} {r : VclReactor} (hv : V r.vep = .poller) :
    conduct.wpe (VclDgramSocket.bind addr r)
      (fun d V' => d.reactor = r ∧ V' d.handle = .listening .udp) (Restores V) V := by
  refine conducts_after registerWorkerThread_uses (fun _ => rfl) (fun _ => ?_)
  refine conducts_bind createUdp_conducts ?_
  rintro sh _ ⟨hs,rfl⟩
  refine Contract.wpe_mono _ (bound_conducts _ hs hv) ?_ (fun _ _ h => h)
  rintro _ _ ⟨rfl,rfl⟩
  exact ⟨rfl,Function.update_self _ _ _⟩

theorem bindAttempts_conducts {ipStr : String} {r : VclReactor} (hv : V r.vep = .poller) (n : ℕ)
    (lastErr : Option VclError) :
    conduct.wpe (VclDgramSocket.bindAttempts ipStr r n lastErr)
      (fun d V' => d.reactor = r ∧ V' d.handle = .listening .udp) (Restores V) V := by
  induction n generalizing lastErr with
  | zero => rfl
  | succ n ih =>
    refine conducts_after (calls_call ⟨trivial,fun _ => rfl⟩) (fun _ => rfl) (fun port => ?_)
    cases SocketAddr.parse s!"{ipStr}:{port}" with
    | none => rfl
    | some addr =>
      rw [Contract.wpe_bind,wpe_attempt]
      refine Contract.wpe_mono _ (dgramBind_conducts hv) (fun _ _ h => h) ?_
      rintro e _ rfl
      cases e with
      | err e => exact ih (some e)
      | dropped => rfl

end Binding

section Dialling

variable [Platform] {V : Footings} {sh : Handle} {r : VclReactor}

theorem bindSource_conducts {source : Option SocketAddr} {proto : Proto}
    (hs : V sh = .idle proto) :
    conduct.wpe (VclStream.bindSource sh source)
      (fun _ V' => Amid V sh V' ∧ (V' sh = .idle proto ∨ V' sh = .bound proto)) (Restores V) V := by
  cases source with
  | none => exact ⟨⟨_,(Function.update_eq_self sh V).symm⟩,.inl hs⟩
  | some src =>
    refine Contract.wpe_mono _ (bind_conducts hs) ?_ (fun _ _ h => h)
    rintro _ _ rfl
    exact ⟨⟨_,rfl⟩,.inr (Function.update_self _ _ _)⟩

theorem dial_conducts {addr : SocketAddr} {source : Option SocketAddr} (hs : V sh = .absent)
    (hv : V r.vep = .poller) :
    conduct.wpe (VclStream.dial sh addr source r)
      (fun _ V' => V' = Function.update V sh (.joined .tcp)) (fun _ V' => Amid V sh V')
      (Function.update V sh (.idle .tcp)) := by
  have hidle : Function.update V sh (.idle .tcp) sh = .idle .tcp := Function.update_self _ _ _
  have hsession : (Function.update V sh (.idle .tcp) sh).Session := by
    rw [hidle]
    trivial
  refine conducts_after (calls_attempt (setNodelay_uses hsession)) (fun _ => ⟨_,rfl⟩) (fun _ => ?_)
  rw [Contract.wpe_bind]
  refine Contract.wpe_mono _ (bindSource_conducts hidle) ?_ ?_
  · rintro _ _ ⟨⟨y,rfl⟩,hy⟩
    rw [Function.update_idem] at hy ⊢
    have hopen : (Function.update V sh y sh).Session := by
      rcases hy with hy | hy
      · rw [hy]
        trivial
      · rw [hy]
        trivial
    refine conducts_after (register_uses (update_poller hs hv) hopen) (fun _ => ⟨_,rfl⟩)
      (fun _ => ?_)
    refine Contract.wpe_mono _ (startConnect_conducts hy) ?_ ?_
    · rintro _ _ rfl
      rw [Function.update_idem]
    · rintro _ _ ⟨z,rfl⟩
      exact ⟨z,Function.update_idem _ _ _⟩
  · rintro _ _ rfl
    exact ⟨_,rfl⟩

theorem connectAsync_conducts {addr : SocketAddr} {source : Option SocketAddr} {timeout : Duration}
    (hv : V r.vep = .poller) :
    conduct.wpe (VclStream.connectAsync addr source r timeout)
      (fun st V' => st.reactor = r ∧ V st.handle = .absent ∧
        V' = Function.update V st.handle (.joined .tcp)) (Restores V) V := by
  rw [VclStream.connectAsync_eq]
  refine conducts_after registerWorkerThread_uses (fun _ => rfl) (fun _ => ?_)
  refine conducts_bind createTcp_conducts ?_
  rintro sh _ ⟨hs,rfl⟩
  have hrest {W : Footings} (h : Amid V sh W) :
      Restores V .dropped (Function.update W sh .absent) := amid_closed h hs
  refine owning_conducts ?_
  rw [Contract.wpe_bind]
  refine Contract.wpe_mono _ (dial_conducts hs hv) ?_ (fun _ _ h => hrest h)
  rintro _ _ rfl
  have hjoined : (Function.update V sh (.joined .tcp) sh).Session := by
    rw [Function.update_self]
    trivial
  refine conducts_after (Prog.calls_mono (fun _ => waits_uses (update_poller hs hv) hjoined)
    (waitWritable_calls timeout)) (fun _ => hrest ⟨_,rfl⟩) (fun _ => ?_)
  exact ⟨rfl,hs,rfl⟩

theorem blockingConnect_conducts {addr : SocketAddr} :
    conduct.wpe (VclStream.blockingConnect addr) (fun sh V' => V' sh = .joined .tcp)
      (fun _ _ => True) V := by
  refine conducts_after registerWorkerThread_uses (fun _ => trivial) (fun _ => ?_)
  rw [Contract.wpe_bind]
  intro (rc : Int) hrely
  refine ⟨trivial,granting_conducts hrely (fun _ => trivial) ?_ _⟩
  intro _ hs
  rw [Contract.wpe_bind]
  intro (rc' : Int) _
  refine ⟨.inl (by rw [Function.update_self]; trivial),?_⟩
  change conduct.wpe (if rc' < 0 then _ else _) _ _ ((underway rc' (handleOf rc)).apply _)
  rw [Contract.wpe_ite]
  split_ifs with hneg
  · rw [Contract.wpe_bind]
    exact close_conducts (fun _ => trivial)
  · rw [underway,if_pos (.inl (not_lt.mp hneg))]
    change Function.update _ _ _ (handleOf rc) = _
    rw [Function.update_self,Function.update_self]
    rfl

omit [Platform] in
theorem join_conducts {α : Type} {x : Except Stop α} {Q : α → Footings → Prop}
    (hQ : ∀ a, x = .ok a → Q a V) : conduct.wpe (join x) Q (fun _ _ => True) V := by
  rw [join,Contract.wpe_bind,Contract.wpe_call]
  intro j _
  refine ⟨trivial,?_⟩
  cases j with
  | dropped => trivial
  | finished =>
    cases x with
    | ok a => exact hQ a rfl
    | error e => trivial

omit [Platform] in
theorem spawnBlocking_conducts {α : Type} {closure : Vcl α} {Q : α → Footings → Prop}
    (h : conduct.wpe closure Q (fun _ _ => True) V) :
    conduct.wpe (spawnBlocking closure) Q (fun _ _ => True) V := by
  rw [spawnBlocking,Contract.wpe_bind,Contract.wpe_call]
  intro x _
  refine ⟨trivial,?_⟩
  cases x with
  | error e => trivial
  | ok pool =>
    change conduct.wpe (closure.handle join) _ _ V
    rw [Contract.wpe_handle]
    refine Contract.wpe_mono _ h ?_ ?_
    · intro a V' hq
      refine join_conducts ?_
      rintro _ ⟨⟩
      exact hq
    · intro e V' _
      refine join_conducts ?_
      rintro _ ⟨⟩

theorem connect_stream_conducts {addr : SocketAddr} {source : Option SocketAddr}
    {timeout : Duration} :
    conduct.wpe (VclStream.connect addr source timeout r)
      (fun st V' => st.reactor = r ∧ V' st.handle = .joined .tcp) (fun _ _ => True) V := by
  refine conducts_after registerWorkerThread_uses (fun _ => trivial) (fun _ => ?_)
  refine conducts_bind (Contract.wpe_mono _ createTcp_conducts (fun _ _ h => h)
    (fun _ _ _ => trivial)) ?_
  rintro sh _ ⟨-,rfl⟩
  have hidle : Function.update V sh (.idle .tcp) sh = .idle .tcp := Function.update_self _ _ _
  have hsession : (Function.update V sh (.idle .tcp) sh).Session := by
    rw [hidle]
    trivial
  refine conducts_bind (R := fun h W => W h = .joined .tcp) (owning_conducts ?_) ?_
  · refine conducts_after (calls_attempt (setNodelay_uses hsession)) (fun _ => trivial)
      (fun _ => ?_)
    refine conducts_bind (Contract.wpe_mono _ (bindSource_conducts hidle) (fun _ _ h => h)
      (fun _ _ _ => trivial)) ?_
    intro _ W _
    exact spawnBlocking_conducts blockingConnect_conducts
  · intro h W hW
    have hopen : (W h).Session := by
      rw [hW]
      trivial
    exact conducts_after (calls_attempt (setNodelay_uses hopen)) (fun _ => trivial)
      (fun _ => ⟨rfl,hW⟩)

theorem fromAccepted_conducts (hs : V sh = .joined .tcp) :
    conduct.wpe (VclStream.fromAccepted sh r) (fun st V' => st = ⟨sh,r⟩ ∧ V' = V)
      (fun _ V' => V' = Function.update V sh .absent) V := by
  have hopen : (V sh).Session := by
    rw [hs]
    trivial
  refine owning_conducts ?_
  refine conducts_after (setNonblocking_uses hopen) (fun _ => rfl) (fun _ => ?_)
  exact conducts_after (calls_attempt (setNodelay_uses hopen)) (fun _ => rfl) (fun _ => ⟨rfl,rfl⟩)

theorem sessionAccept_conducts (hs : V sh = .listening .tcp) :
    conduct.wpe (sessionAccept sh)
      (fun x V' => V x.1 = .absent ∧ V' = Function.update V x.1 (.joined .tcp)) (Restores V) V := by
  rw [sessionAccept,Contract.wpe_bind]
  rintro ⟨rc,ep⟩ hrely
  have hgrant (_ : 0 ≤ rc) (hfree : V (handleOf rc) = .absent) :
      conduct.wpe (pure (handleOf rc,addrFromEndpoint ep))
        (fun x V' => V x.1 = .absent ∧ V' = Function.update V x.1 (.joined .tcp)) (Restores V)
        (Function.update V (handleOf rc) (.joined .tcp)) := ⟨hfree,rfl⟩
  exact ⟨hs,granting_conducts (E := Restores V) hrely (fun _ => rfl) hgrant _⟩

theorem accept_conducts {l : VclListener} (hs : V l.handle = .listening .tcp)
    (hv : V l.reactor.vep = .poller) :
    conduct.wpe l.accept (fun x V' => x.1.reactor = l.reactor ∧ V' x.1.handle = .joined .tcp)
      (fun _ _ => True) V := by
  have hopen : (V l.handle).Session := by
    rw [hs]
    trivial
  refine Contract.wpe_loop _ (fun _ V' => V' = V) ?_ rfl
  rintro _ V rfl
  rw [Contract.wpe_bind,wpe_attempt]
  refine Contract.wpe_mono _ (sessionAccept_conducts hs) ?_ ?_
  · rintro ⟨client,peer⟩ _ ⟨hfree,rfl⟩
    have hjoined : Function.update V client (Footing.joined .tcp) client = .joined .tcp :=
      Function.update_self _ _ _
    have hclient : (Function.update V client (Footing.joined .tcp) client).Session := by
      rw [hjoined]
      trivial
    refine conducts_bind (owning_conducts (uses_wpe (Q := fun _ W => W = _)
      (register_uses (update_poller hfree hv) hclient) (fun _ => rfl) (fun _ => trivial))) ?_
    rintro _ _ rfl
    refine conducts_bind (Contract.wpe_mono _ (fromAccepted_conducts hjoined) (fun _ _ h => h)
      (fun _ _ _ => trivial)) ?_
    rintro _ _ ⟨rfl,rfl⟩
    exact ⟨rfl,hjoined⟩
  · rintro e _ rfl
    cases e with
    | dropped => trivial
    | err e =>
      change conduct.wpe (if e = .wouldBlock then _ else err e) _ _ _
      rw [Contract.wpe_ite]
      split_ifs with hblock
      · rw [Contract.wpe_bind]
        refine uses_wpe (calls_attempt (Prog.calls_mono (fun _ => waits_uses hv hopen)
          (waitReadable_calls _))) (fun x => ?_) (fun _ => trivial)
        cases x with
        | ok _ => rfl
        | error e' =>
          change conduct.wpe (if e' = .timeout then _ else err e') _ _ _
          rw [Contract.wpe_ite]
          split_ifs
          · rfl
          · trivial
      · trivial

theorem connectPorts_conducts {peer : SocketAddr} {ip : IpAddr} {timeout : Duration}
    {started : Instant} (hv : V r.vep = .poller) (ports : List ℕ) (lastErr : Option VclError) :
    conduct.wpe (connectPorts peer ip r timeout started ports lastErr)
      (fun st V' => st.reactor = r ∧ V st.handle = .absent ∧
        V' = Function.update V st.handle (.joined .tcp)) (Restores V) V := by
  induction ports generalizing lastErr with
  | nil => rfl
  | cons port ports ih =>
    refine conducts_after (calls_call ⟨trivial,fun _ => rfl⟩) (fun _ => rfl) (fun now => ?_)
    rw [Contract.wpe_ite]
    split_ifs with hlate
    · rfl
    · rw [Contract.wpe_bind,wpe_attempt]
      refine Contract.wpe_mono _ (connectAsync_conducts hv) (fun _ _ h => h) ?_
      rintro e _ rfl
      cases e with
      | err e => exact ih (some e)
      | dropped => rfl

theorem connectSource_conducts {peer : SocketAddr} {source : Option IpAddr} {timeout : Duration}
    {started : Instant} (hv : V r.vep = .poller) :
    conduct.wpe (connectSource peer source r timeout started)
      (fun st V' => st.reactor = r ∧ V st.handle = .absent ∧
        V' = Function.update V st.handle (.joined .tcp)) (Restores V) V := by
  cases source with
  | none => exact connectAsync_conducts hv
  | some ip =>
    rw [connectSource,Contract.wpe_ite]
    split_ifs with hfamily
    · rfl
    · exact conducts_after (Prog.calls_mono (fun _ => draws_uses) (genPorts_calls 8))
        (fun _ => rfl) (fun ports => connectPorts_conducts hv ports none)

omit [Platform] in
theorem drop_conducts {Q : Unit → Footings → Prop} {E : Stop → Footings → Prop}
    (hs : (V sh).Session) (hv : V r.vep = .poller) (hQ : Q () (Function.update V sh .absent)) :
    conduct.wpe (do
      r.deregister sh
      dropSession sh) Q E V := by
  simp only [VclReactor.deregister,Contract.wpe_bind,Contract.wpe_call,Contract.wpe_pure]
  intro _ _
  refine ⟨⟨hv,hs⟩,?_⟩
  intro _ _
  exact ⟨⟨hv,hs⟩,dropSession_conducts hQ⟩

theorem queryTcpDnsAsync_conducts {peer : SocketAddr} {source : Option IpAddr}
    {query : List UInt8} {timeout : Duration} (hv : V r.vep = .poller) :
    conduct.wpe (queryTcpDnsAsync peer source query r timeout) (fun _ _ => True)
      (fun _ _ => True) V := by
  refine conducts_after (calls_call ⟨trivial,fun _ => rfl⟩) (fun _ => trivial) (fun started => ?_)
  refine conducts_bind (Contract.wpe_mono _ (connectSource_conducts hv) (fun _ _ h => h)
    (fun _ _ _ => trivial)) ?_
  rintro st _ ⟨rfl,hs,rfl⟩
  have hjoined : Function.update V st.handle (.joined .tcp) st.handle = .joined .tcp :=
    Function.update_self _ _ _
  have hpoll := update_poller (y := .joined .tcp) hs hv
  rw [Contract.wpe_ensuring]
  exact uses_wpe (exchange_uses hjoined hpoll query)
    (fun _ => drop_conducts (joined_session hjoined) hpoll trivial)
    (fun _ => drop_conducts (joined_session hjoined) hpoll trivial)

end Dialling

section Sync

variable [Platform] {V : Footings} {sh : Handle}

theorem bindEphemeral_conducts {proto : Proto} {ip : IpAddr} (hs : V sh = .idle proto) (n : ℕ) :
    conduct.wpe (bindEphemeral sh ip n)
      (fun b V' => Amid V sh V' ∧ (b = true → V' sh = .bound proto)) (Restores V) V := by
  have hself : Amid V sh V := ⟨_,(Function.update_eq_self sh V).symm⟩
  induction n with
  | zero => exact ⟨hself,by simp⟩
  | succ n ih =>
    refine conducts_after (calls_call ⟨trivial,fun _ => rfl⟩) (fun _ => rfl) (fun port => ?_)
    rw [Contract.wpe_bind,wpe_attempt]
    refine Contract.wpe_mono _ (bind_conducts hs) ?_ ?_
    · rintro _ _ rfl
      exact ⟨⟨_,rfl⟩,fun _ => Function.update_self _ _ _⟩
    · rintro e _ rfl
      cases e with
      | err e => exact ih
      | dropped => rfl

theorem listening_conducts {ip : IpAddr} {e : VclError} {α : Type} {x : Vcl α}
    {Q : α → Footings → Prop} {E : Stop → Footings → Prop} (hs : V sh = .idle .udp)
    (hE : ∀ e V', Amid V sh V' → E e V')
    (hx : ∀ V', V' sh = .listening .udp → conduct.wpe x Q E V') :
    conduct.wpe (do
      let bound ← bindEphemeral sh ip 8
      rejectIf (bound = false) e
      listen sh 0
      x) Q E V := by
  have hself : Amid V sh V := ⟨_,(Function.update_eq_self sh V).symm⟩
  rw [Contract.wpe_bind]
  refine Contract.wpe_mono _ (bindEphemeral_conducts hs 8) ?_ ?_
  · rintro b _ ⟨⟨y,rfl⟩,hb⟩
    rw [Contract.wpe_bind,wpe_rejectIf]
    split_ifs with hfail
    · exact hE _ _ ⟨y,rfl⟩
    · have hbound := hb (by simpa using hfail)
      rw [Contract.wpe_bind]
      refine Contract.wpe_mono _ (listen_conducts hbound) ?_ ?_
      · rintro _ _ rfl
        exact hx _ (Function.update_self _ _ _)
      · rintro _ _ rfl
        exact hE _ _ ⟨y,rfl⟩
  · rintro e' _ rfl
    exact hE _ _ hself

theorem udpBind_conducts {source : Option IpAddr} {isV6 : Bool} :
    conduct.wpe (VclUdpSyncSocket.bind source isV6) (fun u V' => V' u.handle = .listening .udp)
      (fun _ _ => True) V := by
  refine conducts_after registerWorkerThread_uses (fun _ => trivial) (fun _ => ?_)
  refine conducts_bind (Contract.wpe_mono _ createUdp_conducts (fun _ _ h => h)
    (fun _ _ _ => trivial)) ?_
  rintro sh _ ⟨-,rfl⟩
  refine owning_conducts ?_
  refine conducts_after (familyIp_calls source isV6) (fun _ => trivial) (fun ip => ?_)
  exact listening_conducts (Function.update_self _ _ _) (fun _ _ _ => trivial) (fun _ h => h)

theorem queryUdpSync_conducts {peer : SocketAddr} {source : Option IpAddr} {query : List UInt8}
    {timeout : Duration} :
    conduct.wpe (queryUdpSync peer source query timeout) (fun _ _ => True) (fun _ _ => True) V := by
  refine conducts_after registerWorkerThread_uses (fun _ => trivial) (fun _ => ?_)
  refine conducts_bind (Contract.wpe_mono _ createUdp_conducts (fun _ _ h => h)
    (fun _ _ _ => trivial)) ?_
  rintro sh _ ⟨-,rfl⟩
  refine holding_conducts ?_
  refine conducts_after (sourceIp_calls source peer) (fun _ => trivial) (fun ip => ?_)
  refine listening_conducts (Function.update_self _ _ _) (fun _ _ _ => trivial) ?_
  intro W hs
  refine conducts_after (sendto_uses hs query peer) (fun _ => trivial) (fun _ => ?_)
  refine conducts_after (calls_call ⟨trivial,fun _ => rfl⟩) (fun _ => trivial) (fun start => ?_)
  exact uses_wpe (awaitDatagram_uses hs _) (fun _ => trivial) (fun _ => trivial)

theorem probeLocalSource_conducts {peer : SocketAddr} :
    conduct.wpe (probeLocalSource peer) (fun _ _ => True) (fun _ _ => True) V := by
  refine conducts_after registerWorkerThread_uses (fun _ => trivial) (fun _ => ?_)
  refine conducts_bind (Contract.wpe_mono _ createUdp_conducts (fun _ _ h => h)
    (fun _ _ _ => trivial)) ?_
  rintro sh _ ⟨-,rfl⟩
  refine holding_conducts ?_
  refine conducts_bind (Contract.wpe_mono _ (bindEphemeral_conducts (Function.update_self _ _ _) 8)
    (fun _ _ h => h) (fun _ _ _ => trivial)) ?_
  rintro b W ⟨-,hb⟩
  rw [Contract.wpe_bind,wpe_rejectIf]
  split_ifs with hfail
  · trivial
  · have hbound := hb (by simpa using hfail)
    refine conducts_bind (Contract.wpe_mono _ (connect_conducts (.inr hbound)) (fun _ _ h => h)
      (fun _ _ _ => trivial)) ?_
    rintro _ _ rfl
    have hjoined : (Function.update W sh (.joined .udp) sh).Session := by
      rw [Function.update_self]
      trivial
    exact uses_wpe (addrAttr_uses hjoined _) (fun _ => trivial) (fun _ => trivial)

theorem bindSourceIp_conducts {peer : SocketAddr} {source : Option IpAddr}
    (hs : V sh = .idle .tcp) :
    conduct.wpe (bindSourceIp sh peer source)
      (fun _ V' => V' sh = .idle .tcp ∨ V' sh = .bound .tcp) (fun _ _ => True) V := by
  cases source with
  | none => exact .inl hs
  | some ip =>
    rw [bindSourceIp,Contract.wpe_ite]
    split_ifs with hfamily
    · trivial
    · refine conducts_bind (Contract.wpe_mono _ (bindEphemeral_conducts hs 8) (fun _ _ h => h)
        (fun _ _ _ => trivial)) ?_
      rintro b W ⟨-,hb⟩
      rw [wpe_rejectIf]
      split_ifs with hfail
      · trivial
      · exact .inr (hb (by simpa using hfail))

theorem exchangeSync_conducts {vep : Handle} {peer : SocketAddr} {query : List UInt8}
    {timeout : Duration} (hs : V sh = .idle .tcp ∨ V sh = .bound .tcp) (hv : V vep = .poller) :
    conduct.wpe (exchangeSync sh vep peer query timeout) (fun _ _ => True) (fun _ _ => True) V := by
  refine conducts_bind (Contract.wpe_mono _ (startConnect_conducts hs) (fun _ _ h => h)
    (fun _ _ _ => trivial)) ?_
  rintro _ _ rfl
  have hjoined : Function.update V sh (.joined .tcp) sh = .joined .tcp := Function.update_self _ _ _
  have hne : vep ≠ sh := by
    rintro rfl
    rw [hv] at hs
    simp at hs
  have hpoll : Function.update V sh (.joined .tcp) vep = .poller := by
    rw [Function.update_of_ne hne]
    exact hv
  refine conducts_after (calls_call ⟨trivial,fun _ => rfl⟩) (fun _ => trivial) (fun start => ?_)
  refine conducts_after (ofExcept_calls _) (fun _ => trivial) (fun framed => ?_)
  refine conducts_after (writeLoop_uses hjoined hpoll _ _) (fun _ => trivial) (fun _ => ?_)
  refine conducts_after (readLoop_uses hjoined hpoll _ _) (fun _ => trivial) (fun lenbuf => ?_)
  refine conducts_after (ofExcept_calls _) (fun _ => trivial) (fun len => ?_)
  exact uses_wpe (readLoop_uses hjoined hpoll _ _) (fun _ => trivial) (fun _ => trivial)

theorem queryTcpDnsSync_conducts {peer : SocketAddr} {source : Option IpAddr} {query : List UInt8}
    {timeout : Duration} :
    conduct.wpe (queryTcpDnsSync peer source query timeout) (fun _ _ => True)
      (fun _ _ => True) V := by
  refine conducts_after registerWorkerThread_uses (fun _ => trivial) (fun _ => ?_)
  refine conducts_bind (Contract.wpe_mono _ createTcp_conducts (fun _ _ h => h)
    (fun _ _ _ => trivial)) ?_
  rintro sh _ ⟨-,rfl⟩
  refine holding_conducts ?_
  refine conducts_bind (bindSourceIp_conducts (Function.update_self _ _ _)) ?_
  intro _ W hs
  rw [Contract.wpe_bind]
  intro vep hrely
  refine ⟨trivial,granting_conducts hrely (fun _ => trivial) ?_ _⟩
  intro _ hvep
  have hne : sh ≠ handleOf vep := by
    rintro rfl
    rw [hvep] at hs
    simp at hs
  have hpoll : Function.update W (handleOf vep) .poller (handleOf vep) = .poller :=
    Function.update_self _ _ _
  have hkept : Function.update W (handleOf vep) .poller sh = W sh := Function.update_of_ne hne _ _
  have hopen : (Function.update W (handleOf vep) .poller sh).Session := by
    rw [hkept]
    rcases hs with hs | hs
    · rw [hs]
      trivial
    · rw [hs]
      trivial
  refine conducts_bind (Contract.wpe_mono _ (watchSession_conducts hpoll hopen) (fun _ _ h => h)
    (fun _ _ _ => trivial)) ?_
  rintro _ _ rfl
  refine holding_conducts (exchangeSync_conducts ?_ hpoll)
  rw [hkept]
  exact hs

theorem new_conducts : conduct.wpe VclReactor.new (fun r V' => V' r.vep = .poller)
    (fun _ _ => True) V := by
  rw [VclReactor.new,Contract.wpe_bind]
  intro (vep : Int) hrely
  refine ⟨trivial,granting_conducts hrely (fun _ => trivial) ?_ _⟩
  intro _ _
  refine conducts_after (calls_call ⟨trivial,fun _ => rfl⟩) (fun _ => trivial) (fun mqRaw => ?_)
  refine conducts_after (calls_rejectIf _) (fun _ => trivial) (fun _ => ?_)
  refine conducts_after (calls_call ⟨trivial,fun _ => rfl⟩) (fun _ => trivial) (fun x => ?_)
  cases x with
  | error e => trivial
  | ok _ => exact Function.update_self _ _ _

end Sync

end VclRs
