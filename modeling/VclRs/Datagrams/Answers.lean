import VclRs.Datagrams.Desk
import VclRs.Schedule

namespace VclRs

open Interaction Fallible

abbrev Answer := List UInt8 × SocketAddr

structure Query where
  peer : SocketAddr
  query : List UInt8
  timeout : Duration
deriving DecidableEq, Repr

def Query.Idle (_ : Query) (r : Except Stop Answer) : Prop := ∀ y, r ≠ .ok y

section Programs

variable [Platform] {u : VclUdpSyncSocket} {k : Query} {buf : List UInt8} {deadline : Instant}

def sift (peer : SocketAddr) (deadline : Instant) (buf : List UInt8) :
    Except VclError Delivered → Vcl (List UInt8 ⊕ Answer)
  | .ok x =>
    if x.1.2.ip ≠ peer.ip then pure (.inl x.2)
    else pure (.inr (x.2.take x.1.1,x.1.2))
  | .error e =>
    if e = .wouldBlock then do
      let now ← instantNow
      rejectIf (deadline ≤ now) .timeout
      ffi (.sleep (millis 5))
      pure (.inl buf)
    else err e

def awaiting (u : VclUdpSyncSocket) (peer : SocketAddr) (deadline : Instant) : Vcl Answer :=
  Fallible.loop (fun buf => attempt (recvfrom u.handle buf) >>= sift peer deadline buf)
    (List.replicate 4096 0)

def Query.code (u : VclUdpSyncSocket) (k : Query) : Prog Call Reply (Except Stop Answer) :=
  (u.query k.peer k.query k.timeout).prog

theorem query_eq : u.query k.peer k.query k.timeout = (do
    let _ ← sendto u.handle k.query k.peer
    let start ← instantNow
    awaiting u k.peer (start + k.timeout)) := rfl

def Query.answer (k : Query) (x : Received) : Option (Except Stop Answer) :=
  if (addrFromEndpoint x.2.2).ip ≠ k.peer.ip then none
  else some (.ok (x.2.1,addrFromEndpoint x.2.2))

def Passes (u : VclUdpSyncSocket) (k : Query) (e : Ev) (q : Prog Call Reply (Except Stop Answer)) :
    Prop :=
  Sized u.handle 4096 e.op ∧
    (Formed u.handle 4096 e → ∀ a, (received u.handle e).bind k.answer = some a → q = .ret a)

theorem passes_quiet {e : Ev} {q : Prog Call Reply (Except Stop Answer)}
    (hop : Sized u.handle 4096 e.op) (he : received u.handle e = none) : Passes u k e q := by
  refine ⟨hop,?_⟩
  intro _ a ha
  rw [he] at ha
  cases ha

theorem refused_upholds {f : Except Stop (List UInt8 ⊕ Answer) → Prog Call Reply (Except Stop Answer)}
    (hagain : (f (.ok (.inl buf))).Upholds (Passes u k))
    (hfail : ∀ e, (f (.error e)).Upholds (Passes u k)) (e : VclError) :
    ((sift k.peer deadline buf (.error e)).prog.bind f).Upholds (Passes u k) := by
  rw [sift]
  by_cases h : e = .wouldBlock
  · rw [if_pos h,Fallible.bind_prog]
    intro now
    refine ⟨passes_quiet trivial rfl,?_⟩
    change (((rejectIf (deadline ≤ now) .timeout) >>= fun _ => (do
      ffi (.sleep (millis 5))
      pure (.inl buf) : Vcl (List UInt8 ⊕ Answer))).prog.bind f).Upholds _
    rw [Fallible.bind_prog,rejectIf]
    by_cases ht : deadline ≤ now
    · rw [if_pos ht]
      exact hfail (.err .timeout)
    · rw [if_neg ht]
      intro _
      exact ⟨passes_quiet trivial rfl,hagain⟩
  · rw [if_neg h]
    exact hfail (.err e)

theorem taken_value {x : Received} {n : ℕ} (hbuf : buf.length = 4096) (hrc : ¬x.1 < 0)
    (hx : Formed u.handle 4096 ⟨.sessionRecvfrom u.handle n,x⟩) :
    (handed buf x).2.take (handed buf x).1.1 = x.2.1 := by
  obtain ⟨hlen,hle⟩ := hx x (received_taken hrc)
  rw [← hbuf] at hle
  change (patch buf x.2.1).take x.1.toNat = x.2.1
  rw [← hlen]
  exact take_patch hle

theorem awaiting_upholds : (awaiting u k.peer deadline).prog.Upholds (Passes u k) := by
  refine Fallible.upholds_loop (fun buf => buf.length = 4096) ?_ (List.length_replicate ..)
  intro buf f hbuf hagain hdone hfail
  have hop : Sized u.handle 4096 (.sessionRecvfrom u.handle (asU32 buf.length)) := by
    rw [hbuf]
    exact ⟨rfl,rfl⟩
  have hfailed : ∀ e, (f (.error e)).Upholds (Passes u k) := by
    intro e
    rw [hfail]
    trivial
  rw [Fallible.bind_prog,recvfrom_prog]
  intro x
  change Passes u k ⟨.sessionRecvfrom u.handle (asU32 buf.length),x⟩
      ((sift k.peer deadline buf (verdict buf x)).prog.bind f) ∧
    ((sift k.peer deadline buf (verdict buf x)).prog.bind f).Upholds _
  by_cases h : x.1 < 0
  · rw [verdict_refused h]
    exact ⟨passes_quiet hop (received_refused h),refused_upholds (hagain buf hbuf) hfailed _⟩
  · rw [verdict_taken h]
    by_cases hip : (addrFromEndpoint x.2.2).ip ≠ k.peer.ip
    · have hsift : sift k.peer deadline buf (.ok (handed buf x)) = pure (.inl (patch buf x.2.1)) :=
        if_pos hip
      rw [hsift]
      refine ⟨⟨hop,?_⟩,hagain _ ((patch_length _ _).trans hbuf)⟩
      intro _ a ha
      rw [received_taken h,Option.bind_some,Query.answer,if_pos hip] at ha
      cases ha
    · have hsift : sift k.peer deadline buf (.ok (handed buf x)) =
          pure (.inr ((handed buf x).2.take (handed buf x).1.1,(handed buf x).1.2)) := if_neg hip
      rw [hsift]
      change Passes u k _ (f (.ok (.inr _))) ∧ (f (.ok (.inr _))).Upholds _
      rw [hdone]
      refine ⟨⟨hop,?_⟩,trivial⟩
      intro hform a ha
      rw [received_taken h,Option.bind_some,Query.answer,if_neg hip] at ha
      cases ha
      rw [taken_value hbuf h hform]
      rfl

theorem query_upholds : (k.code u).Upholds (Passes u k) := by
  have hsend : (sendto u.handle k.query k.peer).Calls
      (fun o => Sized u.handle 4096 o ∧ ∀ x, received u.handle ⟨o,x⟩ = none) :=
    calls_bind (calls_call ⟨trivial,fun _ => rfl⟩)
      (fun _ => calls_bind (checkRc_calls _) (fun _ => calls_pure _))
  refine Prog.upholds_bind ?_ hsend ?_
  · rintro ⟨op,x⟩ q ⟨hop,he⟩
    exact passes_quiet hop (he x)
  · intro r
    cases r with
    | ok _ =>
      intro now
      exact ⟨passes_quiet trivial rfl,awaiting_upholds⟩
    | error e => trivial

def Heard (u : VclUdpSyncSocket) (k : Query) (r : Except Stop Answer) (last : Option Ev) : Prop :=
  Reports (fun e => (received u.handle e).bind k.answer)
    (fun e r => received u.handle e = none ∧ k.Idle r) r last

theorem heard_error {e : Ev} (st : Stop) (he : received u.handle e = none) :
    Heard u k (.error st) (some e) :=
  ⟨e,rfl,.inr ⟨he,fun _ => nofun⟩⟩

theorem refused_honest {e : Ev} (err : VclError) (he : received u.handle e = none)
    (hbuf : buf.length = 4096) :
    (Contract.latest (Formed u.handle 4096)).wpe (sift k.peer deadline buf (.error err))
      (fun r last => r.elim (fun b => b.length = 4096) (fun a => Heard u k (.ok a) last))
      (fun st last => Heard u k (.error st) last) (some e) := by
  rw [sift,Contract.wpe_ite]
  split_ifs with h
  · simp only [Contract.wpe_bind,wpe_rejectIf,instantNow,Contract.wpe_call,Contract.wpe_pure]
    intro now _
    refine ⟨trivial,?_⟩
    split_ifs with ht
    · exact heard_error _ rfl
    · intro _ _
      exact ⟨trivial,hbuf⟩
  · exact heard_error _ he

theorem awaiting_honest {last : Option Ev} :
    (Contract.latest (Formed u.handle 4096)).wpe (awaiting u k.peer deadline)
      (fun a last => Heard u k (.ok a) last) (fun st last => Heard u k (.error st) last) last := by
  refine Contract.wpe_loop _ (fun buf _ => buf.length = 4096) ?_ (List.length_replicate ..)
  intro buf last hbuf
  rw [Contract.wpe_bind,Contract.wpe,recvfrom_prog]
  intro x hx
  refine ⟨trivial,?_⟩
  change (Contract.latest (Formed u.handle 4096)).wpe (sift k.peer deadline buf (verdict buf x)) _ _
    (some ⟨.sessionRecvfrom u.handle (asU32 buf.length),x⟩)
  by_cases h : x.1 < 0
  · rw [verdict_refused h]
    refine Contract.wpe_mono _ (refused_honest _ (received_refused h) hbuf) ?_ (fun _ _ h => h)
    intro r last hr
    cases r <;> exact hr
  · rw [verdict_taken h,sift,Contract.wpe_ite]
    split_ifs with hip
    · exact (patch_length _ _).trans hbuf
    · have hip' : ¬(addrFromEndpoint x.2.2).ip ≠ k.peer.ip := hip
      refine ⟨_,rfl,.inl ?_⟩
      beta_reduce
      rw [received_taken h,Option.bind_some,Query.answer,if_neg hip',taken_value hbuf h hx]
      rfl

theorem query_honest {last : Option Ev} :
    (Contract.latest (Formed u.handle 4096)).wpe (u.query k.peer k.query k.timeout)
      (fun a last => Heard u k (.ok a) last) (fun st last => Heard u k (.error st) last) last := by
  simp only [query_eq,sendto,vppcomSessionSendto,checkRc,wpe_rejectIf,instantNow,Contract.wpe_bind,
    Contract.wpe_call,Contract.wpe_pure]
  intro rc _
  refine ⟨trivial,?_⟩
  split_ifs with h
  · exact heard_error _ rfl
  · intro now _
    exact ⟨trivial,awaiting_honest⟩

def VclUdpSyncSocket.receiver (u : VclUdpSyncSocket) : Receiver Query (Except Stop Answer) where
  handle := u.handle
  size _ := 4096
  answer := Query.answer
  idle := Query.Idle
  code := Query.code u
  attends k := by
    refine ⟨query_upholds,none,Contract.wp_mono _ query_honest ?_⟩
    intro r last hr
    cases r <;> exact hr

end Programs

section Freshness

def Late (caller : ℕ) (dg : Datagram (Option ℕ)) : Prop := ∃ j, dg.tag = some j ∧ j < caller

structure FreshAnswers (S : Desk Query (Option ℕ) (Except Stop Answer)) : Prop where
  answers : ∀ x ∈ S.returns, ∀ y, x.value = .ok y → ∃ dg, x.datagram = some dg ∧
    y = (dg.payload.take 4096,dg.sender) ∧ ¬Late x.caller dg
  discards : ∀ x ∈ S.removed, Late x.caller x.datagram → ∀ r ∈ S.returns, r.removal ≠ some x

theorem sender_ip (dg : Datagram (Option ℕ)) : dg.sender.ip = dg.ip := by
  rw [Datagram.sender]
  cases dg.ip <;> rfl

variable [Platform] {u : VclUdpSyncSocket} {S : Desk Query (Option ℕ) (Except Stop Answer)}

theorem answering_eq (k : Query) (dg : Datagram (Option ℕ)) : u.receiver.answering k dg =
    if dg.ip ≠ k.peer.ip then none else some (.ok (dg.payload.take 4096,dg.sender)) := by
  change (if (addrFromEndpoint (endpointIntoBuf dg.sender zeroed)).ip ≠ k.peer.ip then none
    else some (Except.ok (dg.payload.take 4096,
      addrFromEndpoint (endpointIntoBuf dg.sender zeroed)))) = _
  have haddr : addrFromEndpoint (endpointIntoBuf dg.sender zeroed) = dg.sender :=
    addrFromEndpoint_endpointIntoBuf dg.ip dg.port zeroed
  rw [haddr,sender_ip]

theorem accepts_iff {x : Removal Query (Option ℕ)} :
    u.receiver.accepts x = true ↔ x.datagram.ip = x.kind.peer.ip := by
  rw [Receiver.accepts,answering_eq]
  by_cases h : x.datagram.ip = x.kind.peer.ip
  · simp [h]
  · simp [h]

theorem returned_iff (hacc : Tallied u.receiver S) {x : Removal Query (Option ℕ)} :
    (∃ r ∈ S.returns, r.removal = some x) ↔ x ∈ S.removed ∧ x.datagram.ip = x.kind.peer.ip := by
  rw [← List.mem_filterMap,hacc.order,List.mem_filter,accepts_iff]

theorem answered_value (hacc : Tallied u.receiver S) {r : Return Query (Option ℕ) (Except Stop Answer)}
    (hr : r ∈ S.returns) {y : Answer} (hy : r.value = .ok y) :
    ∃ dg, r.datagram = some dg ∧ y = (dg.payload.take 4096,dg.sender) := by
  rcases hacc.value r hr with ⟨dg,hdg,hval⟩ | ⟨-,hidle⟩
  · refine ⟨dg,hdg,?_⟩
    rw [answering_eq] at hval
    split_ifs at hval
    rw [hy] at hval
    exact (Except.ok.inj (Option.some.inj hval)).symm
  · exact absurd hy (hidle y)

theorem answers_fresh_iff (h : Desk.Reach u.receiver S) :
    (∀ x ∈ S.removed, x.datagram.ip = x.kind.peer.ip → ¬Late x.caller x.datagram) ↔
      FreshAnswers S := by
  have hacc := tallied_reach h
  constructor
  · intro hfresh
    constructor
    · intro r hr y hy
      obtain ⟨dg,hdg,rfl⟩ := answered_value hacc hr hy
      have hrem : r.removal = some ⟨r.caller,r.kind,dg⟩ := by
        rw [Return.removal,hdg]
        rfl
      obtain ⟨hin,hip⟩ := (returned_iff hacc).mp ⟨r,hr,hrem⟩
      exact ⟨dg,hdg,rfl,hfresh _ hin hip⟩
    · intro x hx hlate r hr hrem
      have hip := ((returned_iff hacc).mp ⟨r,hr,hrem⟩).2
      exact hfresh x hx hip hlate
  · intro hfresh x hx hip hlate
    obtain ⟨r,hr,hrem⟩ := (returned_iff hacc).mpr ⟨hx,hip⟩
    exact hfresh.discards x hx hlate r hr hrem

end Freshness

section Retry

def nameserver : SocketAddr := .v4 (.replicate 4 10) 53

def lookup : Query := ⟨nameserver,[1,2],5⟩

def firstReply : Datagram (Option ℕ) := ⟨[9],nameserver.ip,53,some 0⟩

def udpReceiver : Receiver Query (Except Stop Answer) := @VclUdpSyncSocket.receiver host ⟨7⟩

def withholding (now : Instant) : (c : Call) → Reply c
  | .instantNow => now
  | .sessionRecvfrom _ _ => ((-11 : Int),[],.default)
  | c => obliging c

def asking (S : Desk Query (Option ℕ) (Except Stop Answer)) : Desk Query (Option ℕ) (Except Stop Answer) :=
  ⟨S.arrived,S.queue,S.callers ++ [⟨lookup,udpReceiver.code lookup⟩],S.removed,S.returns⟩

def polled (n i : ℕ) (now : Instant) (S : Desk Query (Option ℕ) (Except Stop Answer)) :
    Desk Query (Option ℕ) (Except Stop Answer) :=
  (List.range n).foldl (fun S _ => @Desk.poll _ _ _ host udpReceiver (withholding now) S i) S

def arriving (S : Desk Query (Option ℕ) (Except Stop Answer)) :
    Desk Query (Option ℕ) (Except Stop Answer) :=
  ⟨S.arrived ++ [firstReply],S.queue ++ [firstReply],S.callers,S.removed,S.returns⟩

def answered : Desk Query (Option ℕ) (Except Stop Answer) :=
  polled 1 0 0 (arriving (polled 2 0 0 (asking .empty)))

def timedOut : Desk Query (Option ℕ) (Except Stop Answer) :=
  polled 2 0 5 (polled 2 0 0 (asking .empty))

def retried : Desk Query (Option ℕ) (Except Stop Answer) :=
  polled 3 1 5 (asking (arriving timedOut))

theorem reach_asking {S : Desk Query (Option ℕ) (Except Stop Answer)}
    (h : @Desk.Reach _ _ _ host udpReceiver S) : @Desk.Reach _ _ _ host udpReceiver (asking S) :=
  h.tail (@Desk.Step.start _ _ _ host udpReceiver S lookup)

theorem reach_arriving {S : Desk Query (Option ℕ) (Except Stop Answer)}
    (h : @Desk.Reach _ _ _ host udpReceiver S) : @Desk.Reach _ _ _ host udpReceiver (arriving S) :=
  h.tail (@Desk.Step.arrive _ _ _ host udpReceiver S firstReply)

theorem reach_polled {S : Desk Query (Option ℕ) (Except Stop Answer)} (n i : ℕ) (now : Instant)
    (h : @Desk.Reach _ _ _ host udpReceiver S) :
    @Desk.Reach _ _ _ host udpReceiver (polled n i now S) := by
  induction n with
  | zero => exact h
  | succ n ih =>
    rw [polled,List.range_succ,List.foldl_append]
    exact @reach_poll _ _ _ host udpReceiver _ (withholding now) i ih

theorem answers_fresh_answered :
    answered.returns = [⟨0,lookup,.ok ([9],nameserver),some firstReply⟩] ∧ FreshAnswers answered := by
  have hreach : @Desk.Reach _ _ _ host udpReceiver answered :=
    reach_polled 1 0 0 (reach_arriving (reach_polled 2 0 0 (reach_asking .refl)))
  have hreturns : answered.returns = [⟨0,lookup,.ok ([9],nameserver),some firstReply⟩] := by
    decide +kernel
  have hremoved : answered.removed = [⟨0,lookup,firstReply⟩] := by
    decide +kernel
  refine ⟨hreturns,(@answers_fresh_iff host _ _ hreach).mp ?_⟩
  rintro x hx - ⟨j,-,hj⟩
  rw [hremoved] at hx
  obtain rfl := List.mem_singleton.mp hx
  exact Nat.not_lt_zero j hj

theorem retry_returns_late_reply : ∃ S : Desk Query (Option ℕ) (Except Stop Answer),
    @Desk.Reach _ _ _ host udpReceiver S ∧
      S.returns = [⟨0,lookup,.error (.err .timeout),none⟩,
        ⟨1,lookup,.ok ([9],nameserver),some firstReply⟩] ∧
      Late 1 firstReply ∧ ¬FreshAnswers S := by
  have hreach : @Desk.Reach _ _ _ host udpReceiver retried :=
    reach_polled 3 1 5 (reach_asking (reach_arriving
      (reach_polled 2 0 5 (reach_polled 2 0 0 (reach_asking .refl)))))
  have hreturns : retried.returns = [⟨0,lookup,.error (.err .timeout),none⟩,
      ⟨1,lookup,.ok ([9],nameserver),some firstReply⟩] := by
    decide +kernel
  have hlate : Late 1 firstReply := ⟨0,rfl,Nat.zero_lt_one⟩
  refine ⟨retried,hreach,hreturns,hlate,?_⟩
  intro hfresh
  obtain ⟨dg,hdg,-,hnot⟩ := hfresh.answers ⟨1,lookup,.ok ([9],nameserver),some firstReply⟩
    (by rw [hreturns]; simp) _ rfl
  cases hdg
  exact hnot hlate

end Retry

end VclRs
