import VclRs.Model.Echo
import VclRs.Marshalling
import VclRs.Interaction.Paths
import VclRs.Datagrams.OneShot
import VclRs.Datagrams.Delivery
import VclRs.Datagrams.Posting

namespace VclRs

open Interaction Fallible

abbrev Letter := List UInt8 × SocketAddr

section Service

variable [Platform]

def incoming : Ev → Option Letter
  | ⟨.sessionRecvfrom _ _,(rc,data,ep)⟩ => if rc < 0 then none else some (data,addrFromEndpoint ep)
  | _ => none

def outgoing : Ev → Option Letter
  | ⟨.sessionSendto _ buf ep,rc⟩ => if rc < 0 then none else some (buf,addrFromEndpoint ep)
  | _ => none

def letters (f : Ev → Option Letter) (tr : List Ev) : List Letter := tr.flatMap (fun e => (f e).toList)

def livened (alive : Bool) : Ev → Bool
  | ⟨.appCreated,rc⟩ => decide (¬rc < 0)
  | ⟨.appDestroy,_⟩ => false
  | _ => alive

structure Service where
  alive : Bool
  received : List Letter
  answered : List Letter

def Outdoors : Call → Prop
  | .initializedSwap _ => True
  | .initializedStore _ => True
  | .appCreate _ => True
  | .appCreated => True
  | .appDestroyed => True
  | _ => False

def Service.Allows (s : Service) : Call → Prop
  | .sessionRecvfrom _ _ => s.alive = true ∧ s.received = s.answered
  | .sessionSendto _ buf ep => s.alive = true ∧ s.received = s.answered ++ [(buf,addrFromEndpoint ep)]
  | c => Outdoors c ∨ s.alive = true

def echoing : Contract Call Reply Service where
  rely _ := Fits
  guar s e := s.Allows e.op
  next s e := ⟨livened s.alive e,s.received ++ (incoming e).toList,s.answered ++ (outgoing e).toList⟩

def Indoors : Call → Prop
  | .sessionRecvfrom _ _ => False
  | .sessionSendto _ _ _ => False
  | .appCreated => False
  | .appDestroy => False
  | _ => True

variable {s : Service}

theorem indoors_still {e : Ev} (ha : s.alive = true) (he : Indoors e.op) :
    echoing.guar s e ∧ echoing.next s e = s := by
  obtain ⟨op,reply⟩ := e
  have hquiet : incoming ⟨op,reply⟩ = none ∧ outgoing ⟨op,reply⟩ = none ∧
      livened s.alive ⟨op,reply⟩ = s.alive ∧ s.Allows op := by
    cases op <;> first | exact he.elim | exact ⟨rfl,rfl,rfl,.inr ha⟩
  obtain ⟨hin,hout,halive,hallows⟩ := hquiet
  refine ⟨hallows,?_⟩
  change (⟨livened s.alive _,s.received ++ (incoming _).toList,s.answered ++ (outgoing _).toList⟩ : Service) = s
  rw [hin,hout,halive]
  simp

theorem indoors_wpe {α : Type} {x : Vcl α} {Q : α → Service → Prop} {E : Stop → Service → Prop}
    (ha : s.alive = true) (hx : x.Calls Indoors) (hQ : ∀ a, Q a s) (hE : ∀ e, E e s) :
    echoing.wpe x Q E s := Contract.wpe_still _ (fun _ he => indoors_still ha he) hx hQ hE

end Service

section Footprint

variable {sh : Handle} {r : VclReactor}

theorem waits_indoors {vep sh : Handle} {c : Call} (h : Waits vep sh c) : Indoors c := by
  cases h <;> trivial

theorem registers_indoors {c : Call} (h : Registers c) : Indoors c := by
  cases h <;> trivial

theorem configures_indoors {c : Call} (h : Configures sh c) : Indoors c := by
  cases h <;> trivial

theorem watchSession_indoors {vep : Handle} {events : UInt32} :
    (watchSession vep sh events).Calls Indoors := by
  refine calls_bind (calls_call trivial) (fun rv => ?_)
  exact calls_ite (calls_bind (calls_call trivial) (fun _ => calls_err _)) (calls_pure _)

theorem drainFor_indoors {vep : Handle} {deadline : Instant} : (drainFor vep deadline).Calls Indoors := by
  refine calls_loop (fun _ => ?_) _
  refine calls_bind (calls_call trivial) (fun now => ?_)
  exact calls_ite (calls_bind (calls_call trivial) (fun _ => calls_pure _)) (calls_pure _)

theorem dgramDrop_indoors {d : VclDgramSocket} : d.drop.Calls Indoors :=
  calls_bind (deregister_calls trivial trivial) (fun _ => dropSession_calls trivial)

variable [Platform] {addr : SocketAddr}

theorem new_indoors : VclReactor.new.Calls Indoors := by
  refine calls_bind (calls_call trivial) (fun vep => ?_)
  refine calls_bind (checkRc_calls _) (fun _ => ?_)
  refine calls_bind (calls_call trivial) (fun mqRaw => ?_)
  refine calls_bind (calls_rejectIf _) (fun _ => ?_)
  refine calls_bind (calls_call trivial) (fun x => ?_)
  cases x with
  | error e => exact calls_err _
  | ok _ => exact calls_pure _

theorem queryBound_indoors : (queryBound sh addr).Calls Indoors := by
  have hattr : (localAddr sh).Calls Indoors := by
    refine Prog.calls_mono ?_ (addrAttr_calls _)
    rintro _ ⟨op⟩
    trivial
  refine calls_bind (calls_attempt hattr) ?_
  intro x
  cases x with
  | ok actual => exact calls_pure _
  | error e => exact calls_err _

theorem verifyBindOrErr_indoors : (verifyBindOrErr sh addr).Calls Indoors := by
  refine calls_bind (calls_call trivial) (fun vep => ?_)
  refine calls_bind (calls_rejectIf _) (fun _ => ?_)
  refine calls_bind watchSession_indoors (fun _ => ?_)
  refine calls_bind (calls_call trivial) (fun start => ?_)
  refine calls_bind drainFor_indoors (fun _ => ?_)
  refine calls_bind (calls_call trivial) (fun _ => ?_)
  exact calls_bind (owning_calls queryBound_indoors trivial) (fun actual => calls_rejectIf _)

theorem dgramBind_indoors : (VclDgramSocket.bind addr r).Calls Indoors := by
  refine calls_bind (Prog.calls_mono (fun _ => registers_indoors) registerWorkerThread_calls) (fun _ => ?_)
  refine calls_bind (createUdp_calls trivial) (fun sh => owning_calls ?_ trivial)
  refine calls_bind (Prog.calls_mono (fun _ => configures_indoors) (bind_calls addr)) (fun _ => ?_)
  refine calls_bind (Prog.calls_mono (fun _ => configures_indoors) (listen_calls 0)) (fun _ => ?_)
  refine calls_bind verifyBindOrErr_indoors (fun _ => ?_)
  exact calls_bind (register_calls trivial) (fun _ => calls_pure _)

end Footprint

section Conversation

variable [Platform] {d : VclDgramSocket} {s : Service} {buf : List UInt8}

theorem decoded_plain (ep : Endpt) (buf : Vector UInt8 16) :
    addrFromEndpoint (endpointIntoBuf (addrFromEndpoint ep) buf) = addrFromEndpoint ep := by
  rw [decode_encode,bare_eq_iff,addrFromEndpoint]
  split_ifs with h
  · trivial
  · exact ⟨rfl,rfl⟩

theorem resume_echoing {e : VclError} (ha : s.alive = true) : echoing.wpe (d.resume (.error e))
    (fun r s' => r = .inl () ∧ s' = s) (fun _ s' => s'.alive = true) s := by
  rw [VclDgramSocket.resume,Contract.wpe_ite]
  split_ifs with hb
  · rw [Contract.wpe_bind]
    refine indoors_wpe ha (calls_attempt (Prog.calls_mono (fun _ => waits_indoors) (waitReadable_calls _))) ?_
      (fun _ => ha)
    intro r
    cases r with
    | ok _ => exact ⟨rfl,rfl⟩
    | error e =>
      rw [Contract.wpe_ite]
      split_ifs with ht
      · exact ⟨rfl,rfl⟩
      · exact ha
  · exact ha

theorem recvFrom_echoing (ha : s.alive = true) (hlevel : s.received = s.answered)
    (hbuf : buf.length = 65535) : echoing.wpe (d.recvFrom buf)
      (fun x s' => x.2.length = 65535 ∧ (∃ ep, x.1.2 = addrFromEndpoint ep) ∧
        s' = ⟨true,s.received ++ [(x.2.take x.1.1,x.1.2)],s.answered⟩) (fun _ s' => s'.alive = true) s := by
  rw [recvFrom_eq]
  refine Contract.wpe_loop _ (fun _ s' => s' = s) ?_ rfl
  rintro _ s rfl
  rw [Contract.wpe_bind,Contract.wpe,recvfrom_prog]
  intro x hx
  refine ⟨⟨ha,hlevel⟩,?_⟩
  change echoing.wpe (d.resume (verdict buf x)) _ _
    ⟨s.alive,s.received ++ (incoming _).toList,s.answered ++ []⟩
  rw [List.append_nil]
  by_cases hrc : x.1 < 0
  · have hnone : incoming ⟨.sessionRecvfrom d.handle (asU32 buf.length),x⟩ = none := if_pos hrc
    rw [verdict_refused hrc,hnone]
    change echoing.wpe _ _ _ ⟨s.alive,s.received ++ [],s.answered⟩
    rw [List.append_nil]
    refine Contract.wpe_mono _ (resume_echoing ha) ?_ (fun _ _ h => h)
    rintro r _ ⟨rfl,rfl⟩
    rfl
  · have hsome : incoming ⟨.sessionRecvfrom d.handle (asU32 buf.length),x⟩ =
        some (x.2.1,addrFromEndpoint x.2.2) := if_neg hrc
    have hfits : x.2.1.length = x.1.toNat ∧ x.2.1.length ≤ buf.length := by
      rw [hbuf] at hx ⊢
      exact hx hrc
    have htake : (patch buf x.2.1).take x.1.toNat = x.2.1 := by
      rw [← hfits.1]
      exact take_patch hfits.2
    rw [verdict_taken hrc,hsome,ha]
    refine ⟨(patch_length _ _).trans hbuf,⟨x.2.2,rfl⟩,?_⟩
    change _ = (⟨true,s.received ++ [((patch buf x.2.1).take x.1.toNat,addrFromEndpoint x.2.2)],s.answered⟩ : Service)
    rw [htake]
    rfl

theorem sendTo_echoing {peer : SocketAddr} {payload : List UInt8} (ha : s.alive = true)
    (howed : s.received = s.answered ++ [(payload,peer)]) (hpeer : ∃ ep, peer = addrFromEndpoint ep)
    (hlen : payload.length ≤ 65535) : echoing.wpe (d.sendTo payload peer)
      (fun _ s' => s' = ⟨true,s.received,s.received⟩) (fun _ s' => s'.alive = true) s := by
  have hwhole : payload.take (asU32 payload.length) = payload := by
    have hsmall : asU32 payload.length = payload.length := Nat.mod_eq_of_lt (by omega)
    rw [hsmall,List.take_length]
  have hplain : addrFromEndpoint (endpointIntoBuf peer zeroed) = peer := by
    obtain ⟨ep,rfl⟩ := hpeer
    exact decoded_plain ep zeroed
  rw [sendTo_eq]
  refine Contract.wpe_loop _ (fun _ s' => s' = s) ?_ rfl
  rintro _ s rfl
  rw [Contract.wpe_bind,Contract.wpe,sendto_prog,hwhole]
  intro (rc : Int) _
  refine ⟨⟨ha,by rw [hplain]; exact howed⟩,?_⟩
  change echoing.wpe (d.retry (counted rc)) _ _
    ⟨s.alive,s.received ++ [],s.answered ++ (outgoing _).toList⟩
  rw [List.append_nil]
  by_cases hrc : rc < 0
  · have hcounted : counted rc = .error (fromRc rc) := if_pos hrc
    have hnone : outgoing ⟨.sessionSendto d.handle payload (endpointIntoBuf peer zeroed),rc⟩ = none :=
      if_pos hrc
    rw [hcounted,hnone,VclDgramSocket.retry,Contract.wpe_ite]
    change (if _ then _ else _ : Service → Prop) ⟨s.alive,s.received,s.answered ++ []⟩
    rw [List.append_nil]
    split_ifs with hb
    · rw [Contract.wpe_bind]
      exact indoors_wpe ha (Prog.calls_mono (fun _ => waits_indoors) (waitWritable_calls _)) (fun _ => rfl)
        (fun _ => ha)
    · exact ha
  · have hcounted : counted rc = .ok rc.toNat := if_neg hrc
    have hsome : outgoing ⟨.sessionSendto d.handle payload (endpointIntoBuf peer zeroed),rc⟩ =
        some (payload,addrFromEndpoint (endpointIntoBuf peer zeroed)) := if_neg hrc
    rw [hcounted,hsome,hplain]
    change (⟨s.alive,s.received,s.answered ++ [(payload,peer)]⟩ : Service) = _
    rw [ha,← howed]

theorem echoLoop_echoing (ha : s.alive = true) (hlevel : s.received = s.answered) :
    echoing.wpe (echoLoop d) (fun _ _ => False) (fun _ s' => s'.alive = true) s := by
  refine Contract.wpe_loop _ (fun buf s' => buf.length = 65535 ∧ s'.alive = true ∧
    s'.received = s'.answered) ?_ ⟨List.length_replicate ..,ha,hlevel⟩
  rintro buf s ⟨hbuf,ha,hlevel⟩
  rw [Contract.wpe_bind]
  refine Contract.wpe_mono _ (recvFrom_echoing ha hlevel hbuf) ?_ (fun _ _ h => h)
  rintro ⟨⟨n,peer⟩,buf'⟩ _ ⟨hbuf',hpeer,rfl⟩
  have hlen : (buf'.take n).length ≤ 65535 := (List.length_take_le' n buf').trans (Nat.le_of_eq hbuf')
  rw [Contract.wpe_bind]
  refine Contract.wpe_mono _ (sendTo_echoing rfl (by rw [hlevel]) hpeer hlen) ?_ (fun _ _ h => h)
  rintro _ _ rfl
  exact ⟨hbuf',rfl,rfl⟩

theorem appDrop_echoing {Q : Unit → Service → Prop} {E : Stop → Service → Prop} (ha : s.alive = true)
    (hQ : Q () ⟨false,s.received,s.answered⟩) : echoing.wpe VclApp.drop Q E s := by
  simp only [VclApp.drop,vppcomAppDestroy,Contract.wpe_bind,Contract.wpe_call]
  intro _ _
  refine ⟨.inr ha,?_⟩
  intro _ _
  refine ⟨.inl trivial,?_⟩
  intro _ _
  refine ⟨.inl trivial,?_⟩
  simp only [echoing,livened,incoming,outgoing,Option.toList_none,List.append_nil]
  exact hQ

theorem appInit_echoing {name : List UInt8} (ha : s.alive = false) : echoing.wpe (VclApp.init name)
    (fun _ s' => s' = ⟨true,s.received,s.answered⟩) (fun _ s' => s'.alive = false) s := by
  simp only [VclApp.init,vppcomAppCreate,Contract.wpe_bind,Contract.wpe_call,wpe_rejectIf]
  intro initialized _
  refine ⟨.inl trivial,?_⟩
  split_ifs with hinit hname
  · exact ha
  · exact ha
  · intro _ _
    refine ⟨.inl trivial,?_⟩
    intro (rc : Int) _
    refine ⟨.inl trivial,?_⟩
    rw [Contract.wpe_ite]
    split_ifs with hrc
    · rw [Contract.wpe_bind]
      intro _ _
      refine ⟨.inl trivial,?_⟩
      change decide (¬rc < 0) = false
      exact decide_eq_false (not_not.mpr hrc)
    · simp [echoing,livened,incoming,outgoing,Int.not_lt.mp hrc]

theorem echoMain_echoing {addr : SocketAddr} (ha : s.alive = false) (hlevel : s.received = s.answered) :
    echoing.wpe (echoMain addr) (fun _ _ => False) (fun _ s' => s'.alive = false) s := by
  have hclosing {s' : Service} (hs : s'.alive = true) : echoing.wpe VclApp.drop
      (fun _ s'' => s''.alive = false) (fun _ s'' => s''.alive = false) s' := appDrop_echoing hs rfl
  rw [echoMain,Contract.wpe_bind]
  refine Contract.wpe_mono _ (appInit_echoing ha) ?_ (fun _ _ h => h)
  rintro _ _ rfl
  rw [Contract.wpe_ensuring,Contract.wpe_bind]
  refine indoors_wpe rfl new_indoors (fun reactor => ?_) (fun e => hclosing rfl)
  rw [Contract.wpe_bind]
  refine indoors_wpe rfl dgramBind_indoors (fun sock => ?_) (fun e => hclosing rfl)
  rw [Contract.wpe_ensuring]
  refine Contract.wpe_mono _ (echoLoop_echoing rfl hlevel) (fun _ _ h => h.elim) ?_
  intro e s' hs'
  exact indoors_wpe hs' dgramDrop_indoors (fun _ => hclosing hs')
    (fun e => hclosing hs')

end Conversation

section Runs

variable [Platform] {tr : List Ev} {q : Prog Call Reply (Except Stop Empty)} {addr : SocketAddr}

def living (tr : List Ev) : Bool := tr.foldl livened false

structure Echoed (tr : List Ev) (q : Prog Call Reply (Except Stop Empty)) : Prop where
  level : letters incoming tr = letters outgoing tr ∨
    ∃ x, letters incoming tr = letters outgoing tr ++ [x]
  awaits : ∀ pre e post sh n, tr = pre ++ e :: post → e.op = .sessionRecvfrom sh n →
    letters incoming pre = letters outgoing pre
  answers : ∀ pre e post sh buf ep, tr = pre ++ e :: post → e.op = .sessionSendto sh buf ep →
    letters incoming pre = letters outgoing pre ++ [(buf,addrFromEndpoint ep)]
  housed : ∀ pre e post, tr = pre ++ e :: post → Outdoors e.op ∨ living pre = true
  ends : ∀ r, q.Returns r → living tr = false

def Service.closed : Service := ⟨false,[],[]⟩

theorem echoing_after (s : Service) (tr : List Ev) : echoing.after s tr =
    ⟨tr.foldl livened s.alive,s.received ++ letters incoming tr,s.answered ++ letters outgoing tr⟩ := by
  induction tr generalizing s with
  | nil => simp [letters]
  | cons e tr ih =>
    rw [Contract.after_cons,ih]
    simp [echoing,letters]

theorem echoing_after_closed (tr : List Ev) : echoing.after .closed tr =
    ⟨living tr,letters incoming tr,letters outgoing tr⟩ := by
  rw [echoing_after]
  rfl

omit [Platform] in
theorem letters_concat (f : Ev → Option Letter) (tr : List Ev) (e : Ev) :
    letters f (tr ++ [e]) = letters f tr ++ (f e).toList := by
  simp [letters]

theorem incoming_op {e : Ev} {x : Letter} (h : incoming e = some x) :
    ∃ sh n, e.op = .sessionRecvfrom sh n := by
  obtain ⟨op,reply⟩ := e
  cases op <;> first | cases h | exact ⟨_,_,rfl⟩

theorem outgoing_op {e : Ev} {x : Letter} (h : outgoing e = some x) :
    ∃ sh buf ep, e.op = .sessionSendto sh buf ep ∧ x = (buf,addrFromEndpoint ep) := by
  obtain ⟨op,reply⟩ := e
  cases op <;> first | cases h | skip
  next sh buf ep =>
    obtain ⟨-,hx⟩ := Option.ite_none_left_eq_some.mp h
    exact ⟨sh,buf,ep,rfl,(Option.some.inj hx).symm⟩

theorem level_kept (hk : echoing.Kept .closed tr) :
    letters incoming tr = letters outgoing tr ∨ ∃ x, letters incoming tr = letters outgoing tr ++ [x] := by
  induction tr using List.reverseRecOn with
  | nil => exact .inl rfl
  | append_singleton tr e ih =>
    obtain ⟨hk,hlast,-⟩ := (echoing.kept_append _ _ _).mp hk
    rw [echoing_after_closed] at hlast
    rw [letters_concat,letters_concat]
    cases hin : incoming e with
    | some x =>
      obtain ⟨sh,n,hop⟩ := incoming_op hin
      have hout : outgoing e = none := by
        cases hout : outgoing e with
        | none => rfl
        | some y =>
          obtain ⟨_,_,_,hop',-⟩ := outgoing_op hout
          rw [hop] at hop'
          cases hop'
      change Service.Allows _ e.op at hlast
      rw [hop] at hlast
      refine .inr ⟨x,?_⟩
      rw [hout,show letters incoming tr = letters outgoing tr from hlast.2]
      simp
    | none =>
      cases hout : outgoing e with
      | some y =>
        obtain ⟨sh,buf,ep,hop,rfl⟩ := outgoing_op hout
        change Service.Allows _ e.op at hlast
        rw [hop] at hlast
        left
        simpa using hlast.2
      | none => simpa using ih hk

end Runs

section Once

def greeted : ℕ → (c : Call) → Reply c
  | n, .instantNow => secs n
  | _, .sessionRecvfrom _ _ => ((1 : Int),[7],@endpointIntoBuf host recipient zeroed)
  | _, c => obliging c

def anyPort : SocketAddr := .v4 (.replicate 4 0) 0

end Once

end VclRs
