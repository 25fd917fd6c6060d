import VclRs.Echo
import VclRs.Departures

namespace VclRs

open Interaction Fallible

section Hearing

variable [Platform]

def Sends (k : ℕ) (payload : List UInt8 → Prop) : Call → Prop
  | .sessionRecvfrom _ n => n = k
  | .sessionSendto _ buf _ => payload buf
  | _ => True

def hearing (k : ℕ) (payload : List UInt8 → Prop) : Contract Call Reply (Option Letter) where
  rely _ := Fits
  guar _ e := Sends k payload e.op
  next s e := (incoming e).or s

def Hushed : Call → Prop
  | .sessionRecvfrom _ _ => False
  | .sessionSendto _ _ _ => False
  | _ => True

variable {k : ℕ} {payload : List UInt8 → Prop} {s : Option Letter} {sh : Handle}

theorem hushed_still {e : Ev} (he : Hushed e.op) :
    (hearing k payload).guar s e ∧ (hearing k payload).next s e = s := by
  obtain ⟨op,reply⟩ := e
  cases op <;> first | exact he.elim | exact ⟨trivial,rfl⟩

theorem hushed_wpe {α : Type} {x : Vcl α} {Q : α → Option Letter → Prop} {E : Stop → Option Letter → Prop}
    (hx : x.Calls Hushed) (hQ : ∀ a, Q a s) (hE : ∀ e, E e s) : (hearing k payload).wpe x Q E s :=
  Contract.wpe_still _ (fun _ he => hushed_still he) hx hQ hE

theorem hushed_always {α : Type} {x : Vcl α} (hx : x.Calls Hushed) : (hearing k payload).Always x :=
  fun _ => hushed_wpe hx (fun _ => trivial) (fun _ => trivial)

omit [Platform] in
theorem indoors_hushed {c : Call} (h : Indoors c) : Hushed c := by
  cases c <;> first | exact h | trivial

theorem recvfrom_hearing {buf : List UInt8} {α : Type} {f : Except VclError Delivered → Vcl α}
    {Q : α → Option Letter → Prop} {E : Stop → Option Letter → Prop} (hbuf : asU32 buf.length = k)
    (herr : ∀ e, (hearing k payload).wpe (f (.error e)) Q E s)
    (hok : ∀ n addr buf', buf'.length = buf.length →
      (hearing k payload).wpe (f (.ok ((n,addr),buf'))) Q E (some (buf'.take n,addr))) :
    (hearing k payload).wpe (attempt (recvfrom sh buf) >>= f) Q E s := by
  rw [Contract.wpe_bind,Contract.wpe,recvfrom_prog]
  intro x hx
  refine ⟨hbuf,?_⟩
  change (hearing k payload).wpe (f (verdict buf x)) Q E ((incoming _).or s)
  by_cases hrc : x.1 < 0
  · have hnone : incoming ⟨.sessionRecvfrom sh (asU32 buf.length),x⟩ = none := if_pos hrc
    rw [hnone,verdict_refused hrc]
    exact herr _
  · have hsome : incoming ⟨.sessionRecvfrom sh (asU32 buf.length),x⟩ =
        some (x.2.1,addrFromEndpoint x.2.2) := if_neg hrc
    have hfits : x.2.1.length = x.1.toNat ∧ x.2.1.length ≤ asU32 buf.length := hx hrc
    have hle : asU32 buf.length ≤ buf.length := Nat.mod_le ..
    have htake : (patch buf x.2.1).take x.1.toNat = x.2.1 := by
      rw [← hfits.1]
      exact take_patch (hfits.2.trans hle)
    have hheard := hok x.1.toNat (addrFromEndpoint x.2.2) (patch buf x.2.1) (patch_length ..)
    rw [htake] at hheard
    rw [hsome,verdict_taken hrc]
    exact hheard

theorem sendto_hearing {buf : List UInt8} {dst : SocketAddr} {Q : ℕ → Option Letter → Prop}
    {E : Stop → Option Letter → Prop} (hbuf : payload (buf.take (asU32 buf.length))) (hQ : ∀ n, Q n s)
    (hE : ∀ e, E e s) : (hearing k payload).wpe (sendto sh buf dst) Q E s := by
  rw [sendto,Contract.wpe_bind,Contract.wpe_call]
  refine fun rc _ => ⟨hbuf,?_⟩
  rw [Contract.wpe_bind]
  exact hushed_wpe (checkRc_calls _) (fun _ => hQ _) hE

end Hearing

section Client

variable [Platform] {peer : SocketAddr} {source : Option IpAddr} {query : List UInt8} {timeout : Duration}
variable {s : Option Letter} {sh : Handle} {deadline : Instant}

def Asked (query : List UInt8) (buf : List UInt8) : Prop := buf = query.take (asU32 query.length)

def Vouched (peer : SocketAddr) (a : Answer) (s : Option Letter) : Prop := s = some a ∧ a.2.ip = peer.ip

omit [Platform] in
theorem pausing_hushed (e : VclError) : (pausing deadline e).Calls Hushed :=
  calls_ite (calls_bind (calls_call trivial)
    (fun _ => calls_bind (calls_rejectIf _) (fun _ => calls_call trivial))) (calls_err _)

theorem awaiting_hearing : (hearing 4096 (Asked query)).wpe (awaiting ⟨sh⟩ peer deadline)
    (Vouched peer) (fun _ _ => True) s := by
  refine Contract.wpe_loop _ (fun buf _ => buf.length = 4096) ?_ (List.length_replicate ..)
  intro buf s hbuf
  refine recvfrom_hearing (by rw [hbuf]; rfl) ?_ ?_
  · intro e
    rw [sift_error,Contract.wpe_bind]
    exact hushed_wpe (pausing_hushed e) (fun _ => hbuf) (fun _ => trivial)
  · intro n addr buf' hbuf'
    change (hearing 4096 (Asked query)).wpe (if addr.ip ≠ peer.ip then pure (Sum.inl buf')
      else pure (Sum.inr (buf'.take n,addr))) _ _ _
    rw [Contract.wpe_ite]
    split_ifs with hip
    · exact hbuf'.trans hbuf
    · exact ⟨rfl,not_not.mp hip⟩

omit [Platform] in
theorem registers_hushed {c : Call} (h : Registers c) : Hushed c := by
  cases h <;> trivial

omit [Platform] in
theorem configures_hushed {c : Call} (h : Configures sh c) : Hushed c := by
  cases h <;> trivial

theorem preparing_hushed {ip : Vcl IpAddr} (h : ip.Calls Hushed) : (preparing ip sh).Calls Hushed := by
  refine calls_bind h (fun ip => calls_bind (Prog.calls_mono ?_ (bindEphemeral_calls ip 8)) (fun _ => ?_))
  · rintro c (⟨low,high⟩ | hc)
    · trivial
    · exact configures_hushed hc
  · exact calls_bind (calls_rejectIf _) (fun _ => Prog.calls_mono (fun _ => configures_hushed) (listen_calls 0))

theorem once_hearing : (hearing 4096 (Asked query)).wpe (VclUdpSyncSocket.once peer source query timeout)
    (Vouched peer) (fun _ _ => True) s := by
  rw [once_eq,transacting,Contract.wpe_bind]
  refine hushed_wpe (Prog.calls_mono (fun _ => registers_hushed) registerWorkerThread_calls) (fun _ => ?_)
    (fun _ => trivial)
  rw [Contract.wpe_bind]
  refine hushed_wpe (calls_bind (calls_call trivial) (fun _ => calls_bind (checkRc_calls _)
    (fun _ => calls_pure _))) (fun sh => ?_) (fun _ => trivial)
  have hdrop {s : Option Letter} {Q : Unit → Option Letter → Prop} (hQ : Q () s) :
      (hearing 4096 (Asked query)).wpe (dropSession sh) Q (fun _ _ => True) s :=
    hushed_wpe (dropSession_calls trivial) (fun _ => hQ) (fun _ => trivial)
  rw [holding,Contract.wpe_ensuring,Contract.wpe_bind]
  refine hushed_wpe (preparing_hushed (familyIp_calls _ _)) (fun _ => ?_) (fun _ => hdrop trivial)
  rw [conversing,Contract.wpe_bind]
  refine sendto_hearing rfl (fun _ => ?_) (fun _ => hdrop trivial)
  rw [Contract.wpe_bind]
  refine hushed_wpe (calls_call trivial) (fun _ => ?_) (fun _ => hdrop trivial)
  exact Contract.wpe_mono _ awaiting_hearing (fun _ _ h => hdrop h) (fun _ _ _ => hdrop trivial)

end Client

section Server

variable [Platform] {d : VclDgramSocket} {addr : SocketAddr} {s : Option Letter}

abbrev anything : List UInt8 → Prop := fun _ => True

omit [Platform] in
theorem waits_hushed {vep sh : Handle} {c : Call} (h : Waits vep sh c) : Hushed c :=
  indoors_hushed (waits_indoors h)

theorem recvFrom_hearing {buf : List UInt8} (hbuf : buf.length = 65535) :
    (hearing 65535 anything).wpe (d.recvFrom buf) (fun x _ => x.2.length = 65535) (fun _ _ => True) s := by
  rw [recvFrom_eq]
  refine Contract.wpe_loop _ (fun _ _ => True) ?_ trivial
  intro _ s _
  refine recvfrom_hearing (by rw [hbuf]; rfl) ?_ ?_
  · intro e
    rw [VclDgramSocket.resume,Contract.wpe_ite]
    split_ifs with hb
    · rw [Contract.wpe_bind]
      refine hushed_wpe (calls_attempt (Prog.calls_mono (fun _ => waits_hushed) (waitReadable_calls _))) ?_
        (fun _ => trivial)
      intro r
      cases r with
      | ok _ => trivial
      | error e =>
        rw [Contract.wpe_ite]
        split_ifs <;> trivial
    · trivial
  · exact fun _ _ _ hbuf' => hbuf'.trans hbuf

theorem sendTo_hearing {buf : List UInt8} {dst : SocketAddr} :
    (hearing 65535 anything).Always (d.sendTo buf dst) := by
  rw [sendTo_eq]
  refine Contract.always_loop (fun _ s => ?_) _
  have hretry (r : Except VclError ℕ) : (d.retry r).Calls Hushed := by
    cases r with
    | ok n => trivial
    | error e =>
      exact calls_ite (calls_bind (Prog.calls_mono (fun _ => waits_hushed) (waitWritable_calls _))
        (fun _ => calls_pure _)) (calls_err _)
  rw [Contract.wpe_bind,wpe_attempt]
  refine sendto_hearing trivial (fun n => hushed_always (hretry _) s) (fun e => ?_)
  cases e with
  | err e => exact hushed_always (hretry _) s
  | dropped => trivial

theorem echoLoop_hearing : (hearing 65535 anything).Always (echoLoop d) := by
  intro s
  refine Contract.wpe_loop _ (fun buf _ => buf.length = 65535) ?_ (List.length_replicate ..)
  intro buf s hbuf
  rw [Contract.wpe_bind]
  refine Contract.wpe_mono _ (recvFrom_hearing hbuf) (fun x s' hx => ?_) (fun _ _ _ => trivial)
  rw [Contract.wpe_bind]
  exact Contract.wpe_mono _ (sendTo_hearing s') (fun _ _ _ => hx) (fun _ _ _ => trivial)

omit [Platform] in
theorem appDrop_hushed : VclApp.drop.Calls Hushed :=
  calls_bind (calls_bind (calls_call trivial) (fun _ => calls_call trivial)) (fun _ => calls_call trivial)

theorem appInit_hushed {name : List UInt8} : (VclApp.init name).Calls Hushed := by
  refine calls_bind (calls_call trivial) (fun _ => calls_bind (calls_rejectIf _) (fun _ => ?_))
  refine calls_bind (calls_rejectIf _) (fun _ => ?_)
  refine calls_bind (calls_bind (calls_call trivial) (fun _ => calls_call trivial)) (fun _ => ?_)
  exact calls_ite (calls_bind (calls_call trivial) (fun _ => calls_err _)) (calls_pure _)

theorem echoMain_hearing : (hearing 65535 anything).Always (echoMain addr) := by
  have hindoors {α : Type} {x : Vcl α} (hx : x.Calls Indoors) : (hearing 65535 anything).Always x :=
    hushed_always (Prog.calls_mono (fun _ => indoors_hushed) hx)
  refine Contract.always_bind (hushed_always appInit_hushed) (fun _ => ?_)
  refine Contract.always_ensuring ?_ (hushed_always appDrop_hushed)
  refine Contract.always_bind (hindoors new_indoors) (fun reactor => ?_)
  refine Contract.always_bind (hindoors dgramBind_indoors) (fun sock => ?_)
  exact Contract.always_ensuring echoLoop_hearing (hindoors dgramDrop_indoors)

end Server

inductive Node where
  | server
  | client (i : ℕ)
deriving DecidableEq, Repr

abbrev Chronicle := List (Node × Ev)

namespace Chronicle

def events (log : Chronicle) (x : Node) : List Ev :=
  log.filterMap (fun y => if y.1 = x then some y.2 else none)

theorem events_append (log log' : Chronicle) (x : Node) :
    (log ++ log' : Chronicle).events x = log.events x ++ log'.events x := List.filterMap_append ..

theorem mem_events {log : Chronicle} {x : Node} {e : Ev} (h : e ∈ log.events x) :
    ∃ pre post, log = pre ++ (x,e) :: post := by
  obtain ⟨y,hy,he⟩ := List.mem_filterMap.mp h
  obtain ⟨x',e'⟩ := y
  split_ifs at he with hx
  cases hx
  cases he
  exact List.append_of_mem hy

theorem events_prefix {log pre post : Chronicle} {y : Node × Ev} {x : Node} (h : log = pre ++ y :: post) :
    pre.events x <+: log.events x := by
  rw [h,events_append]
  exact List.prefix_append ..

def told (x : Node) (tr : List Ev) : Chronicle := tr.map (Prod.mk x)

theorem events_told (x : Node) (tr : List Ev) : (told x tr).events x = tr := by
  simp [events,told,List.filterMap_map]

theorem events_untold {x y : Node} (h : x ≠ y) (tr : List Ev) : (told x tr).events y = [] := by
  simp [events,told,List.filterMap_map,h]

theorem mem_told {x y : Node} {e : Ev} {tr : List Ev} : (y,e) ∈ told x tr ↔ y = x ∧ e ∈ tr := by
  simp [told,and_comm,eq_comm]

theorem mem_of_split {log pre post : Chronicle} {y : Node × Ev} (h : log = pre ++ y :: post) : y ∈ log := by
  rw [h]
  exact List.mem_append_right _ (List.mem_cons_self ..)

theorem since {log more pre post : Chronicle} {y : Node × Ev} (hy : y ∉ log)
    (h : log ++ more = pre ++ y :: post) : log <+: pre := by
  rcases List.append_eq_append_iff.mp h with ⟨mid,hpre,-⟩ | ⟨mid,hlog,hmid⟩
  · exact ⟨mid,hpre.symm⟩
  · cases mid with
    | nil => exact ⟨[],by rw [hlog,List.append_nil,List.append_nil]⟩
    | cons z mid =>
      obtain ⟨rfl,-⟩ := List.cons.inj hmid
      exact absurd (hlog ▸ List.mem_append_right _ (List.mem_cons_self ..)) hy

end Chronicle

structure Venture where
  peer : SocketAddr
  source : Option IpAddr
  query : List UInt8
  timeout : Duration

section Protocol

variable [Platform]

def Venture.code (k : Venture) : Vcl Answer := VclUdpSyncSocket.once k.peer k.source k.query k.timeout

def capacity : Ev → ℕ
  | ⟨.sessionRecvfrom _ n,_⟩ => n
  | _ => 0

structure Staffed (addr : SocketAddr) (log : Chronicle) : Prop where
  server : ∃ q, (echoMain addr).prog.Path (log.events .server) q
  fits : ∀ x ∈ log, Fits x.2

structure Conveyed (i : ℕ) (home peer : SocketAddr) (log : Chronicle) : Prop where
  requests : ∀ (pre : Chronicle) e post data, log = pre ++ (.server,e) :: post →
    incoming e = some (data,home) → ∃ payload dst,
      (payload,dst) ∈ letters outgoing (pre.events (.client i)) ∧ data = payload.take (capacity e)
  replies : ∀ (pre : Chronicle) e post data src, log = pre ++ (.client i,e) :: post →
    incoming e = some (data,src) → src.ip = peer.ip → ∃ payload,
      (payload,home) ∈ letters outgoing (pre.events .server) ∧ data = payload.take (capacity e)

variable {k : ℕ} {payload : List UInt8 → Prop} {tr : List Ev} {x : Letter}

omit [Platform] in
theorem mem_letters {f : Ev → Option Letter} : x ∈ letters f tr ↔ ∃ e ∈ tr, f e = some x := by
  simp [letters]

omit [Platform] in
theorem letters_mono {f : Ev → Option Letter} {tr' : List Ev} (hsub : ∀ e ∈ tr, e ∈ tr')
    (h : x ∈ letters f tr) : x ∈ letters f tr' := by
  obtain ⟨e,he,hx⟩ := mem_letters.mp h
  exact mem_letters.mpr ⟨e,hsub e he,hx⟩

theorem heard_letter (h : (hearing k payload).after none tr = some x) : ∃ e ∈ tr, incoming e = some x := by
  induction tr using List.reverseRecOn with
  | nil => cases h
  | append_singleton tr e ih =>
    rw [Contract.after_append] at h
    change (incoming e).or _ = some x at h
    rcases Option.or_eq_some_iff.mp h with he | ⟨-,htr⟩
    · exact ⟨e,by simp,he⟩
    · obtain ⟨e',he',hx⟩ := ih htr
      exact ⟨e',by simp [he'],hx⟩

theorem kept_sends {s : Option Letter} (h : (hearing k payload).Kept s tr) : ∀ e ∈ tr, Sends k payload e.op := by
  intro e he
  obtain ⟨pre,post,rfl⟩ := List.append_of_mem he
  exact (Contract.kept_at _ h).1

theorem incoming_capacity {e : Ev} (h : incoming e = some x) (he : Sends k payload e.op) : capacity e = k := by
  obtain ⟨op,reply⟩ := e
  cases op <;> first | exact he | cases h

theorem outgoing_payload {e : Ev} (h : outgoing e = some x) (he : Sends k payload e.op) : payload x.1 := by
  obtain ⟨sh,buf,ep,hop,rfl⟩ := outgoing_op h
  rw [hop] at he
  exact he

theorem level_mem (hk : echoing.Kept .closed tr) (h : x ∈ letters outgoing tr) : x ∈ letters incoming tr := by
  rcases level_kept hk with hlevel | ⟨y,hlevel⟩
  · rw [hlevel]
    exact h
  · rw [hlevel]
    exact List.mem_append_left _ h

variable {addr home src : SocketAddr} {log : Chronicle} {k : Venture} {i : ℕ} {resp : List UInt8}

theorem Staffed.relied {σ : Type} (C : Contract Call Reply σ) (hstaff : Staffed addr log)
    (hC : ∀ s, C.rely s = Fits) (s : σ) (x : Node) : C.Relied s (log.events x) := by
  refine Contract.relied_of_mem _ (fun s e he => ?_)
  obtain ⟨pre,post,rfl⟩ := Chronicle.mem_events he
  rw [hC]
  exact hstaff.fits (x,e) (by simp)

theorem Staffed.echoes (hstaff : Staffed addr log) : echoing.Kept .closed (log.events .server) ∧
    (hearing 65535 anything).Kept none (log.events .server) := by
  obtain ⟨q,hq⟩ := hstaff.server
  have hecho : echoing.wpe (echoMain addr) _ _ .closed := echoMain_echoing rfl rfl
  exact ⟨(Contract.wp_path _ hecho hq (hstaff.relied _ (fun _ => rfl) _ _)).1,
    (Contract.wp_path _ (echoMain_hearing none) hq (hstaff.relied _ (fun _ => rfl) _ _)).1⟩

theorem echo_round_trips (hstaff : Staffed addr log) (hnet : Conveyed i home k.peer log)
    (hrun : k.code.Run (log.events (.client i)) (.ok (resp,src))) :
    src.ip = k.peer.ip ∧ resp = (k.query.take (asU32 k.query.length)).take 4096 := by
  obtain ⟨hclient,hheard,hip⟩ := Contract.wpe_ok _ once_hearing hrun (hstaff.relied _ (fun _ => rfl) none _)
  obtain ⟨hecho,hserver⟩ := hstaff.echoes
  obtain ⟨e,he,hin⟩ := heard_letter hheard
  have hsize := incoming_capacity hin (kept_sends hclient e he)
  obtain ⟨pre,post,hlog⟩ := Chronicle.mem_events he
  obtain ⟨reply,hreply,hresp⟩ := hnet.replies pre e post resp src hlog hin hip
  obtain ⟨later,hlater⟩ := Chronicle.events_prefix (x := .server) hlog
  rw [← hlater] at hecho
  have hasked := level_mem ((Contract.kept_append _ _ _ _).mp hecho).1 hreply
  obtain ⟨e',he',hin'⟩ := mem_letters.mp hasked
  have hmem' : e' ∈ log.events .server := by
    rw [← hlater]
    exact List.mem_append_left _ he'
  have hsize' := incoming_capacity hin' (kept_sends hserver e' hmem')
  obtain ⟨pre',post',hlog'⟩ := Chronicle.mem_events hmem'
  obtain ⟨payload,dst,hsent,hdata⟩ := hnet.requests pre' e' post' reply hlog' hin'
  obtain ⟨e'',he'',hout⟩ := mem_letters.mp hsent
  obtain ⟨later',hlater'⟩ := Chronicle.events_prefix (x := .client i) hlog'
  have hmem'' : e'' ∈ log.events (.client i) := by
    rw [← hlater']
    exact List.mem_append_left _ he''
  have hpayload : Asked k.query payload := outgoing_payload hout (kept_sends hclient e'' hmem'')
  refine ⟨hip,?_⟩
  rw [hresp,hdata,hsize,hsize',hpayload,List.take_take]
  rfl

end Protocol

section Rendezvous

open Chronicle

variable [Platform] {i : ℕ} {home peer : SocketAddr} {boot asks serves rest : List Ev}

def rendezvous (i : ℕ) (boot asks serves rest : List Ev) : Chronicle :=
  (told .server boot ++ told (.client i) asks) ++ (told .server serves ++ told (.client i) rest)

omit [Platform] in
theorem rendezvous_server : (rendezvous i boot asks serves rest).events .server = boot ++ serves := by
  have hne : Node.client i ≠ .server := by rintro ⟨⟩
  simp only [rendezvous,events_append,events_told,events_untold hne,List.append_nil]

omit [Platform] in
theorem rendezvous_client : (rendezvous i boot asks serves rest).events (.client i) = asks ++ rest := by
  have hne : Node.server ≠ .client i := by rintro ⟨⟩
  simp only [rendezvous,events_append,events_told,events_untold hne,List.nil_append]

theorem rendezvous_conveyed (hboot : ∀ e ∈ boot, incoming e = none) (hasks : ∀ e ∈ asks, incoming e = none)
    (hserves : ∀ e ∈ serves, ∀ x, incoming e = some x → ∃ payload dst,
      (payload,dst) ∈ letters outgoing asks ∧ x.1 = payload.take (capacity e))
    (hrest : ∀ e ∈ rest, ∀ x, incoming e = some x → ∃ payload,
      (payload,home) ∈ letters outgoing serves ∧ x.1 = payload.take (capacity e)) :
    Conveyed i home peer (rendezvous i boot asks serves rest) := by
  have hpast {x : Node} {e : Ev} {y : Letter} (hin : incoming e = some y) :
      (x,e) ∉ told .server boot ++ told (.client i) asks := by
    intro hmem
    rcases List.mem_append.mp hmem with h | h
    · cases (hboot e (mem_told.mp h).2).symm.trans hin
    · cases (hasks e (mem_told.mp h).2).symm.trans hin
  constructor
  · intro pre e post data hlog hin
    have he : (.server,e) ∈ told .server serves ++ told (.client i) rest :=
      (List.mem_append.mp (mem_of_split hlog)).resolve_left (hpast hin)
    have hserved : e ∈ serves := by
      rcases List.mem_append.mp he with h | h
      · exact (mem_told.mp h).2
      · cases (mem_told.mp h).1
    obtain ⟨payload,dst,hsent,hdata⟩ := hserves e hserved _ hin
    obtain ⟨more,rfl⟩ := since (hpast hin) hlog
    refine ⟨payload,dst,letters_mono (fun e he => ?_) hsent,hdata⟩
    rw [events_append,events_append,events_told]
    exact List.mem_append_left _ (List.mem_append_right _ he)
  · intro pre e post data src hlog hin _
    rw [rendezvous,← List.append_assoc] at hlog
    have hearlier : (.client i,e) ∉ told .server boot ++ told (.client i) asks ++ told .server serves := by
      intro hmem
      rcases List.mem_append.mp hmem with h | h
      · exact hpast hin h
      · cases (mem_told.mp h).1
    have he : (.client i,e) ∈ told (.client i) rest :=
      (List.mem_append.mp (mem_of_split hlog)).resolve_left hearlier
    obtain ⟨payload,hsent,hdata⟩ := hrest e (mem_told.mp he).2 _ hin
    obtain ⟨more,rfl⟩ := since hearlier hlog
    refine ⟨payload,letters_mono (fun e he => ?_) hsent,hdata⟩
    rw [events_append,events_append,events_told]
    exact List.mem_append_left _ (List.mem_append_right _ he)

end Rendezvous

section Greeting

set_option maxRecDepth 20000

def greeter : Venture := ⟨nameserver,none,[7],5⟩

def repeated : ℕ → (c : Call) → Reply c
  | _, .sessionRecvfrom _ _ => ((1 : Int),[7],@endpointIntoBuf host nameserver zeroed)
  | _, c => obliging c

theorem echo_round_trips_greeting : ∃ log, @Staffed host anyPort log ∧
    @Conveyed host 0 recipient greeter.peer log ∧
      (@Venture.code host greeter).Run (log.events (.client 0)) (.ok ([7],nameserver)) ∧
        nameserver.ip = greeter.peer.ip ∧ [7] = (greeter.query.take (asU32 greeter.query.length)).take 4096 := by
  let _ := host
  have hpatched (buf : List UInt8) (h : 1 ≤ buf.length) : (patch buf [7]).take 1 = [7] := by
    have hroom : [(7 : UInt8)].length ≤ buf.length := h
    exact take_patch hroom
  let buf : List UInt8 := List.replicate 65535 0
  let payload : List UInt8 := (patch buf [7]).take 1
  let boot : List Ev := [⟨.initializedSwap true,false⟩,⟨.appCreate echoName,()⟩,⟨.appCreated,(0 : Int)⟩,
    ⟨.epollCreate,(2 : Int)⟩,⟨.mqEpollFd,(4 : Int)⟩,⟨.asyncFd 4,.ok ()⟩,⟨.registeredGet,true⟩,
    ⟨.sessionCreate .udp true,(1 : Int)⟩,⟨.sessionBind 1 (endpointIntoBuf anyPort zeroed),(0 : Int)⟩,
    ⟨.sessionListen 1 0,(0 : Int)⟩,⟨.epollCreate,(2 : Int)⟩,
    ⟨.epollCtl 2 .add 1 (some ⟨bindAllEvents,1⟩),(0 : Int)⟩,⟨.instantNow,secs 12⟩,⟨.instantNow,secs 13⟩,
    ⟨.sessionClose 2,(0 : Int)⟩,⟨.sessionAttr 1 .getLclAddr,((0 : Int),.default)⟩,
    ⟨.epollCtl 2 .add 1 (some ⟨epollin ||| epollout ||| epollet,1⟩),(0 : Int)⟩]
  let asks : List Ev := [⟨.registeredGet,true⟩,⟨.sessionCreate .udp true,(1 : Int)⟩,
    ⟨.genRange portLow portHigh,portLow⟩,
    ⟨.sessionBind 1 (endpointIntoBuf (.new .unspecifiedV4 32768) zeroed),(0 : Int)⟩,
    ⟨.sessionListen 1 0,(0 : Int)⟩,⟨.sessionSendto 1 [7] (endpointIntoBuf nameserver zeroed),(1 : Int)⟩]
  let serves : List Ev := [
    ⟨.sessionRecvfrom 1 (asU32 buf.length),((1 : Int),[7],endpointIntoBuf recipient zeroed)⟩,
    ⟨.sessionSendto 1 (payload.take (asU32 payload.length))
      (endpointIntoBuf (addrFromEndpoint (endpointIntoBuf recipient zeroed)) zeroed),
      ((payload.take (asU32 payload.length)).length : Int)⟩]
  let rest : List Ev := [⟨.instantNow,(0 : ℕ)⟩,
    ⟨.sessionRecvfrom 1 4096,((1 : Int),[7],endpointIntoBuf nameserver zeroed)⟩,⟨.sessionClose 1,(0 : Int)⟩]
  obtain ⟨q,hpath⟩ : ∃ q, (echoMain anyPort).prog.Path (boot ++ serves) q :=
    ⟨_,Prog.advance_path greeted 3 19 0 _⟩
  have hrun : greeter.code.Run (asks ++ rest) (.ok ([7],nameserver)) :=
    Prog.exec_run (fun n o => (repeated n o,n + 1)) 3 _ 0 9 _ _ rfl
  have hlength : buf.length = 65535 := List.length_replicate ..
  have hsize : asU32 buf.length = 65535 := by
    rw [hlength]
    rfl
  have hpayload : payload = [7] := hpatched buf (by omega)
  clear_value buf payload
  subst hpayload
  have hcut : List.take (asU32 1) [7] = ([7] : List UInt8) := rfl
  have hpeer : addrFromEndpoint (endpointIntoBuf recipient zeroed) = recipient := decode_encode recipient zeroed
  have hnet : Conveyed 0 recipient greeter.peer (rendezvous 0 boot asks serves rest) := by
    refine rendezvous_conveyed ?_ ?_ ?_ ?_
    · simp [boot,incoming]
    · simp [asks,incoming]
    · simp [asks,serves,incoming,outgoing,letters,capacity,hsize]
    · simp [serves,rest,incoming,outgoing,letters,capacity,hcut,hpeer]
  have hstaff : Staffed anyPort (rendezvous 0 boot asks serves rest) := by
    refine ⟨⟨q,?_⟩,?_⟩
    · rw [rendezvous_server]
      exact hpath
    · simp [rendezvous,Chronicle.told,boot,asks,serves,rest,Fits,hsize]
  have hclient : (rendezvous 0 boot asks serves rest).events (.client 0) = asks ++ rest := rendezvous_client
  rw [← hclient] at hrun
  exact ⟨_,hstaff,hnet,hrun,echo_round_trips hstaff hnet hrun⟩

end Greeting

end VclRs
