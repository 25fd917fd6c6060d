import VclRs.Footprint
import VclRs.Model.Dgram
import VclRs.Schedule

namespace VclRs

open Interaction Fallible

inductive Operation where
  | connectAsync (addr : SocketAddr) (source : Option SocketAddr) (reactor : VclReactor)
    (timeout : Duration)
  | read (s : VclStream) (buf : List UInt8)
  | readExact (s : VclStream) (buf : List UInt8)
  | writeAll (s : VclStream) (buf : List UInt8)
  | accept (l : VclListener)
  | recvFrom (d : VclDgramSocket) (buf : List UInt8)
  | tryRecvFrom (d : VclDgramSocket) (buf : List UInt8)
  | waitReadable (d : VclDgramSocket)
  | sendTo (d : VclDgramSocket) (buf : List UInt8) (dst : SocketAddr)

def Operation.Result : Operation → Type
  | .connectAsync .. => VclStream
  | .read .. => ℕ × List UInt8
  | .readExact .. => List UInt8
  | .writeAll .. => Unit
  | .accept .. => VclStream × SocketAddr
  | .recvFrom .. => (ℕ × SocketAddr) × List UInt8
  | .tryRecvFrom .. => Option ((ℕ × SocketAddr) × List UInt8)
  | .waitReadable .. => Unit
  | .sendTo .. => ℕ

structure Blame where
  session : Option VclError
  latest : Option VclError
deriving DecidableEq, Repr

def Selected.fault : Selected → Option VclError
  | .readFailed e => some (.io e)
  | .elapsed => some .timeout
  | _ => none

section Verdicts

variable [Platform]

def Operation.code : (k : Operation) → Vcl k.Result
  | .connectAsync addr source reactor timeout => VclStream.connectAsync addr source reactor timeout
  | .read s buf => s.read buf
  | .readExact s buf => s.readExact buf
  | .writeAll s buf => s.writeAll buf
  | .accept l => l.accept
  | .recvFrom d buf => d.recvFrom buf
  | .tryRecvFrom d buf => d.tryRecvFrom buf
  | .waitReadable d => d.waitReadable
  | .sendTo d buf dst => d.sendTo buf dst

def refusal (rc : Int) : Option VclError := if rc < 0 then some (fromRc rc) else none

namespace Blame

def init : Blame := ⟨none,none⟩

def on (v : Option VclError) : Blame := ⟨v,v⟩

def next (s : Blame) : Ev → Blame
  | ⟨.sessionCreate _ _,rc⟩ => .on (refusal rc)
  | ⟨.sessionBind _ _,rc⟩ => .on (refusal rc)
  | ⟨.sessionListen _ _,rc⟩ => .on (refusal rc)
  | ⟨.sessionAccept _,x⟩ => .on (refusal x.1)
  | ⟨.sessionConnect _ _,rc⟩ => .on (refusal rc)
  | ⟨.sessionRead _ _,x⟩ => .on (if x.1 = 0 then some .closed else refusal x.1)
  | ⟨.sessionWrite _ _,rc⟩ => .on (refusal rc)
  | ⟨.sessionSendto _ _ _,rc⟩ => .on (refusal rc)
  | ⟨.sessionRecvfrom _ _,x⟩ => .on (refusal x.1)
  | ⟨.sessionAttr _ _,x⟩ => .on (refusal x.1)
  | ⟨.epollCtl _ .add _ _,rc⟩ => .on (refusal rc)
  | ⟨.select _ _ _,x⟩ => { s with latest := x.2.fault }
  | _ => s

end Blame

def blame (tr : List Ev) : Blame := tr.foldl Blame.next .init

def blaming : Contract Call Reply Blame where
  rely _ _ := True
  guar _ _ := True
  next := Blame.next

end Verdicts

structure Blame.Owns (s : Blame) (retry : VclError → Prop) (e : VclError) : Prop where
  latest : s.latest = some e
  final : ¬ retry e
  cause : s.session = some e ∨ WaitStop (.err e) ∧ ∃ r, s.session = some r ∧ retry r

abbrev VclError.blocked (e : VclError) : Prop := e = .wouldBlock

def Operation.Explains : Operation → Blame → VclError → Prop
  | .connectAsync .., s, e => s.latest = some e
  | .read .., s, e => s.Owns VclError.transient e
  | .readExact .., s, e => s.Owns VclError.transient e
  | .writeAll .., s, e => s.Owns VclError.transient e
  | .accept .., s, e => s.latest = some e ∧ e ≠ .timeout
  | .recvFrom .., s, e => s.Owns VclError.blocked e ∧ e ≠ .timeout
  | .tryRecvFrom .., s, e => s.session = some e ∧ ¬ e.blocked ∧ e ≠ .timeout
  | .waitReadable .., s, e => s.latest = some e ∧ ∃ x, e = .io x
  | .sendTo .., s, e => s.Owns VclError.blocked e

def Silent : Call → Prop
  | .sessionCreate _ _ => False
  | .sessionBind _ _ => False
  | .sessionListen _ _ => False
  | .sessionAccept _ => False
  | .sessionConnect _ _ => False
  | .sessionRead _ _ => False
  | .sessionWrite _ _ => False
  | .sessionSendto _ _ _ => False
  | .sessionRecvfrom _ _ => False
  | .sessionAttr _ _ => False
  | .epollCtl _ .add _ _ => False
  | .select _ _ _ => False
  | _ => True

section Rules

variable [Platform] {s : Blame} {sh : Handle} {r : VclReactor}

theorem silent_next {e : Ev} (h : Silent e.op) : blaming.guar s e ∧ blaming.next s e = s := by
  obtain ⟨op,reply⟩ := e
  cases op with
  | epollCtl vep ctl sh ev =>
    cases ctl with
    | add => exact h.elim
    | del => exact ⟨trivial,rfl⟩
  | _ => first
    | exact ⟨trivial,rfl⟩
    | exact h.elim

theorem silent_wpe {α : Type} {x : Vcl α} {Q : α → Blame → Prop} {E : Stop → Blame → Prop}
    (hx : x.Calls Silent) (hQ : ∀ a, Q a s) (hE : ∀ e, E e s) : blaming.wpe x Q E s :=
  blaming.wpe_still (fun _ he => silent_next he) hx hQ hE

inductive Declined : Stop → Blame → Prop
  | rc (rc : Int) : Declined (.err (fromRc rc)) (.on (some (fromRc rc)))

def Frank {α : Type} (x : Vcl α) : Prop := ∀ s, blaming.wpe x (fun _ _ => True) Declined s

theorem checkRc_blame {rc : Int} (hs : s = .on (refusal rc)) :
    blaming.wpe (checkRc rc) (fun _ _ => True) Declined s := by
  rw [checkRc,wpe_rejectIf]
  split_ifs with hneg
  · rw [hs,refusal,if_pos hneg]
    exact .rc rc
  · trivial

theorem frank_call {α : Type} {c : Call} {f : Reply c → Vcl α}
    (h : ∀ y s, blaming.wpe (f y) (fun _ _ => True) Declined (Blame.next s ⟨c,y⟩)) :
    Frank (ffi c >>= f) := by
  intro s
  rw [Contract.wpe_bind,Contract.wpe_call]
  exact fun y _ => ⟨trivial,h y s⟩

theorem frank_checked {α : Type} {c : Call} {rc : Reply c → Int} {a : Reply c → α}
    (h : ∀ y s, Blame.next s ⟨c,y⟩ = .on (refusal (rc y))) :
    Frank (ffi c >>= fun y => checkRc (rc y) >>= fun _ => pure (a y)) := by
  refine frank_call (fun y s => ?_)
  rw [Contract.wpe_bind]
  exact checkRc_blame (h y s)

theorem createTcp_frank {nonblocking : Bool} : Frank (createTcp nonblocking) :=
  frank_checked (fun _ _ => rfl)

theorem bind_frank {addr : SocketAddr} : Frank (bind sh addr) := frank_call (fun _ _ => checkRc_blame rfl)

theorem connect_frank {addr : SocketAddr} : Frank (connect sh addr) :=
  frank_call (fun _ _ => checkRc_blame rfl)

theorem setNodelay_frank : Frank (setNodelay sh) := frank_call (fun _ _ => checkRc_blame rfl)

theorem setNonblocking_frank : Frank (setNonblocking sh) := frank_call (fun _ _ => checkRc_blame rfl)

theorem register_frank : Frank (r.register sh) := frank_call (fun _ _ => checkRc_blame rfl)

theorem sessionAccept_frank : Frank (sessionAccept sh) := frank_checked (fun _ _ => rfl)

theorem sessionWrite_frank {buf : List UInt8} : Frank (sessionWrite sh buf) :=
  frank_checked (fun _ _ => rfl)

theorem recvfrom_frank {buf : List UInt8} : Frank (recvfrom sh buf) := frank_checked (fun _ _ => rfl)

theorem sendto_frank {buf : List UInt8} {dst : SocketAddr} : Frank (sendto sh buf dst) :=
  frank_checked (fun _ _ => rfl)

theorem sessionRead_blame {buf : List UInt8} : blaming.wpe (sessionRead sh buf)
    (fun x s' => x.1 = 0 → s' = .on (some .closed)) Declined s := by
  simp only [sessionRead,checkRc,Contract.wpe_bind,Contract.wpe_call,wpe_rejectIf,Contract.wpe_pure]
  rintro ⟨rc,data⟩ _
  refine ⟨trivial,?_⟩
  have hnext : blaming.next s ⟨.sessionRead sh buf.length,rc,data⟩ =
    .on (if rc = 0 then some .closed else refusal rc) := rfl
  rw [hnext]
  split_ifs with hneg hzero
  · omega
  · rw [refusal,if_pos hneg]
    exact .rc rc
  · exact fun _ => rfl
  · intro h
    change rc.toNat = 0 at h
    omega

theorem registerWorkerThread_blame {Q : Unit → Blame → Prop} {E : Stop → Blame → Prop} (hQ : Q () s) :
    blaming.wpe registerWorkerThread Q E s := by
  simp only [registerWorkerThread,settleRegistration,Contract.wpe_bind,Contract.wpe_call,
    Contract.wpe_ite,Contract.wpe_pure]
  refine fun registered _ => ⟨trivial,?_⟩
  split_ifs with hregistered
  · exact hQ
  · refine fun _ _ => ⟨trivial,fun _ _ => ⟨trivial,fun idx _ => ⟨trivial,?_⟩⟩⟩
    split_ifs with hidx
    · exact fun _ _ => ⟨trivial,fun _ _ => ⟨trivial,hQ⟩⟩
    · exact fun _ _ => ⟨trivial,fun _ _ => ⟨trivial,hQ⟩⟩

inductive Interrupted (v : Option VclError) : Stop → Blame → Prop
  | err {e : VclError} (h : WaitStop (.err e)) : Interrupted v (.err e) ⟨v,some e⟩
  | dropped {s : Blame} : Interrupted v .dropped s

theorem waitEvent_blame {mask : UInt32} {timeout : Duration} : blaming.wpe (r.waitEvent sh mask timeout)
    (fun _ s' => s'.session = s.session) (Interrupted s.session) s := by
  rw [VclReactor.waitEvent,Contract.wpe_bind,Contract.wpe_call]
  refine fun n _ => ⟨trivial,?_⟩
  rw [Contract.wpe_bind,Contract.wpe_call]
  refine fun now _ => ⟨trivial,?_⟩
  refine waitLoop_rule (I := fun s' => s'.session = s.session) ?_ ?_ ?_ ?_ rfl
  · rintro ⟨v,latest⟩ ⟨t,selected⟩ rfl _
    refine ⟨trivial,?_⟩
    cases selected with
    | readFailed e => exact .err (.io e)
    | readable => rfl
    | notified => rfl
    | elapsed => exact .err .timeout
    | dropped => exact .dropped
  · rintro s' e hs hop _
    refine ⟨trivial,?_⟩
    obtain ⟨op,reply⟩ := e
    cases hop with
    | drain => exact hs
    | notify _ => exact hs
  · exact fun s' _ hs _ => ⟨trivial,hs⟩
  · rintro s' ⟨t,rechecked⟩ hs _
    refine ⟨trivial,?_⟩
    cases rechecked with
    | notified => exact hs
    | elapsed => exact hs
    | dropped => exact .dropped

end Rules

section Operations

variable [Platform] {s : Blame} {sh : Handle} {r : VclReactor}

def Owned (retry : VclError → Prop) (x : Stop) (s : Blame) : Prop := ∀ e, x = .err e → s.Owns retry e

omit [Platform] in
theorem interrupted_owned {retry : VclError → Prop} {e : VclError} {x : Stop}
    (hretry : ∀ e, WaitStop (.err e) → ¬ retry e) (he : retry e) (h : Interrupted (some e) x s) :
    Owned retry x s := by
  rintro e' rfl
  cases h with
  | err hw => exact ⟨rfl,hretry _ hw,.inr ⟨hw,e,rfl,he⟩⟩

omit [Platform] in
theorem wait_transient {e : VclError} (h : WaitStop (.err e)) : ¬ e.transient := by
  cases h <;> rintro (h | h) <;> cases h

omit [Platform] in
theorem wait_blocked {e : VclError} (h : WaitStop (.err e)) : ¬ e.blocked := by
  cases h <;> intro h <;> cases h

theorem settling_blame {α ι : Type} {retry : VclError → Prop} [DecidablePred retry] {e : VclError}
    {again : ι} {mask : UInt32} {timeout : Duration} {Q : ι ⊕ α → Blame → Prop}
    (hretry : ∀ e, WaitStop (.err e) → ¬ retry e) (hs : Declined (.err e) s) (hQ : ∀ s', Q (.inl again) s') :
    blaming.wpe (if retry e then r.waitEvent sh mask timeout >>= fun _ => pure (.inl again) else err e)
      Q (Owned retry) s := by
  rw [Contract.wpe_ite]
  cases hs with
  | rc rc =>
    split_ifs with he
    · rw [Contract.wpe_bind]
      refine Contract.wpe_mono _ waitEvent_blame (fun _ s' _ => hQ s') ?_
      exact fun _ _ h => interrupted_owned hretry he h
    · rintro e' ⟨⟩
      exact ⟨rfl,he,.inl rfl⟩

theorem read_blame {st : VclStream} {buf : List UInt8} :
    blaming.wpe (st.read buf) (fun _ _ => True) (Owned VclError.transient) s := by
  refine Contract.wpe_loop _ (fun _ _ => True) ?_ trivial
  intro _ s _
  rw [Contract.wpe_bind,wpe_attempt]
  refine Contract.wpe_mono _ sessionRead_blame ?_ ?_
  · intro x s' hx
    change blaming.wpe (if x.1 = 0 then err .closed else pure (Sum.inr x)) _ _ s'
    rw [Contract.wpe_ite]
    split_ifs with hzero
    · rw [hx hzero]
      rintro e ⟨⟩
      exact ⟨rfl,by decide,.inl rfl⟩
    · trivial
  · rintro _ _ ⟨rc⟩
    exact settling_blame (fun _ => wait_transient) (.rc rc) (fun _ => trivial)

theorem readExact_blame {st : VclStream} {buf : List UInt8} :
    blaming.wpe (st.readExact buf) (fun _ _ => True) (Owned VclError.transient) s := by
  refine Contract.wpe_loop _ (fun _ _ => True) ?_ trivial
  intro i s _
  rw [Contract.wpe_ite]
  split_ifs with hlen
  · rw [Contract.wpe_bind]
    exact Contract.wpe_mono _ read_blame (fun _ _ _ => trivial) (fun _ _ h => h)
  · trivial

theorem writeAll_blame {st : VclStream} {buf : List UInt8} :
    blaming.wpe (st.writeAll buf) (fun _ _ => True) (Owned VclError.transient) s := by
  refine Contract.wpe_loop _ (fun _ _ => True) ?_ trivial
  intro pos s _
  rw [Contract.wpe_ite]
  split_ifs with hlen
  · rw [Contract.wpe_bind,wpe_attempt]
    refine Contract.wpe_mono _ (sessionWrite_frank s) (fun _ _ _ => trivial) ?_
    rintro _ _ ⟨rc⟩
    exact settling_blame (fun _ => wait_transient) (.rc rc) (fun _ => trivial)
  · trivial

theorem sendTo_blame {d : VclDgramSocket} {buf : List UInt8} {dst : SocketAddr} :
    blaming.wpe (d.sendTo buf dst) (fun _ _ => True) (Owned VclError.blocked) s := by
  refine Contract.wpe_loop _ (fun _ _ => True) ?_ trivial
  intro _ s _
  rw [Contract.wpe_bind,wpe_attempt]
  refine Contract.wpe_mono _ (sendto_frank s) (fun _ _ _ => trivial) ?_
  rintro _ _ ⟨rc⟩
  exact settling_blame (fun _ => wait_blocked) (.rc rc) (fun _ => trivial)

theorem tryRecvFrom_blame {d : VclDgramSocket} {buf : List UInt8} :
    blaming.wpe (d.tryRecvFrom buf) (fun _ _ => True)
      (fun x s' => ∀ e, x = .err e → s'.session = some e ∧ ¬ e.blocked ∧ e ≠ .timeout) s := by
  rw [VclDgramSocket.tryRecvFrom,Contract.wpe_bind,wpe_attempt]
  refine Contract.wpe_mono _ (recvfrom_frank s) (fun _ _ _ => trivial) ?_
  rintro _ s' ⟨rc⟩
  change blaming.wpe (if fromRc rc = .wouldBlock then pure none else err (fromRc rc)) _ _ _
  rw [Contract.wpe_ite]
  split_ifs with he
  · trivial
  · rintro e ⟨⟩
    exact ⟨rfl,he,fromRc_ne_timeout rc⟩

inductive Lasting (v : Option VclError) : Stop → Blame → Prop
  | io (e : IoError) : Lasting v (.err (.io e)) ⟨v,some (.io e)⟩
  | dropped {s : Blame} : Lasting v .dropped s

theorem resuming_blame {α : Type} {mask : UInt32} {timeout : Duration} {a : α} {Q : α → Blame → Prop}
    (hQ : ∀ s', Q a s') : blaming.wpe (attempt (r.waitEvent sh mask timeout) >>= fun
      | .ok _ => pure a
      | .error e => if e = .timeout then pure a else err e) Q (Lasting s.session) s := by
  rw [Contract.wpe_bind,wpe_attempt]
  refine Contract.wpe_mono _ waitEvent_blame (fun _ s' _ => hQ s') ?_
  intro x s' h
  cases h with
  | dropped => exact .dropped
  | err hw =>
    cases hw with
    | timeout => exact hQ _
    | io e => exact .io e

theorem waitReadable_blame {d : VclDgramSocket} : blaming.wpe d.waitReadable (fun _ _ => True)
    (Lasting s.session) s := resuming_blame (fun _ => trivial)

theorem recvFrom_blame {d : VclDgramSocket} {buf : List UInt8} :
    blaming.wpe (d.recvFrom buf) (fun _ _ => True)
      (fun x s' => ∀ e, x = .err e → s'.Owns VclError.blocked e ∧ e ≠ .timeout) s := by
  refine Contract.wpe_loop _ (fun _ _ => True) ?_ trivial
  intro _ s _
  rw [Contract.wpe_bind,wpe_attempt]
  refine Contract.wpe_mono _ (recvfrom_frank s) (fun _ _ _ => trivial) ?_
  rintro _ s' ⟨rc⟩
  change blaming.wpe (if fromRc rc = .wouldBlock then _ else err (fromRc rc)) _ _ _
  rw [Contract.wpe_ite]
  split_ifs with he
  · refine Contract.wpe_mono _ (resuming_blame (fun _ => trivial)) (fun _ _ h => h) ?_
    rintro _ _ (⟨x⟩ | _) e ⟨⟩
    exact ⟨⟨rfl,wait_blocked (.io x),.inr ⟨.io x,_,rfl,he⟩⟩,by simp⟩
  · rintro e ⟨⟩
    exact ⟨⟨rfl,he,.inl rfl⟩,fromRc_ne_timeout rc⟩

abbrev Final (x : Stop) (s : Blame) : Prop := ∀ e, x = .err e → s.latest = some e ∧ e ≠ .timeout

theorem declined_final {x : Stop} (h : Declined x s) : Final x s := by
  cases h with
  | rc rc =>
    rintro e ⟨⟩
    exact ⟨rfl,fromRc_ne_timeout rc⟩

theorem owning_blame {α : Type} {body : Vcl α} {Q : α → Blame → Prop} {E : Stop → Blame → Prop}
    (h : blaming.wpe body Q E s) : blaming.wpe (owning sh body) Q E s := by
  rw [owning,Contract.wpe_onFail]
  refine Contract.wpe_mono _ h (fun _ _ hq => hq) ?_
  intro e s' he
  rw [dropSession,Contract.wpe_bind,Contract.wpe_call]
  exact fun _ _ => ⟨trivial,he⟩

theorem attempt_frank {α : Type} {x : Vcl α} {Q : Except VclError α → Blame → Prop}
    {E : Stop → Blame → Prop} (hx : Frank x) (hQ : ∀ a s', Q a s') : blaming.wpe (attempt x) Q E s := by
  rw [wpe_attempt]
  refine Contract.wpe_mono _ (hx s) (fun a s' _ => hQ _ s') ?_
  rintro _ s' ⟨rc⟩
  exact hQ _ _

theorem fromAccepted_blame : blaming.wpe (VclStream.fromAccepted sh r) (fun _ _ => True) Declined s := by
  refine owning_blame ?_
  rw [Contract.wpe_bind]
  refine Contract.wpe_mono _ (setNonblocking_frank s) (fun _ s' _ => ?_) (fun _ _ h => h)
  rw [Contract.wpe_bind]
  exact attempt_frank setNodelay_frank (fun _ _ => trivial)

theorem accept_blame {l : VclListener} : blaming.wpe l.accept (fun _ _ => True) Final s := by
  refine Contract.wpe_loop _ (fun _ _ => True) ?_ trivial
  intro _ s _
  rw [Contract.wpe_bind,wpe_attempt]
  refine Contract.wpe_mono _ (sessionAccept_frank s) ?_ ?_
  · rintro ⟨client,peer⟩ s' _
    change blaming.wpe (owning client (l.reactor.register client) >>= _) _ _ s'
    rw [Contract.wpe_bind]
    refine Contract.wpe_mono _ (owning_blame (register_frank s')) (fun _ s'' _ => ?_)
      (fun _ _ h => declined_final h)
    rw [Contract.wpe_bind]
    exact Contract.wpe_mono _ fromAccepted_blame (fun _ _ _ => trivial) (fun _ _ h => declined_final h)
  · rintro _ s' ⟨rc⟩
    change blaming.wpe (if fromRc rc = .wouldBlock then _ else err (fromRc rc)) _ _ _
    rw [Contract.wpe_ite]
    split_ifs with he
    · refine Contract.wpe_mono _ (resuming_blame (fun _ => trivial)) (fun _ _ h => h) ?_
      rintro _ _ (⟨x⟩ | _) e ⟨⟩
      exact ⟨rfl,by simp⟩
    · rintro e ⟨⟩
      exact ⟨rfl,fromRc_ne_timeout rc⟩

abbrev Latest (x : Stop) (s : Blame) : Prop := ∀ e, x = .err e → s.latest = some e

theorem declined_latest {x : Stop} (h : Declined x s) : Latest x s := fun e he => (declined_final h e he).1

theorem bindSource_blame {source : Option SocketAddr} :
    blaming.wpe (VclStream.bindSource sh source) (fun _ _ => True) Latest s := by
  cases source with
  | none => trivial
  | some src => exact Contract.wpe_mono _ (bind_frank s) (fun _ _ h => h) (fun _ _ => declined_latest)

theorem startConnect_blame {addr : SocketAddr} :
    blaming.wpe (startConnect sh addr) (fun _ _ => True) Latest s := by
  rw [startConnect,Contract.wpe_bind,wpe_attempt]
  refine Contract.wpe_mono _ (connect_frank s) (fun _ _ _ => trivial) ?_
  rintro _ s' ⟨rc⟩
  change blaming.wpe (if fromRc rc = .wouldBlock then pure () else err (fromRc rc)) _ _ _
  rw [Contract.wpe_ite]
  split_ifs with he
  · trivial
  · rintro e ⟨⟩
    rfl

theorem connectAsync_blame {addr : SocketAddr} {source : Option SocketAddr} {timeout : Duration} :
    blaming.wpe (VclStream.connectAsync addr source r timeout) (fun _ _ => True) Latest s := by
  rw [VclStream.connectAsync,Contract.wpe_bind]
  refine registerWorkerThread_blame ?_
  rw [Contract.wpe_bind]
  refine Contract.wpe_mono _ (createTcp_frank s) (fun handle s _ => owning_blame ?_) (fun _ _ => declined_latest)
  rw [Contract.wpe_bind]
  refine attempt_frank setNodelay_frank (fun _ s => ?_)
  rw [Contract.wpe_bind]
  refine Contract.wpe_mono _ bindSource_blame (fun _ s _ => ?_) (fun _ _ h => h)
  rw [Contract.wpe_bind]
  refine Contract.wpe_mono _ (register_frank s) (fun _ s _ => ?_) (fun _ _ => declined_latest)
  rw [Contract.wpe_bind]
  refine Contract.wpe_mono _ startConnect_blame (fun _ s _ => ?_) (fun _ _ h => h)
  rw [Contract.wpe_bind]
  refine Contract.wpe_mono _ waitEvent_blame (fun _ _ _ => trivial) ?_
  rintro _ _ (⟨h⟩ | _) e ⟨⟩
  rfl

end Operations

section Attribution

variable [Platform]

theorem code_blame (k : Operation) : blaming.wpe k.code (fun _ _ => True)
    (fun x s => ∀ e, x = .err e → k.Explains s e) .init := by
  cases k with
  | connectAsync addr source reactor timeout => exact connectAsync_blame
  | read s buf => exact read_blame
  | readExact s buf => exact readExact_blame
  | writeAll s buf => exact writeAll_blame
  | accept l => exact accept_blame
  | recvFrom d buf => exact recvFrom_blame
  | tryRecvFrom d buf => exact tryRecvFrom_blame
  | waitReadable d =>
    refine Contract.wpe_mono _ waitReadable_blame (fun _ _ _ => trivial) ?_
    rintro _ _ (⟨x⟩ | _) e ⟨⟩
    exact ⟨rfl,x,rfl⟩
  | sendTo d buf dst => exact sendTo_blame

theorem errors_attributed {k : Operation} {tr : List Ev} {e : VclError}
    (h : k.code.Run tr (.error (.err e))) : k.Explains (blame tr) e :=
  (Contract.wpe_error _ (code_blame k) h (Contract.relied_of_forall _ (fun _ _ => trivial) _ _)).2 e rfl

end Attribution

def clogging : ℕ → (c : Call) → Reply c
  | 0, .sessionWrite _ _ => (1 : Int)
  | _, .sessionWrite _ _ => (-11 : Int)
  | _, .select _ _ _ => (secs 300,.elapsed)
  | _, c => obliging c

theorem errors_attributed_clogged : ∃ tr,
    (@Operation.code host (.writeAll ⟨1,⟨2⟩⟩ [7,8])).Run tr (.error (.err .timeout)) ∧
      @blame host tr = ⟨some .wouldBlock,some .timeout⟩ ∧
        Operation.Explains (.writeAll ⟨1,⟨2⟩⟩ [7,8]) (@blame host tr) .timeout := by
  let _ := host
  obtain ⟨r,tr,hrun,hr,hblame⟩ := Fallible.exec_sat (x := VclStream.writeAll ⟨1,⟨2⟩⟩ [7,8])
    (P := fun r tr => r = .error (.err .timeout) ∧ blame tr = ⟨some .wouldBlock,some .timeout⟩)
    clogging 8 (by decide +kernel)
  subst hr
  exact ⟨tr,hrun,hblame,errors_attributed (k := .writeAll ⟨1,⟨2⟩⟩ [7,8]) hrun⟩

end VclRs
