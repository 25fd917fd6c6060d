import VclRs.Custody.Terms
import VclRs.Interaction.Views
import VclRs.Streams.Polling

namespace VclRs

open Interaction Fallible

inductive Footing where
  | absent
  | poller
  | idle (proto : Proto)
  | bound (proto : Proto)
  | listening (proto : Proto)
  | joined (proto : Proto)
deriving DecidableEq, Repr

abbrev Footings := Handle → Footing

namespace Footing

def Idle : Footing → Prop
  | idle _ => True
  | _ => False

def Bound : Footing → Prop
  | bound _ => True
  | _ => False

def Session : Footing → Prop
  | absent => False
  | poller => False
  | _ => True

def bind : Footing → Footing
  | idle proto => bound proto
  | x => x

def listen : Footing → Footing
  | bound proto => listening proto
  | x => x

def connect : Footing → Footing
  | idle proto => joined proto
  | bound proto => joined proto
  | x => x

instance instDecidableIdle : DecidablePred Idle
  | idle _ => isTrue trivial
  | absent => isFalse id
  | poller => isFalse id
  | bound _ => isFalse id
  | listening _ => isFalse id
  | joined _ => isFalse id

instance instDecidableBound : DecidablePred Bound
  | bound _ => isTrue trivial
  | absent => isFalse id
  | poller => isFalse id
  | idle _ => isFalse id
  | listening _ => isFalse id
  | joined _ => isFalse id

instance instDecidableSession : DecidablePred Session
  | absent => isFalse id
  | poller => isFalse id
  | idle _ => isTrue trivial
  | bound _ => isTrue trivial
  | listening _ => isTrue trivial
  | joined _ => isTrue trivial

theorem idle_present {x : Footing} (h : x.Idle) : x ≠ absent := by
  rintro rfl
  exact h

theorem bound_present {x : Footing} (h : x.Bound) : x ≠ absent := by
  rintro rfl
  exact h

theorem session_present {x : Footing} (h : x.Session) : x ≠ absent := by
  rintro rfl
  exact h

theorem bind_absent {x : Footing} : x.bind = absent ↔ x = absent := by
  cases x <;> simp [bind]

theorem listen_absent {x : Footing} : x.listen = absent ↔ x = absent := by
  cases x <;> simp [listen]

theorem connect_absent {x : Footing} : x.connect = absent ↔ x = absent := by
  cases x <;> simp [connect]

end Footing

def granting (rc : Int) (x : Footing) : Change Handle Footing :=
  if rc < 0 then .keep else .put (handleOf rc) x

def conceding (rc : Int) (sh : Handle) (f : Footing → Footing) : Change Handle Footing :=
  if rc < 0 then .keep else .amend sh f

def underway (rc : Int) (sh : Handle) : Change Handle Footing :=
  if 0 ≤ rc ∨ rc = -ewouldblock ∨ rc = -eagain ∨ rc = -einprogress then .amend sh .connect else .keep

def change : Ev → Change Handle Footing
  | ⟨.sessionCreate proto _,rc⟩ => granting rc (.idle proto)
  | ⟨.epollCreate,rc⟩ => granting rc .poller
  | ⟨.sessionAccept _,(rc,_)⟩ => granting rc (.joined .tcp)
  | ⟨.sessionBind sh _,rc⟩ => conceding rc sh .bind
  | ⟨.sessionListen sh _,rc⟩ => conceding rc sh .listen
  | ⟨.sessionConnect sh _,rc⟩ => underway rc sh
  | ⟨.sessionClose sh,_⟩ => .put sh .absent
  | _ => .keep

def Legal (V : Footings) : Call → Prop
  | .sessionBind sh _ => (V sh).Idle
  | .sessionListen sh _ => (V sh).Bound
  | .sessionAccept sh => V sh = .listening .tcp
  | .sessionConnect sh _ => (V sh).Idle ∨ (V sh).Bound
  | .sessionRead sh _ => V sh = .joined .tcp
  | .sessionWrite sh _ => V sh = .joined .tcp
  | .sessionShutdown sh _ => V sh = .joined .tcp
  | .sessionSendto sh _ _ => V sh = .listening .udp
  | .sessionRecvfrom sh _ => V sh = .listening .udp
  | .sessionAttr sh _ => (V sh).Session
  | .epollCtl vep _ sh _ => V vep = .poller ∧ (V sh).Session
  | .epollWait vep _ _ => V vep = .poller
  | .waitersEntry vep sh => V vep = .poller ∧ (V sh).Session
  | .waitersRemove vep sh => V vep = .poller ∧ (V sh).Session
  | _ => True

def footings : List Ev → Footings := Change.chart .absent change

theorem footings_concat (tr : List Ev) (e : Ev) :
    footings (tr ++ [e]) = (change e).apply (footings tr) := Change.chart_concat tr e

theorem legal_below {V G : Footings} (hb : Below .absent V G) {c : Call} (h : Legal V c) :
    Legal G c := by
  have hat {sh : Handle} (hp : V sh ≠ .absent) : G sh = V sh := hb sh hp
  have hsession {sh : Handle} (hp : (V sh).Session) : (G sh).Session := by
    rw [hat (Footing.session_present hp)]
    exact hp
  have heq {sh : Handle} {x : Footing} (hx : x ≠ .absent) (hp : V sh = x) : G sh = x := by
    rw [hat (by rw [hp]; exact hx)]
    exact hp
  cases c with
  | sessionBind sh ep =>
    change (G sh).Idle
    rw [hat (Footing.idle_present h)]
    exact h
  | sessionListen sh n =>
    change (G sh).Bound
    rw [hat (Footing.bound_present h)]
    exact h
  | sessionConnect sh ep =>
    have hp : V sh ≠ .absent := h.elim Footing.idle_present Footing.bound_present
    change (G sh).Idle ∨ (G sh).Bound
    rw [hat hp]
    exact h
  | sessionAccept sh => exact heq (by simp) h
  | sessionRead sh n => exact heq (by simp) h
  | sessionWrite sh buf => exact heq (by simp) h
  | sessionShutdown sh how => exact heq (by simp) h
  | sessionSendto sh buf ep => exact heq (by simp) h
  | sessionRecvfrom sh n => exact heq (by simp) h
  | sessionAttr sh op => exact hsession h
  | epollCtl vep op sh ev => exact ⟨heq (by simp) h.1,hsession h.2⟩
  | epollWait vep n ms => exact heq (by simp) h
  | waitersEntry vep sh => exact ⟨heq (by simp) h.1,hsession h.2⟩
  | waitersRemove vep sh => exact ⟨heq (by simp) h.1,hsession h.2⟩
  | _ => trivial

def conduct : Contract Call Reply Footings where
  rely V e := ∀ sh ∈ obtained e, V sh = .absent
  guar V e := Legal V e.op
  next V e := (change e).apply V

def Uses (V : Footings) (c : Call) : Prop := Legal V c ∧ ∀ r, change ⟨c,r⟩ = .keep

section Uses

variable {V : Footings} {α : Type} {x : Vcl α} {vep sh : Handle} {c : Call}

theorem uses_wpe {Q : α → Footings → Prop} {E : Stop → Footings → Prop} (hx : x.Calls (Uses V))
    (hQ : ∀ a, Q a V) (hE : ∀ e, E e V) : conduct.wpe x Q E V := by
  refine conduct.wpe_still ?_ hx hQ hE
  rintro ⟨op,r⟩ ⟨hlegal,hkeep⟩
  refine ⟨hlegal,?_⟩
  change (change ⟨op,r⟩).apply V = V
  rw [hkeep r]
  rfl

theorem registers_uses (h : Registers c) : Uses V c := by
  cases h <;> exact ⟨trivial,fun _ => rfl⟩

theorem draws_uses (h : Draws c) : Uses V c := by
  cases h
  exact ⟨trivial,fun _ => rfl⟩

theorem queries_uses (hs : (V sh).Session) (h : Queries sh c) : Uses V c := by
  cases h
  exact ⟨hs,fun _ => rfl⟩

theorem drains_uses (hv : V vep = .poller) (h : Drains vep c) : Uses V c := by
  cases h with
  | now => exact ⟨trivial,fun _ => rfl⟩
  | wait n ms => exact ⟨hv,fun _ => rfl⟩

theorem waits_uses (hv : V vep = .poller) (hs : (V sh).Session) (h : Waits vep sh c) :
    Uses V c := by
  cases h with
  | entry => exact ⟨⟨hv,hs⟩,fun _ => rfl⟩
  | drain => exact ⟨hv,fun _ => rfl⟩
  | _ => exact ⟨trivial,fun _ => rfl⟩

theorem registerWorkerThread_uses : registerWorkerThread.Calls (Uses V) :=
  Prog.calls_mono (fun _ => registers_uses) registerWorkerThread_calls

theorem drainFor_uses {deadline : Instant} (hv : V vep = .poller) :
    (drainFor vep deadline).Calls (Uses V) := by
  refine calls_loop (fun _ => ?_) _
  refine calls_bind (calls_call ⟨trivial,fun _ => rfl⟩) (fun now => ?_)
  refine calls_ite (calls_bind (calls_call ⟨hv,fun _ => rfl⟩) (fun _ => calls_pure _)) ?_
  exact calls_pure _

variable [Platform]

theorem setNodelay_uses (hs : (V sh).Session) : (setNodelay sh).Calls (Uses V) :=
  calls_bind (calls_call ⟨hs,fun _ => rfl⟩) (fun _ => checkRc_calls _)

theorem setNonblocking_uses (hs : (V sh).Session) : (setNonblocking sh).Calls (Uses V) :=
  calls_bind (calls_call ⟨hs,fun _ => rfl⟩) (fun _ => checkRc_calls _)

theorem addrAttr_uses (hs : (V sh).Session) (op : Attr) : (addrAttr op sh).Calls (Uses V) :=
  Prog.calls_mono (fun _ => queries_uses hs) (addrAttr_calls op)

theorem register_uses {r : VclReactor} (hv : V r.vep = .poller) (hs : (V sh).Session) :
    (r.register sh).Calls (Uses V) :=
  register_calls ⟨⟨hv,hs⟩,fun _ => rfl⟩

theorem queryBound_uses (hs : (V sh).Session) (requested : SocketAddr) :
    (queryBound sh requested).Calls (Uses V) := by
  refine calls_bind (calls_attempt (addrAttr_uses hs _)) ?_
  intro r
  cases r with
  | ok actual => exact calls_pure _
  | error e => exact calls_err _

end Uses

section Transfers

variable [Platform] {V : Footings} {sh : Handle}

theorem sessionRead_uses (hs : V sh = .joined .tcp) (buf : List UInt8) :
    (sessionRead sh buf).Calls (Uses V) :=
  calls_bind (calls_call ⟨hs,fun _ => rfl⟩)
    (fun _ => calls_bind (checkRc_calls _) (fun _ => calls_pure _))

theorem sessionWrite_uses (hs : V sh = .joined .tcp) (buf : List UInt8) :
    (sessionWrite sh buf).Calls (Uses V) :=
  calls_bind (calls_call ⟨hs,fun _ => rfl⟩)
    (fun _ => calls_bind (checkRc_calls _) (fun _ => calls_pure _))

theorem recvfrom_uses (hs : V sh = .listening .udp) (buf : List UInt8) :
    (recvfrom sh buf).Calls (Uses V) :=
  calls_bind (calls_call ⟨hs,fun _ => rfl⟩)
    (fun _ => calls_bind (checkRc_calls _) (fun _ => calls_pure _))

theorem sendto_uses (hs : V sh = .listening .udp) (buf : List UInt8) (dst : SocketAddr) :
    (sendto sh buf dst).Calls (Uses V) :=
  calls_bind (calls_call ⟨hs,fun _ => rfl⟩)
    (fun _ => calls_bind (checkRc_calls _) (fun _ => calls_pure _))

end Transfers

section Streams

variable [Platform] {V : Footings} {st : VclStream}
variable (hs : V st.handle = .joined .tcp) (hv : V st.reactor.vep = .poller)

include hs

omit [Platform] in
theorem joined_session : (V st.handle).Session := by
  rw [hs]
  trivial

include hv

theorem read_uses (buf : List UInt8) : (st.read buf).Calls (Uses V) := by
  refine calls_loop (fun _ => ?_) _
  refine calls_bind (calls_attempt (sessionRead_uses hs buf)) ?_
  intro x
  cases x with
  | ok x => exact calls_ite (calls_err _) (calls_pure _)
  | error e =>
    refine calls_ite (calls_bind ?_ (fun _ => calls_pure _)) (calls_err _)
    exact Prog.calls_mono (fun _ => waits_uses hv (joined_session hs)) (waitReadable_calls _)

theorem readExact_uses (buf : List UInt8) : (st.readExact buf).Calls (Uses V) := by
  refine calls_loop (fun pst => ?_) _
  exact calls_ite (calls_bind (read_uses hs hv _) (fun _ => calls_pure _)) (calls_pure _)

theorem writeAll_uses (buf : List UInt8) : (st.writeAll buf).Calls (Uses V) := by
  refine calls_loop (fun pos => calls_ite ?_ (calls_pure _)) _
  refine calls_bind (calls_attempt (sessionWrite_uses hs _)) ?_
  intro x
  cases x with
  | ok n => exact calls_pure _
  | error e =>
    refine calls_ite (calls_bind ?_ (fun _ => calls_pure _)) (calls_err _)
    exact Prog.calls_mono (fun _ => waits_uses hv (joined_session hs)) (waitWritable_calls _)

omit [Platform] in
theorem polling_uses {α β : Type} {cx : ℕ} {io : Vcl α}
    {settle : Except VclError α → Except IoError β} (hio : io.Calls (Uses V)) (pending : Bool) :
    (st.polling cx io settle pending).Calls (Uses V) := by
  have hentry : Uses V (.waitersEntry st.reactor.vep st.handle) :=
    ⟨⟨hv,joined_session hs⟩,fun _ => rfl⟩
  have harm : st.arm.Calls (Uses V) :=
    calls_bind (calls_call hentry)
      (fun _ => calls_bind (calls_call ⟨trivial,fun _ => rfl⟩) (fun _ => calls_pure _))
  refine calls_loop (fun pending => ?_) _
  refine calls_bind (calls_ite (calls_call ⟨trivial,fun _ => rfl⟩) (calls_pure _)) ?_
  intro p
  cases p with
  | pending => exact calls_pure _
  | ready r =>
    cases r with
    | error e => exact calls_pure _
    | ok _ =>
      refine calls_bind (calls_attempt hio) ?_
      intro x
      cases x with
      | ok x => exact calls_pure _
      | error e => exact calls_ite (calls_bind harm (fun _ => calls_pure _)) (calls_pure _)

theorem pollRead_uses (pending : Bool) (cx : ℕ) (unfilled : List UInt8) :
    (st.pollRead pending cx unfilled).Calls (Uses V) := by
  rw [VclStream.pollRead_eq]
  exact polling_uses hs hv (sessionRead_uses hs unfilled) pending

theorem pollWrite_uses (pending : Bool) (cx : ℕ) (buf : List UInt8) :
    (st.pollWrite pending cx buf).Calls (Uses V) := by
  rw [VclStream.pollWrite_eq]
  exact polling_uses hs hv (sessionWrite_uses hs buf) pending

omit hv in
theorem pollShutdown_uses : st.pollShutdown.Calls (Uses V) :=
  calls_bind (calls_call ⟨hs,fun _ => rfl⟩) (fun _ => calls_ite (calls_pure _) (calls_pure _))

theorem exchange_uses (query : List UInt8) : (exchange st query).Calls (Uses V) := by
  refine calls_bind (ofExcept_calls _) (fun framed => ?_)
  refine calls_bind (writeAll_uses hs hv framed) (fun _ => ?_)
  refine calls_bind (readExact_uses hs hv _) (fun lenbuf => ?_)
  exact calls_bind (ofExcept_calls _) (fun len => readExact_uses hs hv _)

end Streams

section Datagrams

variable [Platform] {V : Footings} {d : VclDgramSocket}

omit [Platform] in
theorem swallow_uses {r : VclReactor} {sh : Handle} {α : Type} (hv : V r.vep = .poller)
    (hs : (V sh).Session) (a : α) :
    Fallible.Calls (Uses V) (do
      match ← attempt (r.waitReadable sh (secs 300)) with
      | .ok _ => pure a
      | .error e => if e = .timeout then pure a else err e) := by
  refine calls_bind (calls_attempt
    (Prog.calls_mono (fun _ => waits_uses hv hs) (waitReadable_calls _))) ?_
  intro x
  cases x with
  | ok _ => exact calls_pure _
  | error e => exact calls_ite (calls_pure _) (calls_err _)

variable (hs : V d.handle = .listening .udp) (hv : V d.reactor.vep = .poller)

include hs

omit [Platform] in
theorem bound_session : (V d.handle).Session := by
  rw [hs]
  trivial

theorem tryRecvFrom_uses (buf : List UInt8) : (d.tryRecvFrom buf).Calls (Uses V) := by
  refine calls_bind (calls_attempt (recvfrom_uses hs buf)) ?_
  intro x
  cases x with
  | ok x => exact calls_pure _
  | error e => exact calls_ite (calls_pure _) (calls_err _)

include hv

theorem recvFrom_uses (buf : List UInt8) : (d.recvFrom buf).Calls (Uses V) := by
  refine calls_loop (fun _ => ?_) _
  refine calls_bind (calls_attempt (recvfrom_uses hs buf)) ?_
  intro x
  cases x with
  | ok x => exact calls_pure _
  | error e => exact calls_ite (swallow_uses hv (bound_session hs) _) (calls_err _)

theorem sendTo_uses (buf : List UInt8) (dst : SocketAddr) :
    (d.sendTo buf dst).Calls (Uses V) := by
  refine calls_loop (fun _ => ?_) _
  refine calls_bind (calls_attempt (sendto_uses hs buf dst)) ?_
  intro x
  cases x with
  | ok n => exact calls_pure _
  | error e =>
    refine calls_ite (calls_bind ?_ (fun _ => calls_pure _)) (calls_err _)
    exact Prog.calls_mono (fun _ => waits_uses hv (bound_session hs)) (waitWritable_calls _)

end Datagrams

section Queries

variable [Platform] {V : Footings} {vep sh : Handle}

theorem awaitDatagram_uses (hs : V sh = .listening .udp) (deadline : Instant) :
    (awaitDatagram sh deadline).Calls (Uses V) := by
  refine calls_loop (fun buf => ?_) _
  refine calls_bind (calls_attempt (recvfrom_uses hs buf)) ?_
  intro x
  cases x with
  | ok x => exact calls_pure _
  | error e =>
    refine calls_ite ?_ (calls_err _)
    refine calls_bind (calls_call ⟨trivial,fun _ => rfl⟩) (fun now => ?_)
    refine calls_bind (calls_rejectIf _) (fun _ => ?_)
    exact calls_bind (calls_call ⟨trivial,fun _ => rfl⟩) (fun _ => calls_pure _)

theorem udpQuery_uses {u : VclUdpSyncSocket} (hs : V u.handle = .listening .udp)
    (peer : SocketAddr) (query : List UInt8) (timeout : Duration) :
    (u.query peer query timeout).Calls (Uses V) := by
  refine calls_bind (sendto_uses hs query peer) (fun _ => ?_)
  refine calls_bind (calls_call ⟨trivial,fun _ => rfl⟩) (fun start => ?_)
  refine calls_loop (fun buf => ?_) _
  refine calls_bind (calls_attempt (recvfrom_uses hs buf)) ?_
  intro x
  cases x with
  | ok x => exact calls_ite (calls_pure _) (calls_pure _)
  | error e =>
    refine calls_ite ?_ (calls_err _)
    refine calls_bind (calls_call ⟨trivial,fun _ => rfl⟩) (fun now => ?_)
    refine calls_bind (calls_rejectIf _) (fun _ => ?_)
    exact calls_bind (calls_call ⟨trivial,fun _ => rfl⟩) (fun _ => calls_pure _)

omit [Platform] in
theorem drainMq_uses (hv : V vep = .poller) (ms : ℕ) : (drainMq vep ms).Calls (Uses V) :=
  calls_bind (calls_call ⟨hv,fun _ => rfl⟩) (fun _ => calls_pure _)

theorem writeLoop_uses (hs : V sh = .joined .tcp) (hv : V vep = .poller) (deadline : Instant)
    (framed : List UInt8) : (writeLoop sh vep deadline framed).Calls (Uses V) := by
  refine calls_loop (fun sent => calls_ite ?_ (calls_pure _)) _
  refine calls_bind (calls_attempt (sessionWrite_uses hs _)) ?_
  intro x
  cases x with
  | ok n => exact calls_pure _
  | error e =>
    refine calls_ite ?_ (calls_err _)
    refine calls_bind (calls_call ⟨trivial,fun _ => rfl⟩) (fun now => ?_)
    refine calls_bind (calls_rejectIf _) (fun _ => ?_)
    exact calls_bind (drainMq_uses hv 5) (fun _ => calls_pure _)

theorem readLoop_uses (hs : V sh = .joined .tcp) (hv : V vep = .poller) (deadline : Instant)
    (buf : List UInt8) : (readLoop sh vep deadline buf).Calls (Uses V) := by
  refine calls_loop (fun st => calls_ite ?_ (calls_pure _)) _
  refine calls_bind (calls_call ⟨trivial,fun _ => rfl⟩) (fun now => ?_)
  refine calls_bind (calls_rejectIf _) (fun _ => ?_)
  refine calls_bind (calls_attempt (sessionRead_uses hs _)) ?_
  intro x
  cases x with
  | ok x => exact calls_ite (calls_err _) (calls_pure _)
  | error e =>
    refine calls_ite ?_ (calls_err _)
    exact calls_bind (drainMq_uses hv 5) (fun _ => calls_pure _)

end Queries

end VclRs
