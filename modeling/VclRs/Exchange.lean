import VclRs.Footprint
import VclRs.Framing
import VclRs.Schedule

namespace VclRs

open Interaction Fallible

structure Wire where
  accepted : List UInt8
  unread : List UInt8
  sessions : List Handle

def wire : Contract Call Reply Wire where
  rely s
    | ⟨.sessionWrite _ buf,rc⟩ => rc ≤ buf.length
    | ⟨.sessionRead _ n,(rc,data)⟩ =>
      0 ≤ rc → rc ≤ n ∧ rc ≤ s.unread.length ∧ data = s.unread.take rc.toNat
    | _ => True
  guar _ _ := True
  next s
    | ⟨.sessionWrite sh buf,rc⟩ => ⟨s.accepted ++ buf.take rc.toNat,s.unread,sh :: s.sessions⟩
    | ⟨.sessionRead sh _,(rc,_)⟩ => ⟨s.accepted,s.unread.drop rc.toNat,sh :: s.sessions⟩
    | _ => s

instance (s : Wire) (e : Ev) : Decidable (wire.rely s e) := by
  obtain ⟨op,reply⟩ := e
  cases op
  case sessionWrite sh buf => exact inferInstanceAs (Decidable ((reply : Int) ≤ buf.length))
  case sessionRead sh n =>
    exact inferInstanceAs (Decidable ((0 : Int) ≤ reply.1 → reply.1 ≤ n ∧
      reply.1 ≤ s.unread.length ∧ reply.2 = s.unread.take reply.1.toNat))
  all_goals exact isTrue trivial

def Wire.Only (sh : Handle) (s : Wire) : Prop := ∀ h ∈ s.sessions, h = sh

theorem Wire.Only.cons {sh : Handle} {s : Wire} (h : s.Only sh) (a u : List UInt8) :
    Wire.Only sh ⟨a,u,sh :: s.sessions⟩ := by
  intro x hx
  rcases List.mem_cons.mp hx with rfl | hx
  · rfl
  · exact h x hx

theorem Wire.only_start (sh : Handle) (stream : List UInt8) : Wire.Only sh ⟨[],stream,[]⟩ := by
  intro h hh
  cases hh

def Quiet : Call → Prop
  | .sessionRead _ _ => False
  | .sessionWrite _ _ => False
  | _ => True

theorem quiet_next {s : Wire} {e : Ev} (h : Quiet e.op) : wire.next s e = s := by
  obtain ⟨op,reply⟩ := e
  cases op <;> first | rfl | exact h.elim

theorem quiet_wpe {α : Type} {x : Vcl α} {Q : α → Wire → Prop} {E : Stop → Wire → Prop} {s : Wire}
    (hx : x.Calls Quiet) (hQ : ∀ a, Q a s) (hE : ∀ e, E e s) : wire.wpe x Q E s :=
  wire.wpe_still (fun _ he => ⟨trivial,quiet_next he⟩) hx hQ hE

theorem waits_quiet {vep sh : Handle} {c : Call} (h : Waits vep sh c) : Quiet c := by
  cases h <;> trivial

theorem drainMq_calls {vep : Handle} {ms : ℕ} : (drainMq vep ms).Calls Quiet :=
  calls_bind (calls_call trivial) (fun _ => calls_pure _)

theorem configures_quiet {sh : Handle} {c : Call} (h : Configures sh c) : Quiet c := by
  cases h <;> trivial

theorem registers_quiet {c : Call} (h : Registers c) : Quiet c := by
  cases h <;> trivial

theorem registerWorkerThread_quiet : registerWorkerThread.Calls Quiet :=
  Prog.calls_mono (fun _ => registers_quiet) registerWorkerThread_calls

theorem draws_quiet {c : Call} (h : Draws c) : Quiet c := by
  cases h
  trivial

theorem genPorts_quiet (n : ℕ) : (genPorts n).Calls Quiet :=
  Prog.calls_mono (fun _ => draws_quiet) (genPorts_calls n)

theorem watchSession_quiet (vep handle : Handle) (events : UInt32) :
    (watchSession vep handle events).Calls Quiet :=
  calls_bind (calls_call trivial) (fun _ => calls_ite
    (calls_bind (calls_call trivial) (fun _ => calls_err _)) (calls_pure _))

section Progress

variable {s s' : Wire} {sh : Handle}

def Sent (s : Wire) (sh : Handle) (buf : List UInt8) (pos : ℕ) (s' : Wire) : Prop :=
  s'.accepted = s.accepted ++ buf.take pos ∧ s'.unread = s.unread ∧ s'.Only sh

def Filled (s : Wire) (sh : Handle) (len : ℕ) (st : ℕ × List UInt8) (s' : Wire) : Prop :=
  st.2.length = len ∧ st.1 ≤ len ∧ s'.accepted = s.accepted ∧
    s.unread = st.2.take st.1 ++ s'.unread ∧ s'.Only sh

theorem Sent.chunk {buf : List UInt8} {pos n : ℕ} (h : Sent s sh buf pos s') :
    Sent s sh buf (pos + n)
      ⟨s'.accepted ++ (buf.drop pos).take n,s'.unread,sh :: s'.sessions⟩ := by
  obtain ⟨ha,hu,ho⟩ := h
  refine ⟨?_,hu,ho.cons _ _⟩
  rw [ha,List.append_assoc,← List.take_add]

theorem Sent.retry {buf : List UInt8} {pos : ℕ} (h : Sent s sh buf pos s') :
    Sent s sh buf pos ⟨s'.accepted,s'.unread,sh :: s'.sessions⟩ :=
  ⟨h.1,h.2.1,h.2.2.cons _ _⟩

theorem Filled.chunk {len n : ℕ} {st : ℕ × List UInt8} (h : Filled s sh len st s')
    (hn : n ≤ (st.2.drop st.1).length) (hu : n ≤ s'.unread.length) :
    Filled s sh len (st.1 + n,st.2.take st.1 ++ (s'.unread.take n ++ (st.2.drop st.1).drop n))
      ⟨s'.accepted,s'.unread.drop n,sh :: s'.sessions⟩ := by
  obtain ⟨hl,hp,ha,hs,ho⟩ := h
  rw [List.length_drop] at hn
  have hpre : (st.2.take st.1).length = st.1 := by
    rw [List.length_take]
    omega
  have hget : (s'.unread.take n).length = n := by
    rw [List.length_take]
    omega
  have htake : (st.2.take st.1 ++ (s'.unread.take n ++ (st.2.drop st.1).drop n)).take (st.1 + n) =
      st.2.take st.1 ++ s'.unread.take n := by
    rw [← List.append_assoc]
    exact List.take_left' (by rw [List.length_append,hpre,hget])
  refine ⟨?_,by simp only; omega,ha,?_,ho.cons _ _⟩
  · simp only [List.length_append,hpre,hget,List.length_drop]
    omega
  · rw [htake,List.append_assoc,List.take_append_drop]
    exact hs

theorem Filled.retry {len : ℕ} {st : ℕ × List UInt8} (h : Filled s sh len st s') :
    Filled s sh len st ⟨s'.accepted,s'.unread,sh :: s'.sessions⟩ :=
  ⟨h.1,h.2.1,h.2.2.1,h.2.2.2.1,h.2.2.2.2.cons _ _⟩

theorem Sent.full {buf : List UInt8} {pos : ℕ} (h : Sent s sh buf pos s')
    (hp : ¬ pos < buf.length) : Sent s sh buf buf.length s' := by
  have hall : buf.take pos = buf.take buf.length := by
    rw [List.take_of_length_le (by omega),List.take_length]
  rw [Sent,← hall]
  exact h

theorem Filled.full {len : ℕ} {st : ℕ × List UInt8} (h : Filled s sh len st s')
    (hp : ¬ st.1 < st.2.length) : Filled s sh len (len,st.2) s' := by
  have heq : st.1 = len := by
    have hl := h.1
    have hle := h.2.1
    omega
  subst heq
  exact h

end Progress

section Loops

variable [Platform] {s : Wire} {sh : Handle}

theorem sessionWrite_wire {buf : List UInt8} {Q : Except VclError ℕ → Wire → Prop}
    {E : Stop → Wire → Prop}
    (hok : ∀ n ≤ buf.length, Q (.ok n) ⟨s.accepted ++ buf.take n,s.unread,sh :: s.sessions⟩)
    (herr : ∀ e, Q (.error e) ⟨s.accepted,s.unread,sh :: s.sessions⟩) :
    wire.wpe (attempt (sessionWrite sh buf)) Q E s := by
  simp only [sessionWrite,checkRc,wpe_attempt,Contract.wpe_bind,Contract.wpe_call,wpe_rejectIf,
    Contract.wpe_pure]
  intro (rc : Int) (hrc : rc ≤ buf.length)
  refine ⟨trivial,?_⟩
  split_ifs with hneg
  · have h := herr (fromRc rc)
    have hz : rc.toNat = 0 := by omega
    simpa [wire,hz] using h
  · exact hok rc.toNat (by omega)

theorem sessionRead_wire {buf : List UInt8} {Q : Except VclError (ℕ × List UInt8) → Wire → Prop}
    {E : Stop → Wire → Prop}
    (hok : ∀ n ≤ buf.length, n ≤ s.unread.length →
      Q (.ok (n,s.unread.take n ++ buf.drop n)) ⟨s.accepted,s.unread.drop n,sh :: s.sessions⟩)
    (herr : ∀ e, Q (.error e) ⟨s.accepted,s.unread,sh :: s.sessions⟩) :
    wire.wpe (attempt (sessionRead sh buf)) Q E s := by
  simp only [sessionRead,checkRc,wpe_attempt,Contract.wpe_bind,Contract.wpe_call,wpe_rejectIf,
    Contract.wpe_pure]
  rintro ⟨rc,data⟩ hrc
  refine ⟨trivial,?_⟩
  split_ifs with hneg
  · have h := herr (fromRc rc)
    have hz : rc.toNat = 0 := by omega
    simpa [wire,hz] using h
  · obtain ⟨hn,hu,rfl⟩ := hrc (by omega)
    have h := hok rc.toNat (by omega) (by omega)
    have hlen : (s.unread.take rc.toNat).length = rc.toNat := by
      rw [List.length_take]
      omega
    have hpatch : patch buf (s.unread.take rc.toNat) = s.unread.take rc.toNat ++ buf.drop rc.toNat := by
      rw [patch,hlen,List.take_of_length_le (by omega)]
    rw [hpatch]
    exact h

theorem writeAll_wire {st : VclStream} {buf : List UInt8} (hs : s.Only st.handle) :
    wire.wpe (st.writeAll buf) (fun _ => Sent s st.handle buf buf.length) (fun _ _ => True) s := by
  refine wire.wpe_loop (Sent s st.handle buf) ?_ ⟨by simp,rfl,hs⟩
  intro pos s' hi
  simp only [Contract.wpe_ite,Contract.wpe_bind,Contract.wpe_pure]
  split_ifs with hpos
  · refine sessionWrite_wire (fun n _ => hi.chunk) ?_
    intro e
    simp only [Contract.wpe_ite,Contract.wpe_bind,Contract.wpe_pure,wpe_err]
    split_ifs with he
    · exact quiet_wpe (Prog.calls_mono (fun _ => waits_quiet) (waitWritable_calls _))
        (fun _ => hi.retry) (fun _ => trivial)
    · trivial
  · exact hi.full hpos

theorem writeLoop_wire {vep : Handle} {deadline : Instant} {buf : List UInt8} (hs : s.Only sh) :
    wire.wpe (writeLoop sh vep deadline buf) (fun _ => Sent s sh buf buf.length)
      (fun _ _ => True) s := by
  refine wire.wpe_loop (Sent s sh buf) ?_ ⟨by simp,rfl,hs⟩
  intro pos s' hi
  simp only [Contract.wpe_ite,Contract.wpe_bind,Contract.wpe_pure]
  split_ifs with hpos
  · refine sessionWrite_wire (fun n _ => hi.chunk) ?_
    intro e
    simp only [Contract.wpe_ite,Contract.wpe_bind,Contract.wpe_pure,wpe_err,wpe_rejectIf]
    split_ifs with he
    · refine quiet_wpe (calls_call trivial) ?_ (fun _ => trivial)
      intro now
      split_ifs with hlate
      · trivial
      · exact quiet_wpe drainMq_calls (fun _ => hi.retry) (fun _ => trivial)
    · trivial
  · exact hi.full hpos

theorem read_wire {st : VclStream} {s₀ : Wire} {len : ℕ} {pst : ℕ × List UInt8}
    (hi : Filled s₀ st.handle len pst s) :
    wire.wpe (st.read (pst.2.drop pst.1))
      (fun x => Filled s₀ st.handle len (pst.1 + x.1,pst.2.take pst.1 ++ x.2))
      (fun _ _ => True) s := by
  refine wire.wpe_loop (fun _ => Filled s₀ st.handle len pst) ?_ hi
  intro _ s' hi
  simp only [Contract.wpe_bind]
  refine sessionRead_wire ?_ ?_
  · intro n hn hu
    simp only [Contract.wpe_ite,Contract.wpe_pure,wpe_err]
    split_ifs with hz
    · trivial
    · exact hi.chunk hn hu
  · intro e
    simp only [Contract.wpe_ite,Contract.wpe_bind,Contract.wpe_pure,wpe_err]
    split_ifs with he
    · exact quiet_wpe (Prog.calls_mono (fun _ => waits_quiet) (waitReadable_calls _))
        (fun _ => hi.retry) (fun _ => trivial)
    · trivial

theorem readExact_wire {st : VclStream} {buf : List UInt8} (hs : s.Only st.handle) :
    wire.wpe (st.readExact buf) (fun out => Filled s st.handle buf.length (buf.length,out))
      (fun _ _ => True) s := by
  refine wire.wpe_loop (Filled s st.handle buf.length) ?_ ⟨rfl,Nat.zero_le _,rfl,rfl,hs⟩
  intro pst s' hi
  simp only [Contract.wpe_ite,Contract.wpe_bind,Contract.wpe_pure]
  split_ifs with hpos
  · exact read_wire hi
  · exact hi.full hpos

theorem readLoop_wire {vep : Handle} {deadline : Instant} {buf : List UInt8} (hs : s.Only sh) :
    wire.wpe (readLoop sh vep deadline buf) (fun out => Filled s sh buf.length (buf.length,out))
      (fun _ _ => True) s := by
  refine wire.wpe_loop (Filled s sh buf.length) ?_ ⟨rfl,Nat.zero_le _,rfl,rfl,hs⟩
  intro pst s' hi
  simp only [Contract.wpe_ite,Contract.wpe_bind,Contract.wpe_pure,wpe_rejectIf]
  split_ifs with hpos
  · refine quiet_wpe (calls_call trivial) ?_ (fun _ => trivial)
    intro now
    split_ifs with hlate
    · trivial
    · refine sessionRead_wire ?_ ?_
      · intro n hn hu
        simp only [Contract.wpe_ite,Contract.wpe_pure,wpe_err]
        split_ifs with hz
        · trivial
        · exact hi.chunk hn hu
      · intro e
        simp only [Contract.wpe_ite,Contract.wpe_bind,Contract.wpe_pure,wpe_err]
        split_ifs with he
        · exact quiet_wpe drainMq_calls (fun _ => hi.retry) (fun _ => trivial)
        · trivial
  · exact hi.full hpos

end Loops

def Exchanged (query stream resp : List UInt8) (s : Wire) : Prop :=
  query.length ≤ 65535 ∧ s.accepted = toBeBytes query.length ++ query ∧
    1 ≤ resp.length ∧ resp.length ≤ 65535 ∧
    stream = toBeBytes resp.length ++ resp ++ s.unread ∧ ∃ sh, s.Only sh

theorem Exchanged.take {query stream resp : List UInt8} {s : Wire}
    (h : Exchanged query stream resp s) :
    ∃ m : Message, m.bytes = resp ∧ Message.take stream = some (m,s.unread) := by
  obtain ⟨-,-,hpos,hb,hs,-⟩ := h
  have hne : resp ≠ [] := List.ne_nil_of_length_pos hpos
  have ht := Message.take_frame ⟨resp,hne,hb⟩ s.unread
  rw [Message.frame,← hs] at ht
  exact ⟨_,rfl,ht⟩

theorem Exchanged.unique {query query' stream resp resp' : List UInt8} {s s' : Wire}
    (h : Exchanged query stream resp s) (h' : Exchanged query' stream resp' s') : resp = resp' := by
  obtain ⟨m,rfl,ht⟩ := h.take
  obtain ⟨m',rfl,ht'⟩ := h'.take
  have hm := Option.some.inj (ht.symm.trans ht')
  rw [(Prod.mk.inj hm).1]

theorem dialogue_wire {sh : Handle} {wr : List UInt8 → Vcl Unit}
    {rd : List UInt8 → Vcl (List UInt8)} {s : Wire} {query : List UInt8} (hs : s.Only sh)
    (hwr : ∀ buf s, s.Only sh →
      wire.wpe (wr buf) (fun _ => Sent s sh buf buf.length) (fun _ _ => True) s)
    (hrd : ∀ buf s, s.Only sh →
      wire.wpe (rd buf) (fun out => Filled s sh buf.length (buf.length,out)) (fun _ _ => True) s)
    (hacc : s.accepted = []) :
    wire.wpe (do
      let framed ← ofExcept (frameTcpDnsQuery query)
      wr framed
      let lenbuf ← rd [0,0]
      let len ← ofExcept (decodeTcpDnsLen (lenbuf.getD 0 0) (lenbuf.getD 1 0))
      rd (List.replicate len 0)) (fun resp => Exchanged query s.unread resp) (fun _ _ => True) s := by
  rw [Contract.wpe_bind]
  by_cases hq : query.length ≤ 65535
  · simp only [frameTcpDnsQuery,if_pos hq,ofExcept,Contract.wpe_pure,Contract.wpe_bind]
    refine wire.wpe_mono (hwr _ s hs) ?_ (fun _ _ _ => trivial)
    rintro _ s₁ ⟨ha₁,hu₁,ho₁⟩
    rw [List.take_length,hacc,List.nil_append] at ha₁
    refine wire.wpe_mono (hrd _ s₁ ho₁) ?_ (fun _ _ _ => trivial)
    rintro lenbuf s₂ ⟨hl₂,-,ha₂,hu₂,ho₂⟩
    obtain ⟨hi,lo,rfl⟩ := List.length_eq_two.mp hl₂
    simp only [decodeTcpDnsLen,List.getD_cons_zero,List.getD_cons_succ]
    by_cases hz : fromBeBytes hi lo = 0
    · rw [if_pos hz]
      trivial
    · simp only [if_neg hz,Contract.wpe_pure]
      refine wire.wpe_mono (hrd _ s₂ ho₂) ?_ (fun _ _ _ => trivial)
      rintro resp s₃ ⟨hl,-,ha₃,hu₃,ho₃⟩
      have hl₃ : resp.length = fromBeBytes hi lo := by
        rw [← List.length_replicate (n := fromBeBytes hi lo) (a := (0 : UInt8))]
        exact hl
      have hb := fromBeBytes_bound hi lo
      have hstream : s.unread = toBeBytes resp.length ++ resp ++ s₃.unread := by
        rw [hl₃,toBeBytes_fromBeBytes,← hu₁,hu₂,hu₃]
        simp [← hl₃]
      refine ⟨hq,?_,?_,?_,hstream,sh,ho₃⟩
      · rw [ha₃,ha₂,ha₁]
      · omega
      · omega
  · simp only [frameTcpDnsQuery,if_neg hq,ofExcept,wpe_err]

section Queries

variable [Platform]

theorem connectAsync_quiet (addr : SocketAddr) (source : Option SocketAddr) (r : VclReactor)
    (timeout : Duration) : (VclStream.connectAsync addr source r timeout).Calls Quiet := by
  rw [VclStream.connectAsync_eq]
  refine calls_bind registerWorkerThread_quiet (fun _ => ?_)
  refine calls_bind (createTcp_calls trivial) (fun handle => ?_)
  refine owning_calls ?_ trivial
  refine calls_bind (dial_calls (fun _ => configures_quiet) trivial) (fun _ => ?_)
  exact calls_bind (Prog.calls_mono (fun _ => waits_quiet) (waitWritable_calls timeout))
    (fun _ => calls_pure _)

theorem connectPorts_quiet (peer : SocketAddr) (ip : IpAddr) (r : VclReactor) (timeout : Duration)
    (started : Instant) (ports : List ℕ) (lastErr : Option VclError) :
    (connectPorts peer ip r timeout started ports lastErr).Calls Quiet := by
  induction ports generalizing lastErr with
  | nil => exact calls_err _
  | cons port ports ih =>
    refine calls_bind (calls_call trivial) (fun now => ?_)
    refine calls_ite (calls_err _) ?_
    refine calls_bind (calls_attempt (connectAsync_quiet _ _ _ _)) ?_
    intro x
    cases x with
    | ok st => exact calls_pure _
    | error e => exact ih _

theorem connectSource_quiet (peer : SocketAddr) (source : Option IpAddr) (r : VclReactor)
    (timeout : Duration) (started : Instant) :
    (connectSource peer source r timeout started).Calls Quiet := by
  cases source with
  | none => exact connectAsync_quiet _ _ _ _
  | some ip =>
    refine calls_ite (calls_err _) ?_
    exact calls_bind (genPorts_quiet 8) (fun _ => connectPorts_quiet _ _ _ _ _ _ _)

theorem bindSourceIp_quiet (handle : Handle) (peer : SocketAddr) (source : Option IpAddr) :
    (bindSourceIp handle peer source).Calls Quiet := by
  refine Prog.calls_mono ?_ (bindSourceIp_calls peer source)
  rintro c (hc | hc)
  · exact draws_quiet hc
  · exact configures_quiet hc

theorem queryTcpDnsAsync_wire (peer : SocketAddr) (source : Option IpAddr) (query : List UInt8)
    (r : VclReactor) (timeout : Duration) (stream : List UInt8) :
    wire.wpe (queryTcpDnsAsync peer source query r timeout)
      (fun resp => Exchanged query stream resp) (fun _ _ => True) ⟨[],stream,[]⟩ := by
  simp only [queryTcpDnsAsync,Contract.wpe_bind,Contract.wpe_ensuring]
  refine quiet_wpe (calls_call trivial) ?_ (fun _ => trivial)
  intro started
  refine quiet_wpe (connectSource_quiet _ _ _ _ _) ?_ (fun _ => trivial)
  intro st
  have hdrop : st.drop.Calls Quiet :=
    calls_bind (deregister_calls trivial trivial) (fun _ => dropSession_calls trivial)
  refine wire.wpe_mono (dialogue_wire (Wire.only_start st.handle stream)
    (fun _ _ => writeAll_wire) (fun _ _ => readExact_wire) rfl) ?_ ?_
  · intro resp s hx
    exact quiet_wpe hdrop (fun _ => hx) (fun _ => trivial)
  · intro e s _
    exact quiet_wpe hdrop (fun _ => trivial) (fun _ => trivial)

theorem exchangeSync_wire (handle vep : Handle) (peer : SocketAddr) (query : List UInt8)
    (timeout : Duration) (stream : List UInt8) :
    wire.wpe (exchangeSync handle vep peer query timeout)
      (fun resp => Exchanged query stream resp) (fun _ _ => True) ⟨[],stream,[]⟩ := by
  rw [exchangeSync,Contract.wpe_bind]
  refine quiet_wpe (Prog.calls_mono (fun _ => configures_quiet) (startConnect_calls peer)) ?_
    (fun _ => trivial)
  intro _
  rw [Contract.wpe_bind]
  refine quiet_wpe (calls_call trivial) ?_ (fun _ => trivial)
  intro start
  exact dialogue_wire (Wire.only_start handle stream) (fun _ _ => writeLoop_wire) (fun _ _ => readLoop_wire) rfl

theorem queryTcpDnsSync_wire (peer : SocketAddr) (source : Option IpAddr) (query : List UInt8)
    (timeout : Duration) (stream : List UInt8) :
    wire.wpe (queryTcpDnsSync peer source query timeout)
      (fun resp => Exchanged query stream resp) (fun _ _ => True) ⟨[],stream,[]⟩ := by
  simp only [queryTcpDnsSync,holding,Contract.wpe_bind,Contract.wpe_ensuring]
  refine quiet_wpe registerWorkerThread_quiet ?_ (fun _ => trivial)
  intro _
  refine quiet_wpe (createTcp_calls trivial) ?_ (fun _ => trivial)
  intro handle
  have hclose (sh : Handle) : (dropSession sh).Calls Quiet := dropSession_calls trivial
  have hstop (e : Stop) (s : Wire) :
      wire.wpe (dropSession handle) (fun _ _ => True) (fun _ _ => True) s :=
    quiet_wpe (hclose handle) (fun _ => trivial) (fun _ => trivial)
  refine quiet_wpe (bindSourceIp_quiet _ _ _) ?_ (fun e => hstop e _)
  intro _
  refine quiet_wpe (calls_call trivial) ?_ (fun e => hstop e _)
  intro vep
  rw [wpe_rejectIf]
  split_ifs with hv
  · exact hstop (.err .timeout) _
  refine quiet_wpe (watchSession_quiet _ _ _) ?_ (fun e => hstop e _)
  intro _
  refine wire.wpe_mono (exchangeSync_wire _ _ _ _ _ _) ?_ ?_
  · intro resp s hx
    exact quiet_wpe (hclose _) (fun _ => quiet_wpe (hclose _) (fun _ => hx) (fun _ => trivial))
      (fun e => hstop e s)
  · intro e s _
    exact quiet_wpe (hclose _) (fun _ => hstop e s) (fun e => hstop e s)

inductive Transport where
  | sync
  | async
deriving DecidableEq, Repr

def queryTcpDns (t : Transport) (peer : SocketAddr) (source : Option IpAddr) (query : List UInt8)
    (r : VclReactor) (timeout : Duration) : Vcl (List UInt8) :=
  match t with
  | .sync => queryTcpDnsSync peer source query timeout
  | .async => queryTcpDnsAsync peer source query r timeout

theorem queryTcpDns_exchanged {t : Transport} {peer : SocketAddr} {source : Option IpAddr}
    {query : List UInt8} {r : VclReactor} {timeout : Duration} {stream : List UInt8} {tr : List Ev}
    {resp : List UInt8} (hrun : (queryTcpDns t peer source query r timeout).Run tr (.ok resp))
    (hvcl : wire.Relied ⟨[],stream,[]⟩ tr) :
    Exchanged query stream resp (wire.after ⟨[],stream,[]⟩ tr) := by
  cases t with
  | sync => exact (wire.wpe_ok (queryTcpDnsSync_wire _ _ _ _ _) hrun hvcl).2
  | async => exact (wire.wpe_ok (queryTcpDnsAsync_wire _ _ _ _ _ _) hrun hvcl).2

theorem queryTcpDns_exact (t : Transport) (peer : SocketAddr) (source : Option IpAddr)
    (query : List UInt8) (r : VclReactor) (timeout : Duration) (stream : List UInt8) (tr : List Ev)
    (resp : List UInt8) (hrun : (queryTcpDns t peer source query r timeout).Run tr (.ok resp))
    (hvcl : wire.Relied ⟨[],stream,[]⟩ tr) :
    Exchanged query stream resp (wire.after ⟨[],stream,[]⟩ tr) ∧
      ∀ (t' : Transport) (peer' : SocketAddr) (source' : Option IpAddr) (query' : List UInt8)
        (r' : VclReactor) (timeout' : Duration) (tr' : List Ev) (resp' : List UInt8),
        (queryTcpDns t' peer' source' query' r' timeout').Run tr' (.ok resp') →
        wire.Relied ⟨[],stream,[]⟩ tr' → resp = resp' := by
  have hx := queryTcpDns_exchanged hrun hvcl
  refine ⟨hx,?_⟩
  intro t' peer' source' query' r' timeout' tr' resp' hrun' hvcl'
  exact hx.unique (queryTcpDns_exchanged hrun' hvcl')

end Queries

def chunked (n : ℕ) (c : Call) : Reply c :=
  match n, c with
  | 6, .sessionWrite _ _ => (3 : Int)
  | 7, .sessionWrite _ _ => (-11 : Int)
  | 12, .sessionRead _ _ => ((1 : Int),[0])
  | 14, .sessionRead _ _ => ((1 : Int),[2])
  | 16, .sessionRead _ _ => ((-11 : Int),[])
  | 19, .sessionRead _ _ => ((2 : Int),[7,8])
  | _, c => obliging c

theorem queryTcpDns_exact_chunked :
    ∃ tr, (@queryTcpDns host .sync (.new .unspecifiedV4 53) none [1,2] ⟨9⟩ 5).Run tr (.ok [7,8]) ∧
      wire.Relied ⟨[],[0,2,7,8,9],[]⟩ tr ∧
      Exchanged [1,2] [0,2,7,8,9] [7,8] (wire.after ⟨[],[0,2,7,8,9],[]⟩ tr) := by
  obtain ⟨r,tr,hrun,rfl,hvcl⟩ := Fallible.exec_sat
    (x := @queryTcpDns host .sync (.new .unspecifiedV4 53) none [1,2] ⟨9⟩ 5)
    (P := fun r tr => r = .ok [7,8] ∧ wire.Relied ⟨[],[0,2,7,8,9],[]⟩ tr) chunked 10
    (by decide +kernel)
  exact ⟨tr,hrun,hvcl,(@queryTcpDns_exact host _ _ _ _ _ _ _ _ _ hrun hvcl).1⟩

end VclRs
