import VclRs.Datagrams.Desk
import VclRs.Footprint
import VclRs.Schedule
import Mathlib.Data.List.Nodup

namespace VclRs

open Interaction Fallible

inductive Recv where
  | recvFrom (buf : List UInt8)
  | tryRecvFrom (buf : List UInt8)
deriving DecidableEq, Repr

def Recv.buf : Recv → List UInt8
  | .recvFrom buf => buf
  | .tryRecvFrom buf => buf

def Recv.Idle : Recv → Except Stop (Option Delivered) → Prop
  | .recvFrom _, .error (.err e) => e ≠ .wouldBlock ∧ e ≠ .timeout
  | .recvFrom _, .error .dropped => True
  | .recvFrom _, .ok _ => False
  | .tryRecvFrom _, .ok (some _) => False
  | .tryRecvFrom _, .ok none => True
  | .tryRecvFrom _, .error (.err e) => e ≠ .wouldBlock ∧ e ≠ .timeout
  | .tryRecvFrom _, .error .dropped => False

section Programs

variable [Platform] {buf : List UInt8} {d : VclDgramSocket}

def VclDgramSocket.resume (d : VclDgramSocket) : Except VclError Delivered → Vcl (Unit ⊕ Delivered)
  | .ok x => pure (.inr x)
  | .error e =>
    if e = .wouldBlock then do
      match ← attempt (d.reactor.waitReadable d.handle (secs 300)) with
      | .ok _ => pure (.inl ())
      | .error e => if e = .timeout then pure (.inl ()) else err e
    else err e

theorem recvFrom_eq : d.recvFrom buf =
    Fallible.loop (fun _ => attempt (recvfrom d.handle buf) >>= d.resume) () := rfl

omit [Platform] in
theorem resume_upholds {P : Ev → Prog Call Reply (Except Stop Delivered) → Prop}
    {f : Except Stop (Unit ⊕ Delivered) → Prog Call Reply (Except Stop Delivered)}
    (hP : ∀ e q, Waits d.reactor.vep d.handle e.op → P e q)
    (hagain : (f (.ok (.inl ()))).Upholds P) (hfail : ∀ e, (f (.error e)).Upholds P)
    (e : VclError) : ((d.resume (.error e)).prog.bind f).Upholds P := by
  rw [VclDgramSocket.resume]
  by_cases h : e = .wouldBlock
  · rw [if_pos h,Fallible.bind_prog]
    apply Prog.upholds_bind hP (calls_attempt (waitReadable_calls _))
    intro res
    match res with
    | .ok (.ok _) => exact hagain
    | .ok (.error e) =>
      by_cases ht : e = .timeout
      · simp only [if_pos ht]
        exact hagain
      · simp only [if_neg ht]
        exact hfail (.err e)
    | .error st => exact hfail st
  · rw [if_neg h]
    exact hfail (.err e)

theorem recvFrom_prompt : (d.recvFrom buf).prog.Upholds (fun e q =>
    Sized d.handle (asU32 buf.length) e.op ∧
      ∀ x, received d.handle e = some x → q = .ret (.ok (handed buf x))) := by
  rw [recvFrom_eq]
  refine Fallible.upholds_loop (fun _ => True) ?_ trivial
  intro _ f _ hagain hdone hfail
  rw [Fallible.bind_prog,recvfrom_prog]
  intro x
  change (_ ∧ ∀ y, _ → (d.resume (verdict buf x)).prog.bind f = _) ∧
    ((d.resume (verdict buf x)).prog.bind f).Upholds _
  by_cases h : x.1 < 0
  · rw [received_refused h,verdict_refused h]
    refine ⟨⟨⟨rfl,rfl⟩,by simp⟩,resume_upholds ?_ (hagain () trivial) ?_ _⟩
    · intro e q he
      refine ⟨waits_sized he,?_⟩
      intro x hx
      rw [received_quiet he] at hx
      cases hx
    · intro e
      rw [hfail]
      trivial
  · rw [received_taken h,verdict_taken h]
    change (_ ∧ ∀ y, _ → f (.ok (.inr (handed buf x))) = _) ∧
      (f (.ok (.inr (handed buf x)))).Upholds _
    rw [hdone]
    refine ⟨⟨⟨rfl,rfl⟩,?_⟩,trivial⟩
    rintro _ ⟨⟩
    rfl

def Rests (sh : Handle) (last : Option Ev) : Prop := ∃ e, last = some e ∧ received sh e = none

theorem resume_honest {R : Ev → Prop} {last : Option Ev} {rc : Int} (h : Rests d.handle last) :
    (Contract.latest R).wpe (d.resume (.error (fromRc rc)))
      (fun r _ => r = .inl ()) (fun e last => Rests d.handle last ∧ Recv.Idle (.recvFrom buf) (.error e))
      last := by
  have hkeep : ∀ last e, Rests d.handle last → Waits d.reactor.vep d.handle e.op → R e →
      True ∧ Rests d.handle (some e) :=
    fun _ e _ he _ => ⟨trivial,e,rfl,received_quiet he⟩
  rw [VclDgramSocket.resume,Contract.wpe_ite]
  split_ifs with hb
  · rw [Contract.wpe_bind,wpe_attempt]
    refine Contract.wpe_mono _ (waitEvent_keeps hkeep h) ?_ ?_
    · intro _ _ _
      rfl
    · rintro st last ⟨hst,hlast⟩
      cases hst with
      | timeout => rfl
      | io e => exact ⟨hlast,by simp,by simp⟩
      | dropped => exact ⟨hlast,trivial⟩
  · exact ⟨h,hb,fromRc_ne_timeout rc⟩

theorem recvFrom_honest {R : Ev → Prop} {last : Option Ev} : (Contract.latest R).wpe (d.recvFrom buf)
    (fun x last => ∃ e y, last = some e ∧ received d.handle e = some y ∧ handed buf y = x)
    (fun e last => Rests d.handle last ∧ Recv.Idle (.recvFrom buf) (.error e)) last := by
  rw [recvFrom_eq]
  refine Contract.wpe_loop _ (fun _ _ => True) ?_ trivial
  intro _ last _
  rw [Contract.wpe_bind,Contract.wpe,recvfrom_prog]
  intro x _
  refine ⟨trivial,?_⟩
  change (Contract.latest R).wpe (d.resume (verdict buf x)) _ _ _
  by_cases h : x.1 < 0
  · rw [verdict_refused h]
    refine Contract.wpe_mono _ (resume_honest ⟨_,rfl,received_refused h⟩) ?_ (fun _ _ he => he)
    rintro r last rfl
    trivial
  · rw [verdict_taken h]
    exact ⟨_,x,rfl,received_taken h,rfl⟩

def tried : Except VclError Delivered → Except Stop (Option Delivered)
  | .ok x => .ok (some x)
  | .error e => if e = .wouldBlock then .ok none else .error (.err e)

theorem tryRecvFrom_prog : (d.tryRecvFrom buf).prog =
    .call (.sessionRecvfrom d.handle (asU32 buf.length)) (fun x => .ret (tried (verdict buf x))) := by
  change (attempt (recvfrom d.handle buf)).prog.bind _ = _
  rw [recvfrom_prog]
  change Prog.call _ _ = Prog.call _ _
  congr 1
  funext x
  beta_reduce
  generalize verdict buf x = v
  cases v with
  | ok y => rfl
  | error e =>
    change (if e = .wouldBlock then (pure none : Vcl _) else err e).prog = _
    rw [tried]
    by_cases h : e = .wouldBlock
    · rw [if_pos h,if_pos h]
      rfl
    · rw [if_neg h,if_neg h]
      rfl

def Recv.code (d : VclDgramSocket) : Recv → Prog Call Reply (Except Stop (Option Delivered))
  | .recvFrom buf => (some <$> d.recvFrom buf).prog
  | .tryRecvFrom buf => (d.tryRecvFrom buf).prog

def Recv.answer (k : Recv) (x : Received) : Option (Except Stop (Option Delivered)) :=
  some (.ok (some (handed k.buf x)))

theorem recvFrom_attends : Attends d.handle (asU32 buf.length) (Recv.answer (.recvFrom buf))
    (Recv.Idle (.recvFrom buf)) (Recv.code d (.recvFrom buf)) := by
  constructor
  · refine Prog.upholds_after (Prog.upholds_mono ?_ recvFrom_prompt) ?_
    · rintro e q ⟨hop,h⟩
      refine ⟨hop,?_⟩
      intro _ a ha
      obtain ⟨x,hx,hax⟩ := Option.bind_eq_some_iff.mp ha
      cases hax
      rw [h x hx]
      rfl
    · intro r
      cases r <;> trivial
  · refine ⟨none,(Contract.wp_bind _).mpr (Contract.wp_mono _ recvFrom_honest ?_)⟩
    intro r last hr
    cases r with
    | ok x =>
      obtain ⟨e,y,rfl,hy,rfl⟩ := hr
      refine ⟨e,rfl,.inl ?_⟩
      beta_reduce
      rw [hy]
      rfl
    | error st =>
      obtain ⟨⟨e,rfl,he⟩,hidle⟩ := hr
      exact ⟨e,rfl,.inr ⟨he,hidle⟩⟩

theorem tryRecvFrom_attends : Attends d.handle (asU32 buf.length) (Recv.answer (.tryRecvFrom buf))
    (Recv.Idle (.tryRecvFrom buf)) (Recv.code d (.tryRecvFrom buf)) := by
  rw [Recv.code,tryRecvFrom_prog]
  constructor
  · intro x
    refine ⟨⟨⟨rfl,rfl⟩,?_⟩,trivial⟩
    intro _ a ha
    obtain ⟨y,hy,hay⟩ := Option.bind_eq_some_iff.mp ha
    cases hay
    by_cases h : x.1 < 0
    · rw [received_refused h] at hy
      cases hy
    · rw [received_taken h] at hy
      cases hy
      beta_reduce
      rw [verdict_taken h]
      rfl
  · refine ⟨none,?_⟩
    intro x _
    refine ⟨trivial,_,rfl,?_⟩
    beta_reduce
    by_cases h : x.1 < 0
    · rw [received_refused h,verdict_refused h,tried]
      right
      refine ⟨rfl,?_⟩
      split_ifs with hb
      · trivial
      · exact ⟨hb,fromRc_ne_timeout _⟩
    · rw [received_taken h,verdict_taken h]
      exact .inl rfl

def VclDgramSocket.receiver (d : VclDgramSocket) : Receiver Recv (Except Stop (Option Delivered)) where
  handle := d.handle
  size k := asU32 k.buf.length
  answer := Recv.answer
  idle := Recv.Idle
  code := Recv.code d
  attends k := by
    cases k with
    | recvFrom buf => exact recvFrom_attends
    | tryRecvFrom buf => exact tryRecvFrom_attends

end Programs

section Delivery

variable {τ : Type}

def Datagram.delivered (dg : Datagram τ) (buf : List UInt8) : Delivered :=
  let data := dg.payload.take (asU32 buf.length)
  ((data.length,dg.sender),patch buf data)

structure DeliveredOnce (S : Desk Recv τ (Except Stop (Option Delivered))) : Prop where
  conserved : S.arrived = S.removed.map Removal.datagram ++ S.queue
  returned : S.returns.filterMap Return.removal = S.removed
  distinct : (S.returns.map Return.caller).Nodup
  content : ∀ x ∈ S.returns, ∀ dg, x.datagram = some dg →
    x.value = .ok (some (dg.delivered x.kind.buf))
  genuine : ∀ x ∈ S.returns, x.datagram = none → ∀ y, x.value ≠ .ok (some y)
  cancelled : ∀ x ∈ S.returns, x.value = .error .dropped → ∀ y ∈ S.removed, y.caller ≠ x.caller
  parked : ∀ (i : ℕ) c, S.callers[i]? = some c → (∀ a, c.rest ≠ .ret a) →
    ∀ y ∈ S.removed, y.caller ≠ i
  steady : ∀ x ∈ S.returns, ∀ buf, x.kind = .recvFrom buf →
    x.value ≠ .error (.err .wouldBlock) ∧ x.value ≠ .error (.err .timeout)

variable {S : Desk Recv τ (Except Stop (Option Delivered))}

theorem idle_value {k : Recv} {y : Delivered} : ¬k.Idle (.ok (some y)) := by
  cases k <;> exact id

theorem idle_steady {buf : List UInt8} {v : Except Stop (Option Delivered)}
    (h : Recv.Idle (.recvFrom buf) v) : v ≠ .error (.err .wouldBlock) ∧ v ≠ .error (.err .timeout) := by
  constructor
  · rintro rfl
    exact h.1 rfl
  · rintro rfl
    exact h.2 rfl

theorem removed_returned (h : S.returns.filterMap Return.removal = S.removed)
    {y : Removal Recv τ} (hy : y ∈ S.removed) :
    ∃ x ∈ S.returns, x.caller = y.caller ∧ x.datagram = some y.datagram := by
  rw [← h] at hy
  obtain ⟨x,hx,hxy⟩ := List.mem_filterMap.mp hy
  obtain ⟨dg,hdg,rfl⟩ := Option.map_eq_some_iff.mp hxy
  exact ⟨x,hx,rfl,hdg⟩

variable [Platform] {d : VclDgramSocket}

theorem handed_received (dg : Datagram τ) (buf : List UInt8) :
    handed buf (dg.received (asU32 buf.length)) = dg.delivered buf := by
  rw [handed,Datagram.received,Datagram.sender,addrFromEndpoint_endpointIntoBuf]
  rfl

theorem answered_content {x : Return Recv τ (Except Stop (Option Delivered))}
    (h : d.receiver.Answered x) {dg : Datagram τ} (hx : x.datagram = some dg) :
    x.value = .ok (some (dg.delivered x.kind.buf)) := by
  rcases h with ⟨dg',hdg,hval⟩ | ⟨hnone,-⟩
  · rw [hx] at hdg
    cases hdg
    have hvalue := Option.some.inj hval
    rw [← hvalue,← handed_received]
    rfl
  · rw [hx] at hnone
    cases hnone

theorem answered_idle {x : Return Recv τ (Except Stop (Option Delivered))}
    (h : d.receiver.Answered x) (hx : x.datagram = none) : x.kind.Idle x.value := by
  rcases h with ⟨dg,hdg,-⟩ | ⟨-,hidle⟩
  · rw [hx] at hdg
    cases hdg
  · exact hidle

theorem delivered_once (h : Desk.Reach d.receiver S) : DeliveredOnce S := by
  have hacc := tallied_reach h
  have hall : S.removed.filter d.receiver.accepts = S.removed :=
    List.filter_eq_self.mpr (fun _ _ => rfl)
  have hret := hacc.order.trans hall
  have hcontent : ∀ x ∈ S.returns, ∀ dg, x.datagram = some dg →
      x.value = .ok (some (dg.delivered x.kind.buf)) :=
    fun x hx dg hdg => answered_content (hacc.value x hx) hdg
  constructor
  · exact hacc.flow
  · exact hret
  · exact hacc.once
  · exact hcontent
  · intro x hx hnone y hy
    have hidle := answered_idle (hacc.value x hx) hnone
    rw [hy] at hidle
    exact idle_value hidle
  · intro x hx hdropped y hy hcaller
    obtain ⟨x',hx',hc,hdg⟩ := removed_returned hret hy
    have hsame : x' = x := List.inj_on_of_nodup_map hacc.once hx' hx (hc.trans hcaller)
    rw [hsame] at hdg
    rw [hcontent x hx _ hdg] at hdropped
    cases hdropped
  · intro i c hc hrun y hy hcaller
    obtain ⟨x,hx,hxy,-⟩ := removed_returned hret hy
    have hclosed := hacc.closed x hx
    rw [hxy,hcaller,hc] at hclosed
    cases hclosed
    exact hrun _ rfl
  · intro x hx buf hk
    cases hdg : x.datagram with
    | none =>
      have hidle := answered_idle (hacc.value x hx) hdg
      rw [hk] at hidle
      exact idle_steady hidle
    | some dg =>
      rw [hcontent x hx dg hdg]
      simp

end Delivery

def greeting : Datagram Unit := ⟨[104,105],.unspecifiedV4,53,()⟩

theorem delivered_once_greeting : ∃ S : Desk Recv Unit (Except Stop (Option Delivered)),
    @Desk.Reach _ _ _ host (@VclDgramSocket.receiver host ⟨7,⟨2⟩⟩) S ∧
      S.removed = [⟨0,.recvFrom [0,0,0,0],greeting⟩] ∧ DeliveredOnce S := by
  let _ := host
  let R := VclDgramSocket.receiver ⟨7,⟨2⟩⟩
  obtain ⟨q,hq⟩ : ∃ q, Prog.Step (R.code (.recvFrom [0,0,0,0]))
      ⟨.sessionRecvfrom 7 4,greeting.received 4⟩ q :=
    ⟨_,.unroll 1 (.call _)⟩
  have hstart : Desk.Reach R
      ⟨[greeting],[greeting],[⟨.recvFrom [0,0,0,0],R.code (.recvFrom [0,0,0,0])⟩],[],[]⟩ :=
    (Relation.ReflTransGen.single (.arrive greeting)).tail (.start (Recv.recvFrom [0,0,0,0]))
  have hact := hstart.tail (.act (i := 0) rfl hq (.take greeting [] 4))
  exact ⟨_,hact,rfl,delivered_once hact⟩

end VclRs
