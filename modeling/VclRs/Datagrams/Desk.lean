import VclRs.Interaction.Prompt
import VclRs.Footprint
import Mathlib.Logic.Relation

namespace VclRs

open Interaction

structure Datagram (τ : Type) where
  payload : List UInt8
  ip : IpAddr
  port : UInt16
  tag : τ
deriving DecidableEq, Repr

abbrev Received := Int × List UInt8 × Endpt

def Datagram.sender {τ : Type} (dg : Datagram τ) : SocketAddr := .new dg.ip dg.port

def Datagram.received {τ : Type} [Platform] (dg : Datagram τ) (n : ℕ) : Received :=
  (((dg.payload.take n).length : Int),dg.payload.take n,endpointIntoBuf dg.sender zeroed)

def received (sh : Handle) : Ev → Option Received
  | ⟨.sessionRecvfrom sh' _,x⟩ => if sh' = sh ∧ ¬x.1 < 0 then some x else none
  | _ => none

def Sized (sh : Handle) (size : ℕ) : Call → Prop
  | .sessionRecvfrom sh' n => sh' = sh ∧ n = size
  | _ => True

def Formed (sh : Handle) (size : ℕ) (e : Ev) : Prop :=
  ∀ x, received sh e = some x → x.2.1.length = x.1.toNat ∧ x.2.1.length ≤ size

def Attends {α : Type} (sh : Handle) (size : ℕ) (answer : Received → Option α)
    (idle : α → Prop) : Prog Call Reply α → Prop :=
  Prompt (Sized sh size) (Formed sh size) (fun e => (received sh e).bind answer)
    (fun e a => received sh e = none ∧ idle a)

structure Receiver (Kind α : Type) where
  handle : Handle
  size : Kind → ℕ
  answer : Kind → Received → Option α
  idle : Kind → α → Prop
  code : Kind → Prog Call Reply α
  attends : ∀ k, Attends handle (size k) (answer k) (idle k) (code k)

structure Caller (Kind α : Type) where
  kind : Kind
  rest : Prog Call Reply α

structure Removal (Kind τ : Type) where
  caller : ℕ
  kind : Kind
  datagram : Datagram τ
deriving DecidableEq

structure Return (Kind τ α : Type) where
  caller : ℕ
  kind : Kind
  value : α
  datagram : Option (Datagram τ)
deriving DecidableEq

structure Desk (Kind τ α : Type) where
  arrived : List (Datagram τ)
  queue : List (Datagram τ)
  callers : List (Caller Kind α)
  removed : List (Removal Kind τ)
  returns : List (Return Kind τ α)

namespace Desk

variable {Kind τ α : Type}

def empty : Desk Kind τ α := ⟨[],[],[],[],[]⟩

def returning (i : ℕ) (k : Kind) (got : Option (Datagram τ)) :
    Prog Call Reply α → List (Return Kind τ α)
  | .ret a => [⟨i,k,a,got⟩]
  | _ => []

section Steps

variable [Platform]

inductive Takes (sh : Handle) :
    List (Datagram τ) → Ev → List (Datagram τ) → Option (Datagram τ) → Prop
  | take (dg : Datagram τ) (queue : List (Datagram τ)) (n : ℕ) :
      Takes sh (dg :: queue) ⟨.sessionRecvfrom sh n,dg.received n⟩ queue (some dg)
  | leave (queue : List (Datagram τ)) {e : Ev} (h : received sh e = none) :
      Takes sh queue e queue none

inductive Step (R : Receiver Kind α) : Desk Kind τ α → Desk Kind τ α → Prop
  | arrive {S : Desk Kind τ α} (dg : Datagram τ) :
      Step R S ⟨S.arrived ++ [dg],S.queue ++ [dg],S.callers,S.removed,S.returns⟩
  | start {S : Desk Kind τ α} (k : Kind) :
      Step R S ⟨S.arrived,S.queue,S.callers ++ [⟨k,R.code k⟩],S.removed,S.returns⟩
  | act {S : Desk Kind τ α} {i : ℕ} {k : Kind} {p q : Prog Call Reply α} {e : Ev}
      {queue : List (Datagram τ)} {got : Option (Datagram τ)} (hc : S.callers[i]? = some ⟨k,p⟩)
      (hs : Prog.Step p e q) (ht : Takes R.handle S.queue e queue got) :
      Step R S ⟨S.arrived,queue,S.callers.set i ⟨k,q⟩,S.removed ++ got.toList.map (Removal.mk i k),
        S.returns ++ returning i k got q⟩

def Reach (R : Receiver Kind α) : Desk Kind τ α → Prop := Relation.ReflTransGen (Step R) empty

end Steps

end Desk

section Account

variable {Kind τ α : Type} [Platform] {R : Receiver Kind α} {S S' : Desk Kind τ α}

def Receiver.answering (R : Receiver Kind α) (k : Kind) (dg : Datagram τ) : Option α :=
  R.answer k (dg.received (R.size k))

def Receiver.accepts (R : Receiver Kind α) (x : Removal Kind τ) : Bool :=
  (R.answering x.kind x.datagram).isSome

def Receiver.Answered (R : Receiver Kind α) (x : Return Kind τ α) : Prop :=
  (∃ dg, x.datagram = some dg ∧ R.answering x.kind dg = some x.value) ∨
    x.datagram = none ∧ R.idle x.kind x.value

def Receiver.Attended (R : Receiver Kind α) (k : Kind) : Prog Call Reply α → Prop :=
  Attends R.handle (R.size k) (R.answer k) (R.idle k)

def Return.removal (x : Return Kind τ α) : Option (Removal Kind τ) :=
  x.datagram.map (fun dg => ⟨x.caller,x.kind,dg⟩)

structure Tallied (R : Receiver Kind α) (S : Desk Kind τ α) : Prop where
  flow : S.arrived = S.removed.map Removal.datagram ++ S.queue
  order : S.returns.filterMap Return.removal = S.removed.filter R.accepts
  value : ∀ x ∈ S.returns, R.Answered x
  once : (S.returns.map Return.caller).Nodup
  closed : ∀ x ∈ S.returns, S.callers[x.caller]? = some ⟨x.kind,.ret x.value⟩
  fit : ∀ c ∈ S.callers, R.Attended c.kind c.rest

theorem received_datagram (sh : Handle) (dg : Datagram τ) (n : ℕ) :
    received sh ⟨.sessionRecvfrom sh n,dg.received n⟩ = some (dg.received n) := by
  have hrc : ¬(dg.received n).1 < 0 := by
    simp [Datagram.received]
  simp [received,hrc]

theorem takes_answer {k : Kind} {queue queue' : List (Datagram τ)} {e : Ev}
    {got : Option (Datagram τ)} (h : Desk.Takes R.handle queue e queue' got)
    (hsize : Sized R.handle (R.size k) e.op) :
    (received R.handle e).bind (R.answer k) = got.bind (R.answering k) := by
  cases h with
  | take dg _ n =>
    obtain ⟨-,rfl⟩ := hsize
    rw [received_datagram]
    rfl
  | leave _ h =>
    rw [h]
    rfl

theorem takes_formed {sh : Handle} {size : ℕ} {queue queue' : List (Datagram τ)} {e : Ev}
    {got : Option (Datagram τ)} (h : Desk.Takes sh queue e queue' got) (hsize : Sized sh size e.op) :
    Formed sh size e := by
  intro x hx
  cases h with
  | take dg _ n =>
    obtain ⟨-,rfl⟩ := hsize
    rw [received_datagram] at hx
    cases hx
    exact ⟨rfl,List.length_take_le n dg.payload⟩
  | leave _ h =>
    rw [h] at hx
    cases hx

theorem tallied_empty : Tallied R (Desk.empty : Desk Kind τ α) := by
  constructor <;> simp [Desk.empty]

theorem tallied_arrive (h : Tallied R S) (dg : Datagram τ) :
    Tallied R ⟨S.arrived ++ [dg],S.queue ++ [dg],S.callers,S.removed,S.returns⟩ := by
  constructor
  · rw [h.flow,List.append_assoc]
  · exact h.order
  · exact h.value
  · exact h.once
  · exact h.closed
  · exact h.fit

theorem tallied_start (h : Tallied R S) (k : Kind) :
    Tallied R ⟨S.arrived,S.queue,S.callers ++ [⟨k,R.code k⟩],S.removed,S.returns⟩ := by
  constructor
  · exact h.flow
  · exact h.order
  · exact h.value
  · exact h.once
  · intro x hx
    have hin := h.closed x hx
    obtain ⟨hlt,-⟩ := List.getElem?_eq_some_iff.mp hin
    rw [List.getElem?_append_left hlt]
    exact hin
  · intro c hc
    rcases List.mem_append.mp hc with hc | hc
    · exact h.fit c hc
    · obtain rfl := List.mem_singleton.mp hc
      exact R.attends k

theorem takes_flow {sh : Handle} {queue queue' : List (Datagram τ)} {e : Ev}
    {got : Option (Datagram τ)} (h : Desk.Takes sh queue e queue' got) :
    queue = got.toList ++ queue' := by
  cases h with
  | take dg _ n => rfl
  | leave _ h => rfl

theorem takes_none {sh : Handle} {queue queue' : List (Datagram τ)} {e : Ev}
    {got : Option (Datagram τ)} (h : Desk.Takes sh queue e queue' got)
    (he : received sh e = none) : got = none := by
  cases h with
  | take dg _ n =>
    rw [received_datagram] at he
    cases he
  | leave _ h => rfl

section Act

variable {i : ℕ} {k : Kind} {p q : Prog Call Reply α} {e : Ev}
variable {queue : List (Datagram τ)} {got : Option (Datagram τ)}

def Passed (R : Receiver Kind α) (k : Kind) (got : Option (Datagram τ))
    (q : Prog Call Reply α) : Prop :=
  (∀ a, q ≠ .ret a) ∧ got.bind (R.answering k) = none

theorem act_cases (hp : R.Attended k p) (hs : Prog.Step p e q)
    (ht : Desk.Takes R.handle S.queue e queue got) :
    (∃ a, q = .ret a ∧ R.Answered ⟨i,k,a,got⟩) ∨ Passed R k got q := by
  have hsize := prompt_op hp hs
  have hans := takes_answer ht hsize
  have hform := takes_formed ht hsize
  by_cases hq : ∃ a, q = .ret a
  · left
    obtain ⟨a,rfl⟩ := hq
    refine ⟨a,rfl,?_⟩
    rcases prompt_return hp hs hform with ha | ⟨he,hidle⟩
    · rw [hans] at ha
      exact .inl (Option.bind_eq_some_iff.mp ha)
    · exact .inr ⟨takes_none ht he,hidle⟩
  · right
    rw [not_exists] at hq
    refine ⟨hq,?_⟩
    cases ha : got.bind (R.answering k) with
    | none => rfl
    | some a =>
      rw [ha] at hans
      exact absurd (prompt_answer hp hs hform hans) (hq a)

theorem returning_passed (h : Passed R k got q) : Desk.returning i k got q = [] := by
  cases q with
  | ret a => exact absurd rfl (h.1 a)
  | call o f => rfl
  | unroll f => rfl
  | stall => rfl

theorem order_answered {a : α} (h : R.Answered ⟨i,k,a,got⟩) :
    [(⟨i,k,a,got⟩ : Return Kind τ α)].filterMap Return.removal =
      (got.toList.map (Removal.mk i k)).filter R.accepts := by
  rcases h with ⟨dg,rfl,ha⟩ | ⟨rfl,-⟩
  · have hacc : R.accepts ⟨i,k,dg⟩ = true := by
      rw [Receiver.accepts,ha]
      rfl
    simp [Return.removal,hacc]
  · rfl

theorem order_passed (h : Passed R k got q) :
    (got.toList.map (Removal.mk i k)).filter R.accepts = [] := by
  cases got with
  | none => rfl
  | some dg =>
    have hacc : R.accepts ⟨i,k,dg⟩ = false := by
      have hnone : R.answering k dg = none := h.2
      rw [Receiver.accepts,hnone]
      rfl
    simp [hacc]

theorem tallied_act (h : Tallied R S) (hc : S.callers[i]? = some ⟨k,p⟩)
    (hs : Prog.Step p e q) (ht : Desk.Takes R.handle S.queue e queue got) :
    Tallied R ⟨S.arrived,queue,S.callers.set i ⟨k,q⟩,S.removed ++ got.toList.map (Removal.mk i k),
      S.returns ++ Desk.returning i k got q⟩ := by
  have hfit : R.Attended k p := h.fit _ (List.mem_of_getElem? hc)
  have hlt : i < S.callers.length := (List.getElem?_eq_some_iff.mp hc).1
  have hfresh : ∀ x ∈ S.returns, x.caller ≠ i := by
    rintro x hx rfl
    rw [h.closed x hx] at hc
    cases hc
    cases hs
  have hkept : ∀ x ∈ S.returns, (S.callers.set i ⟨k,q⟩)[x.caller]? = some ⟨x.kind,.ret x.value⟩ := by
    intro x hx
    rw [List.getElem?_set_ne (hfresh x hx).symm]
    exact h.closed x hx
  have hflow : S.arrived =
      (S.removed ++ got.toList.map (Removal.mk i k)).map Removal.datagram ++ queue := by
    have hgot : (got.toList.map (Removal.mk i k)).map Removal.datagram = got.toList := by
      rw [List.map_map]
      exact List.map_id _
    rw [h.flow,takes_flow ht,List.map_append,hgot,List.append_assoc]
  have hrest : ∀ c ∈ S.callers.set i ⟨k,q⟩, R.Attended c.kind c.rest := by
    intro c hc
    rcases List.mem_or_eq_of_mem_set hc with hc | rfl
    · exact h.fit c hc
    · exact prompt_step hfit hs (takes_formed ht (prompt_op hfit hs))
  rcases act_cases (i := i) hfit hs ht with ⟨a,rfl,hans⟩ | hpass
  · refine ⟨hflow,?_,?_,?_,?_,hrest⟩
    · rw [List.filterMap_append,List.filter_append,h.order]
      congr 1
      exact order_answered hans
    · intro x hx
      rcases List.mem_append.mp hx with hx | hx
      · exact h.value x hx
      · obtain rfl := List.mem_singleton.mp hx
        exact hans
    · rw [List.map_append,List.nodup_append]
      refine ⟨h.once,List.nodup_cons.mpr ⟨List.not_mem_nil,List.nodup_nil⟩,?_⟩
      intro j hj j' hj' heq
      obtain ⟨x,hx,rfl⟩ := List.mem_map.mp hj
      exact hfresh x hx (heq.trans (List.mem_singleton.mp hj'))
    · intro x hx
      rcases List.mem_append.mp hx with hx | hx
      · exact hkept x hx
      · obtain rfl := List.mem_singleton.mp hx
        exact List.getElem?_set_self hlt
  · rw [returning_passed hpass,List.append_nil]
    refine ⟨hflow,?_,h.value,h.once,hkept,hrest⟩
    rw [List.filter_append,order_passed hpass,List.append_nil]
    exact h.order

end Act

theorem tallied_step (h : Tallied R S) (hs : Desk.Step R S S') : Tallied R S' := by
  cases hs with
  | arrive dg => exact tallied_arrive h dg
  | start k => exact tallied_start h k
  | act hc hs ht => exact tallied_act h hc hs ht

theorem tallied_reach (h : Desk.Reach R S) : Tallied R S := by
  induction h with
  | refl => exact tallied_empty
  | tail _ hs ih => exact tallied_step ih hs

end Account

section Play

variable {Kind τ α : Type} [Platform] {R : Receiver Kind α} {S : Desk Kind τ α}

def serve (sh : Handle) (env : (c : Call) → Reply c) (queue : List (Datagram τ)) :
    (Σ o, Reply o → Prog Call Reply α) →
      Option (Prog Call Reply α × List (Datagram τ) × Option (Datagram τ))
  | ⟨.sessionRecvfrom sh' n,k⟩ =>
    match queue with
    | dg :: rest => if sh' = sh then some (k (dg.received n),rest,some dg) else none
    | [] =>
      if (env (.sessionRecvfrom sh' n)).1 < 0 then some (k (env (.sessionRecvfrom sh' n)),[],none)
      else none
  | ⟨o,k⟩ => some (k (env o),queue,none)

theorem serve_takes {sh : Handle} {env : (c : Call) → Reply c} {queue queue' : List (Datagram τ)}
    {o : Call} {k : Reply o → Prog Call Reply α} {q : Prog Call Reply α}
    {got : Option (Datagram τ)} (h : serve sh env queue ⟨o,k⟩ = some (q,queue',got)) :
    ∃ x, q = k x ∧ Desk.Takes sh queue ⟨o,x⟩ queue' got := by
  cases o with
  | sessionRecvfrom sh' n =>
    cases queue with
    | nil =>
      simp only [serve] at h
      split_ifs at h with hrc
      cases h
      exact ⟨_,rfl,.leave [] (if_neg (fun hx => hx.2 hrc))⟩
    | cons dg rest =>
      simp only [serve] at h
      split_ifs at h with hsh
      cases h
      subst hsh
      exact ⟨_,rfl,.take dg _ n⟩
  | _ =>
    cases h
    exact ⟨_,rfl,.leave queue rfl⟩

def Desk.poll (R : Receiver Kind α) (env : (c : Call) → Reply c) (S : Desk Kind τ α) (i : ℕ) :
    Desk Kind τ α :=
  match S.callers[i]? with
  | none => S
  | some c =>
    match (c.rest.expose 9).bind (serve R.handle env S.queue) with
    | none => S
    | some (q,queue,got) =>
      ⟨S.arrived,queue,S.callers.set i ⟨c.kind,q⟩,S.removed ++ got.toList.map (Removal.mk i c.kind),
        S.returns ++ Desk.returning i c.kind got q⟩

theorem reach_poll (env : (c : Call) → Reply c) (i : ℕ) (h : Desk.Reach R S) :
    Desk.Reach R (S.poll R env i) := by
  rw [Desk.poll]
  split
  · exact h
  · next c hc =>
    split
    · exact h
    · next q queue got hx =>
      obtain ⟨⟨o,k⟩,ho,hk⟩ := Option.bind_eq_some_iff.mp hx
      obtain ⟨x,rfl,ht⟩ := serve_takes hk
      exact h.tail (.act hc (Prog.head_step (Prog.expose_head ho) x) ht)

end Play

abbrev Delivered := (ℕ × SocketAddr) × List UInt8

section Events

variable {sh : Handle}

theorem received_quiet {e : Ev} {vep sh' : Handle} (h : Waits vep sh' e.op) :
    received sh e = none := by
  obtain ⟨op,x⟩ := e
  cases h <;> rfl

theorem received_refused {n : ℕ} {x : Received} (h : x.1 < 0) :
    received sh ⟨.sessionRecvfrom sh n,x⟩ = none :=
  if_neg (fun hx => hx.2 h)

theorem received_taken {n : ℕ} {x : Received} (h : ¬x.1 < 0) :
    received sh ⟨.sessionRecvfrom sh n,x⟩ = some x :=
  if_pos ⟨rfl,h⟩

theorem waits_sized {vep sh' : Handle} {size : ℕ} {c : Call} (h : Waits vep sh' c) :
    Sized sh size c := by
  cases h <;> trivial

end Events

section Reception

variable [Platform] {sh : Handle} {buf : List UInt8}

def handed (buf : List UInt8) (x : Received) : Delivered :=
  ((x.1.toNat,addrFromEndpoint x.2.2),patch buf x.2.1)

def verdict (buf : List UInt8) (x : Received) : Except VclError Delivered :=
  if x.1 < 0 then .error (fromRc x.1) else .ok (handed buf x)

theorem verdict_refused {x : Received} (h : x.1 < 0) : verdict buf x = .error (fromRc x.1) := if_pos h

theorem verdict_taken {x : Received} (h : ¬x.1 < 0) : verdict buf x = .ok (handed buf x) := if_neg h

theorem recvfrom_prog : (attempt (recvfrom sh buf)).prog =
    .call (.sessionRecvfrom sh (asU32 buf.length)) (fun x => .ret (.ok (verdict buf x))) := by
  change Prog.call _ _ = Prog.call _ _
  congr 1
  funext x
  change (((checkRc x.1).prog.bind _).bind _) = _
  by_cases h : x.1 < 0
  · rw [checkRc,rejectIf,verdict,if_pos h,if_pos h]
    rfl
  · rw [checkRc,rejectIf,verdict,if_neg h,if_neg h]
    rfl

end Reception

end VclRs
