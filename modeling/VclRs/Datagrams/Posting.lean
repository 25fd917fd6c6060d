import VclRs.Interaction.Crowd
import VclRs.Footprint
import VclRs.Schedule

namespace VclRs

open Interaction Fallible

structure Outgoing where
  buf : List UInt8
  dst : SocketAddr
deriving DecidableEq, Repr

structure Posting where
  payload : List UInt8
  ep : Endpt
  count : ℕ
deriving DecidableEq

def posting (sh : Handle) : Ev → Option Posting
  | ⟨.sessionSendto sh' buf ep,rc⟩ => if sh' = sh ∧ ¬rc < 0 then some ⟨buf,ep,rc.toNat⟩ else none
  | _ => none

def postings (sh : Handle) (tr : List Ev) : List Posting := tr.flatMap (fun e => (posting sh e).toList)

def mailing (sh : Handle) : Contract Call Reply (List Posting) where
  rely _ _ := True
  guar s _ := s = []
  next s e := s ++ (posting sh e).toList

section Mailing

variable {sh : Handle}

theorem mailing_after (s : List Posting) (tr : List Ev) :
    (mailing sh).after s tr = s ++ postings sh tr := by
  induction tr generalizing s with
  | nil => simp [postings]
  | cons e tr ih =>
    rw [Contract.after_cons,ih]
    simp [mailing,postings]

theorem posting_waits {vep sh' : Handle} {e : Ev} (h : Waits vep sh' e.op) : posting sh e = none := by
  obtain ⟨op,reply⟩ := e
  cases h <;> rfl

theorem posting_refused {buf : List UInt8} {ep : Endpt} {rc : Int} (h : rc < 0) :
    posting sh ⟨.sessionSendto sh buf ep,rc⟩ = none := if_neg (fun hx => hx.2 h)

theorem posting_taken {buf : List UInt8} {ep : Endpt} {rc : Int} (h : ¬rc < 0) :
    posting sh ⟨.sessionSendto sh buf ep,rc⟩ = some ⟨buf,ep,rc.toNat⟩ := if_pos ⟨rfl,h⟩

theorem kept_last {past : List Ev} {x : Posting} (hk : (mailing sh).Kept [] past)
    (hx : x ∈ postings sh past) : ∃ e, past.getLast? = some e ∧ posting sh e = some x := by
  induction past using List.reverseRecOn with
  | nil => simp [postings] at hx
  | append_singleton past e _ =>
    rw [Contract.kept_append,mailing_after] at hk
    have hnone : postings sh past = [] := hk.2.1
    have hconcat : postings sh (past ++ [e]) = (posting sh e).toList := by
      rw [postings,List.flatMap_append]
      change postings sh past ++ postings sh [e] = _
      rw [hnone]
      simp [postings]
    rw [hconcat,Option.mem_toList] at hx
    exact ⟨e,List.getLast?_concat,hx⟩

end Mailing

section Socket

variable [Platform] (d : VclDgramSocket)

def Outgoing.posting (k : Outgoing) (n : ℕ) : Posting :=
  ⟨k.buf.take (asU32 k.buf.length),endpointIntoBuf k.dst zeroed,n⟩

def VclDgramSocket.mailroom : Venue Call Reply Outgoing (Except Stop ℕ) where
  code k := (d.sendTo k.buf k.dst).prog
  admits _ _ := True

variable {d} {buf : List UInt8} {dst : SocketAddr}

def VclDgramSocket.retry (d : VclDgramSocket) : Except VclError ℕ → Vcl (Unit ⊕ ℕ)
  | .ok n => pure (.inr n)
  | .error e =>
    if e = .wouldBlock then do
      d.reactor.waitWritable d.handle (secs 30)
      pure (.inl ())
    else err e

def counted (rc : Int) : Except VclError ℕ := if rc < 0 then .error (fromRc rc) else .ok rc.toNat

theorem sendTo_eq : d.sendTo buf dst =
    Fallible.loop (fun _ => attempt (sendto d.handle buf dst) >>= d.retry) () := rfl

theorem sendto_prog : (attempt (sendto d.handle buf dst)).prog =
    .call (.sessionSendto d.handle (buf.take (asU32 buf.length)) (endpointIntoBuf dst zeroed))
      (fun rc => .ret (.ok (counted rc))) := by
  change Prog.call _ _ = Prog.call _ _
  congr 1
  funext (rc : Int)
  change (((checkRc rc).prog.bind _).bind _) = _
  by_cases h : rc < 0
  · rw [checkRc,rejectIf,counted,if_pos h,if_pos h]
    rfl
  · rw [checkRc,rejectIf,counted,if_neg h,if_neg h]
    rfl

theorem sendTo_prompt : (d.sendTo buf dst).prog.Upholds (fun e q =>
    ∀ x, posting d.handle e = some x → q = .ret (.ok x.count)) := by
  rw [sendTo_eq]
  refine Fallible.upholds_loop (fun _ => True) ?_ trivial
  intro _ f _ hagain hdone hfail
  rw [Fallible.bind_prog,sendto_prog]
  intro (rc : Int)
  change (∀ x, _ → (d.retry (counted rc)).prog.bind f = _) ∧ ((d.retry (counted rc)).prog.bind f).Upholds _
  by_cases h : rc < 0
  · have hcounted : counted rc = .error (fromRc rc) := if_pos h
    rw [posting_refused h,hcounted]
    refine ⟨by simp,?_⟩
    rw [VclDgramSocket.retry]
    by_cases hb : fromRc rc = .wouldBlock
    · rw [if_pos hb,Fallible.bind_prog]
      apply Prog.upholds_bind _ (waitWritable_calls _)
      · intro r
        cases r with
        | ok _ => exact hagain () trivial
        | error e =>
          change (f (.error e)).Upholds _
          rw [hfail]
          trivial
      · intro e q he x hx
        rw [posting_waits he] at hx
        cases hx
    · rw [if_neg hb]
      change (f (.error _)).Upholds _
      rw [hfail]
      trivial
  · have hcounted : counted rc = .ok rc.toNat := if_neg h
    rw [posting_taken h,hcounted]
    change (∀ x, _ → f (.ok (.inr rc.toNat)) = _) ∧ (f (.ok (.inr rc.toNat))).Upholds _
    rw [hdone]
    refine ⟨?_,trivial⟩
    rintro _ ⟨⟩
    rfl

theorem sendTo_mailing : (mailing d.handle).wpe (d.sendTo buf dst)
    (fun n s => s = [Outgoing.posting ⟨buf,dst⟩ n]) (fun _ s => s = []) [] := by
  rw [sendTo_eq]
  refine Contract.wpe_loop _ (fun _ s => s = []) ?_ rfl
  rintro _ _ rfl
  rw [Contract.wpe_bind,Contract.wpe,sendto_prog]
  intro (rc : Int) _
  refine ⟨rfl,?_⟩
  change (mailing d.handle).wpe (d.retry (counted rc)) _ _ ([] ++ (posting d.handle _).toList)
  by_cases h : rc < 0
  · have hcounted : counted rc = .error (fromRc rc) := if_pos h
    rw [posting_refused h,hcounted,VclDgramSocket.retry,Contract.wpe_ite]
    split_ifs with hb
    · rw [Contract.wpe_bind]
      refine Contract.wpe_still _ ?_ (waitWritable_calls _) (fun _ => rfl) (fun _ => rfl)
      intro e he
      refine ⟨rfl,?_⟩
      change [] ++ (posting d.handle e).toList = []
      rw [posting_waits he]
      rfl
    · rfl
  · have hcounted : counted rc = .ok rc.toNat := if_neg h
    rw [posting_taken h,hcounted]
    rfl

def VclDgramSocket.mail (d : VclDgramSocket) : Pledge d.mailroom (List Posting) where
  contract _ := mailing d.handle
  init _ := []
  post k r s := ∀ n, r = .ok n → s = [k.posting n]
  keeps k := by
    apply Contract.wp_mono _ sendTo_mailing
    rintro r s h n rfl
    exact h
  relies _ _ _ _ _ := trivial

structure VclDgramSocket.Mailed (d : VclDgramSocket) (C : Crowd Call Reply Outgoing (Except Stop ℕ)) :
    Prop where
  answered : ∀ (i : ℕ) g n, C.guests[i]? = some g → g.rest.Returns (.ok n) →
    postings d.handle (own i C.log) = [g.kind.posting n]
  unanswered : ∀ (i : ℕ) g, C.guests[i]? = some g → (∀ n, ¬g.rest.Returns (.ok n)) →
    postings d.handle (own i C.log) = []
  total : (postings d.handle (C.log.map Prod.snd) : Multiset Posting) =
    ∑ i ∈ Finset.range C.guests.length, (postings d.handle (own i C.log) : Multiset Posting)

theorem sends_once {C : Crowd Call Reply Outgoing (Except Stop ℕ)} (h : d.mailroom.Reach C) :
    d.Mailed C := by
  have hstate : ∀ (i : ℕ) g, C.guests[i]? = some g → d.mail.state g = postings d.handle (own i C.log) := by
    intro i g hg
    rw [(Venue.own_past h).1 i g hg]
    exact mailing_after [] g.past
  constructor
  · intro i g n hg hr
    rw [← hstate i g hg]
    exact d.mail.returned h (List.mem_of_getElem? hg) hr n rfl
  · intro i g hg hno
    have hmem := List.mem_of_getElem? hg
    have hkept := (d.mail.held_reach h g hmem).kept
    rw [(Venue.own_past h).1 i g hg]
    by_contra hne
    obtain ⟨x,hx⟩ := List.exists_mem_of_ne_nil _ hne
    obtain ⟨e,hlast,hpost⟩ := kept_last hkept hx
    have hret := (Venue.upholds_reach (fun k => sendTo_prompt) h g hmem).2 e hlast x hpost
    apply hno x.count
    rw [hret]
    exact .ret _
  · exact shares_sum _ (Venue.log_index h)

end Socket

section Congested

def fullThenFree : ℕ → (c : Call) → Reply c
  | 0, .sessionSendto _ _ _ => (-11 : Int)
  | _, c => obliging c

def recipient : SocketAddr := .v4 (.replicate 4 9) 53

theorem sends_once_congested : ∃ C, (@VclDgramSocket.mailroom host ⟨3,⟨2⟩⟩).Reach C ∧
    C.guests.map Guest.kind = [⟨[1],recipient⟩,⟨[2],recipient⟩] ∧
      postings 3 (own 0 C.log) = [] ∧
        postings 3 (own 1 C.log) = [@Outgoing.posting host ⟨[2],recipient⟩ 1] ∧
          @VclDgramSocket.Mailed host ⟨3,⟨2⟩⟩ C := by
  let _ := host
  let V := VclDgramSocket.mailroom ⟨3,⟨2⟩⟩
  have hfree : ∀ (i : ℕ) tr log, V.Admitted i log tr := by
    intro i tr
    induction tr with
    | nil => exact fun _ => trivial
    | cons e tr ih => exact fun _ => ⟨trivial,ih _⟩
  have hfirst : V.Reach ⟨[⟨⟨[1],recipient⟩,[],V.code ⟨[1],recipient⟩⟩],[]⟩ := .single (.enter _)
  have hparked := Venue.reach_advance (i := 0) fullThenFree 5 3 0 rfl (hfree ..) hfirst
  have hsecond := hparked.tail (.enter ⟨[2],recipient⟩)
  have hsent := Venue.reach_advance (i := 1) fullThenFree 5 1 1 rfl (hfree ..) hsecond
  have hmailed := sends_once hsent
  let full : Ev := ⟨.sessionSendto 3 [1] (endpointIntoBuf recipient zeroed),(-11 : Int)⟩
  let free : Ev := ⟨.sessionSendto 3 [2] (endpointIntoBuf recipient zeroed),(1 : Int)⟩
  let log : List (ℕ × Ev) := [(0,full),(0,⟨.waitersEntry 2 3,(0 : ℕ)⟩),(0,⟨.instantNow,(0 : ℕ)⟩),(1,free)]
  have hnone : postings 3 (own 0 log) = [] := by
    simp [log,full,free,own,postings,posting]
  exact ⟨_,hsent,rfl,hnone,hmailed.answered 1 _ 1 rfl (.ret _),hmailed⟩

end Congested

end VclRs
