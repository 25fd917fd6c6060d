import VclRs.Interaction.Crowd
import VclRs.Interaction.Paths
import VclRs.Footprint
import VclRs.Schedule

namespace VclRs

open Interaction Fallible

structure Newcomer where
  handle : Handle
  ep : Endpt
deriving DecidableEq

def arrival (sh : Handle) : Ev → Option Newcomer
  | ⟨.sessionAccept sh',(rc,ep)⟩ => if sh' = sh ∧ ¬rc < 0 then some ⟨handleOf rc,ep⟩ else none
  | _ => none

def closing : Ev → Option Handle
  | ⟨.sessionClose sh,_⟩ => some sh
  | _ => none

def arrivals (sh : Handle) (tr : List Ev) : List Newcomer := tr.flatMap (fun e => (arrival sh e).toList)

def closings (tr : List Ev) : List Handle := tr.flatMap (fun e => (closing e).toList)

structure Docket where
  taken : List Newcomer
  closed : List Handle
deriving DecidableEq

namespace Docket

def blank : Docket := ⟨[],[]⟩

def held (x : Newcomer) : Docket := ⟨[x],[]⟩

def shut (x : Newcomer) : Docket := ⟨[x],[x.handle]⟩

end Docket

def Receives (l : VclListener) (s : Docket) : Ev → Prop
  | ⟨.sessionAccept sh,_⟩ => sh = l.handle ∧ s = .blank
  | ⟨.sessionClose sh,_⟩ => ∃ x : Newcomer, x.handle = sh ∧ s = .held x
  | e => Waits l.reactor.vep l.handle e.op → s = .blank

def hosting (l : VclListener) : Contract Call Reply Docket where
  rely _ _ := True
  guar := Receives l
  next s e := ⟨s.taken ++ (arrival l.handle e).toList,s.closed ++ (closing e).toList⟩

section Hosting

variable {l : VclListener} {s : Docket} {E : Stop → Docket → Prop}

theorem hosting_after (s : Docket) (tr : List Ev) :
    (hosting l).after s tr = ⟨s.taken ++ arrivals l.handle tr,s.closed ++ closings tr⟩ := by
  induction tr generalizing s with
  | nil => simp [arrivals,closings]
  | cons e tr ih =>
    rw [Contract.after_cons,ih]
    simp [hosting,arrivals,closings]

theorem waits_receives {e : Ev} (h : Waits l.reactor.vep l.handle e.op) :
    Receives l s e ↔ s = .blank := by
  obtain ⟨op,reply⟩ := e
  have hsame (p : Prop) : (Waits l.reactor.vep l.handle op → p) ↔ p := ⟨fun hp => hp h,fun hp _ => hp⟩
  cases op <;> first
    | exact hsame _
    | cases h

theorem waits_hosted {e : Ev} (h : Waits l.reactor.vep l.handle e.op) (hs : s = .blank) :
    (hosting l).guar s e ∧ (hosting l).next s e = s := by
  refine ⟨(waits_receives h).mpr hs,?_⟩
  subst hs
  obtain ⟨op,reply⟩ := e
  cases h <;> rfl

theorem dropSession_hosted {x : Newcomer} {Q : Unit → Docket → Prop} (hQ : Q () (.shut x)) :
    (hosting l).wpe (dropSession x.handle) Q E (.held x) := by
  rw [dropSession,Contract.wpe_bind]
  intro rc _
  exact ⟨⟨x,rfl,rfl⟩,hQ⟩

variable [Platform]

theorem sessionAccept_hosted {Q : Handle × SocketAddr → Docket → Prop}
    (hok : ∀ x : Newcomer, Q (x.handle,addrFromEndpoint x.ep) (.held x)) (herr : ∀ e, E e .blank) :
    (hosting l).wpe (sessionAccept l.handle) Q E .blank := by
  rw [sessionAccept,Contract.wpe_bind]
  rintro ⟨rc,ep⟩ _
  refine ⟨⟨rfl,rfl⟩,?_⟩
  change (hosting l).wpe (do
    checkRc rc
    pure (handleOf rc,addrFromEndpoint ep)) Q E ⟨[] ++ (arrival l.handle _).toList,[]⟩
  rw [Contract.wpe_bind,checkRc,wpe_rejectIf,arrival]
  split_ifs with hneg htaken htaken
  · exact absurd hneg htaken.2
  · exact herr _
  · exact hok ⟨handleOf rc,ep⟩
  · exact absurd ⟨rfl,hneg⟩ htaken

theorem register_hosted {x : Newcomer} {Q : Unit → Docket → Prop} (hQ : Q () (.held x))
    (hE : ∀ e, E e (.held x)) : (hosting l).wpe (l.reactor.register x.handle) Q E (.held x) := by
  rw [VclReactor.register,Contract.wpe_bind]
  intro (rc : Int) _
  refine ⟨?_,?_⟩
  · rintro ⟨⟩
  · change (hosting l).wpe (checkRc rc) Q E (.held x)
    rw [checkRc,wpe_rejectIf]
    split_ifs
    · exact hE _
    · exact hQ

theorem attr_hosted {x : Newcomer} {op : Attr} {Q : Unit → Docket → Prop} (hQ : Q () (.held x))
    (hE : ∀ e, E (.err e) (.held x)) : (hosting l).wpe (do
      let (rc,_) ← vppcomSessionAttr x.handle op
      checkRc rc) Q E (.held x) := by
  rw [Contract.wpe_bind]
  rintro ⟨rc,ep⟩ _
  refine ⟨?_,?_⟩
  · rintro ⟨⟩
  · change (hosting l).wpe (checkRc rc) Q E (.held x)
    rw [checkRc,wpe_rejectIf]
    split_ifs
    · exact hE _
    · exact hQ

theorem fromAccepted_hosted {x : Newcomer} {Q : VclStream → Docket → Prop}
    (hok : Q ⟨x.handle,l.reactor⟩ (.held x)) (herr : ∀ e, E e (.shut x)) :
    (hosting l).wpe (VclStream.fromAccepted x.handle l.reactor) Q E (.held x) := by
  rw [VclStream.fromAccepted,owning,Contract.wpe_onFail,Contract.wpe_bind]
  refine attr_hosted ?_ (fun e => dropSession_hosted (herr _))
  rw [Contract.wpe_bind,wpe_attempt]
  exact attr_hosted hok (fun e => hok)

def Refused (_ : Stop) (s : Docket) : Prop := s = .blank ∨ ∃ x, s = .shut x

theorem accept_hosted : (hosting l).wpe l.accept
    (fun y s => ∃ x : Newcomer, y = (⟨x.handle,l.reactor⟩,addrFromEndpoint x.ep) ∧ s = .held x)
    Refused .blank := by
  refine Contract.wpe_loop _ (fun _ s => s = .blank) ?_ rfl
  rintro _ _ rfl
  rw [Contract.wpe_bind,wpe_attempt]
  refine sessionAccept_hosted ?_ ?_
  · intro x
    simp only [Contract.wpe_bind,owning,Contract.wpe_onFail]
    have hshut : ∀ e, Refused e (.shut x) := fun _ => .inr ⟨x,rfl⟩
    refine register_hosted ?_ (fun e => dropSession_hosted (hshut e))
    exact fromAccepted_hosted ⟨x,rfl,rfl⟩ hshut
  · intro e
    cases e with
    | dropped => exact .inl rfl
    | err e =>
      simp only [Contract.wpe_ite,Contract.wpe_bind,wpe_err]
      split_ifs with hwait
      · rw [wpe_attempt]
        refine Contract.wpe_still _ (fun _ he => waits_hosted he rfl) (waitReadable_calls _)
          (fun _ => rfl) ?_
        intro e
        cases e with
        | dropped => exact .inl rfl
        | err e =>
          change (hosting l).wpe (if e = .timeout then pure (Sum.inl ()) else err e) _ _ _
          rw [Contract.wpe_ite]
          split_ifs
          · rfl
          · exact .inl rfl
      · exact .inl rfl

end Hosting

section Crowd

variable [Platform] (l : VclListener)

abbrev Accepted := Except Stop (VclStream × SocketAddr)

def VclListener.entrance : Venue Call Reply Unit Accepted where
  code _ := l.accept.prog
  admits _ _ := True

def VclListener.reception : Pledge l.entrance Docket where
  contract _ := hosting l
  init _ := .blank
  post _ r s := match r with
    | .ok y => ∃ x : Newcomer, y = (⟨x.handle,l.reactor⟩,addrFromEndpoint x.ep) ∧ s = .held x
    | .error e => Refused e s
  keeps _ := by
    apply Contract.wp_mono _ accept_hosted
    intro r s hr
    cases r <;> exact hr
  relies _ _ _ _ _ := trivial

structure VclListener.Hosted (C : Crowd Call Reply Unit Accepted) : Prop where
  answered : ∀ (i : ℕ) g y, C.guests[i]? = some g → g.rest.Returns (.ok y) →
    ∃ x : Newcomer, y = (⟨x.handle,l.reactor⟩,addrFromEndpoint x.ep) ∧
      arrivals l.handle (own i C.log) = [x] ∧ closings (own i C.log) = []
  refused : ∀ (i : ℕ) g e, C.guests[i]? = some g → g.rest.Returns (.error e) →
    arrivals l.handle (own i C.log) = [] ∧ closings (own i C.log) = [] ∨
      ∃ x : Newcomer, arrivals l.handle (own i C.log) = [x] ∧ closings (own i C.log) = [x.handle]
  parked : ∀ (i : ℕ) g e q, C.guests[i]? = some g → g.rest.Step e q →
    Waits l.reactor.vep l.handle e.op →
      arrivals l.handle (own i C.log) = [] ∧ closings (own i C.log) = []
  single : ∀ i, (arrivals l.handle (own i C.log)).length ≤ 1
  total : (arrivals l.handle (C.log.map Prod.snd) : Multiset Newcomer) =
    ∑ i ∈ Finset.range C.guests.length, (arrivals l.handle (own i C.log) : Multiset Newcomer)

variable {l} {C : Crowd Call Reply Unit Accepted}

theorem reception_state (h : l.entrance.Reach C) {i : ℕ} {g : Guest Call Reply Unit Accepted}
    (hg : C.guests[i]? = some g) :
    l.reception.state g = ⟨arrivals l.handle (own i C.log),closings (own i C.log)⟩ := by
  rw [(Venue.own_past h).1 i g hg]
  exact hosting_after .blank g.past

omit [Platform] in
theorem receives_single {s : Docket} {e : Ev} (hs : s.taken.length ≤ 1) (h : Receives l s e) :
    ((hosting l).next s e).taken.length ≤ 1 := by
  obtain ⟨op,reply⟩ := e
  cases op with
  | sessionAccept sh =>
    obtain ⟨-,rfl⟩ := h
    exact Option.length_toList_le
  | _ =>
    change (s.taken ++ []).length ≤ 1
    rw [List.append_nil]
    exact hs

theorem accepts_once (h : l.entrance.Reach C) : l.Hosted C := by
  constructor
  · intro i g y hg hr
    obtain ⟨x,rfl,hx⟩ := l.reception.returned h (List.mem_of_getElem? hg) hr
    rw [reception_state h hg] at hx
    obtain ⟨harrived,hclosed⟩ := Docket.mk.inj hx
    exact ⟨x,rfl,harrived,hclosed⟩
  · intro i g e hg hr
    have hrefused := l.reception.returned h (List.mem_of_getElem? hg) hr
    rw [reception_state h hg] at hrefused
    rcases hrefused with hx | ⟨x,hx⟩
    · exact .inl (Docket.mk.inj hx)
    · exact .inr ⟨x,Docket.mk.inj hx⟩
  · intro i g e q hg hs hw
    have hguar := l.reception.promised h (List.mem_of_getElem? hg) hs trivial
    have hblank : l.reception.state g = .blank := (waits_receives hw).mp hguar
    rw [reception_state h hg] at hblank
    exact Docket.mk.inj hblank
  · intro i
    cases hg : C.guests[i]? with
    | none =>
      rw [(Venue.own_past h).2 i (List.getElem?_eq_none_iff.mp hg)]
      exact Nat.zero_le 1
    | some g =>
      have hkept := (l.reception.held_reach h g (List.mem_of_getElem? hg)).kept
      have hfew := Contract.kept_invariant _ (fun _ _ => receives_single) hkept (Nat.zero_le 1)
      change (l.reception.state g).taken.length ≤ 1 at hfew
      rw [reception_state h hg] at hfew
      exact hfew
  · exact shares_sum _ (Venue.log_index h)

end Crowd

section Parked

def emptyThenFull : ℕ → (c : Call) → Reply c
  | 0, .sessionAccept _ => ((-11 : Int),.default)
  | _, c => obliging c

theorem accepts_once_parked : ∃ C, (@VclListener.entrance host ⟨5,⟨2⟩⟩).Reach C ∧ C.guests.length = 2 ∧
    arrivals 5 (own 0 C.log) = [] ∧ arrivals 5 (own 1 C.log) = [⟨3,.default⟩] ∧
      @VclListener.Hosted host ⟨5,⟨2⟩⟩ C := by
  let _ := host
  let V := VclListener.entrance ⟨5,⟨2⟩⟩
  have hfree : ∀ (i : ℕ) tr log, V.Admitted i log tr := by
    intro i tr
    induction tr with
    | nil => exact fun _ => trivial
    | cons e tr ih => exact fun _ => ⟨trivial,ih _⟩
  have hfirst : V.Reach ⟨[⟨(),[],V.code ()⟩],[]⟩ := .single (.enter ())
  have hparked := Venue.reach_advance (i := 0) emptyThenFull 5 3 0 rfl (hfree ..) hfirst
  have hsecond := hparked.tail (.enter ())
  have hgreeted := Venue.reach_advance (i := 1) emptyThenFull 5 4 1 rfl (hfree ..) hsecond
  let log : List (ℕ × Ev) := [(0,⟨.sessionAccept 5,((-11 : Int),.default)⟩),(0,⟨.waitersEntry 2 5,(0 : ℕ)⟩),
    (0,⟨.instantNow,(0 : ℕ)⟩),(1,⟨.sessionAccept 5,((3 : Int),.default)⟩),
    (1,⟨.epollCtl 2 .add 3 (some ⟨epollin ||| epollout ||| epollet,3⟩),(0 : Int)⟩),
    (1,⟨.sessionAttr 3 (.setFlags oNonblock),((0 : Int),.default)⟩),
    (1,⟨.sessionAttr 3 (.setTcpNodelay 1),((0 : Int),.default)⟩)]
  have hnone : arrivals 5 (own 0 log) = [] := by
    simp [log,own,arrivals,arrival]
  have hone : arrivals 5 (own 1 log) = [⟨3,.default⟩] := by
    simp [log,own,arrivals,arrival,handleOf]
  exact ⟨_,hgreeted,rfl,hnone,hone,accepts_once hgreeted⟩

end Parked

end VclRs
