import VclRs.Interaction.Ledger
import VclRs.Footprint

namespace VclRs

open Interaction Fallible

def handleIf (rc : Int) : Multiset Handle := if rc < 0 then 0 else {handleOf rc}

def obtained : Ev → Multiset Handle
  | ⟨.sessionCreate _ _,rc⟩ => handleIf rc
  | ⟨.sessionAccept _,(rc,_)⟩ => handleIf rc
  | ⟨.epollCreate,rc⟩ => handleIf rc
  | _ => 0

def released : Ev → Multiset Handle
  | ⟨.sessionClose sh,_⟩ => {sh}
  | _ => 0

def refused : Ev → Multiset Handle
  | ⟨.sessionAttr sh .getLclAddr,(rc,_)⟩ => if rc < 0 then {sh} else 0
  | _ => 0

def opened (tr : List Ev) : Multiset Handle := (tr.map obtained).sum

def closed (tr : List Ev) : Multiset Handle := (tr.map released).sum

def ClosedOnce (tr : List Ev) : Prop :=
  closed tr = opened tr ∧ ∀ pre, pre <+: tr → closed pre ≤ opened pre

def subject : Call → Option Handle
  | .sessionShutdown sh _ => some sh
  | .sessionBind sh _ => some sh
  | .sessionListen sh _ => some sh
  | .sessionAccept sh => some sh
  | .sessionConnect sh _ => some sh
  | .sessionRead sh _ => some sh
  | .sessionWrite sh _ => some sh
  | .sessionSendto sh _ _ => some sh
  | .sessionRecvfrom sh _ => some sh
  | .sessionAttr sh _ => some sh
  | .epollCtl _ _ sh _ => some sh
  | _ => none

def resumed (home t : Thread) : Ev → Thread
  | ⟨.spawnBlocking,.ok pool⟩ => pool
  | ⟨.joinBlocking,_⟩ => home
  | _ => t

structure Terms (H : Type) where
  key : Thread → Handle → H
  home : Thread
  lent : Handle → Prop
  disputes : Bool
  rely : Ev → Prop

namespace Terms

variable {H : Type} (T : Terms H)

def ledger : Ledger Call Reply Thread H where
  rely := T.rely
  move := resumed T.home
  gain t e := (obtained e + if T.disputes then refused e else 0).map (T.key t)
  loss t e := (released e).map (T.key t)
  uses t e h := ∃ sh, subject e.op = some sh ∧ h = T.key t sh
  lent t h := t = T.home ∧ ∃ sh, T.lent sh ∧ h = T.key t sh

def Permits (s : Holding Thread H) (c : Call) : Prop :=
  match c with
  | .sessionCreate _ _ => False
  | .sessionAccept _ => False
  | .sessionClose _ => False
  | .epollCreate => False
  | .spawnBlocking => False
  | .joinBlocking => False
  | .sessionAttr sh op => (op = .getLclAddr → T.disputes = false) ∧ T.ledger.May s (T.key s.site sh)
  | c => ∀ sh, subject c = some sh → T.ledger.May s (T.key s.site sh)

variable {T} {s : Holding Thread H} {α : Type}

theorem permits_subject {c : Call} {sh : Handle} (h : T.Permits s c) (hc : subject c = some sh) :
    T.ledger.May s (T.key s.site sh) := by
  cases c
  case sessionAttr sh' op =>
    cases hc
    exact h.2
  all_goals first
    | exact False.elim h
    | exact h sh hc

theorem permits_neutral {e : Ev} (h : T.Permits s e.op) :
    obtained e = 0 ∧ released e = 0 ∧ (if T.disputes then refused e else 0) = 0 ∧
      resumed T.home s.site e = s.site := by
  obtain ⟨op,reply⟩ := e
  cases op
  case sessionAttr sh op =>
    refine ⟨rfl,rfl,?_,rfl⟩
    cases op
    case getLclAddr => simp [h.1 rfl]
    all_goals exact ite_self _
  all_goals first
    | exact h.elim
    | exact ⟨rfl,rfl,ite_self _,rfl⟩

section Classes

variable {c : Call} {vep sh : Handle}

theorem none_permitted {p : Handle → Prop} (sh : Handle) (h : none = some sh) : p sh := by cases h

theorem some_permitted {p : Handle → Prop} (hp : p sh) (sh' : Handle) (h : some sh = some sh') : p sh' := by
  cases h
  exact hp

theorem registers_permits (h : Registers c) : T.Permits s c := by
  cases h <;> exact none_permitted

theorem draws_permits (h : Draws c) : T.Permits s c := by
  cases h
  exact none_permitted

theorem drains_permits (h : Drains vep c) : T.Permits s c := by
  cases h <;> exact none_permitted

theorem waits_permits (h : Waits vep sh c) : T.Permits s c := by
  cases h <;> exact none_permitted

theorem configures_permits (hs : T.ledger.May s (T.key s.site sh)) (h : Configures sh c) :
    T.Permits s c := by
  cases h with
  | attr op hop => exact ⟨fun h => absurd h hop,hs⟩
  | bind ep => exact some_permitted hs
  | listen n => exact some_permitted hs
  | connect ep => exact some_permitted hs
  | shutdown how => exact some_permitted hs

theorem transfers_permits (hs : T.ledger.May s (T.key s.site sh)) (h : Transfers sh c) :
    T.Permits s c := by
  cases h <;> exact some_permitted hs

theorem queries_permits (hs : T.ledger.May s (T.key s.site sh)) (hd : T.disputes = false)
    (h : Queries sh c) : T.Permits s c := by
  cases h
  exact ⟨fun _ => hd,hs⟩

theorem serves_permits (hs : T.ledger.May s (T.key s.site sh)) (hd : T.disputes = false)
    (h : Serves vep sh c) : T.Permits s c := by
  cases h with
  | configures h => exact configures_permits hs h
  | transfers h => exact transfers_permits hs h
  | queries h => exact queries_permits hs hd h
  | waits h => exact waits_permits h

end Classes

section Holdings

variable {t : Thread} {K : Multiset H} {sh : Handle}

theorem may_head (k : H) : T.ledger.May ⟨t,k ::ₘ K⟩ k := .inl (Multiset.mem_cons_self k K)

theorem may_cons {k k' : H} (h : T.ledger.May ⟨t,K⟩ k) : T.ledger.May ⟨t,k' ::ₘ K⟩ k := by
  rcases h with h | h
  · exact .inl (Multiset.mem_cons_of_mem h)
  · exact .inr h

end Holdings

section Rules

variable [DecidableEq H] {Q : α → Holding Thread H → Prop} {E : Stop → Holding Thread H → Prop}
variable {t : Thread} {K : Multiset H} {sh : Handle}

def custody (T : Terms H) : Contract Call Reply (Holding Thread H) :=
  T.ledger.contract

theorem custody_guar {e : Ev} (hr : (released e).map (T.key s.site) ≤ s.owed)
    (hs : ∀ sh, subject e.op = some sh → T.ledger.May s (T.key s.site sh)) :
    T.custody.guar s e := by
  refine ⟨hr,?_⟩
  rintro k ⟨sh,hsub,rfl⟩
  exact hs sh hsub

theorem custody_next (e : Ev) : T.custody.next s e =
    ⟨resumed T.home s.site e,s.owed - (released e).map (T.key s.site)
      + (obtained e + if T.disputes then refused e else 0).map (T.key s.site)⟩ := rfl

theorem permits_step {e : Ev} (h : T.Permits s e.op) :
    T.custody.guar s e ∧ T.custody.next s e = s := by
  obtain ⟨ho,hr,hd,hm⟩ := permits_neutral h
  refine ⟨custody_guar ?_ (fun _ => permits_subject h),?_⟩
  · rw [hr,Multiset.map_zero]
    exact Multiset.zero_le _
  · rw [custody_next,ho,hr,hd,hm,Multiset.map_zero,add_zero,Multiset.map_zero,add_zero,tsub_zero]

theorem permits_wpe {x : Vcl α} (hx : x.Calls (T.Permits s)) (hQ : ∀ a, Q a s)
    (hE : ∀ e, E e s) : T.custody.wpe x Q E s :=
  T.custody.wpe_still (fun _ => permits_step) hx hQ hE

theorem call_wpe {c : Call} {Q : Reply c → Holding Thread H → Prop} (hc : T.Permits s c)
    (hQ : ∀ r, Q r s) : T.custody.wpe (ffi c) Q E s :=
  T.custody.wpe_call_still (fun r => permits_step (e := ⟨c,r⟩) hc) hQ

theorem opens_step {e : Ev} {rc : Int} (ho : obtained e = handleIf rc) (hr : released e = 0)
    (hd : refused e = 0) (hm : resumed T.home t e = t) :
    T.custody.next ⟨t,K⟩ e = ⟨t,if rc < 0 then K else T.key t (handleOf rc) ::ₘ K⟩ := by
  rw [custody_next,hr,hd,ite_self,add_zero,hm,ho,handleIf,Multiset.map_zero,tsub_zero]
  split_ifs with hneg
  · rw [Multiset.map_zero,add_zero]
  · rw [Multiset.map_singleton,add_comm,Multiset.singleton_add]

theorem closes_step (e : Ev) (he : released e = {sh}) (ho : obtained e = 0) (hd : refused e = 0)
    (hm : resumed T.home t e = t) (hs : subject e.op = none) :
    T.custody.guar ⟨t,T.key t sh ::ₘ K⟩ e ∧
      T.custody.next ⟨t,T.key t sh ::ₘ K⟩ e = ⟨t,K⟩ := by
  refine ⟨custody_guar ?_ ?_,?_⟩
  · rw [he,Multiset.map_singleton,Multiset.singleton_le]
    exact Multiset.mem_cons_self _ _
  · intro sh' hsub
    rw [hs] at hsub
    cases hsub
  · rw [custody_next,he,ho,hd,ite_self,add_zero,hm,Multiset.map_zero,add_zero,
      Multiset.map_singleton,Multiset.sub_singleton,Multiset.erase_cons_head]

theorem create_wpe {proto : Proto} {nonblocking : Bool} {Q : Int → Holding Thread H → Prop}
    (hQ : ∀ rc : Int, Q rc ⟨t,if rc < 0 then K else T.key t (handleOf rc) ::ₘ K⟩) :
    T.custody.wpe (vppcomSessionCreate proto nonblocking) Q E ⟨t,K⟩ := by
  intro (rc : Int) _
  refine ⟨custody_guar (Multiset.zero_le _) none_permitted,?_⟩
  have hn : T.custody.next ⟨t,K⟩ ⟨.sessionCreate proto nonblocking,rc⟩ =
      ⟨t,if rc < 0 then K else T.key t (handleOf rc) ::ₘ K⟩ := opens_step rfl rfl rfl rfl
  rw [hn]
  exact hQ rc

theorem epollCreate_wpe {Q : Int → Holding Thread H → Prop}
    (hQ : ∀ rc : Int, Q rc ⟨t,if rc < 0 then K else T.key t (handleOf rc) ::ₘ K⟩) :
    T.custody.wpe vppcomEpollCreate Q E ⟨t,K⟩ := by
  intro (rc : Int) _
  refine ⟨custody_guar (Multiset.zero_le _) none_permitted,?_⟩
  have hn : T.custody.next ⟨t,K⟩ ⟨.epollCreate,rc⟩ =
      ⟨t,if rc < 0 then K else T.key t (handleOf rc) ::ₘ K⟩ := opens_step rfl rfl rfl rfl
  rw [hn]
  exact hQ rc

theorem close_wpe {Q : Int → Holding Thread H → Prop} (hQ : ∀ rc, Q rc ⟨t,K⟩) :
    T.custody.wpe (vppcomSessionClose sh) Q E ⟨t,T.key t sh ::ₘ K⟩ := by
  intro rc _
  obtain ⟨hg,hn⟩ : T.custody.guar ⟨t,T.key t sh ::ₘ K⟩ ⟨.sessionClose sh,rc⟩ ∧
      T.custody.next ⟨t,T.key t sh ::ₘ K⟩ ⟨.sessionClose sh,rc⟩ = ⟨t,K⟩ :=
    closes_step ⟨.sessionClose sh,rc⟩ rfl rfl rfl rfl rfl
  refine ⟨hg,?_⟩
  rw [hn]
  exact hQ rc

theorem dropSession_wpe {Q : Unit → Holding Thread H → Prop} (hQ : Q () ⟨t,K⟩) :
    T.custody.wpe (dropSession sh) Q E ⟨t,T.key t sh ::ₘ K⟩ := by
  rw [dropSession,Contract.wpe_bind]
  exact close_wpe (fun _ => hQ)

theorem owning_wpe {body : Vcl α}
    (h : T.custody.wpe body Q (fun e s => s = ⟨t,T.key t sh ::ₘ K⟩ ∧ E e ⟨t,K⟩) s) :
    T.custody.wpe (owning sh body) Q E s := by
  rw [owning,Contract.wpe_onFail]
  refine T.custody.wpe_mono h (fun _ _ hq => hq) ?_
  rintro e s' ⟨rfl,he⟩
  exact dropSession_wpe he

theorem holding_wpe {body : Vcl α}
    (h : T.custody.wpe body (fun a s => s = ⟨t,T.key t sh ::ₘ K⟩ ∧ Q a ⟨t,K⟩)
      (fun e s => s = ⟨t,T.key t sh ::ₘ K⟩ ∧ E e ⟨t,K⟩) s) :
    T.custody.wpe (holding sh body) Q E s := by
  rw [holding,Contract.wpe_ensuring]
  refine T.custody.wpe_mono h ?_ ?_
  · rintro a s' ⟨rfl,hq⟩
    exact dropSession_wpe hq
  · rintro e s' ⟨rfl,he⟩
    exact dropSession_wpe he

theorem watchSession_wpe {vep : Handle} {events : UInt32} {Q : Unit → Holding Thread H → Prop}
    (hm : T.ledger.May ⟨t,K⟩ (T.key t sh)) (hok : Q () ⟨t,T.key t vep ::ₘ K⟩)
    (herr : ∀ e, E e ⟨t,K⟩) :
    T.custody.wpe (watchSession vep sh events) Q E ⟨t,T.key t vep ::ₘ K⟩ := by
  rw [watchSession,Contract.wpe_bind]
  refine call_wpe ?_ ?_
  · intro sh' hsub
    cases hsub
    exact may_cons hm
  · intro rv
    rw [Contract.wpe_ite]
    split_ifs with hneg
    · rw [Contract.wpe_bind]
      exact close_wpe (fun _ => herr _)
    · exact hok

theorem drainFor_wpe {vep : Handle} {deadline : Instant} {Q : Unit → Holding Thread H → Prop}
    (hQ : Q () s) : T.custody.wpe (drainFor vep deadline) Q E s := by
  refine T.custody.wpe_loop (fun _ s' => s' = s) ?_ rfl
  rintro _ _ rfl
  simp only [Contract.wpe_bind,Contract.wpe_ite,Contract.wpe_pure]
  refine call_wpe none_permitted ?_
  intro now
  split_ifs with hlt
  · exact call_wpe none_permitted (fun _ => rfl)
  · exact hQ

theorem registerWorkerThread_wpe {Q : Unit → Holding Thread H → Prop} (hQ : Q () s)
    (hE : ∀ e, E e s) : T.custody.wpe registerWorkerThread Q E s :=
  permits_wpe (Prog.calls_mono (fun _ => registers_permits) registerWorkerThread_calls)
    (fun _ => hQ) hE

end Rules

section Accounts

variable {home : Thread} {lent : Handle → Prop} {disputes : Bool} {rely : Ev → Prop}
variable {tr : List Ev} {t : Thread} {K : Multiset Handle}

def byNumber (home : Thread) (lent : Handle → Prop) (disputes : Bool) (rely : Ev → Prop) :
    Terms Handle where
  key _ sh := sh
  home := home
  lent := lent
  disputes := disputes
  rely := rely

theorem byNumber_losses : (byNumber home lent disputes rely).ledger.losses t tr = closed tr :=
  Ledger.losses_const _ (fun _ _ => Multiset.map_id' _) t tr

theorem byNumber_gains : (byNumber home lent disputes rely).ledger.gains t tr =
    opened tr + if disputes then (tr.map refused).sum else 0 := by
  rw [Ledger.gains_const _ (g := fun e => obtained e + if disputes then refused e else 0)
    (fun _ _ => Multiset.map_id' _) t tr]
  cases disputes with
  | false => simp [opened]
  | true => simp [opened,List.sum_map_add]

theorem byNumber_balance (h : (byNumber home lent disputes rely).custody.Kept ⟨t,K⟩ tr) :
    ((byNumber home lent disputes rely).custody.after ⟨t,K⟩ tr).owed + closed tr =
      K + (opened tr + if disputes then (tr.map refused).sum else 0) := by
  have hb := Ledger.balance _ h
  rw [byNumber_losses,byNumber_gains] at hb
  exact hb

theorem byNumber_covered {pre : List Ev}
    (h : (byNumber home lent disputes rely).custody.Kept ⟨t,K⟩ tr) (hp : pre <+: tr) :
    closed pre ≤ K + (opened pre + if disputes then (pre.map refused).sum else 0) := by
  have hc := Ledger.covered _ h hp
  rw [byNumber_losses,byNumber_gains] at hc
  exact hc

end Accounts

section Sessions

variable [Platform] [DecidableEq H] {Q : α → Holding Thread H → Prop}
variable {E : Stop → Holding Thread H → Prop} {t : Thread} {K : Multiset H} {sh : Handle}

theorem checkRc_wpe {rc : Int} {Q : Unit → Holding Thread H → Prop} (hok : ¬ rc < 0 → Q () s)
    (herr : rc < 0 → E (.err (fromRc rc)) s) : T.custody.wpe (checkRc rc) Q E s := by
  rw [checkRc,wpe_rejectIf]
  split_ifs with hneg
  · exact herr hneg
  · exact hok hneg

theorem created_wpe {proto : Proto} {nonblocking : Bool} {Q : Handle → Holding Thread H → Prop}
    (hok : ∀ sh, Q sh ⟨t,T.key t sh ::ₘ K⟩) (herr : ∀ e, E e ⟨t,K⟩) :
    T.custody.wpe (created proto nonblocking) Q E ⟨t,K⟩ := by
  rw [created,Contract.wpe_bind]
  refine create_wpe ?_
  intro rc
  rw [Contract.wpe_bind]
  refine checkRc_wpe ?_ ?_ <;> intro hneg
  · rw [if_neg hneg]
    exact hok _
  · rw [if_pos hneg]
    exact herr _

theorem createTcp_wpe {nonblocking : Bool} {Q : Handle → Holding Thread H → Prop}
    (hok : ∀ sh, Q sh ⟨t,T.key t sh ::ₘ K⟩) (herr : ∀ e, E e ⟨t,K⟩) :
    T.custody.wpe (createTcp nonblocking) Q E ⟨t,K⟩ := created_wpe hok herr

theorem createUdp_wpe {nonblocking : Bool} {Q : Handle → Holding Thread H → Prop}
    (hok : ∀ sh, Q sh ⟨t,T.key t sh ::ₘ K⟩) (herr : ∀ e, E e ⟨t,K⟩) :
    T.custody.wpe (createUdp nonblocking) Q E ⟨t,K⟩ := created_wpe hok herr

theorem register_wpe {r : VclReactor} {Q : Unit → Holding Thread H → Prop}
    (hm : T.ledger.May s (T.key s.site sh)) (hok : Q () s) (herr : ∀ e, E e s) :
    T.custody.wpe (r.register sh) Q E s := by
  rw [VclReactor.register,Contract.wpe_bind]
  refine call_wpe ?_ ?_
  · intro sh' hsub
    cases hsub
    exact hm
  · intro rc
    exact checkRc_wpe (fun _ => hok) (fun _ => herr _)

end Sessions

end Terms

end VclRs
