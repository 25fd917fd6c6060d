import VclRs.Interaction.Notify
import VclRs.Interaction.Runs
import VclRs.Interaction.Total
import VclRs.Footprint
import VclRs.Schedule
import Mathlib.Algebra.Group.PUnit

namespace VclRs

open Interaction Fallible

abbrev Bells := NotifyId → Notify ℕ Unit

structure Arrival where
  mask : UInt32
  session : Handle
deriving DecidableEq, Repr

def Arrival.event (p : Arrival) : EpollEvent := ⟨p.mask,p.session.toUInt64⟩

structure Board where
  pending : List Arrival
  bells : Bells
  rung : List NotifyId

def post (W : Handle → Option NotifyId) (N : Bells) (sh : Handle) : Bells :=
  match W sh with
  | some n => Function.update N n ((N n).notifyOne ())
  | none => N

def postAll (W : Handle → Option NotifyId) (pending : List Arrival) (N : Bells) : Bells :=
  (pending.map Arrival.session).foldl (post W) N

def epoll (vep : Handle) (W : Handle → Option NotifyId) : Contract Call Reply Board where
  rely s
    | ⟨.epollWait v m ms,(n,events)⟩ => v = vep → ms = 0 →
      n = min m s.pending.length ∧ events = (s.pending.take m).map Arrival.event
    | _ => True
  guar _
    | ⟨.epollWait _ m _,(n,events)⟩ => m = 64 ∧ n ≤ 64 ∧ n.toNat ≤ events.length
    | _ => True
  next s
    | ⟨.epollWait v m _,_⟩ => if v = vep then { s with pending := s.pending.drop m } else s
    | ⟨.notifyOne v sh,_⟩ =>
      if v = vep then { s with bells := post W s.bells sh, rung := s.rung ++ (W sh).toList } else s
    | _ => s

def rings (W : Handle → Option NotifyId) (pending : List Arrival) : List NotifyId :=
  pending.filterMap (fun p => W p.session)

section Posting

variable {W : Handle → Option NotifyId} {N : Bells} {n : NotifyId}

theorem post_apply (sh : Handle) :
    post W N sh n = if W sh = some n then (N n).notifyOne () else N n := by
  rw [post]
  cases hw : W sh with
  | none => simp
  | some m =>
    by_cases hm : n = m
    · subst hm
      simp
    · have hne : ¬ some m = some n := fun h => hm (Option.some.inj h).symm
      rw [if_neg hne]
      exact Function.update_of_ne hm _ _

theorem postAll_append (xs ys : List Arrival) :
    postAll W (xs ++ ys) N = postAll W ys (postAll W xs N) := by
  simp [postAll]

theorem rings_append (xs ys : List Arrival) : rings W (xs ++ ys) = rings W xs ++ rings W ys := by
  simp [rings]

theorem mem_rings {xs : List Arrival} : n ∈ rings W xs ↔ ∃ p ∈ xs, W p.session = some n := by
  simp [rings]

theorem postAll_apply (xs : List Arrival) :
    postAll W xs N n = (Notify.notifyOne · ())^[(rings W xs).count n] (N n) := by
  induction xs generalizing N with
  | nil => rfl
  | cons p xs ih =>
    have hstep : postAll W (p :: xs) N = postAll W xs (post W N p.session) := rfl
    rw [hstep,ih,post_apply]
    cases hw : W p.session with
    | none => simp [rings,hw]
    | some m =>
      by_cases hm : m = n
      · subst hm
        simp [rings,hw]
      · simp [rings,hw,hm]

end Posting

section Draining

variable {r : VclReactor} {W : Handle → Option NotifyId} {E : Stop → Board → Prop} {s : Board}

theorem event_session (p : Arrival) : p.event.data.toUInt32 = p.session := by
  simp [Arrival.event]

theorem notifyEach_posts (xs : List Arrival) {Q : Unit → Board → Prop}
    (hQ : Q () ⟨s.pending,postAll W xs s.bells,s.rung ++ rings W xs⟩) :
    (epoll r.vep W).wpe (r.notifyEach (xs.map Arrival.event)) Q E s := by
  induction xs generalizing s with
  | nil =>
    rw [rings,List.filterMap_nil,List.append_nil] at hQ
    exact hQ
  | cons p xs ih =>
    rw [List.map_cons,VclReactor.notifyEach,Contract.wpe_bind]
    intro _ _
    refine ⟨trivial,?_⟩
    have hnext : (epoll r.vep W).next s ⟨.notifyOne r.vep p.event.data.toUInt32,()⟩ =
        ⟨s.pending,post W s.bells p.session,s.rung ++ (W p.session).toList⟩ := by
      rw [event_session]
      exact if_pos rfl
    change (epoll r.vep W).wpe (r.notifyEach (xs.map Arrival.event)) Q E
      ((epoll r.vep W).next s ⟨.notifyOne r.vep p.event.data.toUInt32,()⟩)
    rw [hnext]
    apply ih
    have hrings : rings W (p :: xs) = (W p.session).toList ++ rings W xs := by
      cases hw : W p.session <;> simp [rings,hw]
    rw [hrings,← List.append_assoc] at hQ
    exact hQ

def batch (r : VclReactor) : Vcl (Unit ⊕ Unit) := do
  let (n,events) ← vppcomEpollWait r.vep 64 0
  if n ≤ 0 then pure (.inr ())
  else do
    r.notifyEach (events.take n.toNat)
    if n.toNat < 64 then pure (.inr ()) else pure (.inl ())

theorem drainEvents_batches (r : VclReactor) :
    r.drainEvents = Fallible.loop (fun _ => batch r) () := rfl

def Midway (W : Handle → Option NotifyId) (start s : Board) : Prop :=
  ∃ drained, start.pending = drained ++ s.pending ∧ s.bells = postAll W drained start.bells ∧
    s.rung = start.rung ++ rings W drained

theorem midway_start (W : Handle → Option NotifyId) (start : Board) : Midway W start start :=
  ⟨[],rfl,rfl,(List.append_nil _).symm⟩

def emptied (W : Handle → Option NotifyId) (start : Board) : Board :=
  ⟨[],postAll W start.pending start.bells,start.rung ++ rings W start.pending⟩

theorem midway_end {start : Board} (h : Midway W start s) (hnone : s.pending = []) :
    s = emptied W start := by
  obtain ⟨drained,hp,hb,hr⟩ := h
  rw [hnone,List.append_nil] at hp
  rw [emptied,hp,← hb,← hr,← hnone]

theorem midway_batch {start : Board} (h : Midway W start s) (k : ℕ) :
    Midway W start ⟨s.pending.drop k,postAll W (s.pending.take k) s.bells,
      s.rung ++ rings W (s.pending.take k)⟩ := by
  obtain ⟨drained,hp,hb,hr⟩ := h
  refine ⟨drained ++ s.pending.take k,?_,?_,?_⟩
  · rw [List.append_assoc,List.take_append_drop]
    exact hp
  · rw [postAll_append,hb]
  · rw [rings_append,← List.append_assoc,hr]

theorem batch_drains {start : Board} (hs : Midway W start s) :
    (epoll r.vep W).wpe (batch r) (fun x s' => x.elim
      (fun _ => Midway W start s' ∧ s'.pending.length < s.pending.length)
      (fun _ => s' = emptied W start)) E s := by
  have hnext (x : Int × List EpollEvent) : (epoll r.vep W).next s ⟨.epollWait r.vep 64 0,x⟩ =
      ⟨s.pending.drop 64,s.bells,s.rung⟩ := if_pos rfl
  rw [batch,Contract.wpe_bind,Contract.wpe_call]
  rintro ⟨n,events⟩ hrely
  obtain ⟨hn,rfl⟩ := hrely rfl rfl
  have hcount : n.toNat = (s.pending.take 64).length := by
    rw [List.length_take,hn]
    exact Int.toNat_natCast _
  have htake : ((s.pending.take 64).map Arrival.event).take n.toNat =
      (s.pending.take 64).map Arrival.event := by
    rw [hcount,← List.length_map Arrival.event]
    exact List.take_length
  refine ⟨⟨rfl,by omega,by rw [List.length_map,hcount]⟩,?_⟩
  rw [hnext]
  dsimp only
  have hbatch := midway_batch hs 64
  rw [List.length_take] at hcount
  split_ifs with hzero hlast
  · have hnone : s.pending = [] := List.eq_nil_of_length_eq_zero (by omega)
    have hend := midway_end hbatch (by rw [hnone]; rfl)
    rw [hnone,rings,List.take_nil,List.filterMap_nil,List.append_nil] at hend
    change (⟨s.pending.drop 64,s.bells,s.rung⟩ : Board) = emptied W start
    rw [hnone]
    exact hend
  · rw [Contract.wpe_bind,htake]
    apply notifyEach_posts
    exact midway_end hbatch (List.drop_eq_nil_of_le (by omega))
  · rw [Contract.wpe_bind,htake]
    apply notifyEach_posts
    refine ⟨hbatch,?_⟩
    rw [List.length_drop]
    omega

theorem notifyEach_straight (r : VclReactor) (es : List EpollEvent) : (r.notifyEach es).Straight := by
  induction es with
  | nil => exact straight_pure _
  | cons e es ih => exact straight_bind (straight_call _) (fun _ => ih)

theorem batch_straight (r : VclReactor) : (batch r).Straight := by
  apply straight_bind (straight_call _)
  rintro ⟨n,events⟩
  apply straight_ite (straight_pure _)
  apply straight_bind (notifyEach_straight r _)
  intro _
  exact straight_ite (straight_pure _) (straight_pure _)

theorem drainEvents_empties (start : Board) :
    (epoll r.vep W).sure r.drainEvents (fun _ s => s = emptied W start) (fun _ _ => False) start := by
  rw [drainEvents_batches]
  refine (epoll r.vep W).sure_loop (fun _ => Midway W start) (fun _ s => s.pending.length) ?_
    (midway_start W start)
  intro _ s hs
  exact (epoll r.vep W).sure_straight (batch_straight r) (batch_drains hs)

theorem epoll_live (s : Board) (c : Call) (_ : True) :
    ∃ y, (epoll r.vep W).rely s ⟨c,y⟩ ∧ True := by
  cases c
  case epollWait v m ms => exact ⟨(_,_),fun _ _ => ⟨rfl,rfl⟩,trivial⟩
  all_goals exact ⟨obliging _,trivial,trivial⟩

structure Effect (r : VclReactor) (W : Handle → Option NotifyId) (start : Board) (tr : List Ev)
    (final : Board) : Prop where
  buffered : (epoll r.vep W).Kept start tr
  consumed : final.pending = []
  rung : final.rung = start.rung ++ rings W start.pending
  bells : ∀ n, final.bells n = (Notify.notifyOne · ())^[(rings W start.pending).count n] (start.bells n)
  collects : ∀ e ∈ tr, Collects r.vep e.op

structure DrainExact [Platform] (r : VclReactor) (W : Handle → Option NotifyId) (start : Board) :
    Prop where
  terminates : ∃ tr, r.drainEvents.Run tr (.ok ()) ∧ (epoll r.vep W).Relied start tr
  effect : ∀ tr res, r.drainEvents.Run tr res → (epoll r.vep W).Relied start tr →
    res = .ok () ∧ Effect r W start tr ((epoll r.vep W).after start tr)
  posted : ∀ n, n ∈ rings W start.pending ↔ ∃ p ∈ start.pending, W p.session = some n
  own : ∀ sh n, W sh = some n → (∀ sh', W sh' = some n → sh' = sh) →
    (n ∈ rings W start.pending ↔ ∃ p ∈ start.pending, p.session = sh)
  stored : ∀ sh tr res, (r.register sh).Run tr res → ∃ rc : Int, tr =
    [⟨.epollCtl r.vep .add sh
      (some (Arrival.event ⟨epollin ||| epollout ||| epollet,sh⟩)),rc⟩]

end Draining

section Exactness

variable [Platform]

theorem register_stored {r : VclReactor} {sh : Handle} {tr : List Ev} {res : Except Stop Unit}
    (h : (r.register sh).Run tr res) : ∃ rc : Int, tr = [⟨.epollCtl r.vep .add sh
      (some (Arrival.event ⟨epollin ||| epollout ||| epollet,sh⟩)),rc⟩] := by
  obtain ⟨rc,tr',rfl,hrest⟩ := run_call_bind h
  have hnil : tr' = [] := by
    rw [checkRc,rejectIf] at hrest
    split_ifs at hrest <;> cases hrest <;> rfl
  rw [hnil]
  exact ⟨rc,rfl⟩

theorem drain_exact (r : VclReactor) (W : Handle → Option NotifyId) (start : Board) :
    DrainExact r W start := by
  have hown (sh : Handle) (n : NotifyId) (hw : W sh = some n) (h : ∀ sh', W sh' = some n → sh' = sh) :
      n ∈ rings W start.pending ↔ ∃ p ∈ start.pending, p.session = sh := by
    rw [mem_rings]
    constructor
    · rintro ⟨p,hp,hn⟩
      exact ⟨p,hp,h p.session hn⟩
    · rintro ⟨p,hp,rfl⟩
      exact ⟨p,hp,hw⟩
  have heffect (tr : List Ev) (res : Except Stop Unit) (hrun : r.drainEvents.Run tr res)
      (hrel : (epoll r.vep W).Relied start tr) :
      res = .ok () ∧ Effect r W start tr ((epoll r.vep W).after start tr) := by
    cases res with
    | error e => exact ((epoll r.vep W).wpe_error (drainEvents_empties start).1 hrun hrel).2.elim
    | ok _ =>
      obtain ⟨hk,hend⟩ := (epoll r.vep W).wpe_ok (drainEvents_empties start).1 hrun hrel
      rw [hend]
      have hcalls : r.drainEvents.Calls (Collects r.vep) := drainEvents_calls .drain .notify
      exact ⟨rfl,hk,rfl,rfl,fun n => postAll_apply start.pending,Prog.calls_run hcalls hrun⟩
  have hterm : ∃ tr, r.drainEvents.Run tr (.ok ()) ∧ (epoll r.vep W).Relied start tr := by
    obtain ⟨tr,res,hrun,hrel⟩ := (epoll r.vep W).sure_run (fun _ => True) epoll_live trivial
      (drainEvents_empties start)
    obtain ⟨rfl,-⟩ := heffect tr res hrun hrel
    exact ⟨tr,hrun,hrel⟩
  exact ⟨hterm,heffect,fun n => mem_rings,hown,fun _ _ _ h => register_stored h⟩

end Exactness

end VclRs
