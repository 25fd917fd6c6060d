import VclRs.Interaction.Advance
import VclRs.Parking.Custody
import VclRs.Rehearsal

namespace VclRs

open Interaction Fallible

abbrev Worker := Task Call Reply Job (Thread × Obj)

def enteredBy (past : List Ev) : Option (Handle × Handle) :=
  past.foldl (fun key e => (entry e).elim key (fun x => some x.1)) none

def Parks (t : Worker) (vep sh : Handle) (n : NotifyId) : Prop :=
  (∃ o k, t.rest.Head o k ∧ awaited o = some n) ∧ enteredBy t.past = some (vep,sh)

def Waiting (p : Pool Call Reply Job (Thread × Obj)) (vep sh : Handle) (n : NotifyId) : Prop :=
  (∃ t ∈ p.tasks, Parks t vep sh n) ∨
    ∃ side st, stored side st p.log = some n ∧ (st.reactor.vep,st.handle) = (vep,sh)

structure Noticed (p : Pool Call Reply Job (Thread × Obj)) : Prop where
  registered : ∀ vep sh n, Waiting p vep sh n → waiters (events p.log) (vep,sh) = some n
  notified : ∀ vep sh n, Waiting p vep sh n → Posts (events p.log) n (.notifyEvery vep)
  ticking : ∀ (r : VclReactor) tr res, r.tick.Run tr res →
    ∃ pre, tr = pre ++ [⟨.notifyEvery r.vep,()⟩]

theorem seat_entered {past : List Ev} {s : Seat} (h : past.foldl reseat none = some s) :
    enteredBy past = some (s.vep,s.session) := by
  induction past using List.reverseRecOn with
  | nil => cases h
  | append_singleton past e ih =>
    rw [List.foldl_append] at h
    rw [enteredBy,List.foldl_append]
    change (entry e).elim (enteredBy past) (fun x => some x.1) = _
    have hentry (hw : past.foldl reseat none = some s) (he : entry e = none) :
        (entry e).elim (enteredBy past) (fun x => some x.1) = some (s.vep,s.session) := by
      rw [he]
      exact ih hw
    rcases reseat_cases h with ⟨vep,sh,n,rfl,rfl⟩ | ⟨hw,-,-⟩
    · rfl
    · obtain ⟨op,reply⟩ := e
      cases op <;> first
        | exact hentry hw rfl
        | cases h
      rfl

theorem tick_notifies {r : VclReactor} {tr : List Ev} {res : Except Stop Unit}
    (h : r.tick.Run tr res) : ∃ pre, tr = pre ++ [⟨.notifyEvery r.vep,()⟩] := by
  have hdrain : (Contract.tracing Call Reply).wpe r.drainEvents (fun _ _ => True)
      (fun _ _ => False) [] := by
    exact drainEvents_keeps (I := fun _ => True) (fun _ _ _ _ _ => ⟨trivial,trivial⟩) trivial
  have htick : (Contract.tracing Call Reply).wpe r.tick
      (fun _ tr => ∃ pre, tr = pre ++ [⟨.notifyEvery r.vep,()⟩])
      (fun _ tr => ∃ pre, tr = pre ++ [⟨.notifyEvery r.vep,()⟩]) [] := by
    rw [VclReactor.tick,Contract.wpe_bind]
    refine Contract.wpe_mono _ hdrain ?_ (fun _ _ h => h.elim)
    intro _ pre _ _ _
    exact ⟨trivial,pre,rfl⟩
  exact Contract.tracing_run (Q := fun _ tr => ∃ pre, tr = pre ++ [⟨.notifyEvery r.vep,()⟩]) htick h

section Parked

variable [Platform] {p : Pool Call Reply Job (Thread × Obj)} {t : Worker}

theorem parks_seat {vep sh : Handle} {n : NotifyId} (h : station.Reach 0 p) (ht : t ∈ p.tasks)
    (hp : Parks t vep sh n) : (manned.ghost t).2 = some ⟨vep,sh,n⟩ := by
  obtain ⟨⟨o,k,hhead,ho⟩,hentered⟩ := hp
  have hseat : ∃ s, (manned.ghost t).2 = some s ∧ s.notify = n := by
    have hsound := manned.sound_reach h t ht
    have hguar (r : Reply o) : seating.guar (manned.ghost t).2 ⟨o,r⟩ :=
      (Contract.wp_step _ hsound (Prog.head_step hhead r) ⟨trivial,trivial⟩).1.2
    cases o with
    | select v m d =>
      cases ho
      obtain ⟨x,hx⟩ := hguar ((0 : ℕ),.dropped)
      exact ⟨_,hx,rfl⟩
    | recheck m =>
      cases ho
      obtain ⟨v,x,hx⟩ := hguar ((0 : ℕ),.dropped)
      exact ⟨_,hx,rfl⟩
    | _ => cases ho
  obtain ⟨s,hs,rfl⟩ := hseat
  have hpast : t.past.foldl reseat none = some s := by
    rw [← manned_seat t.kind t.past]
    exact hs
  have hkey := (seat_entered hpast).symm.trans hentered
  obtain ⟨hvep,hsh⟩ := Prod.mk.inj (Option.some.inj hkey)
  rw [hs,← hvep,← hsh]

theorem waiting_registered {vep sh : Handle} {n : NotifyId} (h : station.Reach 0 p)
    (ho : Orderly p.log) (hw : Waiting p vep sh n) :
    waiters (events p.log) (vep,sh) = some n := by
  have hp := enrolled_reach h ho
  rcases hw with ⟨t,ht,hpark⟩ | ⟨side,st,hn,hkey⟩
  · exact hp.seats t ht _ (parks_seat h ht hpark)
  · rw [← hkey]
    exact hp.slots side st n hn

theorem parked_noticed (p : Pool Call Reply Job (Thread × Obj)) (h : station.Reach 0 p)
    (ho : Orderly p.log) : Noticed p := by
  constructor
  · intro vep sh n hw
    exact waiting_registered h ho hw
  · intro vep sh n hw
    exact ⟨sh,waiting_registered h ho hw⟩
  · intro r tr res hrun
    exact tick_notifies hrun

end Parked

theorem waiting_exposed {tasks : Multiset Worker} {objs : Multiset (Thread × Obj)} {log : List Entry}
    {k : Job} {past : List Ev} {q : Prog Call Reply (Multiset (Thread × Obj))} {vep sh : Handle}
    {n : NotifyId} (fuel : ℕ)
    (hx : (q.expose fuel).any (fun x => decide (awaited x.1 = some n)) = true)
    (he : enteredBy past = some (vep,sh)) :
    Waiting ⟨⟨k,past,q⟩ ::ₘ tasks,objs,log⟩ vep sh n := by
  obtain ⟨⟨o,k'⟩,hexpose,ho⟩ := (Option.any_eq_true _ _).mp hx
  have hpark : Parks ⟨k,past,q⟩ vep sh n :=
    ⟨⟨o,k',Prog.expose_head hexpose,of_decide_eq_true ho⟩,he⟩
  exact .inl ⟨_,Multiset.mem_cons_self _ _,hpark⟩

theorem orphaned {p : Pool Call Reply Job (Thread × Obj)} {vep sh : Handle} {n : NotifyId}
    (hw : Waiting p vep sh n) (hnone : waiters (events p.log) (vep,sh) = none) :
    Waiting p vep sh n ∧ waiters (events p.log) (vep,sh) = none ∧ ¬ Noticed p := by
  refine ⟨hw,hnone,?_⟩
  intro ha
  cases hnone.symm.trans (ha.registered vep sh n hw)

def opening (vep : Int) (_ : ℕ) (c : Call) : Reply c :=
  match c with
  | .epollCreate => vep
  | c => obliging c

def opensAt (home : Thread) : Job := ⟨.reactorNew,home⟩
def binds : Job := ⟨.listenerBind (.new .unspecifiedV4 53) ⟨7⟩,0⟩
def dials : Job := ⟨.streamConnectAsync (.new .unspecifiedV4 53) none ⟨9⟩ 5,1⟩

def outset : List Entry :=
  stamps (opensAt 0) [] ((opensAt 0).performed (opening 7)) ++
    stamps (opensAt 1) [] ((opensAt 1).performed (opening 9))

instance instDecidableStation (log : List Entry) (k : Job) (e : Ev) :
    Decidable ((@station host).admits log k e) :=
  inferInstanceAs (Decidable (Vacant (events log) e ∧ Entered (events log) e))

theorem outset_reached :
    (@station host).Reach 0 ⟨0,{(1,.reactor ⟨9⟩),(0,.reactor ⟨7⟩)},outset⟩ := by
  have h₀ : (@station host).Reach 0 ⟨0,0,[]⟩ := .refl
  have h₁ := world_call h₀ (opensAt 0) {.reactor ⟨7⟩} 0 (opening 7) trivial rfl
    (by decide) (by decide +kernel) (by decide +kernel)
  exact world_call h₁ (opensAt 1) {.reactor ⟨9⟩} {(0,.reactor ⟨7⟩)} (opening 9) trivial rfl
    (by decide) (by decide +kernel) (by decide +kernel)

theorem parked_noticed_dialling : ∃ p, (@station host).Reach 0 p ∧ Orderly p.log ∧
    Waiting p 9 1 0 ∧ Noticed p := by
  have h₁ := world_call outset_reached binds 0 {(1,.reactor ⟨9⟩)} refusing trivial (by decide +kernel)
    (by decide) (by decide +kernel) (by decide +kernel)
  have h₂ := world_start h₁ dials 0 trivial rfl (by decide) (by simp)
  have h₃ := System.reach_advance (S := @station host) (fun _ => obliging) 20 7 0 (by decide +kernel)
    h₂
  exact ⟨_,h₃,by decide +kernel,waiting_exposed 20 (by decide +kernel) (by decide +kernel),
    @parked_noticed host _ h₃ (by decide +kernel)⟩

theorem refused_bind_orphans_wait : ∃ p, (@station host).Reach 0 p ∧ Waiting p 9 1 0 ∧
    waiters (events p.log) (9,1) = none ∧ ¬ Noticed p := by
  have h₁ := world_call outset_reached ⟨.reactorClone ⟨9⟩,1⟩ {.reactor ⟨9⟩}
    {(1,.reactor ⟨9⟩),(0,.reactor ⟨7⟩)} (fun _ => obliging) trivial rfl (by decide)
    (by decide +kernel) (by decide +kernel)
  have h₂ := world_start h₁ binds {(1,.reactor ⟨9⟩),(1,.reactor ⟨9⟩)} trivial (by decide +kernel)
    (by decide) (by simp)
  have h₃ := System.reach_advance (S := @station host) refusing 20 11 0 (by decide +kernel) h₂
  have h₄ := world_start h₃ dials {(1,.reactor ⟨9⟩)} trivial rfl (by decide)
    (by simp [binds,Api.lends])
  have h₅ := System.reach_advance (S := @station host) (fun _ => obliging) 20 7 0 (by decide +kernel)
    h₄
  rw [Multiset.cons_swap] at h₅
  have h₆ := System.reach_finish (S := @station host) (fun n c => (refusing n c,n + 1)) 20 11 0
    (by decide +kernel) (by decide +kernel) h₅
  have h₇ := world_start h₆ dials 0 trivial rfl (by decide) (by simp [dials,Api.lends])
  have h₈ := System.reach_finish (S := @station host) (fun n c => (obliging c,n + 1)) 20 0
    {(1,.stream ⟨1,⟨9⟩⟩)} (by decide +kernel) (by decide +kernel) h₇
  have h₉ := world_start h₈ ⟨.streamDrop ⟨1,⟨9⟩⟩,1⟩ 0 trivial rfl (by decide)
    (by simp [dials,Api.lends])
  have h := System.reach_finish (S := @station host) (fun n c => (obliging c,n + 1)) 20 0 0
    (by decide +kernel) (by decide +kernel) h₉
  exact ⟨_,h,orphaned (waiting_exposed 20 (by decide +kernel) (by decide +kernel))
    (by decide +kernel)⟩

end VclRs
