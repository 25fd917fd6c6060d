import VclRs.Lifecycle.Process
import VclRs.Footprint

namespace VclRs

open Interaction

inductive Rank where
  | outside
  | holding
  | assured
  | refused
deriving DecidableEq, Repr

namespace Rank

def Allows (s : Rank) : Ev → Prop
  | ⟨.registerLock,_⟩ => s = .outside
  | ⟨.workerIndex,_⟩ => s = .holding
  | ⟨.registeredSet,_⟩ => s = .assured
  | ⟨.workerUnregister,_⟩ => s = .refused
  | ⟨.registerUnlock,_⟩ => s = .assured ∨ s = .refused
  | _ => True

def next (s : Rank) : Ev → Rank
  | ⟨.registerLock,_⟩ => .holding
  | ⟨.workerIndex,idx⟩ => if idx < 0 then .refused else .assured
  | ⟨.registerUnlock,_⟩ => .outside
  | _ => s

def seat : Rank → ℕ
  | .outside => 0
  | _ => 1

end Rank

def enlisting : Contract Call Reply Rank where
  rely _ _ := True
  guar := Rank.Allows
  next := Rank.next

def locking : Ev → Bool
  | ⟨.registerLock,_⟩ => true
  | _ => false

def unlocking : Ev → Bool
  | ⟨.registerUnlock,_⟩ => true
  | _ => false

inductive Civil : Call → Prop
  | swap (v : Bool) : Civil (.initializedSwap v)
  | store (v : Bool) : Civil (.initializedStore v)
  | create (name : List UInt8) : Civil (.appCreate name)
  | created : Civil .appCreated
  | destroy : Civil .appDestroy
  | destroyed : Civil .appDestroyed

inductive Enrols (home : Thread) (P : Process) : Rank → Ev → Rank → Process → Prop
  | lock (h : P.locked = false) :
    Enrols home P .outside ⟨.registerLock,()⟩ .holding { P with locked := true }
  | assure (idx : Int) (h : ¬idx < 0) (hl : P.live = true) :
    Enrols home P .holding ⟨.workerIndex,idx⟩ .assured { P with workers := insert home P.workers }
  | refuse (idx : Int) (h : idx < 0) (hw : home ∉ P.workers) :
    Enrols home P .holding ⟨.workerIndex,idx⟩ .refused P
  | enrol : Enrols home P .assured ⟨.registeredSet,()⟩ .assured
      { P with registered := insert home P.registered }
  | unregister : Enrols home P .refused ⟨.workerUnregister,()⟩ .refused
      { P with workers := P.workers.erase home }
  | unlock {s : Rank} (h : s = .assured ∨ s = .refused) :
    Enrols home P s ⟨.registerUnlock,()⟩ .outside { P with locked := false }
  | found (s : Rank) (rc : Int) : Enrols home P s ⟨.appCreated,rc⟩ s
      { P with live := true, workers := insert home P.workers }
  | destroy (s : Rank) : Enrols home P s ⟨.appDestroy,()⟩ s { P with live := false, workers := ∅ }
  | aside (s : Rank) (e : Ev) (hl : locking e = false) (hu : unlocking e = false) (b : Bool) :
    Enrols home P s e s { P with initialized := b }

theorem Rank.enrols {home : Thread} {P : Process} {s : Rank} {e : Ev} (h : s.Allows e)
    (hp : P.Permits home e) : Enrols home P s e (s.next e) (P.next home e) := by
  obtain ⟨op,reply⟩ := e
  cases op
  case initializedSwap v => exact .aside s _ rfl rfl v
  case initializedStore v => exact .aside s _ rfl rfl v
  case appCreated =>
    by_cases hrc : (reply : Int) < 0
    · simp only [Process.next,if_pos hrc]
      exact .aside s _ rfl rfl P.initialized
    · simp only [Process.next,if_neg hrc]
      exact .found s reply
  case appDestroy => exact .destroy s
  case workerIndex =>
    cases h
    by_cases hidx : (reply : Int) < 0
    · simp only [Rank.next,Process.next,if_pos hidx]
      exact .refuse reply hidx (fun hw => hp.1 hw hidx)
    · simp only [Rank.next,Process.next,if_neg hidx]
      exact .assure reply hidx (hp.2 hidx)
  case workerUnregister =>
    cases h
    exact .unregister
  case registeredSet =>
    cases h
    exact .enrol
  case registerLock =>
    cases h
    exact .lock hp
  case registerUnlock => exact .unlock h
  all_goals exact .aside s _ rfl rfl P.initialized

theorem Rank.seat_moves {s : Rank} {e : Ev} (h : s.Allows e) :
    (s.next e).seat + (unlocking e).toNat = s.seat + (locking e).toNat := by
  obtain ⟨op,reply⟩ := e
  cases op <;> try rfl
  case workerIndex =>
    cases h
    by_cases hidx : (reply : Int) < 0 <;> simp [Rank.next,hidx,Rank.seat,locking,unlocking]
  case registerLock =>
    cases h
    rfl
  case registerUnlock => rcases h with rfl | rfl <;> rfl

theorem sum_none (os : Multiset VclApp) : (os.map (fun _ => 0)).sum = 0 := by
  simp

def rankOf (t : AppTask) : Rank := enlisting.after .outside t.past

def seated (p : AppPool) : ℕ := (p.tasks.map (fun t => (rankOf t).seat)).sum

theorem seated_cons (t : AppTask) (tasks : Multiset AppTask) (objs : Multiset VclApp)
    (log : List AppEntry) :
    seated ⟨t ::ₘ tasks,objs,log⟩ = (rankOf t).seat + seated ⟨tasks,objs,log⟩ := by
  simp only [seated,Multiset.map_cons,Multiset.sum_cons]

def locks (log : List AppEntry) : ℕ := (log.map (fun x => (locking x.event).toNat)).sum
def unlocks (log : List AppEntry) : ℕ := (log.map (fun x => (unlocking x.event).toNat)).sum

theorem civil_enlisting {x : Vcl (Multiset VclApp)} (h : x.Calls Civil) :
    enlisting.wpe x (fun _ s => s = .outside) (fun _ s => s = .outside) .outside := by
  refine enlisting.wpe_of_calls ?_ h rfl
  rintro s ⟨op,reply⟩ rfl hop -
  cases hop <;> exact ⟨trivial,rfl⟩

def Retains (P : Process) (e : Ev) : Prop :=
  destruction e = true → P.registered = ∅ ∧ P.locked = false

structure Enlisted (P : Process) : Prop where
  enrolled : P.registered ⊆ P.workers
  live : P.workers.Nonempty → P.live = true

def Rank.Tied (home : Thread) (P : Process) : Rank → Prop
  | .assured => home ∈ P.workers
  | .refused => home ∉ P.registered
  | _ => True

section Steps

variable {home : Thread} {P P' : Process} {s s' : Rank} {e : Ev}

theorem enrols_locked (h : Enrols home P s e s' P') (hs : s.seat ≤ P.locked.toNat) :
    (locking e).toNat + P.locked.toNat = (unlocking e).toNat + P'.locked.toNat := by
  cases h with
  | lock h =>
    rw [h]
    rfl
  | unlock h =>
    have hheld : P.locked.toNat = 1 := by
      have hb := Bool.toNat_le P.locked
      rcases h with rfl | rfl
      · exact Nat.le_antisymm hb hs
      · exact Nat.le_antisymm hb hs
    rw [hheld]
    rfl
  | aside s e hl hu b => rw [hl,hu]
  | assure | refuse | enrol | unregister | found | destroy => rfl

theorem enrols_keeps (h : Enrols home P s e s' P') (hr : Retains P e) (hs : s.seat ≤ P.locked.toNat)
    (hP : Enlisted P) (ht : s.Tied home P) : Enlisted P' ∧ s'.Tied home P' := by
  obtain ⟨hsub,hlive⟩ := hP
  cases h with
  | lock h => exact ⟨⟨hsub,hlive⟩,trivial⟩
  | assure idx h hl =>
    refine ⟨⟨?_,fun _ => hl⟩,Finset.mem_insert_self _ _⟩
    exact hsub.trans (Finset.subset_insert _ _)
  | refuse idx h hw => exact ⟨⟨hsub,hlive⟩,fun hreg => hw (hsub hreg)⟩
  | enrol => exact ⟨⟨Finset.insert_subset ht hsub,hlive⟩,ht⟩
  | unregister =>
    refine ⟨⟨?_,?_⟩,ht⟩
    · intro t hreg
      have hne : t ≠ home := by
        rintro rfl
        exact ht hreg
      exact Finset.mem_erase.mpr ⟨hne,hsub hreg⟩
    · rintro ⟨t,hw⟩
      exact hlive ⟨t,Finset.mem_of_mem_erase hw⟩
  | unlock h => exact ⟨⟨hsub,hlive⟩,trivial⟩
  | found s rc =>
    have hgrow := Finset.subset_insert home P.workers
    refine ⟨⟨hsub.trans hgrow,fun _ => rfl⟩,?_⟩
    cases s with
    | assured => exact hgrow ht
    | refused => exact ht
    | outside | holding => trivial
  | destroy s =>
    obtain ⟨hempty,hfree⟩ := hr rfl
    rw [hfree] at hs
    refine ⟨⟨by rw [hempty],fun hw => absurd hw Finset.not_nonempty_empty⟩,?_⟩
    cases s with
    | outside => trivial
    | holding | assured | refused => cases hs
  | aside s e hl hu b =>
    refine ⟨⟨hsub,hlive⟩,?_⟩
    cases s <;> exact ht

theorem enrols_others (h : Enrols home P s e s' P') (hr : Retains P e) {r : Rank} {other : Thread}
    (hone : s.seat + r.seat ≤ P.locked.toNat) (ht : r.Tied other P) : r.Tied other P' := by
  have hle := Bool.toNat_le P.locked
  have hout : r.seat = 1 → s.seat = 0 := by omega
  cases r with
  | outside | holding => trivial
  | assured =>
    have hs := hout rfl
    cases h with
    | found s rc => exact Finset.mem_insert_of_mem ht
    | destroy s =>
      rw [(hr rfl).2] at hone
      simp [Rank.seat] at hone
    | unlock h => rcases h with rfl | rfl <;> cases hs
    | assure | refuse | enrol | unregister => cases hs
    | lock | aside => exact ht
  | refused =>
    have hs := hout rfl
    cases h with
    | unlock h => rcases h with rfl | rfl <;> cases hs
    | assure | refuse | enrol | unregister => cases hs
    | lock | aside | found | destroy => exact ht

end Steps

section Enlistment

variable [Platform]

theorem init_civil (name : List UInt8) : (AppApi.call (.init name)).Calls Civil := by
  refine Fallible.calls_bind (Fallible.calls_bind (Fallible.calls_call (.swap true)) ?_)
    (fun _ => Fallible.calls_pure _)
  intro was
  refine Fallible.calls_bind (calls_rejectIf _) ?_
  intro _
  refine Fallible.calls_bind (calls_rejectIf _) ?_
  intro _
  refine Fallible.calls_bind (Fallible.calls_bind (Fallible.calls_call (.create name))
    (fun _ => Fallible.calls_call .created)) ?_
  intro rc
  exact Fallible.calls_ite (Fallible.calls_bind (Fallible.calls_call (.store false))
    (fun _ => calls_err _)) (Fallible.calls_pure _)

theorem drop_civil : (AppApi.call .drop).Calls Civil :=
  Fallible.calls_bind (Fallible.calls_bind (Fallible.calls_bind (Fallible.calls_call .destroy)
    (fun _ => Fallible.calls_call .destroyed)) (fun _ => Fallible.calls_call (.store false)))
    (fun _ => Fallible.calls_pure _)

theorem register_enlisting : enlisting.wpe (AppApi.call .registerWorkerThread)
    (fun _ s => s = .outside) (fun _ s => s = .outside) .outside := by
  simp only [AppApi.call,registerWorkerThread,Contract.wpe_bind,Contract.wpe_call,Contract.wpe_ite,
    Contract.wpe_pure]
  intro registered _
  refine ⟨trivial,?_⟩
  cases registered with
  | true => rfl
  | false =>
    simp only [Bool.false_eq_true,if_false]
    intro _ _
    refine ⟨rfl,?_⟩
    intro _ _
    refine ⟨trivial,?_⟩
    intro idx _
    refine ⟨rfl,?_⟩
    rw [settleRegistration,Contract.wpe_ite]
    split_ifs with hidx
    · have hrank : Rank.next .holding ⟨.workerIndex,idx⟩ = .refused := if_pos hidx
      intro _ _
      refine ⟨hrank,?_⟩
      intro _ _
      exact ⟨.inr hrank,rfl⟩
    · have hrank : Rank.next .holding ⟨.workerIndex,idx⟩ = .assured := if_neg hidx
      intro _ _
      refine ⟨hrank,?_⟩
      intro _ _
      exact ⟨.inl hrank,rfl⟩

def enlistment (meets : Process → Ev → Prop) : Accord (lifecycle meets) Rank where
  contract _ := enlisting
  init _ := .outside
  post _ _ s := s = .outside
  keeps k _ := by
    obtain ⟨api,home⟩ := k
    cases api with
    | init name => exact wp_app.mpr (civil_enlisting (init_civil name))
    | drop => exact wp_app.mpr (civil_enlisting drop_civil)
    | registerWorkerThread => exact wp_app.mpr register_enlisting
  relies _ _ _ _ _ := trivial

def seats (meets : Process → Ev → Prop) : (enlistment meets).Book ℕ where
  hold := Rank.seat
  worth _ := 0
  gain x := (locking x.event).toNat
  loss x := (unlocking x.event).toNat
  rel := Eq
  rel_refl _ := rfl
  rel_trans _ _ _ := Eq.trans
  rel_add := Accord.Book.eq_add
  start k _ := (sum_none k.api.takes).symm
  act _ _ _ h := Rank.seat_moves h
  finish _ os s h := by
    cases h
    exact sum_none os

variable {meets : Process → Ev → Prop} {p : AppPool}

theorem locks_seated (h : (lifecycle meets).Reach 0 p) :
    seated p + unlocks p.log = locks p.log := by
  have hc := (seats meets).conserved h
  have htotal : (seats meets).total p = seated p := congrArg (_ + ·) (sum_none p.objects)
  rw [Multiset.map_zero,Multiset.sum_zero,Nat.zero_add,htotal] at hc
  exact hc

theorem locks_counted (h : (lifecycle meets).Reach 0 p) :
    locks p.log = unlocks p.log + (Process.of p.log).locked.toNat := by
  apply (enlistment meets).log_induction (I := fun log =>
    locks log = unlocks log + (Process.of log).locked.toNat) rfl _ h
  intro tasks objs log k past q e hr hg ha ih
  have hc := locks_seated hr
  rw [seated_cons] at hc
  have hseat : (rankOf ⟨k,past,q⟩).seat ≤ (Process.of log).locked.toNat := by
    simp only at hc ih
    omega
  have hstep := enrols_locked (Rank.enrols hg ha.1) hseat
  rw [Process.of_concat]
  simp only [locks,unlocks,List.map_append,List.sum_append,List.map_cons,List.map_nil,
    List.sum_cons,List.sum_nil] at ih ⊢
  change _ + ((locking e).toNat + 0) =
    _ + ((unlocking e).toNat + 0) + ((Process.of log).next k.home e).locked.toNat
  omega

theorem seated_locked (h : (lifecycle meets).Reach 0 p) :
    seated p = (Process.of p.log).locked.toNat := by
  have hc := locks_seated h
  have hl := locks_counted h
  omega

theorem enlisted (h : (lifecycle Retains).Reach 0 p) : Enlisted (Process.of p.log) ∧
    ∀ t ∈ p.tasks, (rankOf t).Tied t.kind.home (Process.of p.log) := by
  induction h with
  | refl =>
    refine ⟨⟨Finset.Subset.refl _,fun hw => absurd hw Finset.not_nonempty_empty⟩,?_⟩
    intro t ht
    exact absurd ht (Multiset.notMem_zero _)
  | tail hr hs ih =>
    cases hs with
    | start k hk hl hf =>
      refine ⟨ih.1,?_⟩
      intro t ht
      rcases Multiset.mem_cons.mp ht with rfl | ht
      · trivial
      · exact ih.2 t ht
    | finish hret => exact ⟨ih.1,fun t ht => ih.2 t (Multiset.mem_cons_of_mem ht)⟩
    | @act tasks objs log k past q q' e hstep ha =>
      have hsound := (enlistment Retains).sound_reach hr _ (Multiset.mem_cons_self _ _)
      have hg := ((enlistment Retains).sound_act hsound hstep ha).1
      have henrols := Rank.enrols hg ha.1
      have hseat := seated_locked hr
      rw [seated_cons] at hseat
      obtain ⟨hP,hmine⟩ := enrols_keeps henrols ha.2 (Nat.le.intro hseat) ih.1
        (ih.2 _ (Multiset.mem_cons_self _ _))
      rw [Process.of_concat]
      refine ⟨hP,?_⟩
      intro t ht
      rcases Multiset.mem_cons.mp ht with rfl | ht
      · have hrank : rankOf ⟨k,past ++ [e],q'⟩ = (rankOf ⟨k,past,q⟩).next e :=
          Contract.after_append _ _ _ _
        rw [hrank]
        exact hmine
      · obtain ⟨others,rfl⟩ := Multiset.exists_cons_of_mem ht
        rw [seated_cons] at hseat
        apply enrols_others henrols ha.2 _ (ih.2 t (Multiset.mem_cons_of_mem ht))
        change (rankOf ⟨k,past,q⟩).seat + _ ≤ _
        simp only at hseat
        omega

theorem registered_worker (p : AppPool) (h : (lifecycle Retains).Reach 0 p) :
    (∀ t ∈ (Process.of p.log).registered,
      t ∈ (Process.of p.log).workers ∧ (Process.of p.log).live = true) ∧
    ∀ pre x post, p.log = pre ++ x :: post → x.event = ⟨.registeredGet,true⟩ →
      x.kind.home ∈ (Process.of pre).workers := by
  constructor
  · intro t ht
    obtain ⟨hsub,hlive⟩ := (enlisted h).1
    exact ⟨hsub ht,hlive ⟨t,hsub ht⟩⟩
  · intro pre x post hlog hx
    obtain ⟨tasks,objs,q,q',hr,-,ha⟩ := System.reach_record h hlog
    have hperm := ha.1
    rw [hx] at hperm
    exact (enlisted hr).1.enrolled (of_decide_eq_true hperm.symm)

end Enlistment

def unflagged (_ : ℕ) : (c : Call) → Reply c
  | .registeredGet => false
  | c => obliging c

instance instDecidableRetains (P : Process) (e : Ev) : Decidable (Retains P e) :=
  inferInstanceAs (Decidable (destruction e = true → P.registered = ∅ ∧ P.locked = false))

theorem registered_worker_thread :
    ∃ p : AppPool, (@lifecycle host Retains).Reach 0 p ∧ 1 ∈ (Process.of p.log).registered ∧
      1 ∈ (Process.of p.log).workers ∧ (Process.of p.log).live = true := by
  have h0 := lifecycle_call (m := Retains) .refl ⟨.init [97],0⟩ {{}} 0 (fun _ => obliging) rfl
    (by decide +kernel) (by decide +kernel)
  have h1 := lifecycle_call h0 ⟨.registerWorkerThread,1⟩ 0 {{}} unflagged rfl
    (by decide +kernel) (by decide +kernel)
  refine ⟨_,h1,?_,(@registered_worker host _ h1).1 1 ?_⟩
  · decide +kernel
  · decide +kernel

theorem drop_leaves_flag :
    ∃ p : AppPool, (@lifecycle host (fun _ _ => True)).Reach 0 p ∧
      1 ∈ (Process.of p.log).registered ∧ 1 ∉ (Process.of p.log).workers ∧
      (Process.of p.log).live = false := by
  have h0 := lifecycle_call (m := fun _ _ => True) .refl ⟨.init [97],0⟩ {{}} 0 (fun _ => obliging) rfl
    (by decide +kernel) (by decide +kernel)
  have h1 := lifecycle_call h0 ⟨.registerWorkerThread,1⟩ 0 {{}} unflagged rfl
    (by decide +kernel) (by decide +kernel)
  have h2 := lifecycle_call h1 ⟨.drop,0⟩ 0 0 (fun _ => obliging) rfl
    (by decide +kernel) (by decide +kernel)
  exact ⟨_,h2,by decide +kernel,by decide +kernel,by decide +kernel⟩

end VclRs
