import VclRs.Lifecycle.Tenure
import Mathlib.Data.List.Chain

namespace VclRs

open Interaction

def claims (log : List AppEntry) : ℕ := (log.map claiming).sum
def forfeits (log : List AppEntry) : ℕ := (log.map forfeiting).sum
def stores (log : List AppEntry) : ℕ := (log.map (fun x => (storing x.event).toNat)).sum
def creations (log : List AppEntry) : ℕ := (log.map (fun x => (creation x.event).toNat)).sum
def destructions (log : List AppEntry) : ℕ := (log.map (fun x => (destruction x.event).toNat)).sum

theorem sum_concat (f : AppEntry → ℕ) (log : List AppEntry) (x : AppEntry) :
    ((log ++ [x]).map f).sum = (log.map f).sum + f x := by
  simp

def stageOf (t : AppTask) : Stage := (tenancy t.kind).after t.kind.api.stage t.past

def flagHolders (p : AppPool) : ℕ := (p.tasks.map (fun t => (stageOf t).token)).sum + p.objects.card
def alive (p : AppPool) : ℕ := (p.tasks.map (fun t => (stageOf t).founded)).sum + p.objects.card

section Sums

variable (t : AppTask) (tasks : Multiset AppTask) (objs : Multiset VclApp) (log : List AppEntry)

theorem flagHolders_cons : flagHolders ⟨t ::ₘ tasks,objs,log⟩ = (stageOf t).token + flagHolders ⟨tasks,objs,log⟩ := by
  simp only [flagHolders,Multiset.map_cons,Multiset.sum_cons,Nat.add_assoc]

theorem alive_cons : alive ⟨t ::ₘ tasks,objs,log⟩ = (stageOf t).founded + alive ⟨tasks,objs,log⟩ := by
  simp only [alive,Multiset.map_cons,Multiset.sum_cons,Nat.add_assoc]

theorem alive_le : alive ⟨tasks,objs,log⟩ ≤ flagHolders ⟨tasks,objs,log⟩ := by
  induction tasks using Multiset.induction_on with
  | empty => exact Nat.le_refl _
  | cons u tasks ih =>
    rw [alive_cons,flagHolders_cons]
    exact Nat.add_le_add (Stage.founded_le _) ih

end Sums

theorem aside_flag {e : Ev} (P : Process) (home : Thread) (h : Aside e.op) :
    (P.next home e).initialized = P.initialized := by
  obtain ⟨op,reply⟩ := e
  cases op <;> first
    | exact h.elim
    | rfl
    | (simp only [Process.next]; split_ifs <;> rfl)

theorem turn_flag {k : AppJob} (past : List Ev) {s s' : Stage} {e : Ev} {P : Process}
    (h : Turn k.api s e s') (hp : P.Permits k.home e) (hs : s.token ≤ P.initialized.toNat) :
    claiming ⟨k,past,e⟩ + forfeiting ⟨k,past,e⟩ + P.initialized.toNat =
      (storing e).toNat + (P.next k.home e).initialized.toNat := by
  cases h with
  | claim h =>
    have hfree : P.initialized = false := hp.symm
    simp [claiming,forfeiting,storing,Process.next,h,hfree]
  | forfeit h =>
    have hfree : P.initialized = false := hp.symm
    simp [claiming,forfeiting,storing,Process.next,h,hfree]
  | miss =>
    have hheld : P.initialized = true := hp.symm
    simp [claiming,forfeiting,storing,Process.next,hheld]
  | store =>
    have hheld : P.initialized.toNat = 1 := Nat.le_antisymm (Bool.toNat_le _) hs
    rw [hheld]
    rfl
  | created rc h => simp [claiming,forfeiting,storing,Process.next,h]
  | refused rc h => simp [claiming,forfeiting,storing,Process.next,h]
  | aside s e h =>
    obtain ⟨hc,hf,hst,-⟩ := aside_counts k past h
    rw [hc,hf,hst,aside_flag P k.home h]
    rfl
  | create | destroy | destroyed => simp [claiming,forfeiting,storing,Process.next]

inductive Occupies (t : AppTask) : Prop
  | creating (name : List UInt8) (h : t.past.getLast? = some ⟨.appCreate name,()⟩)
  | founding (rc : Int) (hrc : ¬rc < 0) (h : t.past.getLast? = some ⟨.appCreated,rc⟩)
  | dropping (hk : t.kind.api = .drop) (h : t.past.any storing = false)
  | destroying (h : t.past.getLast? = some ⟨.appDestroy,()⟩)

def milestone (e : Ev) : Option Bool :=
  if creation e = true then some true else if destruction e = true then some false else none

def milestones (log : List AppEntry) : List Bool := log.filterMap (fun x => milestone x.event)

theorem milestones_concat (log : List AppEntry) (x : AppEntry) :
    milestones (log ++ [x]) = milestones log ++ (milestone x.event).toList := by
  rw [milestones,List.filterMap_append]
  cases hm : milestone x.event <;> simp [milestones,hm]

def appStanding (log : List AppEntry) : Bool := (milestones log).getLast?.getD false

def Alternates (log : List AppEntry) : Prop := List.IsChain (· ≠ ·) (false :: milestones log)

theorem alternates_some {log : List AppEntry} {x : AppEntry} {b : Bool} (hb : milestone x.event = some b)
    (hs : appStanding log = !b) (h : Alternates log) :
    Alternates (log ++ [x]) ∧ appStanding (log ++ [x]) = b := by
  rw [Alternates,appStanding,milestones_concat,hb,Option.toList_some,← List.cons_append]
  rw [appStanding] at hs
  constructor
  · apply List.IsChain.append h (.singleton _)
    simp [List.getLast?_cons,hs]
  · simp

theorem alternates_none {log : List AppEntry} {x : AppEntry} (hx : milestone x.event = none)
    (h : Alternates log) : Alternates (log ++ [x]) ∧ appStanding (log ++ [x]) = appStanding log := by
  rw [Alternates,appStanding,milestones_concat,hx,Option.toList_none,List.append_nil]
  exact ⟨h,rfl⟩

theorem turn_milestone {k : AppJob} (past : List Ev) {s s' : Stage} {e : Ev} {log : List AppEntry}
    (h : Turn k.api s e s') (hup : (appStanding log).toNat + s.token ≤ 1 + s.founded)
    (hdown : s.founded ≤ (appStanding log).toNat) (ha : Alternates log) :
    Alternates (log ++ [⟨k,past,e⟩]) ∧ (appStanding (log ++ [⟨k,past,e⟩])).toNat +
      (destruction e).toNat = (appStanding log).toNat + (creation e).toNat := by
  have hstill : milestone e = none → Alternates (log ++ [⟨k,past,e⟩]) ∧
      (appStanding (log ++ [⟨k,past,e⟩])).toNat = (appStanding log).toNat := by
    intro hm
    obtain ⟨hc,hl⟩ := alternates_none (x := ⟨k,past,e⟩) hm ha
    exact ⟨hc,congrArg Bool.toNat hl⟩
  cases h with
  | created rc h =>
    have hfree : appStanding log = false := by
      cases hl : appStanding log with
      | false => rfl
      | true => simp [hl,Stage.token,Stage.founded] at hup
    obtain ⟨hc,hl⟩ := alternates_some (x := ⟨k,past,⟨.appCreated,rc⟩⟩) (b := true)
      (by simp [milestone,creation,h]) hfree ha
    refine ⟨hc,?_⟩
    rw [hl,hfree]
    simp [creation,destruction,h]
  | destroy =>
    have hheld : appStanding log = true := by
      cases hl : appStanding log with
      | true => rfl
      | false => simp [hl,Stage.founded] at hdown
    obtain ⟨hc,hl⟩ := alternates_some (x := ⟨k,past,⟨.appDestroy,()⟩⟩) (b := false) rfl hheld ha
    refine ⟨hc,?_⟩
    rw [hl,hheld]
    rfl
  | refused rc h =>
    obtain ⟨hc,hl⟩ := hstill (by simp [milestone,creation,destruction,h])
    rw [hl]
    exact ⟨hc,by simp [creation,destruction,h]⟩
  | aside s e h =>
    obtain ⟨-,-,-,hcr,hde⟩ := aside_counts k past h
    obtain ⟨hc,hl⟩ := hstill (by simp [milestone,hcr,hde])
    rw [hl,hcr,hde]
    exact ⟨hc,rfl⟩
  | claim | forfeit | miss | store | create | destroyed =>
    obtain ⟨hc,hl⟩ := hstill rfl
    rw [hl]
    exact ⟨hc,rfl⟩

theorem next_outside {api : AppApi} {s : Stage} {e : Ev} (h : s.next api e = .outside) :
    s = .outside ∨ storing e = true := by
  obtain ⟨op,reply⟩ := e
  cases op <;> first
    | exact .inl h
    | exact .inr rfl
    | cases h
    | skip
  case initializedSwap v =>
    simp only [Stage.next] at h
    split_ifs at h with hc
    exact .inl h
  case appCreated =>
    simp only [Stage.next] at h
    split_ifs at h

theorem dropping_inside {home : Thread} {past : List Ev} (h : past.any storing = false) :
    (tenancy ⟨.drop,home⟩).after .live past ≠ .outside := by
  induction past using List.reverseRecOn with
  | nil => exact Stage.noConfusion
  | append_singleton past e ih =>
    rw [List.any_append,List.any_cons,List.any_nil,Bool.or_false,Bool.or_eq_false_iff] at h
    intro hout
    rw [Contract.after_append] at hout
    rcases next_outside hout with hs | hs
    · exact ih h.1 hs
    · rw [h.2] at hs
      cases hs

theorem stageOf_last {t : AppTask} {e : Ev} (h : t.past.getLast? = some e) :
    ∃ s, stageOf t = Stage.next t.kind.api s e := by
  obtain ⟨k,past,q⟩ := t
  obtain ⟨pre,rfl⟩ := List.getLast?_eq_some_iff.mp h
  exact ⟨_,Contract.after_append _ _ _ _⟩

theorem occupies_token {t : AppTask} (h : Occupies t) : (stageOf t).token = 1 := by
  cases h with
  | creating name h =>
    obtain ⟨s,hs⟩ := stageOf_last h
    rw [hs]
    rfl
  | founding rc hrc h =>
    obtain ⟨s,hs⟩ := stageOf_last h
    rw [hs]
    simp [Stage.next,hrc,Stage.token]
  | dropping hk h =>
    obtain ⟨⟨api,home⟩,past,q⟩ := t
    cases hk
    exact Stage.token_inside (dropping_inside h)
  | destroying h =>
    obtain ⟨s,hs⟩ := stageOf_last h
    rw [hs]
    rfl

section Reach

variable [Platform] {meets : Process → Ev → Prop} {p : AppPool}

theorem claims_flagHolders (h : (lifecycle meets).Reach 0 p) : flagHolders p + stores p.log = claims p.log := by
  have hc := (tokens meets).conserved h
  have htotal : (tokens meets).total p = flagHolders p := congrArg (_ + ·) (sum_one p.objects)
  rw [Multiset.map_zero,Multiset.sum_zero,Nat.zero_add,htotal] at hc
  exact hc

theorem creations_alive (h : (lifecycle meets).Reach 0 p) :
    alive p + destructions p.log = creations p.log := by
  have hc := (apps meets).conserved h
  have htotal : (apps meets).total p = alive p := congrArg (_ + ·) (sum_one p.objects)
  rw [Multiset.map_zero,Multiset.sum_zero,Nat.zero_add,htotal] at hc
  exact hc

theorem flag_counted (h : (lifecycle meets).Reach 0 p) :
    claims p.log + forfeits p.log = stores p.log + (Process.of p.log).initialized.toNat := by
  apply (tenure meets).log_induction (I := fun log =>
    claims log + forfeits log = stores log + (Process.of log).initialized.toNat) rfl _ h
  intro tasks objs log k past q e hr hg ha ih
  have hc := claims_flagHolders hr
  rw [flagHolders_cons] at hc
  have htoken : (stageOf ⟨k,past,q⟩).token ≤ (Process.of log).initialized.toNat := by
    simp only at hc ih
    omega
  have hturn := turn_flag past (Stage.turn hg) ha.1 htoken
  rw [Process.of_concat,claims,forfeits,stores,sum_concat,sum_concat,sum_concat]
  simp only [claims,forfeits,stores] at ih
  change _ + claiming ⟨k,past,e⟩ + (_ + forfeiting ⟨k,past,e⟩) =
    _ + (storing e).toNat + ((Process.of log).next k.home e).initialized.toNat
  omega

theorem flag_holders (h : (lifecycle meets).Reach 0 p) :
    flagHolders p + forfeits p.log = (Process.of p.log).initialized.toNat := by
  have hc := claims_flagHolders h
  have hf := flag_counted h
  omega

theorem flagHolders_le (h : (lifecycle meets).Reach 0 p) : flagHolders p ≤ 1 := by
  have hf := flag_holders h
  have hb := Bool.toNat_le (Process.of p.log).initialized
  omega

theorem exclusive {t : AppTask} {tasks : Multiset AppTask} {objs : Multiset VclApp}
    {log : List AppEntry} (h : (lifecycle meets).Reach 0 ⟨t ::ₘ tasks,objs,log⟩)
    (ht : (stageOf t).token = 1) : objs = 0 ∧ ∀ u ∈ tasks, (stageOf u).token = 0 := by
  have hle := flagHolders_le h
  rw [flagHolders_cons] at hle
  constructor
  · rw [flagHolders] at hle
    exact Multiset.card_eq_zero.mp (by
      simp only at hle
      omega)
  · intro u hu
    obtain ⟨others,rfl⟩ := Multiset.exists_cons_of_mem hu
    rw [flagHolders_cons] at hle
    omega

theorem alternating (h : (lifecycle meets).Reach 0 p) :
    Alternates p.log ∧ (appStanding p.log).toNat + destructions p.log = creations p.log := by
  apply (tenure meets).log_induction (I := fun log =>
    Alternates log ∧ (appStanding log).toNat + destructions log = creations log) ⟨.singleton _,rfl⟩ _ h
  intro tasks objs log k past q e hr hg _ ih
  have hcount := creations_alive hr
  have hheld := flagHolders_le hr
  have hle := alive_le tasks objs log
  rw [alive_cons] at hcount
  rw [flagHolders_cons] at hheld
  simp only at hcount
  obtain ⟨ha,hm⟩ := turn_milestone past (Stage.turn hg) (s := stageOf ⟨k,past,q⟩) (by omega)
    (by omega) ih.1
  refine ⟨ha,?_⟩
  rw [destructions,creations,sum_concat,sum_concat]
  simp only [destructions,creations] at ih
  change _ + (_ + (destruction e).toNat) = _ + (creation e).toNat
  omega

theorem app_exclusive (p : AppPool) (h : (lifecycle (fun _ _ => True)).Reach 0 p) :
    p.objects.card ≤ 1 ∧
      (∀ t rest, p.tasks = t ::ₘ rest → Occupies t → p.objects = 0 ∧ ∀ u ∈ rest, ¬Occupies u) ∧
      Alternates p.log := by
  have hle := flagHolders_le h
  refine ⟨Nat.le_trans (Nat.le_add_left _ _) hle,?_,(alternating h).1⟩
  intro t rest htasks ht
  obtain ⟨tasks,objs,log⟩ := p
  cases htasks
  obtain ⟨hobjs,hrest⟩ := exclusive h (occupies_token ht)
  refine ⟨hobjs,?_⟩
  intro u hu hocc
  have hone := occupies_token hocc
  rw [hrest u hu] at hone
  cases hone

end Reach

theorem app_exclusive_creating :
    ∃ t log, (@lifecycle host (fun _ _ => True)).Reach 0 ⟨{t},0,log⟩ ∧ Occupies t ∧
      (∀ u ∈ (0 : Multiset AppTask), ¬Occupies u) ∧ Alternates log := by
  obtain ⟨q,q',hs,hs'⟩ : ∃ q q', Prog.Step ((@lifecycle host (fun _ _ => True)).code ⟨.init [97],0⟩)
      ⟨.initializedSwap true,false⟩ q ∧ Prog.Step q ⟨.appCreate [97],()⟩ q' := by
    apply Exists.intro
    apply Exists.intro
    constructor
    · apply @Prog.Step.call Call Reply _ (.initializedSwap true) _ false
    · apply @Prog.Step.call Call Reply _ (.appCreate [97]) _ ()
  have h0 := @System.Step.start _ _ _ _ (@lifecycle host (fun _ _ => True)) 0 0 [] ⟨.init [97],0⟩ trivial
    (fun _ ho => absurd ho (Multiset.notMem_zero _)) (fun _ ht => absurd ht (Multiset.notMem_zero _))
  have h1 := (Relation.ReflTransGen.single h0).tail (.act hs ⟨rfl,trivial⟩)
  have h2 := h1.tail (.act hs' ⟨trivial,trivial⟩)
  have ht : Occupies ⟨⟨.init [97],0⟩,[⟨.initializedSwap true,false⟩,⟨.appCreate [97],()⟩],q'⟩ :=
    .creating [97] rfl
  obtain ⟨-,hx,ha⟩ := @app_exclusive host _ h2
  exact ⟨_,_,h2,ht,(hx _ 0 rfl ht).2,ha⟩

end VclRs
