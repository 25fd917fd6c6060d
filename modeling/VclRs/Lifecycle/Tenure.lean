import VclRs.Lifecycle.Process
import VclRs.Footprint

namespace VclRs

open Interaction

inductive Stage where
  | outside
  | claimed
  | creating
  | live
  | destroying
deriving DecidableEq, Repr

def AppApi.proper : AppApi → Bool
  | .init name => decide (0 ∉ name)
  | _ => true

namespace Stage

def Allows (s : Stage) : Ev → Prop
  | ⟨.initializedSwap v,_⟩ => v = true ∧ s = .outside
  | ⟨.initializedStore v,_⟩ => v = false ∧ s = .claimed
  | ⟨.appCreate _,_⟩ => s = .claimed
  | ⟨.appCreated,_⟩ => s = .creating
  | ⟨.appDestroy,_⟩ => s = .live
  | ⟨.appDestroyed,_⟩ => s = .destroying
  | _ => True

def next (api : AppApi) (s : Stage) : Ev → Stage
  | ⟨.initializedSwap _,was⟩ => if s = .outside ∧ was = false ∧ api.proper = true then .claimed else s
  | ⟨.initializedStore _,_⟩ => .outside
  | ⟨.appCreate _,_⟩ => .creating
  | ⟨.appCreated,rc⟩ => if rc < 0 then .claimed else .live
  | ⟨.appDestroy,_⟩ => .destroying
  | ⟨.appDestroyed,_⟩ => .claimed
  | _ => s

def token : Stage → ℕ
  | .outside => 0
  | _ => 1

def founded : Stage → ℕ
  | .live => 1
  | _ => 0

theorem founded_le (s : Stage) : s.founded ≤ s.token := by
  cases s <;> decide

theorem token_inside {s : Stage} (h : s ≠ .outside) : s.token = 1 := by
  cases s <;> first
    | rfl
    | exact absurd rfl h

end Stage

def tenancy (k : AppJob) : Contract Call Reply Stage where
  rely _ _ := True
  guar := Stage.Allows
  next := Stage.next k.api

def claiming (x : AppEntry) : ℕ :=
  match x.event with
  | ⟨.initializedSwap _,was⟩ => if was = false ∧ x.kind.api.proper = true then 1 else 0
  | _ => 0

def forfeiting (x : AppEntry) : ℕ :=
  match x.event with
  | ⟨.initializedSwap _,was⟩ => if was = false ∧ x.kind.api.proper = false then 1 else 0
  | _ => 0

def storing : Ev → Bool
  | ⟨.initializedStore _,_⟩ => true
  | _ => false

def Aside : Call → Prop
  | .initializedSwap _ => False
  | .initializedStore _ => False
  | .appCreate _ => False
  | .appCreated => False
  | .appDestroy => False
  | .appDestroyed => False
  | _ => True

inductive Turn (api : AppApi) : Stage → Ev → Stage → Prop
  | claim (h : api.proper = true) : Turn api .outside ⟨.initializedSwap true,false⟩ .claimed
  | forfeit (h : api.proper = false) : Turn api .outside ⟨.initializedSwap true,false⟩ .outside
  | miss : Turn api .outside ⟨.initializedSwap true,true⟩ .outside
  | store : Turn api .claimed ⟨.initializedStore false,()⟩ .outside
  | create (name : List UInt8) : Turn api .claimed ⟨.appCreate name,()⟩ .creating
  | created (rc : Int) (h : ¬rc < 0) : Turn api .creating ⟨.appCreated,rc⟩ .live
  | refused (rc : Int) (h : rc < 0) : Turn api .creating ⟨.appCreated,rc⟩ .claimed
  | destroy : Turn api .live ⟨.appDestroy,()⟩ .destroying
  | destroyed : Turn api .destroying ⟨.appDestroyed,()⟩ .claimed
  | aside (s : Stage) (e : Ev) (h : Aside e.op) : Turn api s e s

theorem Stage.turn {api : AppApi} {s : Stage} {e : Ev} (h : s.Allows e) :
    Turn api s e (s.next api e) := by
  obtain ⟨op,reply⟩ := e
  cases op
  case initializedSwap v =>
    obtain ⟨rfl,rfl⟩ := h
    cases reply with
    | true => exact .miss
    | false =>
      cases hp : api.proper with
      | true =>
        simp only [Stage.next,hp,and_self,if_true]
        exact .claim hp
      | false =>
        simp only [Stage.next,hp,Bool.false_eq_true,and_false,if_false]
        exact .forfeit hp
  case initializedStore v =>
    obtain ⟨rfl,rfl⟩ := h
    exact .store
  case appCreate name =>
    cases h
    exact .create name
  case appCreated =>
    cases h
    by_cases hrc : (reply : Int) < 0
    · simp only [Stage.next,if_pos hrc]
      exact .refused reply hrc
    · simp only [Stage.next,if_neg hrc]
      exact .created reply hrc
  case appDestroy =>
    cases h
    exact .destroy
  case appDestroyed =>
    cases h
    exact .destroyed
  all_goals exact .aside s _ trivial

section Turns

variable {k : AppJob} {s s' : Stage} {e : Ev}

theorem aside_counts (k : AppJob) (past : List Ev) (h : Aside e.op) : claiming ⟨k,past,e⟩ = 0 ∧ forfeiting ⟨k,past,e⟩ = 0 ∧
    storing e = false ∧ creation e = false ∧ destruction e = false := by
  obtain ⟨op,reply⟩ := e
  cases op <;> first
    | exact h.elim
    | exact ⟨rfl,rfl,rfl,rfl,rfl⟩

theorem turn_token (past : List Ev) (h : Turn k.api s e s') :
    s'.token + (storing e).toNat = s.token + claiming ⟨k,past,e⟩ := by
  cases h with
  | claim h => simp [claiming,storing,Stage.token,h]
  | forfeit h => simp [claiming,storing,Stage.token,h]
  | aside s e h =>
    obtain ⟨hc,-,hs,-⟩ := aside_counts k past h
    rw [hc,hs]
    rfl
  | miss | store | create | created | refused | destroy | destroyed => rfl

theorem turn_founded (h : Turn k.api s e s') :
    s'.founded + (destruction e).toNat = s.founded + (creation e).toNat := by
  cases h with
  | created rc h => simp [creation,destruction,Stage.founded,h]
  | refused rc h => simp [creation,destruction,Stage.founded,h]
  | aside s e h =>
    obtain ⟨-,-,-,hc,hd⟩ := aside_counts k [] h
    rw [hc,hd]
  | claim | forfeit | miss | store | create | destroy | destroyed => rfl

end Turns

def Vacated (os : Multiset VclApp) (s : Stage) : Prop := os.card = s.token ∧ s.founded = s.token

theorem sum_one (os : Multiset VclApp) : (os.map (fun _ => 1)).sum = os.card := by
  induction os using Multiset.induction_on with
  | empty => rfl
  | cons o os ih => rw [Multiset.map_cons,Multiset.sum_cons,ih,Multiset.card_cons,Nat.add_comm]

def AppApi.stage (api : AppApi) : Stage := if api = .drop then .live else .outside

theorem stage_takes (api : AppApi) :
    api.stage.token = api.takes.card ∧ api.stage.founded = api.takes.card := by
  cases api <;> exact ⟨rfl,rfl⟩

section Tenure

variable [Platform]

theorem init_tenancy (name : List UInt8) (home : Thread) :
    (tenancy ⟨.init name,home⟩).wpe (AppApi.call (.init name))
      Vacated (fun _ => Vacated 0) .outside := by
  simp only [AppApi.call,VclApp.init,vppcomAppCreate,Contract.wpe_bind,Contract.wpe_call,
    wpe_rejectIf]
  intro was _
  refine ⟨⟨rfl,rfl⟩,?_⟩
  cases was with
  | true => exact ⟨rfl,rfl⟩
  | false =>
    by_cases hname : 0 ∈ name
    · simp [hname,tenancy,Stage.next,AppApi.proper,Vacated,Stage.token,Stage.founded]
    · simp only [Bool.false_eq_true,if_false,hname]
      intro _ _
      have hclaim : (tenancy ⟨.init name,home⟩).next .outside ⟨.initializedSwap true,false⟩ = .claimed := by
        simp [tenancy,Stage.next,AppApi.proper,hname]
      refine ⟨hclaim,?_⟩
      intro rc _
      refine ⟨rfl,?_⟩
      rw [Contract.wpe_ite]
      split_ifs with hrc
      · simp only [Contract.wpe_bind,Contract.wpe_call,wpe_err]
        intro _ _
        have hback : (tenancy ⟨.init name,home⟩).next .creating ⟨.appCreated,rc⟩ = .claimed :=
          if_pos hrc
        exact ⟨⟨rfl,hback⟩,rfl,rfl⟩
      · have hlive : (tenancy ⟨.init name,home⟩).next .creating ⟨.appCreated,rc⟩ = .live :=
          if_neg hrc
        change Vacated {{}} ((tenancy ⟨.init name,home⟩).next .creating ⟨.appCreated,rc⟩)
        rw [hlive]
        exact ⟨rfl,rfl⟩

theorem drop_tenancy (home : Thread) :
    (tenancy ⟨.drop,home⟩).wpe (AppApi.call .drop)
      Vacated (fun _ => Vacated 0) .live := by
  simp only [AppApi.call,VclApp.drop,vppcomAppDestroy,Contract.wpe_bind,Contract.wpe_call]
  intro _ _
  refine ⟨rfl,?_⟩
  intro _ _
  refine ⟨rfl,?_⟩
  intro _ _
  exact ⟨⟨rfl,rfl⟩,rfl,rfl⟩

theorem register_tenancy (home : Thread) :
    (tenancy ⟨.registerWorkerThread,home⟩).wpe (AppApi.call .registerWorkerThread)
      Vacated (fun _ => Vacated 0) .outside := by
  rw [AppApi.call,Contract.wpe_bind]
  apply (tenancy ⟨.registerWorkerThread,home⟩).wpe_mono
    ((tenancy ⟨.registerWorkerThread,home⟩).wpe_of_calls (P := Registers) (I := (· = .outside))
      _ registerWorkerThread_calls rfl)
  · rintro _ s rfl
    exact ⟨rfl,rfl⟩
  · rintro _ s rfl
    exact ⟨rfl,rfl⟩
  · rintro s ⟨op,reply⟩ rfl hop -
    cases hop <;> exact ⟨trivial,rfl⟩

def tenure (meets : Process → Ev → Prop) : Accord (lifecycle meets) Stage where
  contract := tenancy
  init k := k.api.stage
  post _ := Vacated
  keeps k _ := by
    obtain ⟨api,home⟩ := k
    cases api with
    | init name => exact wp_app.mpr (init_tenancy name home)
    | drop => exact wp_app.mpr (drop_tenancy home)
    | registerWorkerThread => exact wp_app.mpr (register_tenancy home)
  relies _ _ _ _ _ := trivial

def tokens (meets : Process → Ev → Prop) : (tenure meets).Book ℕ where
  hold := Stage.token
  worth _ := 1
  gain := claiming
  loss x := (storing x.event).toNat
  rel := Eq
  rel_refl _ := rfl
  rel_trans _ _ _ := Eq.trans
  rel_add := Accord.Book.eq_add
  start k _ := (stage_takes k.api).1.trans (sum_one _).symm
  act _ past _ h := turn_token past (Stage.turn h)
  finish _ os _ h := (sum_one os).trans h.1

def apps (meets : Process → Ev → Prop) : (tenure meets).Book ℕ where
  hold := Stage.founded
  worth _ := 1
  gain x := (creation x.event).toNat
  loss x := (destruction x.event).toNat
  rel := Eq
  rel_refl _ := rfl
  rel_trans _ _ _ := Eq.trans
  rel_add := Accord.Book.eq_add
  start k _ := (stage_takes k.api).2.trans (sum_one _).symm
  act k _ _ h := turn_founded (k := k) (Stage.turn h)
  finish _ os _ h := (sum_one os).trans (h.1.trans h.2.symm)

end Tenure

end VclRs
