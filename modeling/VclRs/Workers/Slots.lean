import VclRs.Model.App
import Mathlib.Logic.Relation
import Mathlib.Data.List.Count

namespace VclRs

open Interaction

abbrev Round := Prog Call Reply (Except Stop Unit)

structure Clerk where
  registered : Bool
  rest : Round

structure Counter where
  locked : Bool
  registers : ℕ
  unregisters : ℕ

structure Office where
  clerks : List Clerk
  counter : Counter

inductive Tends : Clerk → Counter → Clerk → Counter → Prop
  | get {flag : Bool} {k : Bool → Round} {c : Counter} :
    Tends ⟨flag,.call .registeredGet k⟩ c ⟨flag,k flag⟩ c
  | lock {flag : Bool} {k : Unit → Round} {r u : ℕ} :
    Tends ⟨flag,.call .registerLock k⟩ ⟨false,r,u⟩ ⟨flag,k ()⟩ ⟨true,r,u⟩
  | register {flag locked : Bool} {k : Int → Round} {r u : ℕ} (rc : Int) :
    Tends ⟨flag,.call .workerRegister k⟩ ⟨locked,r,u⟩ ⟨flag,k rc⟩ ⟨locked,r + 1,u⟩
  | index {flag : Bool} {k : Int → Round} {c : Counter} (idx : Int) :
    Tends ⟨flag,.call .workerIndex k⟩ c ⟨flag,k idx⟩ c
  | unregister {flag locked : Bool} {k : Unit → Round} {r u : ℕ} :
    Tends ⟨flag,.call .workerUnregister k⟩ ⟨locked,r,u⟩ ⟨flag,k ()⟩ ⟨locked,r,u + 1⟩
  | set {flag : Bool} {k : Unit → Round} {c : Counter} :
    Tends ⟨flag,.call .registeredSet k⟩ c ⟨true,k ()⟩ c
  | unlock {flag locked : Bool} {k : Unit → Round} {r u : ℕ} :
    Tends ⟨flag,.call .registerUnlock k⟩ ⟨locked,r,u⟩ ⟨flag,k ()⟩ ⟨false,r,u⟩

def Clerk.idle (w : Clerk) : Bool :=
  match w.rest with
  | .ret _ => true
  | _ => false

def Clerk.pending (w : Clerk) : Bool :=
  match w.rest with
  | .call .workerIndex _ => true
  | .call .workerUnregister _ => true
  | .call .registeredSet _ => true
  | _ => false

def Clerk.inside (w : Clerk) : Bool :=
  match w.rest with
  | .call .workerRegister _ => true
  | .call .registerUnlock _ => true
  | _ => w.pending

namespace Office

def opening : Office := ⟨[],⟨false,0,0⟩⟩

inductive Attend (O : Office) : Office → Prop
  | attend {pre post : List Clerk} {w w' : Clerk} {c : Counter} (hc : O.clerks = pre ++ w :: post)
      (ht : Tends w O.counter w' c) : Attend O ⟨pre ++ w' :: post,c⟩

inductive Step (O : Office) : Office → Prop
  | hire : Step O ⟨O.clerks ++ [⟨false,.ret (.ok ())⟩],O.counter⟩
  | call {pre post : List Clerk} {flag : Bool} {r : Except Stop Unit}
      (hc : O.clerks = pre ++ ⟨flag,.ret r⟩ :: post) :
    Step O ⟨pre ++ ⟨flag,registerWorkerThread.prog⟩ :: post,O.counter⟩
  | attend {O' : Office} (ha : Attend O O') : Step O O'

inductive Attended (O : Office) : ℕ → Office → Prop
  | none : Attended O 0 O
  | more {n : ℕ} {O₁ O₂ : Office} (h : Attended O n O₁) (ha : Attend O₁ O₂) : Attended O (n + 1) O₂

def Reach : Office → Prop := Relation.ReflTransGen Step opening

structure Accounted (O : Office) : Prop where
  slots : O.counter.registers =
    O.counter.unregisters + O.clerks.countP Clerk.registered + O.clerks.countP Clerk.pending
  alone : O.clerks.countP Clerk.inside ≤ 1
  once : ∀ w ∈ O.clerks, w.registered = true → ∀ k, w.rest ≠ .call .workerRegister k
  quiet : (∀ w ∈ O.clerks, w.idle = true) →
    O.counter.registers = O.counter.unregisters + O.clerks.countP Clerk.registered
  live : (∃ w ∈ O.clerks, w.idle = false) → ∃ O', Attend O O'
  ends : ∀ n O', Attended O n O' → n ≤ 6 * O.clerks.countP (fun w => !w.idle)

end Office

inductive Window where
  | away (r : Except Stop Unit)
  | entry
  | lock
  | register
  | index
  | enrol
  | revoke
  | unlock

namespace Window

def atUnlock : Round := .call .registerUnlock (fun _ => .ret (.ok ()))
def atEnrol : Round := .call .registeredSet (fun _ => atUnlock)
def atRevoke : Round := .call .workerUnregister (fun _ => atUnlock)
def atIndex : Round := .call .workerIndex (fun idx => if idx < 0 then atRevoke else atEnrol)
def atRegister : Round := .call .workerRegister (fun _ => atIndex)
def atLock : Round := .call .registerLock (fun _ => atRegister)

def code : Window → Round
  | away r => .ret r
  | entry => .call .registeredGet (fun flag => if flag = true then .ret (.ok ()) else atLock)
  | lock => atLock
  | register => atRegister
  | index => atIndex
  | enrol => atEnrol
  | revoke => atRevoke
  | unlock => atUnlock

theorem registerWorkerThread_window : registerWorkerThread.prog = entry.code := by
  apply congrArg (Prog.call Call.registeredGet)
  funext flag
  cases flag with
  | true => rfl
  | false =>
    apply congrArg (Prog.call Call.registerLock)
    funext _
    apply congrArg (Prog.call Call.workerRegister)
    funext _
    apply congrArg (Prog.call Call.workerIndex)
    funext idx
    change (settleRegistration idx >>= fun _ => ffi .registerUnlock).prog = _
    by_cases h : (idx : Int) < 0
    · rw [settleRegistration,if_pos h,if_pos h]
      rfl
    · rw [settleRegistration,if_neg h,if_neg h]
      rfl

def pending : Window → Bool
  | index => true
  | enrol => true
  | revoke => true
  | _ => false

def inside : Window → Bool
  | register => true
  | unlock => true
  | w => w.pending

def work : Window → ℕ
  | away _ => 0
  | entry => 6
  | lock => 5
  | register => 4
  | index => 3
  | enrol => 2
  | revoke => 2
  | unlock => 1

def vacant : Window → Bool
  | away _ => true
  | entry => true
  | unlock => true
  | _ => false

end Window

structure Post where
  registered : Bool
  window : Window

namespace Post

def real (p : Post) : Clerk := ⟨p.registered,p.window.code⟩

def Fit (p : Post) : Prop := p.registered = true → p.window.vacant = true

theorem real_pending (p : Post) : p.real.pending = p.window.pending := by
  obtain ⟨flag,w⟩ := p
  cases w <;> rfl

theorem real_inside (p : Post) : p.real.inside = p.window.inside := by
  obtain ⟨flag,w⟩ := p
  cases w <;> rfl

end Post

inductive Turns : Post → Counter → Post → Counter → Prop
  | pass {c : Counter} : Turns ⟨true,.entry⟩ c ⟨true,.away (.ok ())⟩ c
  | seek {c : Counter} : Turns ⟨false,.entry⟩ c ⟨false,.lock⟩ c
  | lock {flag : Bool} {r u : ℕ} : Turns ⟨flag,.lock⟩ ⟨false,r,u⟩ ⟨flag,.register⟩ ⟨true,r,u⟩
  | register {flag locked : Bool} {r u : ℕ} :
    Turns ⟨flag,.register⟩ ⟨locked,r,u⟩ ⟨flag,.index⟩ ⟨locked,r + 1,u⟩
  | indexed {flag : Bool} {c : Counter} : Turns ⟨flag,.index⟩ c ⟨flag,.enrol⟩ c
  | missing {flag : Bool} {c : Counter} : Turns ⟨flag,.index⟩ c ⟨flag,.revoke⟩ c
  | enrol {flag : Bool} {c : Counter} : Turns ⟨flag,.enrol⟩ c ⟨true,.unlock⟩ c
  | revoke {flag locked : Bool} {r u : ℕ} :
    Turns ⟨flag,.revoke⟩ ⟨locked,r,u⟩ ⟨flag,.unlock⟩ ⟨locked,r,u + 1⟩
  | unlock {flag locked : Bool} {r u : ℕ} :
    Turns ⟨flag,.unlock⟩ ⟨locked,r,u⟩ ⟨flag,.away (.ok ())⟩ ⟨false,r,u⟩

theorem Post.turns {p : Post} {c c' : Counter} {w : Clerk} (h : Tends p.real c w c') :
    ∃ p', w = p'.real ∧ Turns p c p' c' := by
  obtain ⟨flag,window⟩ := p
  cases window with
  | away r => cases h
  | entry =>
    cases h
    cases flag with
    | true => exact ⟨_,rfl,.pass⟩
    | false => exact ⟨_,rfl,.seek⟩
  | lock =>
    cases h
    exact ⟨_,rfl,.lock⟩
  | register =>
    cases h
    exact ⟨_,rfl,.register⟩
  | index =>
    cases h with
    | index idx =>
      by_cases hidx : idx < 0
      · refine ⟨⟨flag,.revoke⟩,?_,.missing⟩
        simp only [if_pos hidx]
        rfl
      · refine ⟨⟨flag,.enrol⟩,?_,.indexed⟩
        simp only [if_neg hidx]
        rfl
  | enrol =>
    cases h
    exact ⟨_,rfl,.enrol⟩
  | revoke =>
    cases h
    exact ⟨_,rfl,.revoke⟩
  | unlock =>
    cases h
    exact ⟨_,rfl,.unlock⟩

namespace Turns

variable {p p' : Post} {c c' : Counter}

theorem fit (h : Turns p c p' c') (hp : p.Fit) : p'.Fit := by
  cases h with
  | pass => exact hp
  | seek => exact fun h => absurd h Bool.false_ne_true
  | lock => exact hp
  | register => exact hp
  | indexed => exact hp
  | missing => exact hp
  | enrol => exact fun _ => rfl
  | revoke => exact fun _ => rfl
  | unlock => exact fun _ => rfl

theorem slots (h : Turns p c p' c') (hp : p.Fit) :
    c'.registers + c.unregisters + p.registered.toNat + p.window.pending.toNat =
      c.registers + c'.unregisters + p'.registered.toNat + p'.window.pending.toNat := by
  cases h with
  | pass => rfl
  | seek => rfl
  | lock => rfl
  | register =>
    simp only [Window.pending,Bool.toNat_false,Bool.toNat_true]
    omega
  | indexed => rfl
  | missing => rfl
  | @enrol flag c =>
    cases flag with
    | true => exact absurd (hp rfl) Bool.false_ne_true
    | false => rfl
  | revoke =>
    simp only [Window.pending,Bool.toNat_false,Bool.toNat_true]
    omega
  | unlock => rfl

theorem inside (h : Turns p c p' c') (hp : p.window.inside.toNat ≤ c.locked.toNat) :
    p'.window.inside.toNat + c.locked.toNat = p.window.inside.toNat + c'.locked.toNat := by
  cases h with
  | pass => rfl
  | seek => rfl
  | lock => rfl
  | register => rfl
  | indexed => rfl
  | missing => rfl
  | enrol => rfl
  | revoke => rfl
  | @unlock flag locked r u =>
    cases locked with
    | true => rfl
    | false => exact absurd hp (Nat.not_succ_le_zero 0)

theorem work (h : Turns p c p' c') : p'.window.work + 1 ≤ p.window.work := by
  cases h <;> simp [Window.work]

end Turns

structure Squared (ps : List Post) (c : Counter) : Prop where
  fit : ∀ p ∈ ps, p.Fit
  slots : c.registers = c.unregisters + ps.countP Post.registered +
    ps.countP (fun p => p.window.pending)
  inside : ps.countP (fun p => p.window.inside) = c.locked.toNat

theorem countP_at {α : Type} (f : α → Bool) (pre post : List α) (a : α) :
    (pre ++ a :: post).countP f = pre.countP f + post.countP f + (f a).toNat := by
  rw [List.countP_append,List.countP_cons]
  cases h : f a with
  | true => simp [Nat.add_assoc]
  | false => simp

namespace Squared

variable {pre post : List Post} {p p' : Post} {c c' : Counter}

theorem turn (h : Squared (pre ++ p :: post) c) (ht : Turns p c p' c') :
    Squared (pre ++ p' :: post) c' := by
  have hfit : p.Fit := h.fit p (by simp)
  have hslots := h.slots
  have hinside := h.inside
  rw [countP_at,countP_at] at hslots
  rw [countP_at] at hinside
  have hs := ht.slots hfit
  have hi := ht.inside (by omega)
  constructor
  · intro q hq
    rcases List.mem_append.mp hq with hq | hq
    · exact h.fit q (List.mem_append_left _ hq)
    · rcases List.mem_cons.mp hq with rfl | hq
      · exact ht.fit hfit
      · exact h.fit q (List.mem_append_right _ (List.mem_cons_of_mem _ hq))
  · rw [countP_at,countP_at]
    omega
  · rw [countP_at]
    omega

theorem hire {ps : List Post} (h : Squared ps c) :
    Squared (ps ++ [⟨false,.away (.ok ())⟩]) c := by
  constructor
  · intro q hq
    rcases List.mem_append.mp hq with hq | hq
    · exact h.fit q hq
    · rw [List.mem_singleton.mp hq]
      exact fun _ => rfl
  · rw [countP_at,countP_at]
    simpa [Window.pending] using h.slots
  · rw [countP_at]
    simpa [Window.inside,Window.pending] using h.inside

theorem call {flag : Bool} {r : Except Stop Unit}
    (h : Squared (pre ++ ⟨flag,.away r⟩ :: post) c) : Squared (pre ++ ⟨flag,.entry⟩ :: post) c := by
  have hslots := h.slots
  have hinside := h.inside
  rw [countP_at,countP_at] at hslots
  rw [countP_at] at hinside
  constructor
  · intro q hq
    rcases List.mem_append.mp hq with hq | hq
    · exact h.fit q (List.mem_append_left _ hq)
    · rcases List.mem_cons.mp hq with rfl | hq
      · exact fun _ => rfl
      · exact h.fit q (List.mem_append_right _ (List.mem_cons_of_mem _ hq))
  · rw [countP_at,countP_at]
    exact hslots
  · rw [countP_at]
    exact hinside

end Squared

namespace Office

theorem split_real {ps : List Post} {pre post : List Clerk} {w : Clerk}
    (h : ps.map Post.real = pre ++ w :: post) : ∃ pre' p post', ps = pre' ++ p :: post' ∧
      pre'.map Post.real = pre ∧ p.real = w ∧ post'.map Post.real = post := by
  obtain ⟨pre',rest,rfl,hpre,hrest⟩ := List.map_eq_append_iff.mp h
  obtain ⟨p,post',rfl,hp,hpost⟩ := List.map_eq_cons_iff.mp hrest
  exact ⟨pre',p,post',rfl,hpre,hp,hpost⟩

theorem away_of_ret {p : Post} {flag : Bool} {r : Except Stop Unit} (h : p.real = ⟨flag,.ret r⟩) :
    p = ⟨flag,.away r⟩ := by
  obtain ⟨flag',w⟩ := p
  cases w with
  | away r' =>
    cases h
    rfl
  | entry => cases h
  | lock => cases h
  | register => cases h
  | index => cases h
  | enrol => cases h
  | revoke => cases h
  | unlock => cases h

theorem attend_turns {O O' : Office} {ps : List Post} (hps : O.clerks = ps.map Post.real)
    (h : Attend O O') : ∃ pre post p p', ps = pre ++ p :: post ∧
      O'.clerks = (pre ++ p' :: post).map Post.real ∧ Turns p O.counter p' O'.counter := by
  cases h with
  | attend hc ht =>
    rw [hps] at hc
    obtain ⟨pre,p,post,rfl,rfl,rfl,rfl⟩ := split_real hc
    obtain ⟨p',rfl,hturn⟩ := Post.turns ht
    exact ⟨pre,post,p,p',rfl,by rw [List.map_append,List.map_cons],hturn⟩

theorem reach_squared {O : Office} (h : Reach O) :
    ∃ ps, O.clerks = ps.map Post.real ∧ Squared ps O.counter := by
  induction h with
  | refl => exact ⟨[],rfl,⟨by simp,rfl,rfl⟩⟩
  | tail _ hs ih =>
    obtain ⟨ps,hps,hb⟩ := ih
    cases hs with
    | hire => exact ⟨_,by rw [hps,List.map_append]; rfl,hb.hire⟩
    | call hc =>
      rw [hps] at hc
      obtain ⟨pre,p,post,rfl,rfl,hp,rfl⟩ := split_real hc
      rw [away_of_ret hp] at hb
      refine ⟨_,?_,hb.call⟩
      rw [List.map_append,List.map_cons,Window.registerWorkerThread_window]
      rfl
    | attend ha =>
      obtain ⟨pre,post,p,p',rfl,hps',ht⟩ := attend_turns hps ha
      exact ⟨_,hps',hb.turn ht⟩

def work (ps : List Post) : ℕ := (ps.map (fun p => p.window.work)).sum

theorem attended_work {O O' : Office} {ps : List Post} {n : ℕ} (hps : O.clerks = ps.map Post.real)
    (h : Attended O n O') : ∃ ps', O'.clerks = ps'.map Post.real ∧ work ps' + n ≤ work ps := by
  induction h with
  | none => exact ⟨ps,hps,le_rfl⟩
  | more _ ha ih =>
    obtain ⟨ps₁,hps₁,hw⟩ := ih
    obtain ⟨pre,post,p,p',rfl,hps',ht⟩ := attend_turns hps₁ ha
    have hp := ht.work
    refine ⟨_,hps',?_⟩
    simp only [work,List.map_append,List.map_cons,List.sum_append,List.sum_cons] at hw ⊢
    omega

theorem work_le (ps : List Post) :
    work ps ≤ 6 * (ps.map Post.real).countP (fun w => !w.idle) := by
  induction ps with
  | nil => simp [work]
  | cons p ps ih =>
    obtain ⟨flag,w⟩ := p
    rw [List.map_cons,List.countP_cons]
    cases w <;> simp [work,Window.work,Post.real,Window.code,Clerk.idle,Window.atLock,Window.atRegister,
      Window.atIndex,Window.atEnrol,Window.atRevoke,Window.atUnlock] at ih ⊢ <;> omega

end Office

namespace Post

theorem tends (p : Post) (c : Counter) (hp : p.real.idle = false)
    (hl : p.window.inside = true ∨ c.locked = false) : ∃ w c', Tends p.real c w c' := by
  obtain ⟨flag,w⟩ := p
  obtain ⟨locked,r,u⟩ := c
  cases w with
  | away _ => exact absurd hp Bool.noConfusion
  | entry => exact ⟨_,_,.get⟩
  | lock =>
    rcases hl with hl | hl
    · exact absurd hl Bool.false_ne_true
    · cases hl
      exact ⟨_,_,.lock⟩
  | register => exact ⟨_,_,.register 0⟩
  | index => exact ⟨_,_,.index 0⟩
  | enrol => exact ⟨_,_,.set⟩
  | revoke => exact ⟨_,_,.unregister⟩
  | unlock => exact ⟨_,_,.unlock⟩

theorem inside_idle {p : Post} (h : p.window.inside = true) : p.real.idle = false := by
  obtain ⟨flag,w⟩ := p
  cases w with
  | away _ => exact absurd h Bool.false_ne_true
  | entry => rfl
  | lock => rfl
  | register => rfl
  | index => rfl
  | enrol => rfl
  | revoke => rfl
  | unlock => rfl

theorem fit_once {p : Post} (hp : p.Fit) (hr : p.real.registered = true) (k : Int → Round) :
    p.real.rest ≠ .call .workerRegister k := by
  intro h
  obtain ⟨flag,w⟩ := p
  have hv := hp hr
  cases w with
  | register => exact absurd hv Bool.false_ne_true
  | away _ => cases h
  | entry => cases h
  | lock => cases h
  | index => cases h
  | enrol => cases h
  | revoke => cases h
  | unlock => cases h

theorem idle_pending {p : Post} (h : p.real.idle = true) : p.window.pending = false := by
  obtain ⟨flag,w⟩ := p
  cases w with
  | away _ => rfl
  | entry => rfl
  | lock => rfl
  | register => rfl
  | index => cases h
  | enrol => cases h
  | revoke => cases h
  | unlock => rfl

end Post

theorem Squared.live {ps : List Post} {c : Counter} (h : Squared ps c)
    (hw : ∃ p ∈ ps, p.real.idle = false) :
    ∃ p ∈ ps, p.real.idle = false ∧ (p.window.inside = true ∨ c.locked = false) := by
  cases hc : c.locked with
  | false =>
    obtain ⟨p,hp,hi⟩ := hw
    exact ⟨p,hp,hi,.inr rfl⟩
  | true =>
    have hpos : 0 < ps.countP (fun p => p.window.inside) := by
      rw [h.inside,hc]
      exact Nat.one_pos
    obtain ⟨p,hp,hin⟩ := List.countP_pos_iff.mp hpos
    exact ⟨p,hp,Post.inside_idle hin,.inl hin⟩

namespace Office

theorem slots_conserved {O : Office} (h : Reach O) : O.Accounted := by
  obtain ⟨ps,hps,hb⟩ := reach_squared h
  have hreg : O.clerks.countP Clerk.registered = ps.countP Post.registered := by
    rw [hps,List.countP_map]
    rfl
  have hpending : O.clerks.countP Clerk.pending = ps.countP (fun p => p.window.pending) := by
    rw [hps,List.countP_map]
    exact List.countP_congr (fun p _ => by rw [Function.comp_apply,p.real_pending])
  have hinside : O.clerks.countP Clerk.inside = ps.countP (fun p => p.window.inside) := by
    rw [hps,List.countP_map]
    exact List.countP_congr (fun p _ => by rw [Function.comp_apply,p.real_inside])
  constructor
  · rw [hreg,hpending]
    exact hb.slots
  · rw [hinside,hb.inside]
    exact Bool.toNat_le _
  · intro w hw
    rw [hps] at hw
    obtain ⟨p,hp,rfl⟩ := List.mem_map.mp hw
    exact Post.fit_once (hb.fit p hp)
  · intro hidle
    have hnone : ps.countP (fun p => p.window.pending) = 0 := by
      rw [List.countP_eq_zero]
      intro p hp
      rw [Post.idle_pending (hidle p.real (hps ▸ List.mem_map_of_mem hp))]
      exact Bool.false_ne_true
    rw [hreg,hb.slots,hnone,Nat.add_zero]
  · intro hw
    have hw' : ∃ p ∈ ps, p.real.idle = false := by
      obtain ⟨w,hw,hi⟩ := hw
      rw [hps] at hw
      obtain ⟨p,hp,rfl⟩ := List.mem_map.mp hw
      exact ⟨p,hp,hi⟩
    obtain ⟨p,hp,hi,hl⟩ := hb.live hw'
    obtain ⟨w,c,ht⟩ := p.tends O.counter hi hl
    obtain ⟨pre,post,rfl⟩ := List.append_of_mem hp
    exact ⟨_,.attend (hps.trans (by rw [List.map_append,List.map_cons])) ht⟩
  · intro n O' ha
    obtain ⟨ps',_,hw⟩ := attended_work hps ha
    have hle := work_le ps
    rw [← hps] at hle
    omega

theorem reach_attend {pre post : List Clerk} {w w' : Clerk} {c c' : Counter}
    (h : Reach ⟨pre ++ w :: post,c⟩) (ht : Tends w c w' c') : Reach ⟨pre ++ w' :: post,c'⟩ :=
  h.tail (.attend (.attend rfl ht))

theorem reach_locked {pre : List Clerk} {r u : ℕ} (h : Reach ⟨pre,⟨false,r,u⟩⟩) :
    Reach ⟨pre ++ [⟨false,Window.atRegister⟩],⟨true,r,u⟩⟩ := by
  have hcall : Reach ⟨pre ++ [⟨false,registerWorkerThread.prog⟩],⟨false,r,u⟩⟩ :=
    (h.tail .hire).tail (.call rfl)
  rw [Window.registerWorkerThread_window] at hcall
  exact reach_attend (reach_attend hcall .get) .lock

theorem reach_refused {pre : List Clerk} {r u : ℕ} (h : Reach ⟨pre,⟨false,r,u⟩⟩) :
    Reach ⟨pre ++ [⟨false,.ret (.ok ())⟩],⟨false,r + 1,u + 1⟩⟩ := by
  have hindex := reach_attend (reach_attend (reach_locked h) (.register (-17))) (.index (-1))
  exact reach_attend (reach_attend hindex .unregister) .unlock

theorem reach_enrolled {pre : List Clerk} {r u : ℕ} (h : Reach ⟨pre,⟨false,r,u⟩⟩) :
    Reach ⟨pre ++ [⟨true,Window.atUnlock⟩],⟨true,r + 1,u⟩⟩ :=
  reach_attend (reach_attend (reach_attend (reach_locked h) (.register 0)) (.index 3)) .set

theorem slots_conserved_refused :
    Reach ⟨[⟨false,.ret (.ok ())⟩,⟨true,Window.atUnlock⟩],⟨true,2,1⟩⟩ ∧
      Accounted ⟨[⟨false,.ret (.ok ())⟩,⟨true,Window.atUnlock⟩],⟨true,2,1⟩⟩ := by
  have h := reach_enrolled (reach_refused .refl)
  exact ⟨h,slots_conserved h⟩

end Office

end VclRs
