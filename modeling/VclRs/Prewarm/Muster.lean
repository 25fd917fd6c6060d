import VclRs.Prewarm.Crew
import Mathlib.Data.List.Basic

namespace VclRs

open Interaction

structure Hand where
  registered : Bool
  called : Bool
  post : Option (ℕ × Bool × Shift)

namespace Hand

def station : Option (ℕ × Bool × Shift) → Station
  | none => .idle
  | some (task,arrived,s) => .busy task arrived s.code

def real (h : Hand) : PoolThread := ⟨h.registered,h.called,station h.post⟩

def busy (h : Hand) : Bool := h.post.isSome
def critical (h : Hand) : Bool := h.post.any (fun x => x.2.2.critical)
def arrived (h : Hand) : Bool := h.post.any (fun x => x.2.1)
def through (h : Hand) : Bool := h.post.any (fun x => decide (x.2.2 = .done))
def mustered (h : Hand) : Bool := h.called && h.registered

def Fit (h : Hand) : Prop := ∀ task arrived s, h.post = some (task,arrived,s) →
  (arrived = true → s = .barrier ∨ s = .done) ∧ (s = .done → arrived = true) ∧
    (s = .unlock ∨ s = .barrier ∨ s = .done → h.registered = true) ∧ (s ≠ .entry → h.called = true)

end Hand

inductive Moves (n : ℕ) : Hand → Bool → ℕ → Hand → Bool → ℕ → Prop
  | pass {called arrived locked : Bool} {task arrivals : ℕ} :
    Moves n ⟨true,called,some (task,arrived,.entry)⟩ locked arrivals
      ⟨true,true,some (task,arrived,.barrier)⟩ locked arrivals
  | seek {called arrived locked : Bool} {task arrivals : ℕ} :
    Moves n ⟨false,called,some (task,arrived,.entry)⟩ locked arrivals
      ⟨false,true,some (task,arrived,.lock)⟩ locked arrivals
  | lock {reg called arrived : Bool} {task arrivals : ℕ} :
    Moves n ⟨reg,called,some (task,arrived,.lock)⟩ false arrivals
      ⟨reg,called,some (task,arrived,.register)⟩ true arrivals
  | register {reg called arrived locked : Bool} {task arrivals : ℕ} :
    Moves n ⟨reg,called,some (task,arrived,.register)⟩ locked arrivals
      ⟨reg,called,some (task,arrived,.index)⟩ locked arrivals
  | index {reg called arrived locked : Bool} {task arrivals : ℕ} :
    Moves n ⟨reg,called,some (task,arrived,.index)⟩ locked arrivals
      ⟨reg,called,some (task,arrived,.enrol)⟩ locked arrivals
  | enrol {reg called arrived locked : Bool} {task arrivals : ℕ} :
    Moves n ⟨reg,called,some (task,arrived,.enrol)⟩ locked arrivals
      ⟨true,called,some (task,arrived,.unlock)⟩ locked arrivals
  | unlock {reg called arrived locked : Bool} {task arrivals : ℕ} :
    Moves n ⟨reg,called,some (task,arrived,.unlock)⟩ locked arrivals
      ⟨reg,called,some (task,arrived,.barrier)⟩ false arrivals
  | arrive {reg called locked : Bool} {task arrivals : ℕ} :
    Moves n ⟨reg,called,some (task,false,.barrier)⟩ locked arrivals
      ⟨reg,called,some (task,true,.barrier)⟩ locked (arrivals + 1)
  | leave {reg called locked : Bool} {task arrivals : ℕ} (h : n ≤ arrivals) :
    Moves n ⟨reg,called,some (task,true,.barrier)⟩ locked arrivals
      ⟨reg,called,some (task,true,.done)⟩ locked arrivals

theorem Hand.moves {n : ℕ} {h : Hand} {locked locked' : Bool} {arrivals arrivals' : ℕ}
    {w : PoolThread} (ha : Acts n h.real locked arrivals w locked' arrivals') :
    ∃ h', w = h'.real ∧ Moves n h locked arrivals h' locked' arrivals' := by
  obtain ⟨reg,called,post⟩ := h
  cases post with
  | none => cases ha
  | some x =>
    obtain ⟨task,arrived,s⟩ := x
    cases s with
    | entry =>
      cases ha
      cases reg with
      | true => exact ⟨_,rfl,.pass⟩
      | false => exact ⟨_,rfl,.seek⟩
    | lock =>
      cases ha
      exact ⟨_,rfl,.lock⟩
    | register =>
      cases ha
      exact ⟨_,rfl,.register⟩
    | index =>
      cases ha with
      | index idx h =>
        refine ⟨⟨reg,called,some (task,arrived,.enrol)⟩,?_,.index⟩
        simp only [if_neg h]
        rfl
    | enrol =>
      cases ha
      exact ⟨_,rfl,.enrol⟩
    | unlock =>
      cases ha
      exact ⟨_,rfl,.unlock⟩
    | barrier =>
      cases ha with
      | arrive => exact ⟨_,rfl,.arrive⟩
      | leave h => exact ⟨_,rfl,.leave h⟩
    | done => cases ha

section Moves

variable {n : ℕ} {h h' : Hand} {locked locked' : Bool} {arrivals arrivals' : ℕ}

theorem moves_fit (hm : Moves n h locked arrivals h' locked' arrivals') (hf : h.Fit) : h'.Fit := by
  intro task' arrived' s' heq
  cases hm with
  | pass | seek | lock | register | index | enrol | unlock | arrive | leave =>
    obtain ⟨harr,hdone,hreg,hcall⟩ := hf _ _ _ rfl
    cases heq
    simp_all

theorem moves_post (hm : Moves n h locked arrivals h' locked' arrivals') :
    ∃ task a s a' s', h.post = some (task,a,s) ∧ h'.post = some (task,a',s') := by
  cases hm <;> exact ⟨_,_,_,_,_,rfl,rfl⟩

theorem moves_critical (hm : Moves n h locked arrivals h' locked' arrivals')
    (hl : h.critical.toNat ≤ locked.toNat) :
    h'.critical.toNat + locked.toNat = h.critical.toNat + locked'.toNat := by
  cases hm with
  | unlock =>
    have hheld : locked.toNat = 1 := Nat.le_antisymm (Bool.toNat_le locked) hl
    rw [hheld]
    rfl
  | pass | seek | lock | register | index | enrol | arrive | leave => rfl

theorem moves_arrived (hm : Moves n h locked arrivals h' locked' arrivals') :
    h'.arrived.toNat + arrivals = h.arrived.toNat + arrivals' := by
  cases hm with
  | arrive =>
    change 1 + arrivals = 0 + (arrivals + 1)
    omega
  | pass | seek | lock | register | index | enrol | unlock | leave => rfl

theorem moves_through (hm : Moves n h locked arrivals h' locked' arrivals')
    (ht : h'.through = true) : h.through = true ∨ n ≤ arrivals' := by
  cases hm with
  | leave hn => exact .inr hn
  | pass | seek | lock | register | index | enrol | unlock | arrive => cases ht

theorem moves_mustered (hm : Moves n h locked arrivals h' locked' arrivals') :
    h.mustered.toNat ≤ h'.mustered.toNat ∧ arrivals ≤ arrivals' := by
  cases hm with
  | arrive => exact ⟨Nat.le_refl _,Nat.le_succ _⟩
  | @enrol reg called | @seek called | @pass called =>
    constructor
    · cases called <;> simp [Hand.mustered,Bool.toNat_le]
    · exact Nat.le_refl _
  | lock | register | index | unlock | leave => exact ⟨Nat.le_refl _,Nat.le_refl _⟩

end Moves

namespace Leg

def On (n spawned : ℕ) (finished : List ℕ) : Leg → Prop
  | .spawning handles left => 0 < left ∧ handles = List.range spawned ∧ spawned + left = n
  | .joining handles => spawned = n ∧ (∀ i ∈ handles, i < n) ∧ ∀ i < n, i ∈ handles ∨ i ∈ finished

variable {n spawned task : ℕ} {finished : List ℕ} {leg : Leg}

theorem on_spawn {k : ℕ → Duty} (hon : leg.On n spawned finished)
    (h : leg.code = .call .taskSpawn k) :
    ∃ leg' : Leg, leg'.code = k spawned ∧ leg'.On n (spawned + 1) finished := by
  cases leg with
  | spawning handles left =>
    obtain ⟨hpos,rfl,hsum⟩ := hon
    cases left with
    | zero => cases hpos
    | succ left =>
      cases h
      cases left with
      | zero =>
        refine ⟨.joining (List.range spawned ++ [spawned]),rfl,hsum,?_,?_⟩
        · intro i hi
          rw [← List.range_succ,List.mem_range] at hi
          omega
        · intro i hi
          rw [← List.range_succ,List.mem_range]
          omega
      | succ left =>
        refine ⟨.spawning (List.range spawned ++ [spawned]) (left + 1),rfl,Nat.succ_pos _,
          List.range_succ.symm,?_⟩
        omega
  | joining handles =>
    cases handles with
    | nil => cases h
    | cons task handles => cases h

theorem on_join {k : Except String Unit → Duty} (hon : leg.On n spawned finished)
    (h : leg.code = .call (.taskJoin task) k) (hf : task ∈ finished) :
    ∃ leg' : Leg, leg'.code = k (.ok ()) ∧ leg'.On n spawned finished := by
  cases leg with
  | spawning handles left =>
    obtain ⟨hpos,-,-⟩ := hon
    cases left with
    | zero => cases hpos
    | succ left => cases h
  | joining handles =>
    cases handles with
    | nil => cases h
    | cons first handles =>
      cases h
      obtain ⟨hn,hlt,hall⟩ := hon
      refine ⟨.joining handles,rfl,hn,?_,?_⟩
      · intro i hi
        exact hlt i (List.mem_cons_of_mem _ hi)
      · intro i hi
        rcases hall i hi with hm | hm
        · rcases List.mem_cons.mp hm with rfl | hm
          · exact .inr hf
          · exact .inl hm
        · exact .inr hm

theorem on_finish (hon : leg.On n spawned finished) : leg.On n spawned (task :: finished) := by
  cases leg with
  | spawning handles left => exact hon
  | joining handles =>
    obtain ⟨hn,hlt,hall⟩ := hon
    refine ⟨hn,hlt,?_⟩
    intro i hi
    rcases hall i hi with hm | hm
    · exact .inl hm
    · exact .inr (List.mem_cons_of_mem _ hm)

end Leg

structure Team where
  leg : Leg
  spawned : ℕ
  queue : List ℕ
  hands : List Hand
  locked : Bool
  arrivals : ℕ
  finished : List ℕ

namespace Team

def real (T : Team) : Crew where
  caller := T.leg.code
  spawned := T.spawned
  queue := T.queue
  threads := T.hands.map Hand.real
  locked := T.locked
  arrivals := T.arrivals
  finished := T.finished

structure Sound (n : ℕ) (T : Team) : Prop where
  leg : T.leg.On n T.spawned T.finished
  cover : ∀ i < T.spawned, i ∈ T.queue ∨ (∃ h ∈ T.hands, ∃ a s, h.post = some (i,a,s)) ∨
    i ∈ T.finished
  census : T.queue.length + T.hands.countP Hand.busy + T.finished.length = T.spawned
  lock : T.hands.countP Hand.critical = T.locked.toNat
  tally : T.arrivals = T.hands.countP Hand.arrived + T.finished.length
  fit : ∀ h ∈ T.hands, h.Fit
  gate : T.finished ≠ [] ∨ (∃ h ∈ T.hands, h.through = true) → n ≤ T.arrivals
  muster : n ≤ T.arrivals → n ≤ T.hands.countP Hand.mustered

end Team

theorem countP_split (f : Hand → Bool) (pre post : List Hand) (h : Hand) :
    (pre ++ h :: post).countP f = (pre ++ post).countP f + (f h).toNat := by
  cases hf : f h <;> simp [List.countP_append,hf,Nat.add_assoc]

theorem map_real_split {hands : List Hand} {pre post : List PoolThread} {w : PoolThread}
    (h : hands.map Hand.real = pre ++ w :: post) :
    ∃ hp hand hq, hands = hp ++ hand :: hq ∧ hp.map Hand.real = pre ∧ hand.real = w ∧
      hq.map Hand.real = post := by
  obtain ⟨hp,tl,rfl,hpre,htl⟩ := List.map_eq_append_iff.mp h
  obtain ⟨hand,hq,rfl,hw,hpost⟩ := List.map_eq_cons_iff.mp htl
  exact ⟨hp,hand,hq,rfl,hpre,hw,hpost⟩

end VclRs
