import VclRs.Custody.Terms
import Mathlib.Data.Finset.Basic

namespace VclRs

open Interaction Fallible

structure Roster where
  site : Thread
  workerless : Finset Thread
  touched : Bool
  failed : Bool

def unregistered : Ev → Bool
  | ⟨.workerIndex,idx⟩ => decide (idx < 0)
  | _ => false

def touches : Call → Bool
  | .sessionCreate _ _ => true
  | .sessionClose _ => true
  | c => (subject c).isSome

def flagged : Ev → Bool
  | ⟨.registeredGet,true⟩ => true
  | _ => false

def Roster.observe (home : Thread) (s : Roster) : Ev → Roster
  | ⟨.workerIndex,idx⟩ =>
    if idx < 0 then { s with workerless := insert s.site s.workerless, failed := true }
    else { s with workerless := s.workerless.erase s.site }
  | e => { s with
      site := resumed home s.site e
      touched := s.touched || touches e.op && decide (s.site ∈ s.workerless) }

def workers (home : Thread) : Contract Call Reply Roster where
  rely s e := flagged e = true → s.site ∉ s.workerless
  guar _ _ := True
  next s e := s.observe home e

instance instDecidableWorkersRely (home : Thread) (s : Roster) (e : Ev) :
    Decidable ((workers home).rely s e) :=
  inferInstanceAs (Decidable (flagged e = true → s.site ∉ s.workerless))

def Guarded {α : Type} (s : Roster) (res : Except Stop α) : Prop :=
  s.touched = false ∧ (s.failed = true → ∃ e, res = .error e)

def Ordinary : Call → Prop
  | .workerIndex => False
  | .spawnBlocking => False
  | .joinBlocking => False
  | _ => True

def Answered (home : Thread) (s : Roster) : Prop :=
  s.touched = s.failed ∧ (s.failed = false → s.site ∉ s.workerless ∧ home ∉ s.workerless)

def Pending (home : Thread) (s : Roster) : Prop :=
  s.touched = s.failed ∧ (s.failed = false → home ∉ s.workerless ∨ s.site = home)

def Registered (home : Thread) (s : Roster) : Prop :=
  Answered home s ∨ s.failed = true ∧ s.site ∈ s.workerless

section Steps

variable {home : Thread} {s : Roster} {e : Ev} {α : Type}

theorem ordinary_next (h : Ordinary e.op) : (workers home).next s e =
    { s with touched := s.touched || touches e.op && decide (s.site ∈ s.workerless) } := by
  obtain ⟨op,reply⟩ := e
  cases op <;> first
    | exact h.elim
    | rfl

theorem untouched_next (h : Ordinary e.op) (ht : touches e.op = false) :
    (workers home).next s e = s := by
  rw [ordinary_next h,ht,Bool.false_and,Bool.or_false]

theorem ordinary_answered (h : Ordinary e.op) (hs : Answered home s) :
    Answered home ((workers home).next s e) := by
  rw [ordinary_next h]
  rcases hs with ⟨heq,hfree⟩
  constructor
  · cases hf : s.failed with
    | true => simp [heq,hf]
    | false => simp [heq,hf,(hfree hf).1]
  · exact hfree

theorem created_answered {proto : Proto} {nonblocking : Bool} {rc : Int} (hs : Registered home s) :
    Answered home ((workers home).next s ⟨.sessionCreate proto nonblocking,rc⟩) := by
  rcases hs with hs | ⟨hf,hw⟩
  · exact ordinary_answered trivial hs
  · rw [ordinary_next (e := ⟨.sessionCreate proto nonblocking,rc⟩) trivial]
    constructor
    · simp [touches,hw,hf]
    · intro hn
      rw [hf] at hn
      cases hn

theorem index_registered {idx : Int} (hs : Pending home s) :
    Registered home ((workers home).next s ⟨.workerIndex,idx⟩) := by
  rcases hs with ⟨heq,hfree⟩
  have hnext : (workers home).next s ⟨.workerIndex,idx⟩ =
      if idx < 0 then { s with workerless := insert s.site s.workerless, failed := true }
      else { s with workerless := s.workerless.erase s.site } := rfl
  rw [hnext]
  by_cases hneg : idx < 0
  · rw [if_pos hneg]
    exact .inr ⟨rfl,Finset.mem_insert_self _ _⟩
  · rw [if_neg hneg]
    refine .inl ⟨heq,?_⟩
    intro hf
    refine ⟨Finset.notMem_erase _ _,?_⟩
    rcases hfree hf with hh | hh
    · exact fun hm => hh (Finset.mem_of_mem_erase hm)
    · rw [← hh]
      exact Finset.notMem_erase _ _

theorem flagged_answered (hs : Pending home s) (hw : s.site ∉ s.workerless) : Answered home s := by
  rcases hs with ⟨heq,hfree⟩
  refine ⟨heq,?_⟩
  intro hf
  rcases hfree hf with hh | hh
  · exact ⟨hw,hh⟩
  · rw [← hh]
    exact ⟨hw,hw⟩

variable {Q : α → Roster → Prop} {E : Stop → Roster → Prop}

theorem ordinary_wpe {x : Vcl α} (hx : x.Calls Ordinary) (hs : Answered home s)
    (hQ : ∀ a s', Answered home s' → Q a s') (hE : ∀ e s', Answered home s' → E e s') :
    (workers home).wpe x Q E s := by
  have h : (workers home).wpe x (fun _ => Answered home) (fun _ => Answered home) s := by
    refine (workers home).wpe_of_calls ?_ hx hs
    intro s' e hs' he _
    exact ⟨trivial,ordinary_answered he hs'⟩
  exact (workers home).wpe_mono h hQ hE

theorem untouched_wpe {c : Call} {Q : Reply c → Roster → Prop} (hc : Ordinary c)
    (ht : touches c = false) (hQ : ∀ r, Q r s) : (workers home).wpe (ffi c) Q E s := by
  refine (workers home).wpe_call_still ?_ hQ
  intro r
  exact ⟨trivial,untouched_next (e := ⟨c,r⟩) hc ht⟩

theorem registerWorkerThread_workers {Q : Unit → Roster → Prop} (hs : Pending home s)
    (hQ : ∀ s', Registered home s' → Q () s') :
    (workers home).wpe registerWorkerThread Q E s := by
  rw [registerWorkerThread,Contract.wpe_bind]
  intro registered hrely
  refine ⟨trivial,?_⟩
  rw [untouched_next (e := ⟨.registeredGet,registered⟩) trivial rfl]
  cases registered with
  | true => exact hQ s (.inl (flagged_answered hs (hrely rfl)))
  | false =>
    change (workers home).wpe (do
      ffi .registerLock
      let _ ← vppcomWorkerRegister
      let idx ← vppcomWorkerIndex
      settleRegistration idx
      ffi .registerUnlock) Q E s
    rw [Contract.wpe_bind]
    apply untouched_wpe (by trivial) rfl
    intro _
    rw [Contract.wpe_bind]
    apply untouched_wpe (by trivial) rfl
    intro rc
    rw [Contract.wpe_bind]
    intro idx _
    refine ⟨trivial,?_⟩
    have hreg : Q () ((workers home).next s ⟨.workerIndex,idx⟩) := hQ _ (index_registered hs)
    change (workers home).wpe (do
      settleRegistration idx
      ffi .registerUnlock) Q E _
    rw [Contract.wpe_bind,settleRegistration,Contract.wpe_ite]
    have hunlock : (workers home).wpe (ffi .registerUnlock) Q E
        ((workers home).next s ⟨.workerIndex,idx⟩) := untouched_wpe (by trivial) rfl (fun _ => hreg)
    split_ifs with hneg
    · exact untouched_wpe (by trivial) rfl (fun _ => hunlock)
    · exact untouched_wpe (by trivial) rfl (fun _ => hunlock)

theorem create_workers {proto : Proto} {nonblocking : Bool} {Q : Int → Roster → Prop}
    (hs : Registered home s) (hQ : ∀ rc s', Answered home s' → Q rc s') :
    (workers home).wpe (vppcomSessionCreate proto nonblocking) Q E s := by
  intro rc _
  exact ⟨trivial,hQ rc _ (created_answered hs)⟩

theorem join_workers {r : Except Stop α} (hs : Answered home s) :
    (workers home).wpe (join r) (fun _ => Answered home) (fun _ => Answered home) s := by
  rw [join,Contract.wpe_bind]
  intro j _
  have hback : Answered home ((workers home).next s ⟨.joinBlocking,j⟩) := by
    rcases hs with ⟨heq,hfree⟩
    constructor
    · change (s.touched || false) = s.failed
      rw [Bool.or_false]
      exact heq
    · intro hf
      exact ⟨(hfree hf).2,(hfree hf).2⟩
  refine ⟨trivial,?_⟩
  cases j with
  | dropped => exact hback
  | finished =>
    cases r with
    | ok a => exact hback
    | error e => exact hback

theorem spawnBlocking_workers {closure : Vcl α} (hs : Answered home s)
    (h : ∀ s', Pending home s' → (workers home).wpe closure (fun _ => Answered home)
      (fun _ => Answered home) s') :
    (workers home).wpe (spawnBlocking closure) (fun _ => Answered home)
      (fun _ => Answered home) s := by
  rw [spawnBlocking,Contract.wpe_bind]
  intro r _
  refine ⟨trivial,?_⟩
  rcases hs with ⟨heq,hfree⟩
  have htouched : ((workers home).next s ⟨.spawnBlocking,r⟩).touched = s.failed := by
    change (s.touched || false) = s.failed
    rw [Bool.or_false]
    exact heq
  cases r with
  | error e => exact ⟨htouched,hfree⟩
  | ok pool =>
    have hpending : Pending home ((workers home).next s ⟨.spawnBlocking,.ok pool⟩) :=
      ⟨htouched,fun hf => .inl (hfree hf).2⟩
    change (workers home).wpe (closure.handle join) (fun _ => Answered home)
      (fun _ => Answered home) ((workers home).next s ⟨.spawnBlocking,.ok pool⟩)
    rw [Contract.wpe_handle]
    apply (workers home).wpe_mono (h _ hpending)
    · intro a s' hs'
      exact join_workers hs'
    · intro e s' hs'
      exact join_workers hs'

theorem failed_next (s : Roster) (e : Ev) :
    ((workers home).next s e).failed = (s.failed || unregistered e) := by
  obtain ⟨op,reply⟩ := e
  cases op
  case workerIndex =>
    change (if (reply : Int) < 0 then { s with workerless := insert s.site s.workerless, failed := true }
      else { s with workerless := s.workerless.erase s.site } : Roster).failed =
        (s.failed || decide ((reply : Int) < 0))
    split_ifs with hneg <;> simp [hneg]
  all_goals exact (Bool.or_false _).symm

theorem failed_after (s : Roster) (tr : List Ev) : ((workers home).after s tr).failed = false ↔
    s.failed = false ∧ ∀ e ∈ tr, unregistered e = false := by
  induction tr generalizing s with
  | nil => simp
  | cons e tr ih =>
    rw [Contract.after_cons,ih,failed_next,Bool.or_eq_false_iff,List.forall_mem_cons,and_assoc]

end Steps

section Classes

variable {α : Type} {vep sh : Handle} {c : Call}

theorem configures_ordinary (h : Configures sh c) : Ordinary c := by
  cases h <;> trivial

theorem bindings_ordinary (h : Draws c ∨ Configures sh c) : Ordinary c := by
  rcases h with h | h
  · cases h
    trivial
  · exact configures_ordinary h

theorem transfers_ordinary (h : Transfers sh c) : Ordinary c := by
  cases h <;> trivial

theorem converses_ordinary (h : Converses vep sh c) : Ordinary c := by
  cases h with
  | configures h => exact configures_ordinary h
  | transfers h => exact transfers_ordinary h
  | drains h => cases h <;> trivial
  | sleep d => trivial

theorem waits_ordinary (h : Waits vep sh c) : Ordinary c := by
  cases h <;> trivial

theorem configured {x : Vcl α} (hx : x.Calls (Configures sh)) : x.Calls Ordinary :=
  Prog.calls_mono (fun _ => configures_ordinary) hx

theorem drainFor_ordinary (deadline : Instant) :
    (drainFor vep deadline).Calls Ordinary := by
  refine calls_loop (fun _ => ?_) _
  refine calls_bind (calls_call trivial) (fun now => ?_)
  exact calls_ite (calls_bind (calls_call trivial) (fun _ => calls_pure _)) (calls_pure _)

theorem watchSession_ordinary (events : UInt32) :
    (watchSession vep sh events).Calls Ordinary := by
  refine calls_bind (calls_call trivial) (fun rv => ?_)
  exact calls_ite (calls_bind (calls_call trivial) (fun _ => calls_err _)) (calls_pure _)

theorem holding_ordinary {body : Vcl α} (hb : body.Calls Ordinary) :
    (holding sh body).Calls Ordinary := calls_ensuring hb (dropSession_calls trivial)

end Classes

end VclRs
