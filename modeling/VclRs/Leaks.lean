import VclRs.Settlement
import VclRs.Rehearsal

namespace VclRs

open Interaction Fallible

def Quiescent (p : Pool Call Reply Job (Thread × Obj)) : Prop :=
  p.tasks = 0 ∧ ∀ x ∈ p.objects, ∃ l, x.2 = .listener l

def strayCount (log : List Entry) : ℕ := (log.map (fun x => strayed x.kind x.event)).sum

theorem strayCount_eq_zero {log : List Entry} :
    strayCount log = 0 ↔ ∀ x ∈ log, strayed x.kind x.event = 0 := by
  induction log with
  | nil => simp [strayCount]
  | cons x log ih =>
    have hs : strayCount (x :: log) = strayed x.kind x.event + strayCount log := rfl
    rw [hs,Nat.add_eq_zero_iff,ih,List.forall_mem_cons]

section Books

variable [Platform]

def settlement : Accord streaming (Holding Thread Handle × ℕ) where
  contract := Job.settles
  init := Job.start
  post _ := Accounted
  keeps := streaming_keeps
  relies _ _ _ _ h := ⟨h,h⟩

def holdings : settlement.Book (Multiset Handle) where
  hold s := s.1.owed
  worth x := x.2.owes
  gain x := obtained x.event
  loss x := released x.event
  rel := (· ≤ ·)
  rel_refl := le_refl
  rel_trans _ _ _ := le_trans
  rel_add _ _ c h := add_le_add_left h c
  start _ _ := le_refl _
  act _ _ _ h := (owed_next h).le
  finish _ _ _ h := by
    obtain ⟨lost,ho,-⟩ := h
    rw [ho]
    exact Multiset.le_add_right _ _

omit [Platform] in
theorem counts_next {k : Job} {s : Holding Thread Handle × ℕ} {e : Ev} (h : k.settles.guar s e) :
    ((k.settles.next s e).1.owed.card - (k.settles.next s e).2 : ℤ) + (released e).card =
      (s.1.owed.card - s.2 : ℤ) + ((obtained e).card - strayed k e) := by
  have hc := congrArg Multiset.card (owed_next h)
  have hm : (k.settles.next s e).2 = s.2 + strayed k e := rfl
  rw [Multiset.card_add,Multiset.card_add] at hc
  omega

def counts : settlement.Book ℤ where
  hold s := s.1.owed.card - s.2
  worth x := x.2.owes.card
  gain x := (obtained x.event).card - strayed x.kind x.event
  loss x := (released x.event).card
  rel := (· = ·)
  rel_refl _ := rfl
  rel_trans _ _ _ := Eq.trans
  rel_add _ _ _ h := by rw [h]
  start k _ := by
    rw [← worth_card]
    exact sub_zero _
  act _ _ _ h := counts_next h
  finish _ os s h := by
    obtain ⟨lost,ho,hl⟩ := h
    rw [← worth_card,ho,Multiset.card_add]
    omega

theorem closed_le_opened {objects : Multiset (Thread × Obj)}
    {p : Pool Call Reply Job (Thread × Obj)} (ho : ∀ x ∈ objects, x.2.owes = 0)
    (h : streaming.Reach objects p) : closed (events p.log) ≤ opened (events p.log) := by
  have hc : holdings.total p + holdings.losses p.log ≤
      (objects.map holdings.worth).sum + holdings.gains p.log := holdings.conserved h
  have hz : (objects.map holdings.worth).sum = 0 := by
    apply Multiset.sum_eq_zero
    intro m hm
    obtain ⟨x,hx,rfl⟩ := Multiset.mem_map.mp hm
    exact ho x hx
  rw [hz,zero_add] at hc
  have hl : holdings.losses p.log = closed (events p.log) := by
    rw [closed,events,List.map_map]
    rfl
  have hg : holdings.gains p.log = opened (events p.log) := by
    rw [opened,events,List.map_map]
    rfl
  rw [hl,hg] at hc
  exact le_trans (Multiset.le_add_left _ _) hc

theorem counts_losses (log : List Entry) : counts.losses log = (closed (events log)).card := by
  induction log with
  | nil => rfl
  | cons x log ih =>
    have hc : closed (events (x :: log)) = released x.event + closed (events log) := rfl
    have hl : counts.losses (x :: log) = (released x.event).card + counts.losses log := rfl
    rw [hc,hl,ih,Multiset.card_add]
    push_cast
    rfl

theorem counts_gains (log : List Entry) :
    counts.gains log = (opened (events log)).card - strayCount log := by
  induction log with
  | nil => rfl
  | cons x log ih =>
    have ho : opened (events (x :: log)) = obtained x.event + opened (events log) := rfl
    have hs : strayCount (x :: log) = strayed x.kind x.event + strayCount log := rfl
    have hg : counts.gains (x :: log) =
        ((obtained x.event).card - strayed x.kind x.event : ℤ) + counts.gains log := rfl
    rw [ho,hs,hg,ih,Multiset.card_add]
    push_cast
    omega

theorem opened_card {objects : Multiset (Thread × Obj)}
    {p : Pool Call Reply Job (Thread × Obj)} (ho : ∀ x ∈ objects, x.2.owes = 0)
    (h : streaming.Reach objects p) (hq : Quiescent p) :
    (opened (events p.log)).card = (closed (events p.log)).card + strayCount p.log := by
  have hc : counts.total p + counts.losses p.log =
      (objects.map counts.worth).sum + counts.gains p.log := counts.conserved h
  have hzero (os : Multiset (Thread × Obj)) (hos : ∀ x ∈ os, x.2.owes = 0) :
      (os.map counts.worth).sum = 0 := by
    apply Multiset.sum_eq_zero
    intro m hm
    obtain ⟨x,hx,rfl⟩ := Multiset.mem_map.mp hm
    change (x.2.owes.card : ℤ) = 0
    rw [hos x hx]
    rfl
  have hidle (x : Thread × Obj) (hx : x ∈ p.objects) : x.2.owes = 0 := by
    obtain ⟨l,hl⟩ := hq.2 x hx
    rw [hl]
    rfl
  have ht : counts.total p = 0 := by
    rw [Accord.Book.total,hq.1,Multiset.map_zero,Multiset.sum_zero,hzero _ hidle,zero_add]
  rw [ht,hzero _ ho,counts_losses,counts_gains] at hc
  omega

theorem streaming_closed_iff (objects : Multiset (Thread × Obj))
    (p : Pool Call Reply Job (Thread × Obj)) (ho : ∀ x ∈ objects, x.2.owes = 0)
    (h : streaming.Reach objects p) (hq : Quiescent p) :
    ClosedOnce (events p.log) ↔ ∀ x ∈ p.log, strayed x.kind x.event = 0 := by
  have hcard := opened_card ho h hq
  have hle := closed_le_opened ho h
  rw [← strayCount_eq_zero]
  constructor
  · intro hc
    rw [hc.1] at hcard
    omega
  · intro hz
    refine ⟨Multiset.eq_of_le_of_card_le hle (by omega),?_⟩
    rintro pre ⟨post,hpre⟩
    obtain ⟨first,rest,hlog,rfl,-⟩ := List.append_eq_map_iff.mp hpre
    obtain ⟨q,hreach,hq⟩ := System.reach_prefix h ⟨rest,hlog.symm⟩
    rw [← hq]
    exact closed_le_opened ho hreach

end Books

def twoSessions (_ : ℕ) (c : Call) : Reply c :=
  match c with
  | .sessionCreate _ nonblocking => if nonblocking then (1 : Int) else (3 : Int)
  | c => obliging c

instance instDecidableAttended (e : Ev) : Decidable (Attended e) :=
  inferInstanceAs (Decidable (abandoned e = false))

def dialsAsync : Job := ⟨.streamConnectAsync (.new .unspecifiedV4 53) none ⟨9⟩ 5,0⟩
def dropsFirst : Job := ⟨.streamDrop ⟨1,⟨9⟩⟩,0⟩

theorem connectAsync_run_closed :
    ∃ p, (@streaming host).Reach {(0,.reactor ⟨9⟩)} p ∧ Quiescent p ∧
      opened (events p.log) = {1} ∧ ClosedOnce (events p.log) := by
  have h₀ : (@streaming host).Reach {(0,.reactor ⟨9⟩)} ⟨0,{(0,.reactor ⟨9⟩)},[]⟩ := .refl
  have h₁ := world_call h₀ dialsAsync {.stream ⟨1,⟨9⟩⟩} 0 twoSessions trivial rfl (by decide)
    (by decide +kernel) (by decide +kernel)
  have h₂ := world_call h₁ dropsFirst 0 0 twoSessions trivial rfl (by decide) (by decide +kernel)
    (by decide +kernel)
  refine ⟨_,h₂,⟨rfl,by simp⟩,by decide +kernel,?_⟩
  refine (@streaming_closed_iff host _ _ (by simp [Obj.owes]) h₂ ⟨rfl,by simp⟩).mpr ?_
  decide +kernel

def makesReactor : Job := ⟨.reactorNew,0⟩
def dialsBlocking : Job := ⟨.streamConnect (.new .unspecifiedV4 53) none 5 ⟨2⟩,0⟩
def dropsPooled : Job := ⟨.streamDrop ⟨3,⟨2⟩⟩,0⟩

theorem connect_run_leaks :
    ∃ p, (@streaming host).Reach 0 p ∧ Quiescent p ∧ opened (events p.log) = {2,1,3} ∧
      closed (events p.log) = {3} ∧ ¬ ClosedOnce (events p.log) := by
  have h₀ : (@streaming host).Reach 0 ⟨0,0,[]⟩ := .refl
  have h₁ := world_call h₀ makesReactor {.reactor ⟨2⟩} 0 twoSessions trivial rfl (by decide)
    (by decide +kernel) (by decide +kernel)
  have h₂ := world_call h₁ dialsBlocking {.stream ⟨3,⟨2⟩⟩} 0 twoSessions trivial rfl (by decide)
    (by decide +kernel) (by decide +kernel)
  have h₃ := world_call h₂ dropsPooled 0 0 twoSessions trivial rfl (by decide) (by decide +kernel)
    (by decide +kernel)
  refine ⟨_,h₃,⟨rfl,by simp⟩,by decide +kernel,by decide +kernel,?_⟩
  intro h
  exact absurd h.1 (by decide +kernel)

end VclRs
