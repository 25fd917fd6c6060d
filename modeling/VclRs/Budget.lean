import VclRs.Footprint

namespace VclRs

open Interaction Fallible

structure Meter where
  clock : Instant
  late : Bool
  breach : Bool
  forfeits : Bool
  wrote : Bool
  attempts : ℕ

namespace Meter

def start (t : Instant) : Meter := ⟨t,false,false,false,false,0⟩

def excused (sourced : Bool) (s : Meter) : Selected → Bool
  | .elapsed => true
  | .dropped => true
  | .readFailed _ => sourced && decide (s.attempts < 8) && !s.wrote
  | _ => false

def observe (due : Instant) (sourced : Bool) (s : Meter) : Ev → Meter
  | ⟨.instantNow,t⟩ => { s with clock := t }
  | ⟨.registeredGet,_⟩ => { s with attempts := s.attempts + 1 }
  | ⟨.sessionConnect _ _,_⟩ => { s with breach := s.breach || s.late }
  | ⟨.sessionRead _ _,_⟩ => { s with breach := s.breach || s.late }
  | ⟨.sessionWrite _ _,_⟩ => { s with breach := s.breach || s.late, wrote := true }
  | ⟨.select _ _ _,(t,sel)⟩ => { s with
      clock := t
      late := decide (due < t)
      breach := s.breach || s.late
      forfeits := s.forfeits || decide (due < t) && !s.excused sourced sel }
  | ⟨.recheck _,(t,again)⟩ => { s with
      clock := t
      late := decide (due < t)
      breach := s.breach || s.late
      forfeits := s.forfeits || decide (due < t) && decide (again ≠ .dropped) }
  | _ => s

end Meter

def timeOf : Ev → Option Instant
  | ⟨.instantNow,t⟩ => some t
  | ⟨.select _ _ _,(t,_)⟩ => some t
  | ⟨.recheck _,(t,_)⟩ => some t
  | _ => none

def budget (due : Instant) (sourced : Bool) : Contract Call Reply Meter where
  rely s e := ∀ t ∈ timeOf e, s.clock ≤ t
  guar _ _ := True
  next s e := s.observe due sourced e

def WithinBudget {α : Type} (s : Meter) (res : Except Stop α) : Prop :=
  s.breach = false ∧
    (s.late = true → res = .error (.err .timeout) ∨ res = .error .dropped)

def Unmetered : Call → Prop
  | .instantNow => False
  | .registeredGet => False
  | .sessionConnect _ _ => False
  | .sessionRead _ _ => False
  | .sessionWrite _ _ => False
  | .select _ _ _ => False
  | .recheck _ => False
  | _ => True

def Early (s : Meter) : Prop := s.late = false ∧ s.breach = false ∧ s.forfeits = false

def Spent (due : Instant) (s : Meter) : Prop :=
  s.late = true ∧ s.breach = false ∧ s.forfeits = false ∧ due < s.clock

def Forfeited (s : Meter) : Prop := s.late = true ∧ s.breach = false ∧ s.forfeits = true

def Breached (s : Meter) : Prop := s.breach = true ∧ s.forfeits = true

def Afloat (s : Meter) : Prop := Early s ∨ Breached s

def Going (s : Meter) : Prop := Early s ∨ Forfeited s ∨ Breached s

def At (a : ℕ) (w : Bool) (s : Meter) : Prop := s.attempts = a ∧ s.wrote = w

def Outcome (due : Instant) (tolerant : Bool) (e : Stop) (s : Meter) : Prop :=
  Afloat s ∨
    (Spent due s ∧ (e = .err .timeout ∨ e = .dropped ∨ tolerant = true ∧ ∃ x, e = .err (.io x))) ∨
    Forfeited s ∧ tolerant = false ∧ ∃ x, e = .err (.io x)

def Settles (due : Instant) (e : Stop) (s : Meter) : Prop :=
  Afloat s ∨ (Spent due s ∧ (e = .err .timeout ∨ e = .dropped)) ∨
    Forfeited s ∧ e ≠ .err .timeout ∧ e ≠ .dropped

section Steps

variable {due : Instant} {sourced : Bool} {s : Meter} {e : Ev} {α : Type}

theorem unmetered_next (h : Unmetered e.op) : (budget due sourced).next s e = s := by
  obtain ⟨op,reply⟩ := e
  cases op <;> first
    | exact h.elim
    | rfl

theorem breached_next (h : Breached s) (e : Ev) : Breached ((budget due sourced).next s e) := by
  rcases h with ⟨hb,hf⟩
  by_cases hu : Unmetered e.op
  · rw [unmetered_next hu]
    exact ⟨hb,hf⟩
  · obtain ⟨op,reply⟩ := e
    have hor {x : Bool} (y : Bool) (hx : x = true) : (x || y) = true := by rw [hx,Bool.true_or]
    cases op <;> first
      | exact absurd trivial hu
      | exact ⟨hb,hf⟩
      | exact ⟨hor _ hb,hf⟩
      | exact ⟨hor _ hb,hor _ hf⟩

theorem outcome_settles {st : Stop} (h : Outcome due false st s) : Settles due st s := by
  rcases h with h | ⟨h,he⟩ | ⟨h,-,x,rfl⟩
  · exact .inl h
  · rcases he with he | he | ⟨hne,-⟩
    · exact .inr (.inl ⟨h,.inl he⟩)
    · exact .inr (.inl ⟨h,.inr he⟩)
    · cases hne
  · exact .inr (.inr ⟨h,by simp,by simp⟩)

variable {Q : α → Meter → Prop} {E : Stop → Meter → Prop}

theorem unmetered_wpe {x : Vcl α} (hx : x.Calls Unmetered) (hQ : ∀ a, Q a s) (hE : ∀ e, E e s) :
    (budget due sourced).wpe x Q E s := by
  refine (budget due sourced).wpe_still ?_ hx hQ hE
  intro e he
  exact ⟨trivial,unmetered_next he⟩

theorem unmetered_call {c : Call} {Q : Reply c → Meter → Prop} (hc : Unmetered c)
    (hQ : ∀ r, Q r s) : (budget due sourced).wpe (ffi c) Q E s := by
  refine (budget due sourced).wpe_call_still ?_ hQ
  intro r
  exact ⟨trivial,unmetered_next (e := ⟨c,r⟩) hc⟩

theorem breached_wpe {x : Vcl α} (hs : Breached s) (hQ : ∀ a s, Breached s → Q a s)
    (hE : ∀ e s, Breached s → E e s) : (budget due sourced).wpe x Q E s := by
  have hx : x.Calls (fun _ => True) := Prog.calls_of_forall (fun _ => trivial) x.prog
  have h : (budget due sourced).wpe x (fun _ => Breached) (fun _ => Breached) s := by
    refine (budget due sourced).wpe_of_calls ?_ hx hs
    intro s' e hs' _ _
    exact ⟨trivial,breached_next hs' e⟩
  exact (budget due sourced).wpe_mono h hQ hE

end Steps

section Waits

variable {due : Instant} {sourced : Bool} {s : Meter} {a : ℕ} {w : Bool} {r : VclReactor}

theorem spoilt_next {e : Ev} (hs : Forfeited s) (hb : ((budget due sourced).next s e).breach =
    (s.breach || s.late)) (hf : s.forfeits = true → ((budget due sourced).next s e).forfeits = true) :
    Breached ((budget due sourced).next s e) := by
  rcases hs with ⟨hl,-,hff⟩
  refine ⟨?_,hf hff⟩
  rw [hb,hl,Bool.or_true]

def Meter.elapse (due t : Instant) (excuse : Bool) (s : Meter) : Meter :=
  { s with
    clock := t
    late := decide (due < t)
    breach := s.breach || s.late
    forfeits := s.forfeits || decide (due < t) && !excuse }

theorem elapse_going (t : Instant) (x : Bool) (hs : Going s) : Afloat (s.elapse due t x) ∨
    Spent due (s.elapse due t x) ∧ x = true ∨ Forfeited (s.elapse due t x) ∧ x = false := by
  rcases hs with ⟨hl,hb,hf⟩ | ⟨hl,hb,hf⟩ | ⟨hb,hf⟩
  · by_cases ht : due < t
    · cases x with
      | true => exact .inr (.inl ⟨by simp [Spent,Meter.elapse,hl,hb,hf,ht],rfl⟩)
      | false => exact .inr (.inr ⟨by simp [Forfeited,Meter.elapse,hl,hb,hf,ht],rfl⟩)
    · exact .inl (.inl (by simp [Early,Meter.elapse,hl,hb,hf,ht]))
  · exact .inl (.inr (by simp [Breached,Meter.elapse,hl,hf]))
  · exact .inl (.inr (by simp [Breached,Meter.elapse,hb,hf]))

theorem select_next (v : Handle) (n : NotifyId) (d t : Instant) (sel : Selected) (hs : Going s)
    (ha : At a w s) :
    At a w ((budget due sourced).next s ⟨.select v n d,(t,sel)⟩) ∧
      (Afloat ((budget due sourced).next s ⟨.select v n d,(t,sel)⟩) ∨
        Spent due ((budget due sourced).next s ⟨.select v n d,(t,sel)⟩) ∧
          s.excused sourced sel = true ∨
        Forfeited ((budget due sourced).next s ⟨.select v n d,(t,sel)⟩) ∧
          s.excused sourced sel = false) := ⟨ha,elapse_going t (s.excused sourced sel) hs⟩

theorem recheck_next (n : NotifyId) (t : Instant) (again : Rechecked) (hs : Going s)
    (ha : At a w s) :
    At a w ((budget due sourced).next s ⟨.recheck n,(t,again)⟩) ∧
      (Afloat ((budget due sourced).next s ⟨.recheck n,(t,again)⟩) ∨
        Spent due ((budget due sourced).next s ⟨.recheck n,(t,again)⟩) ∧ again = .dropped ∨
        Forfeited ((budget due sourced).next s ⟨.recheck n,(t,again)⟩) ∧ again ≠ .dropped) := by
  have hnext : (budget due sourced).next s ⟨.recheck n,(t,again)⟩ = s.elapse due t (decide (again = .dropped)) := by
    cases again <;> rfl
  refine ⟨ha,?_⟩
  rw [hnext]
  rcases elapse_going t (decide (again = .dropped)) hs with h | ⟨h,hx⟩ | ⟨h,hx⟩
  · exact .inl h
  · exact .inr (.inl ⟨h,of_decide_eq_true hx⟩)
  · exact .inr (.inr ⟨h,of_decide_eq_false hx⟩)

theorem afloat_going (h : Afloat s) : Going s := by
  rcases h with h | h
  · exact .inl h
  · exact .inr (.inr h)

theorem collects_unmetered {c : Call} (h : Collects r.vep c) : Unmetered c := by
  cases h <;> trivial

theorem waitLoop_budget {n : NotifyId} {d : Instant} (hs : Going s) (ha : At a w s) :
    (budget due sourced).wpe (r.waitLoop n d) (fun _ s' => Going s' ∧ At a w s')
      (fun e s' => Outcome due (sourced && decide (a < 8) && !w) e s' ∧ At a w s') s := by
  refine waitLoop_rule (I := fun s' => Going s' ∧ At a w s') ?_ ?_ ?_ ?_ ⟨hs,ha⟩
  · rintro s₁ ⟨t,sel⟩ ⟨hs₁,ha₁⟩ _
    refine ⟨trivial,?_⟩
    obtain ⟨ha₂,hs₂⟩ : At a w ((budget due sourced).next s₁ ⟨.select r.vep n d,(t,sel)⟩) ∧ _ :=
      select_next r.vep n d t sel hs₁ ha₁
    cases sel with
    | readFailed e =>
      have hex : s₁.excused sourced (.readFailed e) = (sourced && decide (a < 8) && !w) := by
        rw [← ha₁.1,← ha₁.2]
        rfl
      rw [hex] at hs₂
      rcases hs₂ with hs₂ | ⟨hs₂,ht⟩ | ⟨hs₂,ht⟩
      · exact ⟨.inl hs₂,ha₂⟩
      · exact ⟨.inr (.inl ⟨hs₂,.inr (.inr ⟨ht,e,rfl⟩)⟩),ha₂⟩
      · exact ⟨.inr (.inr ⟨hs₂,ht,e,rfl⟩),ha₂⟩
    | notified =>
      rcases hs₂ with hs₂ | ⟨-,ht⟩ | ⟨hs₂,-⟩
      · exact ⟨afloat_going hs₂,ha₂⟩
      · cases ht
      · exact ⟨.inr (.inl hs₂),ha₂⟩
    | elapsed =>
      rcases hs₂ with hs₂ | ⟨hs₂,-⟩ | ⟨-,ht⟩
      · exact ⟨.inl hs₂,ha₂⟩
      · exact ⟨.inr (.inl ⟨hs₂,.inl rfl⟩),ha₂⟩
      · cases ht
    | dropped =>
      rcases hs₂ with hs₂ | ⟨hs₂,-⟩ | ⟨-,ht⟩
      · exact ⟨.inl hs₂,ha₂⟩
      · exact ⟨.inr (.inl ⟨hs₂,.inr (.inl rfl)⟩),ha₂⟩
      · cases ht
    | readable =>
      rcases hs₂ with hs₂ | ⟨-,ht⟩ | ⟨hs₂,-⟩
      · exact ⟨afloat_going hs₂,ha₂⟩
      · cases ht
      · exact ⟨.inr (.inl hs₂),ha₂⟩
  · intro s₁ e hs₁ he _
    rw [unmetered_next (collects_unmetered he)]
    exact ⟨trivial,hs₁⟩
  · intro s₁ x hs₁ _
    exact ⟨trivial,hs₁⟩
  · rintro s₁ ⟨t,again⟩ ⟨hs₁,ha₁⟩ _
    refine ⟨trivial,?_⟩
    obtain ⟨ha₂,hs₂⟩ : At a w ((budget due sourced).next s₁ ⟨.recheck n,(t,again)⟩) ∧ _ :=
      recheck_next n t again hs₁ ha₁
    cases again with
    | notified =>
      rcases hs₂ with hs₂ | ⟨-,ht⟩ | ⟨hs₂,-⟩
      · exact ⟨afloat_going hs₂,ha₂⟩
      · cases ht
      · exact ⟨.inr (.inl hs₂),ha₂⟩
    | elapsed =>
      rcases hs₂ with hs₂ | ⟨-,ht⟩ | ⟨hs₂,-⟩
      · exact ⟨afloat_going hs₂,ha₂⟩
      · cases ht
      · exact ⟨.inr (.inl hs₂),ha₂⟩
    | dropped =>
      rcases hs₂ with hs₂ | ⟨hs₂,-⟩ | ⟨-,ht⟩
      · exact ⟨.inl hs₂,ha₂⟩
      · exact ⟨.inr (.inl ⟨hs₂,.inr (.inl rfl)⟩),ha₂⟩
      · exact absurd rfl ht

theorem waitEvent_budget {sh : Handle} {mask : UInt32} {timeout : Duration} (hs : Going s)
    (ha : At a w s) :
    (budget due sourced).wpe (r.waitEvent sh mask timeout) (fun _ s' => Going s' ∧ At a w s')
      (fun e s' => Outcome due (sourced && decide (a < 8) && !w) e s' ∧ At a w s') s := by
  rw [VclReactor.waitEvent,Contract.wpe_bind]
  apply unmetered_call (by trivial)
  intro n
  rw [Contract.wpe_bind]
  intro now _
  refine ⟨trivial,?_⟩
  exact waitLoop_budget hs ha

end Waits

end VclRs
