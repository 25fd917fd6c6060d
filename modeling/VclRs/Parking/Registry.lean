import VclRs.Parking.Jobs

namespace VclRs

open Interaction Fallible

def enroll (W : Handle × Handle → Option NotifyId) : Ev → Handle × Handle → Option NotifyId
  | ⟨.waitersEntry vep sh,n⟩ => Function.update W (vep,sh) (some n)
  | ⟨.waitersRemove vep sh,_⟩ => Function.update W (vep,sh) none
  | _ => W

def waiters (tr : List Ev) : Handle × Handle → Option NotifyId := tr.foldl enroll (fun _ => none)

def entry : Ev → Option ((Handle × Handle) × NotifyId)
  | ⟨.waitersEntry vep sh,n⟩ => some ((vep,sh),n)
  | _ => none

def granted (e : Ev) : Option NotifyId := (entry e).map Prod.snd

def Entered (tr : List Ev) (e : Ev) : Prop :=
  (entry e).elim True (fun x => (waiters tr x.1).elim (x.2 ∉ tr.filterMap granted) (x.2 = ·))

def Vacant (tr : List Ev) (e : Ev) : Prop :=
  ∀ sh ∈ obtained e, sh ∉ recorded lease tr

instance instDecidableOptionElim {α : Type} (p : Prop) (f : α → Prop) [hp : Decidable p]
    [hf : DecidablePred f] : ∀ o : Option α, Decidable (o.elim p f)
  | none => hp
  | some a => hf a

instance instDecidableEntered (tr : List Ev) (e : Ev) : Decidable (Entered tr e) :=
  inferInstanceAs (Decidable ((entry e).elim True
    (fun x => (waiters tr x.1).elim (x.2 ∉ tr.filterMap granted) (x.2 = ·))))

instance instDecidableVacant (tr : List Ev) (e : Ev) : Decidable (Vacant tr e) :=
  @Multiset.decidableForallMultiset Handle (obtained e) _ (fun sh =>
    inferInstanceAs (Decidable (sh ∉ recorded lease tr)))

def Posts (tr : List Ev) (n : NotifyId) : Call → Prop
  | .notifyOne vep sh => waiters tr (vep,sh) = some n
  | .notifyEvery vep => ∃ sh, waiters tr (vep,sh) = some n
  | _ => False

inductive Side where
  | readable
  | writable
deriving DecidableEq, Repr

def Api.polls : Api → Option (Side × VclStream)
  | .streamPollRead st _ _ _ => some (.readable,st)
  | .streamPollWrite st _ _ _ => some (.writable,st)
  | _ => none

def keepSlot (side : Side) (st : VclStream) (slot : Option NotifyId) (x : Entry) :
    Option NotifyId :=
  match x.event with
  | ⟨.waitersEntry _ _,n⟩ => if x.kind.api.polls = some (side,st) then some n else slot
  | ⟨.waitPoll _ _,.ready _⟩ => if x.kind.api.polls = some (side,st) then none else slot
  | ⟨.waitersRemove _ _,_⟩ => if x.kind.api = .streamDrop st then none else slot
  | _ => slot

def stored (side : Side) (st : VclStream) (log : List Entry) : Option NotifyId :=
  log.foldl (keepSlot side st) none

section Folds

variable {tr : List Ev} {e : Ev} {log : List Entry} {x : Entry} {side : Side} {st : VclStream}

theorem waiters_concat (tr : List Ev) (e : Ev) : waiters (tr ++ [e]) = enroll (waiters tr) e := by
  simp [waiters,List.foldl_append]

theorem stored_concat (side : Side) (st : VclStream) (log : List Entry) (x : Entry) :
    stored side st (log ++ [x]) = keepSlot side st (stored side st log) x := by
  simp [stored,List.foldl_append]

theorem waiters_entered {vep sh : Handle} {n : NotifyId} :
    waiters (tr ++ [⟨.waitersEntry vep sh,n⟩]) (vep,sh) = some n := by
  rw [waiters_concat]
  exact Function.update_self _ _ _

theorem waiters_stay {key : Handle × Handle} {n : NotifyId} (h : waiters tr key = some n)
    (he : Entered tr e) (hr : e.op ≠ .waitersRemove key.1 key.2) :
    waiters (tr ++ [e]) key = some n := by
  rw [waiters_concat]
  obtain ⟨op,reply⟩ := e
  cases op with
  | waitersEntry vep sh =>
    change Function.update (waiters tr) (vep,sh) (some reply) key = some n
    by_cases hk : key = (vep,sh)
    · subst hk
      have hsame : (waiters tr (vep,sh)).elim (reply ∉ tr.filterMap granted) (reply = ·) := he
      rw [h] at hsame
      rw [Function.update_self]
      exact congrArg some hsame
    · rw [Function.update_of_ne hk]
      exact h
  | waitersRemove vep sh =>
    change Function.update (waiters tr) (vep,sh) none key = some n
    have hk : key ≠ (vep,sh) := by
      rintro rfl
      exact hr rfl
    rw [Function.update_of_ne hk]
    exact h
  | _ => exact h

theorem stored_cases {n : NotifyId} (h : stored side st (log ++ [x]) = some n) :
    (∃ vep sh, x.event = ⟨.waitersEntry vep sh,n⟩ ∧ x.kind.api.polls = some (side,st)) ∨
      stored side st log = some n ∧ ∀ vep sh, x.event.op = .waitersRemove vep sh →
        x.kind.api ≠ .streamDrop st := by
  rw [stored_concat] at h
  obtain ⟨k,past,op,reply⟩ := x
  cases op with
  | waitersEntry vep sh =>
    change (if k.api.polls = some (side,st) then some reply else _) = some n at h
    split_ifs at h with hp
    · cases h
      exact .inl ⟨vep,sh,rfl,hp⟩
    · exact .inr ⟨h,by rintro _ _ ⟨⟩⟩
  | waitersRemove vep sh =>
    change (if k.api = .streamDrop st then none else _) = some n at h
    split_ifs at h with hd
    exact .inr ⟨h,fun _ _ _ => hd⟩
  | waitPoll sh cx =>
    refine .inr ⟨?_,by rintro _ _ ⟨⟩⟩
    cases reply with
    | pending => exact h
    | ready r =>
      change (if k.api.polls = some (side,st) then none else _) = some n at h
      split_ifs at h with hp
      exact h
  | _ => exact .inr ⟨h,by rintro _ _ ⟨⟩⟩

end Folds

section Station

variable [Platform]

def station : System Call Reply Job (Thread × Obj) :=
  world (fun _ => True) (fun log _ e => Vacant (events log) e ∧ Entered (events log) e)

def manned : Accord station (Multiset Handle × Option Seat) where
  contract k := (gripping k.api.seat).pair seating
  init k := (handlesOf (k.api.takes.map (Prod.mk k.home)),none)
  post _ os s := Carried os s.1 ∧ True
  keeps k _ := Contract.wp_pair _ (job_grips k) (job_sits k)
  relies _ _ _ _ _ := ⟨trivial,trivial⟩

def occupancy : manned.Estate Handle where
  mark := lease
  hold s := s.1
  worth x := x.2.handles
  start _ _ := le_refl _
  act _ _ _ := le_refl _
  finish _ _ _ h := h.1

def Job.grip (k : Job) (past : List Ev) : Multiset Handle :=
  past.foldl (fun K e => (lease e).grip K) (handlesOf (k.api.takes.map (Prod.mk k.home)))

omit [Platform] in
theorem lease_obtained {e : Ev} {sh : Handle} (h : lease e = .set sh) : sh ∈ obtained e := by
  have hof {rc : Int} (h : leaseOf rc = .set sh) : sh ∈ handleIf rc := by
    rw [leaseOf] at h
    rw [handleIf]
    split_ifs at h ⊢
    cases h
    exact Multiset.mem_singleton_self _
  obtain ⟨op,reply⟩ := e
  cases op <;> first
    | exact hof h
    | cases h

theorem manned_grip (k : Job) (past : List Ev) : (manned.state k past).1 = k.grip past := by
  change (((gripping k.api.seat).pair seating).after _ past).1 = _
  rw [Contract.pair_after]
  rfl

theorem manned_seat (k : Job) (past : List Ev) :
    (manned.state k past).2 = past.foldl reseat none := by
  change (((gripping k.api.seat).pair seating).after _ past).2 = _
  rw [Contract.pair_after]
  rfl

end Station

end VclRs
