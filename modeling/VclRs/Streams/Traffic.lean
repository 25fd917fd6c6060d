import VclRs.Streams.Polling
import VclRs.Schedule
import Mathlib.Logic.Relation

namespace VclRs

open Interaction Fallible

inductive Slot where
  | empty
  | stored (cx : Option ℕ)
deriving DecidableEq, Repr

def Slot.armed : Slot → Bool
  | .empty => false
  | .stored _ => true

structure Dealings where
  slot : Slot
  taken : List UInt8
  given : List UInt8
  calls : ℕ
  refusal : Option Int
deriving DecidableEq, Repr

def Dealings.next (sh : Handle) (s : Dealings) : Ev → Dealings
  | ⟨.sessionRead sh' _,(rc,data)⟩ =>
    if sh' ≠ sh then s
    else if rc < 0 then ⟨s.slot,s.taken,s.given,s.calls,some rc⟩
    else ⟨s.slot,s.taken ++ data,s.given,s.calls + 1,none⟩
  | ⟨.sessionWrite sh' buf,rc⟩ =>
    if sh' ≠ sh then s
    else if rc < 0 then ⟨s.slot,s.taken,s.given,s.calls,some rc⟩
    else ⟨s.slot,s.taken,s.given ++ buf.take rc.toNat,s.calls + 1,none⟩
  | ⟨.waitersEntry _ _,_⟩ => ⟨.stored none,s.taken,s.given,s.calls,s.refusal⟩
  | ⟨.waitPoll _ cx,.pending⟩ => ⟨.stored (some cx),s.taken,s.given,s.calls,s.refusal⟩
  | ⟨.waitPoll _ _,.ready _⟩ => ⟨.empty,s.taken,s.given,s.calls,s.refusal⟩
  | _ => s

def Within : Ev → Prop
  | ⟨.sessionRead _ n,(rc,data)⟩ => ¬rc < 0 → data.length = rc.toNat ∧ data.length ≤ n
  | ⟨.sessionWrite _ buf,rc⟩ => ¬rc < 0 → rc.toNat ≤ buf.length
  | _ => True

def dealing (sh : Handle) : Contract Call Reply Dealings where
  rely _ := Within
  guar _ _ := True
  next := Dealings.next sh

structure Unmoved (s s' : Dealings) : Prop where
  taken : s'.taken = s.taken
  given : s'.given = s.given
  calls : s'.calls = s.calls

theorem unmoved_refl (s : Dealings) : Unmoved s s := ⟨rfl,rfl,rfl⟩

def Poised (s : Dealings) (pending : Bool) (s' : Dealings) : Prop :=
  Unmoved s s' ∧ s'.slot.armed = pending

theorem unarmed_iff {slot : Slot} : slot.armed = false ↔ slot = .empty := by
  cases slot <;> simp [Slot.armed]

def Polled {β : Type} (cx : ℕ) (s : Dealings) (ok : β → Dealings → Prop) :
    Poll (Except IoError β) × Bool → Dealings → Prop
  | (.pending,stored), s' => stored = true ∧ s'.slot = .stored (some cx) ∧ Unmoved s s'
  | (.ready (.error _),stored), s' => stored = false ∧ s'.slot = .empty ∧ Unmoved s s'
  | (.ready (.ok b),stored), s' => stored = false ∧ s'.slot = .empty ∧ ok b s'

section Polling

variable {st : VclStream} {cx : ℕ} {s s' : Dealings} {α β : Type} {io : Vcl α}
variable {settle : Except VclError α → Except IoError β} {ok : β → Dealings → Prop}
variable {E : Stop → Dealings → Prop}

theorem arm_dealing (h : Unmoved s s') :
    (dealing st.handle).wpe st.arm (fun _ => Poised s true) E s' := by
  simp only [VclStream.arm,instantNow,Contract.wpe_bind,Contract.wpe_call,Contract.wpe_pure]
  intro n _
  refine ⟨trivial,?_⟩
  intro now _
  exact ⟨trivial,⟨h.taken,h.given,h.calls⟩,rfl⟩

def Concluded (s : Dealings) (ok : β → Dealings → Prop) (r : Except IoError β) (s' : Dealings) : Prop :=
  s'.slot = .empty ∧ match r with
    | .ok b => ok b s'
    | .error _ => Unmoved s s'

theorem concluded_polled {r : Except IoError β} (h : Concluded s ok r s') :
    Polled cx s ok (.ready r,false) s' := by
  cases r with
  | ok b => exact ⟨rfl,h⟩
  | error e => exact ⟨rfl,h⟩

theorem polling_dealing {pending : Bool}
    (hio : ∀ s₁, Poised s false s₁ → (dealing st.handle).wpe (attempt io) (fun x s' =>
      (∃ e, x = .error e ∧ e.transient ∧ Unmoved s s') ∨
        (∀ e, x = .error e → ¬e.transient) ∧ Concluded s ok (settle x) s') E s₁)
    (hs : s.slot.armed = pending) :
    (dealing st.handle).wpe (st.polling cx io settle pending) (Polled cx s ok) E s := by
  refine polling_wpe (Poised s) ?_ ?_ ⟨unmoved_refl s,hs⟩
  · rintro s₁ ⟨h₁,-⟩ p -
    have hmoved (slot : Slot) : Unmoved s ⟨slot,s₁.taken,s₁.given,s₁.calls,s₁.refusal⟩ :=
      ⟨h₁.taken,h₁.given,h₁.calls⟩
    refine ⟨trivial,?_⟩
    match p with
    | .pending => exact ⟨rfl,rfl,hmoved _⟩
    | .ready (.error e) => exact ⟨rfl,rfl,hmoved _⟩
    | .ready (.ok _) => exact ⟨hmoved _,rfl⟩
  · intro s₁ h₁
    refine Contract.wpe_mono _ (hio s₁ h₁) ?_ (fun _ _ h => h)
    rintro x s₂ (⟨e,rfl,ht,hmoved⟩ | ⟨hfinal,hset⟩)
    · simp only [if_pos ht]
      exact arm_dealing hmoved
    · cases x with
      | ok x => exact concluded_polled hset
      | error e =>
        simp only [if_neg (hfinal e rfl)]
        exact concluded_polled hset

end Polling

section Polls

variable [Platform] {st : VclStream} {cx : ℕ} {s s' : Dealings} {E : Stop → Dealings → Prop}

def BytesFilled (s : Dealings) (bytes : List UInt8) (s' : Dealings) : Prop :=
  s'.given = s.given ∧ (s'.calls = s.calls + 1 ∧ s'.taken = s.taken ++ bytes ∨
    bytes = [] ∧ Unmoved s s' ∧ ∃ rc, s'.refusal = some rc ∧ fromRc rc = .closed)

def BytesReported (s : Dealings) (buf : List UInt8) (n : ℕ) (s' : Dealings) : Prop :=
  s'.taken = s.taken ∧ s'.calls = s.calls + 1 ∧ n ≤ buf.length ∧ s'.given = s.given ++ buf.take n

omit [Platform] in
theorem refused_dealing (rc : Int) (h : Poised s false s') :
    s'.slot = .empty ∧ Unmoved s ⟨s'.slot,s'.taken,s'.given,s'.calls,some rc⟩ :=
  ⟨unarmed_iff.mp h.2,h.1.taken,h.1.given,h.1.calls⟩

theorem pollRead_dealing {pending : Bool} {unfilled : List UInt8} (hs : s.slot.armed = pending) :
    (dealing st.handle).wpe (st.pollRead pending cx unfilled) (Polled cx s (BytesFilled s)) E s := by
  rw [VclStream.pollRead_eq]
  refine polling_dealing ?_ hs
  intro s₁ h₁
  apply sessionRead_wpe
  intro x hx
  refine ⟨trivial,?_,?_⟩
  · intro hrc
    have hnext : (dealing st.handle).next s₁ ⟨.sessionRead st.handle unfilled.length,x⟩ =
        ⟨s₁.slot,s₁.taken,s₁.given,s₁.calls,some x.1⟩ := by
      simp [dealing,Dealings.next,hrc]
    obtain ⟨hempty,hmoved⟩ := refused_dealing x.1 h₁
    rw [hnext]
    by_cases ht : (fromRc x.1).transient
    · exact .inl ⟨_,rfl,ht,hmoved⟩
    · refine .inr ⟨?_,hempty,?_⟩
      · rintro e ⟨⟩
        exact ht
      · rw [VclStream.readSettled]
        split_ifs with hclosed
        · exact ⟨hmoved.given,.inr ⟨rfl,hmoved,x.1,rfl,hclosed⟩⟩
        · exact hmoved
  · intro hrc
    have hnext : (dealing st.handle).next s₁ ⟨.sessionRead st.handle unfilled.length,x⟩ =
        ⟨s₁.slot,s₁.taken ++ x.2,s₁.given,s₁.calls + 1,none⟩ := by
      simp [dealing,Dealings.next,hrc]
    obtain ⟨hlen,hle⟩ : x.2.length = x.1.toNat ∧ x.2.length ≤ unfilled.length := hx hrc
    rw [hnext]
    refine .inr ⟨by simp,unarmed_iff.mp h₁.2,h₁.1.given,.inl ⟨?_,?_⟩⟩
    · exact congrArg (· + 1) h₁.1.calls
    · change s₁.taken ++ x.2 = s.taken ++ (patch unfilled x.2).take x.1.toNat
      rw [← hlen,take_patch hle,h₁.1.taken]

theorem pollWrite_dealing {pending : Bool} {buf : List UInt8} (hs : s.slot.armed = pending) :
    (dealing st.handle).wpe (st.pollWrite pending cx buf) (Polled cx s (BytesReported s buf)) E s := by
  rw [VclStream.pollWrite_eq]
  refine polling_dealing ?_ hs
  intro s₁ h₁
  apply sessionWrite_wpe
  intro rc hx
  refine ⟨trivial,?_,?_⟩
  · intro hrc
    have hnext : (dealing st.handle).next s₁ ⟨.sessionWrite st.handle buf,rc⟩ =
        ⟨s₁.slot,s₁.taken,s₁.given,s₁.calls,some rc⟩ := by
      simp [dealing,Dealings.next,hrc]
    obtain ⟨hempty,hmoved⟩ := refused_dealing rc h₁
    rw [hnext]
    by_cases ht : (fromRc rc).transient
    · exact .inl ⟨_,rfl,ht,hmoved⟩
    · refine .inr ⟨?_,hempty,hmoved⟩
      rintro e ⟨⟩
      exact ht
  · intro hrc
    have hnext : (dealing st.handle).next s₁ ⟨.sessionWrite st.handle buf,rc⟩ =
        ⟨s₁.slot,s₁.taken,s₁.given ++ buf.take rc.toNat,s₁.calls + 1,none⟩ := by
      simp [dealing,Dealings.next,hrc]
    have hle : rc.toNat ≤ buf.length := hx hrc
    rw [hnext]
    refine .inr ⟨by simp,unarmed_iff.mp h₁.2,h₁.1.taken,?_,hle,?_⟩
    · exact congrArg (· + 1) h₁.1.calls
    · exact congrArg (· ++ buf.take rc.toNat) h₁.1.given

end Polls

structure Traffic where
  readable : Slot
  writable : Slot
  taken : List UInt8
  given : List UInt8
  filled : List UInt8
  reported : List UInt8
deriving DecidableEq, Repr

namespace Traffic

def fresh : Traffic := ⟨.empty,.empty,[],[],[],[]⟩

def reading (T : Traffic) : Dealings := ⟨T.readable,T.taken,T.given,0,none⟩

def writing (T : Traffic) : Dealings := ⟨T.writable,T.taken,T.given,0,none⟩

def filledBy : Poll (Except IoError (List UInt8)) → List UInt8
  | .ready (.ok bytes) => bytes
  | .ready (.error _) => []
  | .pending => []

def reportedBy (buf : List UInt8) : Poll (Except IoError ℕ) → List UInt8
  | .ready (.ok n) => buf.take n
  | .ready (.error _) => []
  | .pending => []

def read (T : Traffic) (s : Dealings) (r : Poll (Except IoError (List UInt8))) : Traffic :=
  ⟨s.slot,T.writable,s.taken,s.given,T.filled ++ filledBy r,T.reported⟩

def wrote (T : Traffic) (s : Dealings) (buf : List UInt8) (r : Poll (Except IoError ℕ)) : Traffic :=
  ⟨T.readable,s.slot,s.taken,s.given,T.filled,T.reported ++ reportedBy buf r⟩

variable [Platform] (st : VclStream)

inductive Step : Traffic → Traffic → Prop
  | read {T : Traffic} {cx : ℕ} {unfilled : List UInt8} {tr : List Ev}
      {r : Poll (Except IoError (List UInt8))} {stored : Bool}
      (hr : (st.pollRead T.readable.armed cx unfilled).Run tr (.ok (r,stored)))
      (hw : ∀ e ∈ tr, Within e) : Step T (T.read ((dealing st.handle).after T.reading tr) r)
  | write {T : Traffic} {cx : ℕ} {buf : List UInt8} {tr : List Ev} {r : Poll (Except IoError ℕ)}
      {stored : Bool} (hr : (st.pollWrite T.writable.armed cx buf).Run tr (.ok (r,stored)))
      (hw : ∀ e ∈ tr, Within e) : Step T (T.wrote ((dealing st.handle).after T.writing tr) buf r)

def Reach : Traffic → Prop := Relation.ReflTransGen (Step st) fresh

structure Faithful (T : Traffic) : Prop where
  filled : T.filled = T.taken
  reported : T.reported = T.given
  reads : ∀ cx unfilled tr res, (st.pollRead T.readable.armed cx unfilled).Run tr res →
    (∀ e ∈ tr, Within e) → ∃ r stored, res = .ok (r,stored) ∧
      Polled cx T.reading (BytesFilled T.reading) (r,stored) ((dealing st.handle).after T.reading tr)
  writes : ∀ cx buf tr res, (st.pollWrite T.writable.armed cx buf).Run tr res →
    (∀ e ∈ tr, Within e) → ∃ r stored, res = .ok (r,stored) ∧
      Polled cx T.writing (BytesReported T.writing buf) (r,stored) ((dealing st.handle).after T.writing tr)

end Traffic

section Runs

variable [Platform] {st : VclStream} {T T' : Traffic} {cx : ℕ}

omit [Platform] in
theorem polled_run {β : Type} {x : Vcl (Poll (Except IoError β) × Bool)} {s : Dealings}
    {ok : β → Dealings → Prop} {tr : List Ev} {res : Except Stop (Poll (Except IoError β) × Bool)}
    (h : (dealing st.handle).wpe x (Polled cx s ok) (fun _ _ => False) s) (hr : x.Run tr res)
    (hw : ∀ e ∈ tr, Within e) : ∃ r stored, res = .ok (r,stored) ∧
      Polled cx s ok (r,stored) ((dealing st.handle).after s tr) := by
  have hrel : (dealing st.handle).Relied s tr := Contract.relied_of_mem _ (fun _ => hw)
  cases res with
  | error e => exact ((dealing st.handle).wpe_error h hr hrel).2.elim
  | ok x => exact ⟨x.1,x.2,rfl,((dealing st.handle).wpe_ok h hr hrel).2⟩

theorem filled_taken {s s' : Dealings} {r : Poll (Except IoError (List UInt8))} {stored : Bool}
    (h : Polled cx s (BytesFilled s) (r,stored) s') :
    s'.taken = s.taken ++ Traffic.filledBy r ∧ s'.given = s.given := by
  match r with
  | .pending =>
    obtain ⟨-,-,hmoved⟩ := h
    exact ⟨hmoved.taken.trans (List.append_nil _).symm,hmoved.given⟩
  | .ready (.error e) =>
    obtain ⟨-,-,hmoved⟩ := h
    exact ⟨hmoved.taken.trans (List.append_nil _).symm,hmoved.given⟩
  | .ready (.ok bytes) =>
    obtain ⟨-,-,hgiven,⟨-,htaken⟩ | ⟨rfl,hmoved,-⟩⟩ := h
    · exact ⟨htaken,hgiven⟩
    · exact ⟨hmoved.taken.trans (List.append_nil _).symm,hgiven⟩

omit [Platform] in
theorem reported_given {s s' : Dealings} {buf : List UInt8} {r : Poll (Except IoError ℕ)}
    {stored : Bool} (h : Polled cx s (BytesReported s buf) (r,stored) s') :
    s'.given = s.given ++ Traffic.reportedBy buf r ∧ s'.taken = s.taken := by
  match r with
  | .pending =>
    obtain ⟨-,-,hmoved⟩ := h
    exact ⟨hmoved.given.trans (List.append_nil _).symm,hmoved.taken⟩
  | .ready (.error e) =>
    obtain ⟨-,-,hmoved⟩ := h
    exact ⟨hmoved.given.trans (List.append_nil _).symm,hmoved.taken⟩
  | .ready (.ok n) =>
    obtain ⟨-,-,htaken,-,-,hgiven⟩ := h
    exact ⟨hgiven,htaken⟩

theorem accounts_step (hs : Traffic.Step st T T') (hf : T.filled = T.taken)
    (hr : T.reported = T.given) : T'.filled = T'.taken ∧ T'.reported = T'.given := by
  cases hs with
  | read hrun hw =>
    obtain ⟨r,stored,heq,hpoll⟩ := polled_run (pollRead_dealing (s := T.reading) rfl) hrun hw
    cases heq
    obtain ⟨htaken,hgiven⟩ := filled_taken hpoll
    refine ⟨?_,hr.trans hgiven.symm⟩
    change T.filled ++ _ = _
    rw [hf]
    exact htaken.symm
  | write hrun hw =>
    obtain ⟨r,stored,heq,hpoll⟩ := polled_run (pollWrite_dealing (s := T.writing) rfl) hrun hw
    cases heq
    obtain ⟨hgiven,htaken⟩ := reported_given hpoll
    refine ⟨hf.trans htaken.symm,?_⟩
    change T.reported ++ _ = _
    rw [hr]
    exact hgiven.symm

theorem accounts_reach (h : Traffic.Reach st T) : T.filled = T.taken ∧ T.reported = T.given := by
  induction h with
  | refl => exact ⟨rfl,rfl⟩
  | tail _ hs ih => exact accounts_step hs ih.1 ih.2

theorem polls_faithful (h : Traffic.Reach st T) : T.Faithful st := by
  obtain ⟨hfilled,hreported⟩ := accounts_reach h
  constructor
  · exact hfilled
  · exact hreported
  · intro cx unfilled tr res hrun hw
    exact polled_run (pollRead_dealing rfl) hrun hw
  · intro cx buf tr res hrun hw
    exact polled_run (pollWrite_dealing rfl) hrun hw

end Runs

section Resumed

def refusesRead : ℕ → (c : Call) → Reply c
  | _, .sessionRead _ _ => ((-11 : Int),[])
  | _, .waitPoll _ _ => .pending
  | _, c => obliging c

def deliversTwo : ℕ → (c : Call) → Reply c
  | _, .sessionRead _ _ => ((2 : Int),[7,8])
  | _, c => obliging c

theorem polls_faithful_resumed : ∃ T : Traffic, @Traffic.Reach host ⟨3,⟨2⟩⟩ T ∧
    T = ⟨.empty,.empty,[7,8],[],[7,8],[]⟩ ∧ @Traffic.Faithful host ⟨3,⟨2⟩⟩ T := by
  let _ := host
  have hfirst : (VclStream.pollRead ⟨3,⟨2⟩⟩ false 1 [0,0]).Run
      [⟨.sessionRead 3 2,((-11 : Int),[])⟩,⟨.waitersEntry 2 3,(0 : ℕ)⟩,⟨.instantNow,(0 : ℕ)⟩,
        ⟨.waitPoll 3 1,.pending⟩] (.ok (.pending,true)) :=
    Prog.exec_run (fun n o => (refusesRead n o,n + 1)) 5 _ 0 4 _ _ rfl
  have hsecond : (VclStream.pollRead ⟨3,⟨2⟩⟩ true 2 [0,0]).Run
      [⟨.waitPoll 3 2,.ready (.ok ())⟩,⟨.sessionRead 3 2,((2 : Int),[7,8])⟩]
      (.ok (.ready (.ok [7,8]),false)) :=
    Prog.exec_run (fun n o => (deliversTwo n o,n + 1)) 5 _ 0 2 _ _ rfl
  have hreach := (Relation.ReflTransGen.single (Traffic.Step.read (T := .fresh) hfirst
    (by simp [Within]))).tail (Traffic.Step.read hsecond (by simp [Within]))
  exact ⟨_,hreach,rfl,polls_faithful hreach⟩

end Resumed

end VclRs
